import GameSidecar.Bootstrap.Descriptor
import GameSidecar.Bootstrap.Disk

/-!
# The bootstrap

Before the game starts, the descriptor is made of the environment and written, and the folder for
the logs of the game is made. The first stage that fails ends the bootstrap with one critical
line: the settings, then ports and metadata, then the files.
-/

namespace GameSidecar.Bootstrap

/-- How the bootstrap ends. -/
inductive Exit
  | done
  | fatal
  | broken
  deriving Repr, DecidableEq

/-- A course of the bootstrap: how it ends, the level of the log in force then, and its lines. -/
structure Course where
  exit : Exit
  level : Level
  lines : List Line
  deriving Repr, DecidableEq

/-- The line that opens the work with valid settings. -/
def openingLine (settings : Settings) : Line :=
  .info s!"[GSDK] Preparing GSDK config for GameServer {settings.serverNamespace}/{settings.serverName}"

/-- The line that closes a successful bootstrap. -/
def closingLine (settings : Settings) : Line :=
  .info s!"[GSDK] GSDK config written to {settings.descriptorFile}"

/-- The line on faulty settings. -/
def settingsLine (faults : List Fault) : Line :=
  .critical (Settings.objection faults)

/-- The line on faulty ports or metadata. -/
def entryLine (objection : String) : Line :=
  .critical s!"Could not parse game ports or build metadata: {objection}"

/-- The line on a file operation that failed. -/
def fileLine (settings : Settings) (failure : FileFailure) : Line :=
  .critical s!"Could not write GSDK config file {settings.descriptorFile}: {failure.message}"

variable {m : Type → Type} [Monad m]

/-- The folder for the logs of the game, and the lines about it. -/
def ensureLogFolder (disk : Disk m) (path : String) :
    m (List Line × Except FileFailure Unit) := do
  let lines ←
    if ← disk.isDirectory path then pure []
    else pure [Line.info s!"[GSDK] Creating server log directory {path}"]
  pure (lines, ← disk.ensureAsGiven path)

/-- The descriptor in its file, and the lines about it. -/
def saveDescriptor (disk : Disk m) (path : Path) (document : String) :
    m (List Line × Except FileFailure Unit) := do
  let folderLine := Line.info s!"[GSDK] Creating folder(s) for {path.text}"
  match ← disk.ensure path.parent with
  | .error failure => pure ([folderLine], .error failure)
  | .ok () =>
    let fileLine := Line.info s!"[GSDK] Saving GSDK JSON to file {path.text}"
    pure ([folderLine, fileLine], ← disk.save path document)

/-- The work on files: first the folder for the logs, then the descriptor. -/
def place (disk : Disk m) (settings : Settings) (descriptor : Descriptor) :
    m (List Line × Except FileFailure Unit) := do
  match ← ensureLogFolder disk settings.logFolder with
  | (lines, .error failure) => pure (lines, .error failure)
  | (lines, .ok ()) =>
    let (more, result) ←
      saveDescriptor disk (.ofText settings.descriptorFile) descriptor.document
    pure (lines ++ more, result)

/-- The whole bootstrap. Lines below the level in force are left out; until the settings are read
    the usual level is in force. -/
def run (disk : Disk m) (sources : GameSidecar.Settings.Sources) : m Course := do
  match Settings.read sources with
  | Except.error faults => pure ⟨.fatal, .usual, [settingsLine faults]⟩
  | Except.ok settings =>
    let course (exit : Exit) (lines : List Line) : Course :=
      ⟨exit, settings.level, Line.visible settings.level (openingLine settings :: lines)⟩
    match Descriptor.ofSettings settings with
    | .error error =>
      match error.objection? with
      | some objection => pure (course .fatal [entryLine objection])
      | none => pure (course .broken [])
    | .ok descriptor =>
      match ← place disk settings descriptor with
      | (lines, .error failure) => pure (course .fatal (lines ++ [fileLine settings failure]))
      | (lines, .ok ()) => pure (course .done (lines ++ [closingLine settings]))

end GameSidecar.Bootstrap
