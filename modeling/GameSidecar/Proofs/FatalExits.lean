import GameSidecar.Bootstrap
import GameSidecar.Proofs.Checking
import GameSidecar.Proofs.Entries

/-!
# How the bootstrap ends

The bootstrap has three stages that can fail: the settings, the entries of ports and metadata, and
the files. It should end well without a critical line, or fatally with exactly one, which is the
last line and is about the first stage that failed.

That is so with one exception. A number of a port with more than 4300 digits passes for a number,
but it cannot be read, and nothing is said about it: the bootstrap breaks off without a critical
line. The files may behave in any way at all, so the disk is any machine that answers the four
operations on it.
-/

namespace GameSidecar.Bootstrap

namespace Settings

open GameSidecar.Settings

/-- The settings that have to be given, in their order. -/
def required : List String :=
  ["pf_gameserver_name", "pf_gameserver_namespace", "heartbeat_endpoint_port", "gsdk_config_file",
    "pf_shared_content_folder", "certificate_folder", "pf_server_log_directory", "pf_vm_id",
    "pf_gameserver_ports", "pf_node_internal_ip"]

/-- The text of a setting in an environment, empty if there is none. -/
def textIn (environment : List (String × String)) (name : String) : String :=
  ((named environment name).getLast?).getD ""

/-- The settings that an environment lacks: those that have to be given and are missing or empty. -/
def lacking (environment : List (String × String)) : List String :=
  required.filter fun name => (textIn environment name).isEmpty

/-- What is said about the level of the log in an environment, if it is none. -/
def levelObjection? (environment : List (String × String)) : Option String :=
  match Level.ofSetting (textIn environment "log_level") with
  | .ok _ => none
  | .error objection => some objection

/-- A setting as environments name it. -/
def variableName (name : String) : String :=
  String.ofList (Text.capitals name.toList)

variable (environment : List (String × String))

/-- The fault of a setting that has to be given and is missing or empty. -/
def lackFault (name : String) : Fault :=
  match (named environment name).getLast? with
  | none => ⟨[.name name], .missing, .null⟩
  | some text => ⟨[.name name], .tooShort, .string text⟩

/-- The fault of a level of the log that is none. -/
def levelFault (objection : String) : Fault :=
  ⟨[.name "log_level"], .accepted objection, .string (textIn environment "log_level")⟩

/-- The faults of the level of the log. -/
def levelFaults : List Fault :=
  (levelObjection? environment).toList.map (levelFault environment)

/-- A variable that is given more than once counts as it is given last. -/
theorem value?_environment (name : String) :
    (⟨[], environment⟩ : Sources).value? name =
      ((named environment name).getLast?).map .string := by
  simp [Sources.value?, named]

/-- A variable that is required is taken if it has a text, and else it is a fault. -/
theorem required_eq (name : String) :
    (⟨[], environment⟩ : Sources).required name Reader.nonEmptyText =
      if (textIn environment name).isEmpty then Except.error [lackFault environment name]
      else Except.ok (textIn environment name) := by
  rw [Sources.required, value?_environment, textIn, lackFault]
  cases (named environment name).getLast? with
  | none => rfl
  | some text =>
    change readNamed Reader.nonEmptyText name (.string text) = _
    simp only [readNamed, Reader.nonEmptyText, Reader.text, bind, Except.bind, Option.getD_some]
    by_cases empty : text.isEmpty
    · rw [if_pos empty, if_pos empty]
      rfl
    · rw [if_neg empty, if_neg empty]
      rfl

/-- The only fault of a variable that is required is that it is missing or empty. -/
theorem faults_required (name : String) :
    ((⟨[], environment⟩ : Sources).required name Reader.nonEmptyText).faults =
      if (textIn environment name).isEmpty then [lackFault environment name] else [] := by
  rw [required_eq]
  split <;> rfl

/-- A text that is not required is never a fault. -/
theorem optional_text (name usual : String) : ∃ text,
    (⟨[], environment⟩ : Sources).optional name Reader.text usual = Except.ok text := by
  rw [Sources.optional, value?_environment]
  cases (named environment name).getLast? with
  | none => exact ⟨usual, rfl⟩
  | some text => exact ⟨text, rfl⟩

/-- The level is that of its variable, the usual one if that is missing, or a fault. -/
theorem optional_level :
    (⟨[], environment⟩ : Sources).optional "log_level" Reader.level .usual =
      match Level.ofSetting (textIn environment "log_level") with
      | .ok level => Except.ok level
      | .error _ => Except.error (levelFaults environment) := by
  rw [Sources.optional, value?_environment, levelFaults, levelObjection?]
  cases given : (named environment "log_level").getLast? with
  | none => simp only [textIn, given]; rfl
  | some text =>
    have same : textIn environment "log_level" = text := by rw [textIn, given]; rfl
    change readNamed Reader.level "log_level" (.string text) = _
    simp only [readNamed, Reader.level, Reader.text, bind, Except.bind, same]
    cases Level.ofSetting text with
    | ok level => rfl
    | error objection =>
      change _ = Except.error [levelFault environment objection]
      rw [levelFault, same]
      rfl

/-- The faults of an environment: of all settings that it lacks, in their order, and then of the
    level of the log. -/
theorem faults_read : (read ⟨[], environment⟩).faults =
    (lacking environment).map (lackFault environment) ++ levelFaults environment := by
  have collected (names : List String) :
      (names.filter fun name => (textIn environment name).isEmpty).map (lackFault environment) =
        names.flatMap fun name =>
          if (textIn environment name).isEmpty then [lackFault environment name] else [] := by
    induction names with
    | nil => rfl
    | cons name rest inductionHypothesis =>
      rw [List.flatMap_cons, ← inductionHypothesis, List.filter_cons]
      split <;> rfl
  have metadata : ((⟨[], environment⟩ : Sources).optional "pf_gameserver_build_metadata"
      Reader.text "").faults = [] := by
    obtain ⟨text, given⟩ := optional_text environment "pf_gameserver_build_metadata" ""
    rw [given]
    rfl
  have level : ((⟨[], environment⟩ : Sources).optional "log_level" Reader.level .usual).faults =
      levelFaults environment := by
    rw [optional_level, levelFaults, levelObjection?]
    cases Level.ofSetting (textIn environment "log_level") <;> rfl
  rw [lacking, collected]
  simp only [read, Checked.faults_seq, Checked.faults_map, faults_required, metadata, level,
    required, List.flatMap_cons, List.flatMap_nil, List.append_assoc, List.append_nil]

/-- An environment that lacks nothing, and whose level of the log is one, gives settings, with the
    ports as they stand in it. -/
theorem read_eq_ok (given : lacking environment = []) (level : levelObjection? environment = none) :
    ∃ settings, read ⟨[], environment⟩ = Except.ok settings ∧
      settings.ports = textIn environment "pf_gameserver_ports" := by
  have each (name : String) (member : name ∈ required) :
      (⟨[], environment⟩ : Sources).required name Reader.nonEmptyText =
        Except.ok (textIn environment name) := by
    have nonempty : ¬(textIn environment name).isEmpty := by
      simpa using List.filter_eq_nil_iff.mp given name member
    rw [required_eq, if_neg nonempty]
  have leveled : ∃ inForce, (⟨[], environment⟩ : Sources).optional "log_level" Reader.level .usual =
      Except.ok inForce := by
    rw [optional_level]
    rw [levelObjection?] at level
    cases accepted : Level.ofSetting (textIn environment "log_level") with
    | ok inForce => exact ⟨inForce, rfl⟩
    | error objection => simp [accepted] at level
  obtain ⟨metadata, metadataGiven⟩ := optional_text environment "pf_gameserver_build_metadata" ""
  obtain ⟨inForce, levelGiven⟩ := leveled
  let text := textIn environment
  refine ⟨⟨text "pf_gameserver_name", text "pf_gameserver_namespace",
    text "heartbeat_endpoint_port", text "gsdk_config_file", text "pf_shared_content_folder",
    text "certificate_folder", text "pf_server_log_directory", text "pf_vm_id",
    text "pf_gameserver_ports", text "pf_node_internal_ip", metadata, inForce⟩, ?_, rfl⟩
  rw [read, each "pf_gameserver_name" (by decide), each "pf_gameserver_namespace" (by decide),
    each "heartbeat_endpoint_port" (by decide), each "gsdk_config_file" (by decide),
    each "pf_shared_content_folder" (by decide), each "certificate_folder" (by decide),
    each "pf_server_log_directory" (by decide), each "pf_vm_id" (by decide),
    each "pf_gameserver_ports" (by decide), each "pf_node_internal_ip" (by decide),
    metadataGiven, levelGiven]
  rfl

/-- A variable that is missing or empty is reported as lacking. -/
theorem isEmptiness_lackFault (name : String) :
    isEmptiness (lackFault environment name) = true := by
  unfold lackFault
  cases (named environment name).getLast? <;> rfl

/-- A fault of a field is reported by the name of its variable. -/
theorem environmentName_field {fault : Fault} {name : String} (field : fault.place = [.name name]) :
    environmentName fault = variableName name := by
  simp only [environmentName, field]
  rfl

/-- A variable that is missing or empty is reported by its own name. -/
theorem environmentName_lackFault (name : String) :
    environmentName (lackFault environment name) = variableName name := by
  apply environmentName_field
  unfold lackFault
  cases (named environment name).getLast? <;> rfl

/-- A level that is none is not reported as lacking. -/
theorem filter_levelFaults : (levelFaults environment).filter isEmptiness = [] := by
  unfold levelFaults
  cases levelObjection? environment <;> rfl

/-- All settings that an environment lacks are named, whatever else is wrong with it. -/
theorem objection_of_lacking (missing : lacking environment ≠ []) :
    objection (read ⟨[], environment⟩).faults =
      "Env " ++ ", ".intercalate ((lacking environment).map variableName) ++ " is empty" := by
  have empty : ((read ⟨[], environment⟩).faults.filter isEmptiness).map environmentName =
      (lacking environment).map variableName := by
    rw [faults_read, List.filter_append, filter_levelFaults, List.append_nil,
      List.filter_eq_self.mpr]
    · rw [List.map_map]
      exact List.map_congr_left fun name _ => environmentName_lackFault environment name
    · intro fault member
      obtain ⟨name, -, rfl⟩ := List.mem_map.mp member
      exact isEmptiness_lackFault environment name
  have some : ((lacking environment).map variableName).isEmpty = false := by
    simpa using missing
  simp only [objection, empty, some]
  rfl

/-- The level of the log is looked at only in an environment that lacks nothing. -/
theorem objection_of_level {about : String} (given : lacking environment = [])
    (wrong : levelObjection? environment = some about) :
    objection (read ⟨[], environment⟩).faults =
      "Env LOG_LEVEL (Value error, " ++ about ++ ") is invalid" := by
  have field : (levelFault environment about).place = [.name "log_level"] := rfl
  have level : variableName "log_level" = "LOG_LEVEL" := by decide
  have alone : (read ⟨[], environment⟩).faults = [levelFault environment about] := by
    rw [faults_read, given, levelFaults, wrong]
    rfl
  have none : [levelFault environment about].filter isEmptiness = [] := rfl
  rw [alone, objection, none]
  simp only [List.map_nil, List.isEmpty_nil, if_true, List.map_cons]
  change "Env " ++ (environmentName (levelFault environment about) ++ " (" ++
    ("Value error, " ++ about) ++ ")") ++ " is invalid" = _
  rw [environmentName_field field, level]
  exact String.ext (by simp)

end Settings

variable {σ : Type}

/-- Two steps are taken one after the other, the second one where the first has led. -/
theorem bind_apply {α β : Type} (first : StateM σ α) (next : α → StateM σ β) (state : σ) :
    (first >>= next) state = next (first state).1 (first state).2 :=
  rfl

/-- The lines on the log folder inform only. -/
theorem level_of_mem_ensureLogFolder (disk : Disk (StateM σ)) (path : String) (state : σ) :
    ∀ line ∈ (ensureLogFolder disk path state).1.1, line.level = .info := by
  rw [ensureLogFolder, bind_apply]
  cases (disk.isDirectory path state).1 with
  | true => exact List.forall_mem_nil _
  | false => exact List.forall_mem_singleton.mpr rfl

/-- The lines on the descriptor inform only. -/
theorem level_of_mem_saveDescriptor {disk : Disk (StateM σ)} {path : Path} {document : String}
    {state : σ} : ∀ line ∈ (saveDescriptor disk path document state).1.1, line.level = .info := by
  rw [saveDescriptor, bind_apply]
  cases (disk.ensure path.parent state).1 with
  | error failure => exact List.forall_mem_singleton.mpr rfl
  | ok made => exact List.forall_mem_cons.mpr ⟨rfl, List.forall_mem_singleton.mpr rfl⟩

/-- The work on files says nothing critical by itself. -/
theorem level_of_mem_place (disk : Disk (StateM σ)) (settings : Settings) (descriptor : Descriptor)
    (state : σ) : ∀ line ∈ (place disk settings descriptor state).1.1, line.level = .info := by
  have folder := level_of_mem_ensureLogFolder disk settings.logFolder state
  rw [place, bind_apply]
  generalize ensureLogFolder disk settings.logFolder state = made at folder ⊢
  obtain ⟨⟨lines, outcome⟩, after⟩ := made
  cases outcome with
  | error failure => exact folder
  | ok done =>
    intro line member
    rcases List.mem_append.mp member with member | member
    · exact folder line member
    · exact level_of_mem_saveDescriptor line member

variable (disk : Disk (StateM σ)) (state : σ) (environment : List (String × String))

/-- Faulty settings end the bootstrap with the line about them. -/
theorem run_of_faults (faulty : (Settings.read ⟨[], environment⟩).faults ≠ []) :
    run disk ⟨[], environment⟩ state =
      (⟨.fatal, .usual, [.critical (Settings.objection (Settings.read ⟨[], environment⟩).faults)]⟩,
        state) := by
  have read := Checked.eq_error faulty
  generalize (Settings.read ⟨[], environment⟩).faults = faults at read
  unfold run
  rw [read]
  rfl

section Read

variable {disk state environment} {settings : Settings}
  (read : Settings.read ⟨[], environment⟩ = Except.ok settings)

include read

/-- An entry of which nothing is said breaks the bootstrap off. -/
theorem run_of_unsaid {error : EntryError} (faulty : Descriptor.ofSettings settings = .error error)
    (unsaid : error.objection? = none) :
    run disk ⟨[], environment⟩ state =
      (⟨.broken, settings.level, Line.visible settings.level [openingLine settings]⟩, state) := by
  unfold run
  rw [read]
  dsimp only
  rw [faulty]
  dsimp only
  rw [unsaid]
  rfl

/-- A faulty entry ends the bootstrap with the line about it. -/
theorem run_of_said {error : EntryError} {about : String}
    (faulty : Descriptor.ofSettings settings = .error error)
    (said : error.objection? = some about) :
    run disk ⟨[], environment⟩ state =
      (⟨.fatal, settings.level,
        Line.visible settings.level [openingLine settings, entryLine about]⟩, state) := by
  unfold run
  rw [read]
  dsimp only
  rw [faulty]
  dsimp only
  rw [said]
  rfl

/-- A descriptor is placed, and how that goes decides how the bootstrap ends. -/
theorem run_of_described {descriptor : Descriptor}
    (described : Descriptor.ofSettings settings = .ok descriptor) :
    run disk ⟨[], environment⟩ state =
      match place disk settings descriptor state with
      | ((lines, .error failure), after) =>
        (⟨.fatal, settings.level, Line.visible settings.level
          (openingLine settings :: (lines ++ [fileLine settings failure]))⟩, after)
      | ((lines, .ok ()), after) =>
        (⟨.done, settings.level, Line.visible settings.level
          (openingLine settings :: (lines ++ [closingLine settings]))⟩, after) := by
  unfold run
  rw [read]
  dsimp only
  rw [described]
  dsimp only
  rw [bind_apply]
  obtain ⟨⟨lines, outcome⟩, after⟩ := place disk settings descriptor state
  cases outcome <;> rfl

end Read

/-- The first failure of a bootstrap, with the text of the line about it: the settings come first,
    then the entries of ports and metadata, then the files. -/
inductive FirstFailure (disk : Disk (StateM σ)) (state : σ) (environment : List (String × String)) :
    String → Prop
  | lacking (missing : Settings.lacking environment ≠ []) :
    FirstFailure disk state environment
      ("Env " ++ ", ".intercalate ((Settings.lacking environment).map Settings.variableName) ++
        " is empty")
  | level {about : String} (given : Settings.lacking environment = [])
      (wrong : Settings.levelObjection? environment = some about) :
    FirstFailure disk state environment ("Env LOG_LEVEL (Value error, " ++ about ++ ") is invalid")
  | entries {settings : Settings} {error : EntryError} {about : String}
      (read : Settings.read ⟨[], environment⟩ = Except.ok settings)
      (faulty : Descriptor.ofSettings settings = .error error)
      (said : error.objection? = some about) :
    FirstFailure disk state environment
      ("Could not parse game ports or build metadata: " ++ about)
  | files {settings : Settings} {descriptor : Descriptor} {failure : FileFailure}
      (read : Settings.read ⟨[], environment⟩ = Except.ok settings)
      (described : Descriptor.ofSettings settings = .ok descriptor)
      (failed : (place disk settings descriptor state).1.2 = .error failure) :
    FirstFailure disk state environment
      ("Could not write GSDK config file " ++ settings.descriptorFile ++ ": " ++ failure.message)

/-- The two ways in which a bootstrap should end: well and without a critical line, or fatally with
    one critical line, which comes last and is about the first failure. -/
inductive EndsProperly (disk : Disk (StateM σ)) (state : σ) (environment : List (String × String)) :
    Course → Prop
  | well {level : Level} {lines : List Line} (calm : ∀ line ∈ lines, line.level ≠ .critical)
      (never : ∀ text, ¬FirstFailure disk state environment text) :
    EndsProperly disk state environment ⟨.done, level, lines⟩
  | fatally {level : Level} {front : List Line} {text : String}
      (calm : ∀ line ∈ front, line.level ≠ .critical)
      (first : FirstFailure disk state environment text) :
    EndsProperly disk state environment ⟨.fatal, level, front ++ [.critical text]⟩

/-- What ends properly does not break off. -/
theorem EndsProperly.exit_ne_broken {disk : Disk (StateM σ)} {state : σ}
    {environment : List (String × String)} {course : Course}
    (ends : EndsProperly disk state environment course) : course.exit ≠ .broken := by
  cases ends <;> exact nofun

/-- An environment in which all is well up to the ports, and in the first faulty entry of the ports
    a number has too many digits. -/
def OverrunsIn (environment : List (String × String)) : Prop :=
  Settings.lacking environment = [] ∧ Settings.levelObjection? environment = none ∧
    Port.OverrunsText (Settings.textIn environment "pf_gameserver_ports").toList

/-- A critical line is shown at every level. -/
theorem visible_fatal (level : Level) (lines : List Line) (text : String) :
    Line.visible level (lines ++ [.critical text]) =
      Line.visible level lines ++ [.critical text] := by
  have loud : level.rank ≤ Level.critical.rank := by cases level <;> decide
  simp [Line.visible, List.filter_append, Line.critical, loud]

/-- Lines that inform are no critical ones, as far as they are shown. -/
theorem calm_visible {level : Level} {lines : List Line}
    (informs : ∀ line ∈ lines, line.level = .info) :
    ∀ line ∈ Line.visible level lines, line.level ≠ .critical := by
  intro line member
  rw [informs line (List.mem_filter.mp member).1]
  decide

/-- Lines that inform are no critical ones behind the opening line either. -/
theorem calm_opening {settings : Settings} {lines : List Line}
    (informs : ∀ line ∈ lines, line.level = .info) :
    ∀ line ∈ Line.visible settings.level (openingLine settings :: lines), line.level ≠ .critical :=
  calm_visible (List.forall_mem_cons.mpr ⟨rfl, informs⟩)

/-- Settings that are faulty end the bootstrap with the line about them. -/
theorem endsProperly_of_faults (faulty : (Settings.read ⟨[], environment⟩).faults ≠ []) :
    EndsProperly disk state environment (run disk ⟨[], environment⟩ state).1 := by
  rw [run_of_faults disk state environment faulty]
  rw [← List.nil_append [Line.critical _]]
  refine .fatally (List.forall_mem_nil _) ?_
  by_cases given : Settings.lacking environment = []
  · cases level : Settings.levelObjection? environment with
    | none => simp [Settings.faults_read, given, Settings.levelFaults, level] at faulty
    | some about =>
      rw [Settings.objection_of_level environment given level]
      exact .level given level
  · rw [Settings.objection_of_lacking environment given]
    exact .lacking given

/-- Settings of which nothing is wrong, and entries of which something is said, end the bootstrap
    with the line about them. -/
theorem endsProperly_of_said {settings : Settings} {error : EntryError} {about : String}
    (read : Settings.read ⟨[], environment⟩ = Except.ok settings)
    (faulty : Descriptor.ofSettings settings = .error error)
    (said : error.objection? = some about) :
    EndsProperly disk state environment (run disk ⟨[], environment⟩ state).1 := by
  rw [run_of_said read faulty said]
  change EndsProperly disk state environment ⟨.fatal, settings.level,
    Line.visible settings.level ([openingLine settings] ++ [entryLine about])⟩
  rw [entryLine, visible_fatal]
  exact .fatally (calm_opening (List.forall_mem_nil _)) (.entries read faulty said)

/-- With a descriptor, the files decide whether the bootstrap ends well or with the line about
    them. -/
theorem endsProperly_of_described {settings : Settings} {descriptor : Descriptor}
    (given : Settings.lacking environment = [])
    (level : Settings.levelObjection? environment = none)
    (read : Settings.read ⟨[], environment⟩ = Except.ok settings)
    (described : Descriptor.ofSettings settings = .ok descriptor) :
    EndsProperly disk state environment (run disk ⟨[], environment⟩ state).1 := by
  have informs := level_of_mem_place disk settings descriptor state
  rw [run_of_described read described]
  cases placed : place disk settings descriptor state with
  | mk result after =>
    obtain ⟨lines, outcome⟩ := result
    rw [placed] at informs
    cases outcome with
    | error failure =>
      change EndsProperly disk state environment ⟨.fatal, settings.level, Line.visible settings.level
        ((openingLine settings :: lines) ++ [fileLine settings failure])⟩
      rw [fileLine, visible_fatal]
      refine .fatally (calm_opening informs) (.files read described ?_)
      rw [placed]
    | ok done =>
      refine .well (calm_opening ?_) ?_
      · intro line member
        rcases List.mem_append.mp member with member | member
        · exact informs line member
        · exact List.mem_singleton.mp member ▸ rfl
      · intro text first
        cases first with
        | lacking missing => exact missing given
        | level _ wrong => exact nomatch level.symm.trans wrong
        | entries again faulty =>
          obtain rfl := Except.ok.inj (read.symm.trans again)
          exact nomatch described.symm.trans faulty
        | files again describedToo failed =>
          obtain rfl := Except.ok.inj (read.symm.trans again)
          obtain rfl := Except.ok.inj (described.symm.trans describedToo)
          rw [placed] at failed
          exact nomatch failed

/-- A bootstrap breaks off without a critical line over a number that is too long. -/
theorem broken_of_overrunsIn (overruns : OverrunsIn environment) :
    (run disk ⟨[], environment⟩ state).1.exit = .broken ∧
      ∀ line ∈ (run disk ⟨[], environment⟩ state).1.lines, line.level ≠ .critical := by
  obtain ⟨given, level, long⟩ := overruns
  obtain ⟨settings, read, ports⟩ := Settings.read_eq_ok environment given level
  rw [← ports] at long
  obtain ⟨error, faulty, unsaid⟩ := Descriptor.objection?_eq_none_iff.mpr long
  rw [run_of_unsaid read faulty unsaid]
  exact ⟨rfl, calm_opening (List.forall_mem_nil _)⟩

/-- A bootstrap ends properly in every environment in which no number is too long. -/
theorem endsProperly_of_not_overrunsIn (fine : ¬OverrunsIn environment) :
    EndsProperly disk state environment (run disk ⟨[], environment⟩ state).1 := by
  by_cases faulty : (Settings.read ⟨[], environment⟩).faults = []
  · obtain ⟨given, level⟩ : Settings.lacking environment = [] ∧
        Settings.levelObjection? environment = none := by
      rw [Settings.faults_read, List.append_eq_nil_iff] at faulty
      simpa [Settings.levelFaults] using faulty
    obtain ⟨settings, read, ports⟩ := Settings.read_eq_ok environment given level
    cases described : Descriptor.ofSettings settings with
    | ok descriptor =>
      exact endsProperly_of_described disk state environment given level read described
    | error error =>
      cases said : error.objection? with
      | some about => exact endsProperly_of_said disk state environment read described said
      | none =>
        have long := Descriptor.objection?_eq_none_iff.mp ⟨error, described, said⟩
        exact absurd ⟨given, level, ports ▸ long⟩ fine
  · exact endsProperly_of_faults disk state environment faulty

/-- A bootstrap ends properly, well or with one critical line at the end about its first failure,
    unless a number of a port has too many digits and nothing is wrong before it; then, and only
    then, it breaks off without a critical line. Two more things that could break it off are left
    out: a path with more missing folders than an interpreter's recursion limit allows for, and a
    setting with surrogate code points, which no text here can hold. -/
theorem endsProperly_iff_not_overrunsIn :
    (EndsProperly disk state environment (run disk ⟨[], environment⟩ state).1 ↔
      ¬OverrunsIn environment) ∧
    (((run disk ⟨[], environment⟩ state).1.exit = .broken ∧
        ∀ line ∈ (run disk ⟨[], environment⟩ state).1.lines, line.level ≠ .critical) ↔
      OverrunsIn environment) := by
  have proper := endsProperly_of_not_overrunsIn disk state environment
  have broken := broken_of_overrunsIn disk state environment
  constructor
  · refine ⟨fun ends overruns => ?_, proper⟩
    exact ends.exit_ne_broken (broken overruns).1
  · refine ⟨fun breaks => ?_, broken⟩
    by_contra fine
    exact (proper fine).exit_ne_broken breaks.1

/-- An environment in which all but the ports are given. -/
def withoutPorts : List (String × String) :=
  [("PF_GAMESERVER_NAME", "gs-1"), ("PF_GAMESERVER_NAMESPACE", "default"),
    ("HEARTBEAT_ENDPOINT_PORT", "56001"), ("GSDK_CONFIG_FILE", "config/gsdkConfig.json"),
    ("PF_SHARED_CONTENT_FOLDER", "shared"), ("CERTIFICATE_FOLDER", "certificates"),
    ("PF_SERVER_LOG_DIRECTORY", "logs"), ("PF_VM_ID", "vm"), ("PF_NODE_INTERNAL_IP", "10.0.0.4")]

/-- A variable at the end of the environment counts before all others of its name. -/
theorem textIn_append (environment : List (String × String)) (key text name : String) :
    Settings.textIn (environment ++ [(key, text)]) name =
      if Text.smallLetters key = name then text else Settings.textIn environment name := by
  by_cases same : Text.smallLetters key = name <;>
    simp [Settings.textIn, GameSidecar.Settings.named, List.filter_append, same]

/-- A list of ports that overruns does so in every environment where nothing is wrong before it. -/
theorem overrunsIn_append {ports : String} (overruns : Port.OverrunsText ports.toList) :
    OverrunsIn (withoutPorts ++ [("PF_GAMESERVER_PORTS", ports)]) := by
  have name : Text.smallLetters "PF_GAMESERVER_PORTS" = "pf_gameserver_ports" := by decide
  have some : ports ≠ "" := by
    rintro rfl
    obtain ⟨front, entry, back, split, -⟩ := overruns
    exact absurd split.symm (by simp [entries, Text.split])
  refine ⟨List.filter_eq_nil_iff.mpr fun asked member => ?_, ?_, ?_⟩
  · rw [textIn_append, name]
    split
    · simpa using some
    · have others : ∀ asked ∈ Settings.required, "pf_gameserver_ports" ≠ asked →
          ¬(Settings.textIn withoutPorts asked).isEmpty := by decide +kernel
      exact others asked member ‹_›
  · rw [Settings.levelObjection?, textIn_append, name, if_neg (by decide)]
    decide +kernel
  · rw [textIn_append, name, if_pos rfl]
    exact overruns

/-- A port whose number inside the container has one digit too many. -/
def overlongPort : String :=
  "game," ++ String.ofList (List.replicate (Port.longestNumber + 1) '1') ++ ",2"

/-- A port with a digit too many overruns. -/
theorem overrunsText_overlongPort : Port.OverrunsText overlongPort.toList := by
  have text : overlongPort.toList =
      ['g', 'a', 'm', 'e'] ++
        ',' :: (List.replicate (Port.longestNumber + 1) '1' ++ ',' :: ['2']) := by
    simp [overlongPort]
  have whole : Text.split '?' overlongPort.toList = [overlongPort.toList] :=
    Text.split_of_not_mem (by simp [text])
  have parts : Text.split ',' overlongPort.toList =
      [['g', 'a', 'm', 'e'], List.replicate (Port.longestNumber + 1) '1', ['2']] := by
    rw [text, Text.split_append (by decide), Text.split_append (by simp),
      Text.split_of_not_mem (by decide)]
  refine ⟨[], overlongPort.toList, [], ?_, List.forall_mem_nil _,
    _, _, _, parts, .inl ⟨⟨by simp, ?_⟩, by simp⟩⟩
  · rw [entries, whole]
    simp [text]
  · intro digit member
    rw [List.eq_of_mem_replicate member]
    decide

/-- An environment in which nothing is wrong but the number of a port that is one digit too long. -/
def overlong : List (String × String) :=
  withoutPorts ++ [("PF_GAMESERVER_PORTS", overlongPort)]

/-- On an empty tree that environment breaks the bootstrap off, and nothing critical is said. -/
theorem breaks_off_over_overlong :
    ¬EndsProperly (FileTree.disk []) [] overlong (run (FileTree.disk []) ⟨[], overlong⟩ []).1 ∧
      (run (FileTree.disk []) ⟨[], overlong⟩ []).1.exit = .broken ∧
      ∀ line ∈ (run (FileTree.disk []) ⟨[], overlong⟩ []).1.lines, line.level ≠ .critical := by
  have broken := broken_of_overrunsIn (FileTree.disk []) [] overlong
    (overrunsIn_append overrunsText_overlongPort)
  exact ⟨fun ends => ends.exit_ne_broken broken.1, broken⟩

end GameSidecar.Bootstrap
