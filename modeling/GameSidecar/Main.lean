import GameSidecar.Bootstrap

/-!
# The bootstrap as a program

The program takes its settings from the environment, works on the disk of the machine and writes
the lines of the bootstrap to standard error. It exits with zero only if the descriptor has been
written.
-/

namespace GameSidecar.Bootstrap

/-- The error of a file operation on the machine. -/
def FileError.ofMachine : IO.Error → FileError
  | .alreadyExists _ _ _ => .present
  | .noFileOrDirectory _ _ _ => .absent
  | .inappropriateType _ 20 _ => .notDirectory
  | .inappropriateType _ 21 _ => .isDirectory
  | .invalidArgument _ 36 _ => .nameTooLong
  | error => .unnamed 5 (toString error)

/-- An operation on the machine with its error as a value. -/
def attempt (operation : IO Unit) : IO (Except FileError Unit) := do
  match ← operation.toBaseIO with
  | .ok () => pure (.ok ())
  | .error error => pure (.error (.ofMachine error))

/-- The disk of the machine. -/
def machineDisk : Disk IO where
  isDirectory path := (System.mkFilePath [path]).isDir
  isPresent path := (System.mkFilePath [path]).pathExists
  makeDirectory path := attempt (IO.FS.createDir path)
  write path text := attempt (IO.FS.writeFile path text)

/-- The names of all settings of the bootstrap. -/
def settingNames : List String :=
  ["pf_gameserver_name", "pf_gameserver_namespace", "heartbeat_endpoint_port", "gsdk_config_file",
    "pf_shared_content_folder", "certificate_folder", "pf_server_log_directory", "pf_vm_id",
    "pf_gameserver_ports", "pf_node_internal_ip", "pf_gameserver_build_metadata", "log_level"]

/-- The settings in the environment of the machine, in small letters or in capitals. -/
def machineEnvironment : IO (List (String × String)) := do
  let spellings := settingNames.flatMap fun name =>
    [name, String.ofList (Text.capitals name.toList)]
  let found ← spellings.mapM fun name => do
    pure ((← IO.getEnv name).map fun value => (name, value))
  pure (found.filterMap id)

/-- The number with which the program exits. -/
def Exit.code : Exit → UInt32
  | .done => 0
  | .fatal | .broken => 1

end GameSidecar.Bootstrap

open GameSidecar.Bootstrap in
/-- Runs the bootstrap on the machine. -/
def main : IO UInt32 := do
  let course ← run machineDisk ⟨[], ← machineEnvironment⟩
  for line in course.lines do
    IO.eprintln s!"{line.level.name} - {line.text}"
  pure course.exit.code
