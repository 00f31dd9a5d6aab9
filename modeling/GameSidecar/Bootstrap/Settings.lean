import GameSidecar.Settings.Field

/-!
# Settings of the bootstrap

All that the descriptor is made of comes from the environment. Everything but the metadata and the
level of the log has to be given and must not be empty.
-/

namespace GameSidecar.Bootstrap

/-- What the bootstrap is configured with. -/
structure Settings where
  serverName : String
  serverNamespace : String
  heartbeatPort : String
  descriptorFile : String
  sharedFolder : String
  certificateFolder : String
  logFolder : String
  machine : String
  ports : String
  nodeAddress : String
  metadata : String
  level : Level
  deriving Repr, DecidableEq

namespace Settings

open GameSidecar.Settings
open GameSidecar.Settings.Reader

/-- The settings that sources give, or all faulty fields in order. -/
def read (sources : Sources) : Checked Settings :=
  Settings.mk <$> sources.required "pf_gameserver_name" nonEmptyText
    <*> sources.required "pf_gameserver_namespace" nonEmptyText
    <*> sources.required "heartbeat_endpoint_port" nonEmptyText
    <*> sources.required "gsdk_config_file" nonEmptyText
    <*> sources.required "pf_shared_content_folder" nonEmptyText
    <*> sources.required "certificate_folder" nonEmptyText
    <*> sources.required "pf_server_log_directory" nonEmptyText
    <*> sources.required "pf_vm_id" nonEmptyText
    <*> sources.required "pf_gameserver_ports" nonEmptyText
    <*> sources.required "pf_node_internal_ip" nonEmptyText
    <*> sources.optional "pf_gameserver_build_metadata" text ""
    <*> sources.optional "log_level" Reader.level .usual

/-- Whether a fault means that a setting is empty or missing. -/
def isEmptiness (fault : Fault) : Bool :=
  fault.rule = .missing || fault.rule = .tooShort

/-- The name of a setting in the environment. -/
def environmentName (fault : Fault) : String :=
  let names := fault.place.map fun step =>
    match step with
    | .name name => name
    | .index index => String.ofList (Decimal.write index)
  String.ofList (Text.capitals (".".intercalate names).toList)

/-- What is said about faulty settings: all empty ones, or else all invalid ones. -/
def objection (faults : List Fault) : String :=
  let empty := (faults.filter isEmptiness).map environmentName
  let invalid := faults.map fun fault => s!"{environmentName fault} ({fault.rule.message})"
  if empty.isEmpty then
    let listed := ", ".intercalate invalid
    s!"Env {listed} is invalid"
  else
    let listed := ", ".intercalate empty
    s!"Env {listed} is empty"

end Settings

end GameSidecar.Bootstrap
