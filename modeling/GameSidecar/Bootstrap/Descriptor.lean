import GameSidecar.Bootstrap.Metadata
import GameSidecar.Bootstrap.Port
import GameSidecar.Bootstrap.Settings
import GameSidecar.Json.Writer

/-!
# The descriptor

The game finds its heartbeat endpoint, its folders, its ports and the build metadata in one JSON
document, the descriptor. It is made of the settings alone.
-/

namespace GameSidecar.Bootstrap

/-- What the game is told about its surroundings. -/
structure Descriptor where
  heartbeatEndpoint : String
  sessionHost : String
  machine : String
  logFolder : String
  certificateFolder : String
  sharedFolder : String
  metadata : OrderedMap String String
  ports : List Port
  address : String
  deriving Repr, DecidableEq

namespace Descriptor

/-- The descriptor that settings give. Ports are read before the metadata. -/
def ofSettings (settings : Settings) : Except EntryError Descriptor := do
  let ports ← Port.readAll settings.ports.toList
  let metadata ← Metadata.read settings.metadata.toList
  pure {
    heartbeatEndpoint := s!"{settings.nodeAddress}:{settings.heartbeatPort}"
    sessionHost := settings.serverName
    machine := settings.machine
    logFolder := settings.logFolder
    certificateFolder := settings.certificateFolder
    sharedFolder := settings.sharedFolder
    metadata
    ports
    address := settings.nodeAddress }

/-- A map of texts as a value. -/
def textMap (map : OrderedMap String String) : Json :=
  .object (map.map fun entry => (entry.1, .string entry.2))

/-- The descriptor as a value. The number of the instance and the domain name are fixed. -/
def toJson (descriptor : Descriptor) : Json :=
  .object [
    ("heartbeatEndpoint", .string descriptor.heartbeatEndpoint),
    ("sessionHostId", .string descriptor.sessionHost),
    ("vmId", .string descriptor.machine),
    ("logFolder", .string descriptor.logFolder),
    ("certificateFolder", .string descriptor.certificateFolder),
    ("sharedContentFolder", .string descriptor.sharedFolder),
    ("buildMetadata", textMap descriptor.metadata),
    ("gamePorts", textMap (Port.byName descriptor.ports)),
    ("publicIpV4Address", .string descriptor.address),
    ("gameServerConnectionInfo", .object [
      ("publicIpV4Address", .string descriptor.address),
      ("gamePortsConfiguration", .array (descriptor.ports.map Port.toJson))]),
    ("serverInstanceNumber", .int 0),
    ("fullyQualifiedDomainName", .string "NOT_APPLICABLE")]

/-- The descriptor as the game reads it. -/
def document (descriptor : Descriptor) : String :=
  descriptor.toJson.document

end Descriptor

end GameSidecar.Bootstrap
