import GameSidecar.Settings.Field

/-!
# Settings of the sidecar

The name and the namespace of the game server have to be given; everything else has a usual value.
All faulty fields are reported, in the order of the fields.
-/

namespace GameSidecar

/-- What the sidecar is configured with. Times are in seconds. -/
structure Settings where
  serverName : String
  serverNamespace : String
  level : Level
  host : String
  port : Int
  showsHeartbeats : Bool
  group : String
  version : String
  requestTimeout : Double
  streamLifetime : Int
  longestWait : Double
  deriving Repr, DecidableEq

namespace Settings

open Reader

/-- The usual values, without a server. -/
def usual : Settings where
  serverName := ""
  serverNamespace := ""
  level := .usual
  host := "localhost"
  port := 56001
  showsHeartbeats := false
  group := "mps.playfab.com"
  version := "v1alpha1"
  requestTimeout := .ofInt 10
  streamLifetime := 300
  longestWait := .ofInt 30

/-- The settings that sources give, or all faulty fields. -/
def read (sources : Sources) : Checked Settings :=
  Settings.mk <$> sources.required "pf_gameserver_name" nonEmptyText
    <*> sources.required "pf_gameserver_namespace" nonEmptyText
    <*> sources.optional "log_level" Reader.level usual.level
    <*> sources.optional "sidecar_host" text usual.host
    <*> sources.optional "sidecar_port" integer usual.port
    <*> sources.optional "log_every_heartbeat" truth usual.showsHeartbeats
    <*> sources.optional "crd_group" text usual.group
    <*> sources.optional "crd_version" text usual.version
    <*> sources.optional "k8s_request_timeout" number usual.requestTimeout
    <*> sources.optional "watch_timeout_seconds" integer usual.streamLifetime
    <*> sources.optional "watch_retry_max_wait" number usual.longestWait

/-- The settings as a map of the names of the fields. -/
def toJson (settings : Settings) : Json :=
  .object [
    ("pf_gameserver_name", .string settings.serverName),
    ("pf_gameserver_namespace", .string settings.serverNamespace),
    ("log_level", .string settings.level.name),
    ("sidecar_host", .string settings.host),
    ("sidecar_port", .int settings.port),
    ("log_every_heartbeat", .bool settings.showsHeartbeats),
    ("crd_group", .string settings.group),
    ("crd_version", .string settings.version),
    ("k8s_request_timeout", .real settings.requestTimeout),
    ("watch_timeout_seconds", .int settings.streamLifetime),
    ("watch_retry_max_wait", .real settings.longestWait)]

end Settings

end GameSidecar
