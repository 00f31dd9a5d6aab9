import GameSidecar.Settings

/-!
# The launch of the service

The settings decide under which address the service is reached and how much it logs. When the
service starts, it looks for a way to the API server: from inside the cluster, or else by the
configuration of a developer. Without any it does not start.
-/

namespace GameSidecar

/-- What the sidecar serves under: its title, its address, and the level of its log lines. -/
structure Launch where
  title : String
  settings : Settings
  host : String
  port : Int
  level : Level
  deriving Repr, DecidableEq

namespace Launch

/-- The title of the service. -/
def serviceTitle : String :=
  "Game Server Sidecar"

/-- The launch that settings ask for. -/
def ofSettings (settings : Settings) : Launch :=
  ⟨serviceTitle, settings, settings.host, settings.port, settings.level⟩

/-- The level of the server's own log lines, in small letters. -/
def serverLevel (launch : Launch) : String :=
  Text.smallLetters launch.level.name

end Launch

/-- The way to the API server that was found. -/
inductive Access
  | inside
  | development
  deriving Repr, DecidableEq

namespace Access

/-- The line on a way that was found. -/
def line : Access → Line
  | .inside => .info "Loaded in-cluster Kubernetes configuration"
  | .development => .info "Loaded kubeconfig for development"

/-- The line on the failure to find any way, with its reason. -/
def failureLine (reason : String) : Line :=
  .error s!"Failed to load Kubernetes config: {reason}"

/-- What is said when no way was found. -/
def objection : String :=
  "Cannot load Kubernetes configuration"

end Access

namespace Launch

/-- The line on the start of the service. -/
def startLine (settings : Settings) : Line :=
  .info s!"Starting sidecar for GameServer {settings.serverNamespace}/{settings.serverName}"

/-- The line on the end of the service. -/
def stopLine : Line :=
  .info "Allocation watch stopped"

end Launch

end GameSidecar
