import GameSidecar.Json.Lookup

/-!
# Records

The API server keeps two records of one name for a game: the game server itself, with the state
and the session that the allocator writes into its status, and a detail record with the players
in its specification. Only a few of their fields are read, and none is trusted to be there or to
have its type.
-/

namespace GameSidecar

/-- The kinds of record. -/
inductive Kind
  | gameServer
  | gameServerDetail
  deriving Repr, DecidableEq, Inhabited

namespace Kind

/-- The name of a kind. -/
def name : Kind → String
  | .gameServer => "GameServer"
  | .gameServerDetail => "GameServerDetail"

/-- The name of a kind in the paths of the API. -/
def plural : Kind → String
  | .gameServer => "gameservers"
  | .gameServerDetail => "gameserverdetails"

/-- The kind of a name. -/
def ofName? (text : String) : Option Kind :=
  [Kind.gameServer, .gameServerDetail].find? fun kind => kind.name == text

/-- The kind that a value names, or what is said about it. -/
def read (value : Json) : Except String Kind :=
  match value.string?.bind ofName? with
  | some kind => .ok kind
  | none => .error s!"{value.quoted} is not a valid ResourceKind"

/-- A kind is told apart by its name. -/
theorem ofName?_name (kind : Kind) : ofName? kind.name = some kind := by
  cases kind <;> decide

end Kind

/-- The coordinates of a record. -/
structure Target where
  kind : Kind
  namespaceName : String
  name : String
  deriving Repr, DecidableEq

/-- A target as log lines name it. -/
def Target.describe (target : Target) : String :=
  s!"{target.kind.name} {target.namespaceName}/{target.name}"

namespace Record

open Json (Lookup)

/-- The name of a record, empty if it has none. -/
def name (record : Json) : String :=
  (record.lookupString ["metadata", "name"]).value?.getD ""

/-- The namespace of a record, empty if it has none. -/
def namespaceName (record : Json) : String :=
  (record.lookupString ["metadata", "namespace"]).value?.getD ""

/-- The version of a record, if it is a text. -/
def version? (record : Json) : Option String :=
  (record.lookupString ["metadata", "resourceVersion"]).value?

/-- The state in the status of a game server. -/
def state (record : Json) : Lookup String :=
  record.lookupString ["status", "state"]

/-- The health in the status of a game server. -/
def health (record : Json) : Lookup String :=
  record.lookupString ["status", "health"]

/-- The identity of the session in the status of a game server. -/
def sessionId (record : Json) : Lookup String :=
  record.lookupString ["status", "sessionID"]

/-- The cookie of the session in the status of a game server. -/
def sessionCookie (record : Json) : Lookup String :=
  record.lookupString ["status", "sessionCookie"]

/-- The players whom a detail record names for the start of the session. -/
def initialPlayers (record : Json) : Lookup (List String) :=
  record.lookupStrings ["spec", "initialPlayers"]

end Record

end GameSidecar
