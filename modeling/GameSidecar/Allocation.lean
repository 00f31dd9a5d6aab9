import GameSidecar.Api
import GameSidecar.Session

/-!
# The allocation

The allocator moves a game server from standing by to active and writes the session into its
status. That edge occurs once: its session is completed by the players of the detail record and
published, and from then on no update counts.
-/

namespace GameSidecar

/-- The identity and the cookie of a session. -/
structure Credentials where
  sessionId : String
  sessionCookie : String
  deriving Repr, DecidableEq

/-- Who waits for the allocation of a game server: whether it has happened, and the session for
    which the detail record is being read. -/
structure Allocator where
  namespaceName : String
  name : String
  allocated : Bool := false
  reading : Option Credentials := none
  deriving Repr, DecidableEq

namespace Allocator

/-- What is done on an update. -/
inductive Action
  | log (line : Line)
  | read (target : Target)
  | publish (session : Session)
  | stop
  deriving Repr

open Json (Lookup)

/-- The game server that is watched. -/
def target (allocator : Allocator) : Target :=
  ⟨.gameServer, allocator.namespaceName, allocator.name⟩

/-- The detail record of the game server. -/
def companion (allocator : Allocator) : Target :=
  ⟨.gameServerDetail, allocator.namespaceName, allocator.name⟩

/-- A truth value in log lines. -/
def truthShown (truth : Bool) : String :=
  if truth then "True" else "False"

/-- A line if a look-up came to a value of the wrong type. -/
def mismatchLines {α : Type} (line : String → Line) (lookup : Lookup α) : List Line :=
  lookup.mismatch?.toList.map fun mismatch => line mismatch.message

/-- The credentials in the status of a record, empty where they are missing or no texts. -/
def credentials (record : Json) : Credentials × List Line :=
  let sessionId := Record.sessionId record
  let sessionCookie := Record.sessionCookie record
  let missing :=
    if sessionId.isPresent && sessionCookie.isPresent then []
    else
      [Line.warning s!"[WATCH] sessionID or sessionCookie do not exist, sessionIDExists:{truthShown sessionId.isPresent}, sessionCookieExists:{truthShown sessionCookie.isPresent}"]
  (⟨sessionId.value?.getD "", sessionCookie.value?.getD ""⟩,
    missing ++
      mismatchLines (fun text => .warning s!"[WATCH] Error getting sessionID {text}") sessionId ++
      mismatchLines (fun text => .warning s!"[WATCH] Error getting sessionCookie {text}")
        sessionCookie)

/-- The edge of the allocation. -/
def isEdge (old new : String) : Bool :=
  old = GameState.standingBy.name && new = GameState.active.name

/-- An update between two states that are texts. -/
def reviewStates (allocator : Allocator) (old new : Json) (oldState newState : String) :
    Allocator × List Action :=
  let line :=
    Line.info s!"[WATCH] GameServer updated {Record.name old}:{oldState} -> {Record.name new}:{newState}"
  if isEdge oldState newState then
    let (found, lines) := credentials new
    ({ allocator with reading := some found },
      ([line] ++ lines ++ [Line.info s!"[WATCH] Got values from allocation, sessionID:{found.sessionId}, sessionCookie:{found.sessionCookie}"]).map .log ++
        [.read allocator.companion])
  else (allocator, [.log line])

/-- An update. After the edge the detail record is read; nothing else has a consequence. -/
def review (allocator : Allocator) (old new : Json) : Allocator × List Action :=
  if allocator.allocated then (allocator, [])
  else
    match Record.state old, Record.state new with
    | .faulty mismatch, _ =>
      (allocator, [.log (.error s!"[WATCH] Error getting old state: {mismatch.message}")])
    | _, .faulty mismatch =>
      (allocator, [.log (.error s!"[WATCH] Error getting new state: {mismatch.message}")])
    | .found oldState, .found newState => allocator.reviewStates old new oldState newState
    | oldState, newState =>
      (allocator, [.log (.warning s!"[WATCH] State does not exist, oldStateExists:{truthShown oldState.isPresent}, newStateExists:{truthShown newState.isPresent}")])

/-- The players that the detail record names; none on any problem. -/
def players (allocator : Allocator) (outcome : Except StoreError (Option Json)) :
    List String × List Line :=
  match outcome with
  | .error error =>
    ([], [.warning s!"[WATCH] Error getting initial players details {error.message}"])
  | .ok none =>
    ([], [.warning
      s!"[WATCH] GameServerDetail {allocator.namespaceName}/{allocator.name} not found"])
  | .ok (some record) =>
    match Record.initialPlayers record with
    | .faulty mismatch =>
      ([], [.warning s!"[WATCH] Error getting initial players {mismatch.message}"])
    | .absent => ([], [.warning "[WATCH] Initial players does not exist"])
    | .found players => (players, [])

/-- The session that is published. -/
def session (found : Credentials) (players : List String) : Session :=
  ⟨.active, .string found.sessionId, .string found.sessionCookie, some (players.map .string)⟩

/-- The detail record has been read: the session is published and the watch is stopped. -/
def complete (allocator : Allocator) (outcome : Except StoreError (Option Json)) :
    Allocator × List Action :=
  match allocator.reading with
  | none => (allocator, [])
  | some found =>
    let (players, lines) := allocator.players outcome
    let shown := (Json.array (players.map .string)).quoted
    ({ allocator with allocated := true, reading := none },
      lines.map .log ++
        [.log (.info s!"[WATCH] Got values from allocation, initialPlayers:{shown}"),
          .publish (session found players), .stop])

end Allocator

end GameSidecar
