import GameSidecar.Api
import GameSidecar.Heartbeat.Request

/-!
# Keeping the records up to date

The records of a game server have two aspects that its heartbeats keep up to date: state and
health, together in the status of the game server, and the players in the specification of its
detail record. What the API server accepted last is remembered; a patch is
due if a heartbeat differs from that, for the players only while the game is active and only by
their number. A patch that fails ends the heartbeat and leaves the memory of it as it was.
-/

namespace GameSidecar.Heartbeat

/-- What the API server accepted last. -/
structure Memory where
  state : Option GameState := none
  health : String := ""
  players : Nat := 0
  deriving Repr, DecidableEq, Inhabited

/-- The two aspects that are kept up to date, in the order in which they are patched. -/
inductive Aspect
  | status
  | players
  deriving Repr, DecidableEq

/-- The name of an aspect in messages. -/
def Aspect.label : Aspect → String
  | .status => "health"
  | .players => "connected players count"

/-- A patch that failed while a heartbeat was handled. -/
structure Failure where
  aspect : Aspect
  error : StoreError
  deriving Repr, DecidableEq

/-- What is said about a failed patch. -/
def Failure.message (failure : Failure) : String :=
  s!"error updating {failure.aspect.label}: {failure.error.message}"

namespace Memory

/-- Whether the status has to be patched. -/
def statusDue (memory : Memory) (report : Report) : Bool :=
  memory.health ≠ report.health || memory.state ≠ some report.state

/-- Whether the players have to be patched. -/
def playersDue (memory : Memory) (report : Report) : Bool :=
  report.state = .active && report.players.length ≠ memory.players

/-- The patch that is due for the players, if any. -/
def restDue (memory : Memory) (report : Report) : Option Aspect :=
  if memory.playersDue report then some .players else none

/-- The first patch that is due, if any. -/
def due (memory : Memory) (report : Report) : Option Aspect :=
  if memory.statusDue report then some .status else memory.restDue report

/-- What is remembered after a patch was accepted. -/
def accept (memory : Memory) (report : Report) : Aspect → Memory
  | .status => { memory with state := some report.state, health := report.health }
  | .players => { memory with players := report.players.length }

/-- The line that announces a patch. -/
def announcement (memory : Memory) (report : Report) : Aspect → Line
  | .status =>
    let oldState := Text.quoted ((memory.state.map GameState.name).getD "")
    let newState := Text.quoted report.state.name
    .info s!"[HEARTBEAT] Health or state is different than before, updating. Old health {Text.quoted memory.health}, new health {Text.quoted report.health}, old state {oldState}, new state {newState}"
  | .players =>
    .info s!"[HEARTBEAT] ConnectedPlayersCount is different than before, updating. Old connectedPlayersCount {memory.players}, new connectedPlayersCount {report.players.length}"

end Memory

namespace Report

/-- The body of a patch. -/
def body (report : Report) : Aspect → Json
  | .status =>
    .object [("status", .object [
      ("health", .string report.health), ("state", .string report.state.name)])]
  | .players =>
    .object [("spec", .object [
      ("connectedPlayersCount", .int report.players.length),
      ("connectedPlayers", .array (report.players.map .string))])]

/-- A patch for the records of a game server. -/
def patch (report : Report) (namespaceName name : String) (aspect : Aspect) : Api.Patch :=
  match aspect with
  | .status => ⟨⟨.gameServer, namespaceName, name⟩, true, report.body .status⟩
  | .players => ⟨⟨.gameServerDetail, namespaceName, name⟩, false, report.body .players⟩

end Report

/-- How far a heartbeat is: a patch is under way, or it has ended. -/
inductive Progress
  | sending (aspect : Aspect)
  | ended (result : Except Failure Unit)
  deriving Repr

namespace Progress

/-- The progress with the next patch that is due. -/
def ofDue : Option Aspect → Progress
  | some aspect => .sending aspect
  | none => .ended (.ok ())

/-- The start of a heartbeat. -/
def start (memory : Memory) (report : Report) : Progress :=
  ofDue (memory.due report)

/-- What is remembered, and how far the heartbeat is, after the outcome of a patch. -/
def resume (memory : Memory) (report : Report) (aspect : Aspect) :
    Except StoreError Unit → Memory × Progress
  | .error error => (memory, .ended (.error ⟨aspect, error⟩))
  | .ok () =>
    let accepted := memory.accept report aspect
    match aspect with
    | .status => (accepted, ofDue (accepted.restDue report))
    | .players => (accepted, .ended (.ok ()))

end Progress

end GameSidecar.Heartbeat
