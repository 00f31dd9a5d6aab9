/-!
# States of a game and operations for it

A game reports one of seven states. Four come before the allocation of a session, two belong to
its shutdown, and one is the session itself. The operation that a game is told follows from the
same division, and so does the rank that lets a session move forward only.
-/

namespace GameSidecar

/-- The states of a game. -/
inductive GameState
  | invalid
  | initializing
  | standingBy
  | active
  | terminating
  | terminated
  | quarantined
  deriving Repr, DecidableEq, Inhabited

/-- What a game is told to do after a heartbeat. -/
inductive Operation
  | proceed
  | activate
  | terminate
  deriving Repr, DecidableEq

namespace GameState

/-- All states. -/
def all : List GameState :=
  [.invalid, .initializing, .standingBy, .active, .terminating, .terminated, .quarantined]

/-- The name of a state on the wire. -/
def name : GameState → String
  | .invalid => "Invalid"
  | .initializing => "Initializing"
  | .standingBy => "StandingBy"
  | .active => "Active"
  | .terminating => "Terminating"
  | .terminated => "Terminated"
  | .quarantined => "Quarantined"

/-- The name of a state as a constant, in log lines that show a whole request. -/
def constant : GameState → String
  | .invalid => "INVALID"
  | .initializing => "INITIALIZING"
  | .standingBy => "STANDING_BY"
  | .active => "ACTIVE"
  | .terminating => "TERMINATING"
  | .terminated => "TERMINATED"
  | .quarantined => "QUARANTINED"

/-- The state of a name. Case counts. -/
def ofName? (text : String) : Option GameState :=
  all.find? fun state => state.name == text

/-- Whether a session has not been allocated yet. -/
def isBeforeAllocation : GameState → Bool
  | .invalid | .initializing | .standingBy | .quarantined => true
  | _ => false

/-- Whether the game is ending or has ended. -/
def isShutdown : GameState → Bool
  | .terminating | .terminated => true
  | _ => false

/-- How far a state is on the way from the start over the session to the end. -/
def rank (state : GameState) : Nat :=
  if state = .active then 1 else if state.isShutdown then 2 else 0

/-- The operation for a game whose session is in a state. -/
def operation (state : GameState) : Operation :=
  if state.isBeforeAllocation then .proceed
  else if state.isShutdown then .terminate
  else .activate

/-- A state is told apart by its name. -/
theorem ofName?_name (state : GameState) : ofName? state.name = some state := by
  cases state <;> decide

/-- No two states have one name. -/
theorem name_injective {left right : GameState} (same : left.name = right.name) : left = right := by
  have found : ofName? left.name = some right := same ▸ ofName?_name right
  exact Option.some.inj ((ofName?_name left).symm.trans found)

/-- A state that is found by a name has that name. -/
theorem name_of_ofName? {text : String} {state : GameState} (found : ofName? text = some state) :
    state.name = text := by
  simpa using List.find?_some found

end GameState

namespace Operation

/-- The name of an operation on the wire. -/
def name : Operation → String
  | .proceed => "continue"
  | .activate => "active"
  | .terminate => "terminate"

/-- How far an operation is on the way from waiting over the session to the end. -/
def rank : Operation → Nat
  | .proceed => 0
  | .activate => 1
  | .terminate => 2

end Operation

/-- The rank of a state and that of its operation agree. -/
theorem GameState.rank_operation (state : GameState) : state.operation.rank = state.rank := by
  cases state <;> rfl

end GameSidecar
