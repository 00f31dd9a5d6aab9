import GameSidecar.Fault
import GameSidecar.GameState
import GameSidecar.Log

/-!
# The session

What is known of the allocation is one value, the details of the session, held in one cell. Every
reader takes the whole value. A publication replaces it as a whole, unless its state ranks below
the one that is held. The cell does not look at the other fields; the answer to a heartbeat does,
and refuses texts that are none.
-/

namespace GameSidecar

/-- What is known of the session. The players are none before an allocation names any. -/
structure Session where
  state : GameState := .invalid
  sessionId : Json := .string ""
  sessionCookie : Json := .string ""
  initialPlayers : Option (List Json) := none
  deriving Repr, DecidableEq, Inhabited

namespace Session

/-- The state that a value names, or what is said about it. -/
def readState (value : Json) : Except String GameState :=
  match value.string?.bind GameState.ofName? with
  | some state => .ok state
  | none => .error s!"{value.quoted} is not a valid GameState"

/-- The details of a session from a map of their names; missing ones are as at the start. -/
def ofJson (details : Json) : Except String Session := do
  let initial : Session := {}
  let state ←
    match details.member? "state" with
    | none => .ok initial.state
    | some value => readState value
  let players :=
    match details.member? "initial_players" with
    | some (.array players) => some players
    | _ => initial.initialPlayers
  pure {
    state
    sessionId := (details.member? "session_id").getD initial.sessionId
    sessionCookie := (details.member? "session_cookie").getD initial.sessionCookie
    initialPlayers := players }

/-- The details of a session as a map of their names. -/
def toJson (session : Session) : Json :=
  .object [
    ("state", .string session.state.name),
    ("session_id", session.sessionId),
    ("session_cookie", session.sessionCookie),
    ("initial_players",
      match session.initialPlayers with
      | none => .null
      | some players => .array players)]

/-- Whether a publication is accepted by a cell that holds `current`. -/
def accepts (current published : Session) : Bool :=
  current.state.rank ≤ published.state.rank

/-- What the cell holds after a publication. -/
def publish (current published : Session) : Session :=
  if current.accepts published then published else current

/-- The players as log lines show them. -/
def playersShown (session : Session) : String :=
  match session.initialPlayers with
  | none => "None"
  | some players => Json.tupleShown players

/-- The line that a publication writes. -/
def publishLine (current published : Session) : Line :=
  if current.accepts published then
    .info s!"[SESSION] Session state is now {published.state.name} (sessionId={published.sessionId.quoted}, initialPlayers={published.playersShown})"
  else
    .warning s!"[SESSION] Refusing to move session state from {current.state.name} back to {published.state.name}"

/-- A refused publication changes nothing, an accepted one everything. -/
theorem publish_eq (current published : Session) :
    publish current published =
      if current.state.rank ≤ published.state.rank then published else current := by
  simp [publish, accepts]

/-- The rank of the held state never falls. -/
theorem rank_le_publish (current published : Session) :
    current.state.rank ≤ (publish current published).state.rank := by
  simp only [publish_eq]
  split <;> simp_all

end Session

/-- The answer to a heartbeat: what to do, and the session to do it for. -/
structure Answer where
  operation : Operation
  sessionId : String
  sessionCookie : String
  initialPlayers : Option (List String)
  deriving Repr, DecidableEq

namespace Answer

/-- A text of the session; a void value stands for the empty text. -/
def textField (name : String) (value : Json) : Except (List Fault) String :=
  match value with
  | .string text => .ok text
  | value => if value.isVoid then .ok "" else .error [⟨[.name name], .string, value⟩]

/-- The players of the session, from an index on. -/
def playersFrom (index : Nat) : List Json → List (Except (List Fault) String)
  | [] => []
  | player :: rest =>
    (match player with
      | .string text => .ok text
      | value => .error [⟨[.name "initial_players", .index index], .string, value⟩]) ::
      playersFrom (index + 1) rest

/-- The players of the session, if it names any. -/
def playersField : Option (List Json) → Except (List Fault) (Option (List String))
  | none => .ok none
  | some players => (Fault.all (playersFrom 0 players)).map some

/-- The answer that a session gives, or its fields that are no texts. -/
def ofSession (session : Session) : Except (List Fault) Answer :=
  (Fault.both (textField "session_id" session.sessionId)
    (Fault.both (textField "session_cookie" session.sessionCookie)
      (playersField session.initialPlayers))).map fun fields =>
    ⟨session.state.operation, fields.1, fields.2.1, fields.2.2⟩

/-- An answer on the wire. -/
def toJson (answer : Answer) : Json :=
  .object [
    ("operation", .string answer.operation.name),
    ("sessionConfig", .object [
      ("sessionId", .string answer.sessionId),
      ("sessionCookie", .string answer.sessionCookie),
      ("initialPlayers",
        match answer.initialPlayers with
        | none => .null
        | some players => .array (players.map .string))])]

end Answer

end GameSidecar
