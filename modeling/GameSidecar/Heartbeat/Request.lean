import GameSidecar.Fault
import GameSidecar.GameState
import GameSidecar.Json.Reader

/-!
# Heartbeats on the wire

A game reports its state, its health and its players as a JSON object. Each field may be spelled
in three ways, and of several spellings that are present the first in a fixed order is taken,
whatever its value is. All fields that are wrong are reported, each under the name that was taken.
-/

namespace GameSidecar.Heartbeat

/-- What a heartbeat reports, as far as it is given. -/
structure Request where
  state : Option GameState
  health : String
  players : List String
  deriving Repr, DecidableEq

namespace Request

/-- The spellings of the state, in the order in which they are looked for. -/
def stateNames : List String :=
  ["currentGameState", "CurrentGameState", "current_game_state"]

/-- The spellings of the health, in the order in which they are looked for. -/
def healthNames : List String :=
  ["currentGameHealth", "CurrentGameHealth", "current_game_health"]

/-- The spellings of the players, in the order in which they are looked for. -/
def playersNames : List String :=
  ["currentPlayers", "CurrentPlayers", "current_players"]

/-- The spellings of the identity of a player, in the order in which they are looked for. -/
def playerNames : List String :=
  ["playerId", "PlayerId", "player_id"]

/-- The first of some names that an object has, with its value. -/
def taken? (members : List (String × Json)) : (names : List String) → Option (String × Json)
  | [] => none
  | name :: names =>
    match OrderedMap.get? members name with
    | some value => some (name, value)
    | none => taken? members names

/-- The state of a game; null and the empty text stand for none. -/
def readState (members : List (String × Json)) : Checked (Option GameState) :=
  match taken? members stateNames with
  | none | some (_, .null) | some (_, .string "") => .fixed none
  | some (name, value) =>
    match value.string?.bind GameState.ofName? with
    | some state => .fixed (some state)
    | none => Except.error [⟨[.name name], .gameState, value⟩]

/-- The health of a game; null stands for the empty text. -/
def readHealth (members : List (String × Json)) : Checked String :=
  match taken? members healthNames with
  | none | some (_, .null) => .fixed ""
  | some (_, .string health) => .fixed health
  | some (name, value) => Except.error [⟨[.name name], .string, value⟩]

/-- The identity of the player at a place; the empty text if none is given. -/
def readPlayer (place : List Step) : Json → Except (List Fault) String
  | .object members =>
    match taken? members playerNames with
    | none => .ok ""
    | some (_, .string player) => .ok player
    | some (name, value) => .error [⟨place ++ [.name name], .string, value⟩]
  | value => .error [⟨place, .object, value⟩]

/-- The identities of the players from an index on. -/
def readPlayersFrom (name : String) (index : Nat) :
    List Json → List (Except (List Fault) String)
  | [] => []
  | player :: rest =>
    readPlayer [.name name, .index index] player :: readPlayersFrom name (index + 1) rest

/-- The players of a game; null stands for an empty list. -/
def readPlayers (members : List (String × Json)) : Checked (List String) :=
  match taken? members playersNames with
  | none | some (_, .null) => .fixed []
  | some (name, .array players) => Fault.all (readPlayersFrom name 0 players)
  | some (name, value) => Except.error [⟨[.name name], .array, value⟩]

/-- The request that a value stands for, or all its faults. -/
def ofJson (value : Json) : Checked Request :=
  match value with
  | .object members =>
    Request.mk <$> readState members <*> readHealth members <*> readPlayers members
  | value => Except.error [⟨[], .object, value⟩]

/-- How deep a request may be nested, and how many digits an integer in it may have. -/
def limits : Json.Limits :=
  ⟨200, 4300⟩

/-- The document that bytes stand for: UTF-8 without a byte order mark. -/
def readBytes? (body : ByteArray) : Option Json :=
  (String.fromUTF8? body).bind fun document => Json.read? limits document.toList

/-- The request that bytes stand for, or all its faults. -/
def decode (body : ByteArray) : Checked Request :=
  match readBytes? body with
  | some value => ofJson value
  | none => Except.error [⟨[], .malformed, .null⟩]

/-- The ASCII characters that make a body count as empty if it has no others. -/
def isBlankByte (byte : UInt8) : Bool :=
  byte = 0x20 || (0x09 ≤ byte && byte ≤ 0x0D)

/-- Whether a body is empty but for blank characters. -/
def isBlank (body : ByteArray) : Bool :=
  body.toList.all isBlankByte

end Request

/-- What a heartbeat reports with all that it needs. -/
structure Report where
  state : GameState
  health : String
  players : List String
  deriving Repr, DecidableEq

namespace Report

/-- What is said about empty fields, the health first. -/
def objection (health : String) (state : Option GameState) : String :=
  " - ".intercalate (
    (if health.isEmpty then ["CurrentGameHealth cannot be empty"] else []) ++
      (if state.isNone then ["CurrentGameState cannot be empty"] else []))

/-- The report of a request, which needs a state and a health. -/
def ofRequest (request : Request) : Except String Report :=
  match request with
  | ⟨some state, health, players⟩ =>
    if health.isEmpty then .error (objection health (some state)) else .ok ⟨state, health, players⟩
  | ⟨none, health, _⟩ => .error (objection health none)

/-- A player as log lines show one. -/
def playerShown (player : String) : String :=
  s!"\x7b'player_id': {Text.quoted player}\x7d"

/-- A report as log lines show it. -/
def shown (report : Report) : String :=
  let players := ", ".intercalate (report.players.map playerShown)
  let state := s!"<GameState.{report.state.constant}: {Text.quoted report.state.name}>"
  s!"\x7b'current_game_state': {state}, 'current_game_health': {Text.quoted report.health}, 'current_players': [{players}]\x7d"

end Report

end GameSidecar.Heartbeat
