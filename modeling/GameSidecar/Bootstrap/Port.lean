import GameSidecar.Bootstrap.Entry
import GameSidecar.Json

/-!
# Ports of the game

An entry names a port and gives its number inside the container and its number on the host, with
commas between them. The numbers are decimal digits of any script, at most 4300 of them. A name
that occurs again keeps its place, with the number that stands last.
-/

namespace GameSidecar.Bootstrap

/-- A port of the game: where the server listens, and where clients connect. -/
structure Port where
  name : String
  listening : Nat
  connecting : Nat
  deriving Repr, DecidableEq

namespace Port

/-- How many digits a port may have, leading zeros included. -/
def longestNumber : Nat :=
  4300

/-- The number of a port. -/
def number (name : List Char) (side : Side) (text : List Char) : Except EntryError Nat :=
  match Decimal.read? text with
  | none => .error (.portNumber name side text)
  | some number =>
    if text.length ≤ longestNumber then .ok number else .error (.portLength name side)

/-- The port that an entry describes. -/
def ofEntry (entry : List Char) : Except EntryError Port :=
  match Text.split ',' entry with
  | [name, container, host] => do
    let listening ← number name .container container
    let connecting ← number name .host host
    pure ⟨String.ofList name, listening, connecting⟩
  | _ => .error (.portShape entry)

/-- The ports that a text lists. -/
def readAll (text : List Char) : Except EntryError (List Port) :=
  (entries text).mapM ofEntry

/-- The number on which the server listens, in ASCII digits. -/
def listeningText (port : Port) : String :=
  String.ofList (Decimal.write port.listening)

/-- The numbers on which the server listens, by the names of the ports. -/
def byName (ports : List Port) : OrderedMap String String :=
  .ofPairs (ports.map fun port => (port.name, port.listeningText))

/-- A port in the descriptor. -/
def toJson (port : Port) : Json :=
  .object [
    ("name", .string port.name),
    ("serverListeningPort", .int port.listening),
    ("clientConnectionPort", .int port.connecting)]

end Port

end GameSidecar.Bootstrap
