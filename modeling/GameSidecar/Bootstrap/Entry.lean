import GameSidecar.OrderedMap
import GameSidecar.Text.Quoted
import GameSidecar.Text.Split

/-!
# Entries of ports and metadata

Ports and build metadata each stand in one text, as entries with question marks between them.
Empty entries do not count, and the first faulty entry from the left is the one that is reported.
-/

namespace GameSidecar.Bootstrap

/-- One of the two numbers of a port. -/
inductive Side
  | container
  | host
  deriving Repr, DecidableEq

/-- The name of one of the two numbers in messages. -/
def Side.label : Side → String
  | .container => "containerPort"
  | .host => "hostPort"

/-- What is wrong with an entry. -/
inductive EntryError
  | portShape (entry : List Char)
  | portNumber (name : List Char) (side : Side) (text : List Char)
  | portLength (name : List Char) (side : Side)
  | metadataShape (entry : List Char)
  deriving Repr, DecidableEq

/-- What is said about a faulty entry. Nothing is said about a number with too many digits: the
    bootstrap does not expect it and breaks off. -/
def EntryError.objection? : EntryError → Option String
  | .portShape entry =>
    let shown := Text.quoted (String.ofList entry)
    some s!"could not parse port entry {shown}, expected name,containerPort,hostPort"
  | .portNumber name side text =>
    let owner := String.ofList name
    let shown := Text.quoted (String.ofList text)
    some s!"could not parse port with portName {owner}, {side.label} {shown}"
  | .portLength _ _ => none
  | .metadataShape entry =>
    let shown := Text.quoted (String.ofList entry)
    some s!"could not parse build metadata entry {shown}, expected key,value"

/-- The entries of a text. -/
def entries (text : List Char) : List (List Char) :=
  (Text.split '?' text).filter fun entry => !entry.isEmpty

end GameSidecar.Bootstrap
