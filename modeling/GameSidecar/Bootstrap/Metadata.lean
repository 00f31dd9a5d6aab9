import GameSidecar.Bootstrap.Entry

/-!
# Build metadata

An entry is a key, a comma and a value; further commas belong to the value. A key that occurs
again keeps its place, with the value that stands last.
-/

namespace GameSidecar.Bootstrap.Metadata

/-- The key and the value of an entry. -/
def pair (entry : List Char) : Except EntryError (String × String) :=
  match entry.dropWhile (· ≠ ',') with
  | [] => .error (.metadataShape entry)
  | _ :: value => .ok (String.ofList (entry.takeWhile (· ≠ ',')), String.ofList value)

/-- The map that a text describes. -/
def read (text : List Char) : Except EntryError (OrderedMap String String) :=
  ((entries text).mapM pair).map .ofPairs

end GameSidecar.Bootstrap.Metadata
