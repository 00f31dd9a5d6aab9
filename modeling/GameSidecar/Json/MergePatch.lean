import GameSidecar.Json

/-!
# Merge patches

A merge patch that is an object changes the members of a value that it names: a null removes a
member, any other value is merged into it. A patch that is no object takes the place of the value.
-/

namespace GameSidecar.Json

mutual

/-- A value after a merge patch. What is no object counts as an empty one. -/
def merge (value : Json) : (patch : Json) → Json
  | .object changes => .object (mergeMembers (value.members?.getD []) changes)
  | other => other

/-- The members of an object after the members of a merge patch. -/
def mergeMembers (members : List (String × Json)) :
    (changes : List (String × Json)) → List (String × Json)
  | [] => members
  | (name, .null) :: rest => mergeMembers (OrderedMap.erase members name) rest
  | (name, change) :: rest =>
    mergeMembers (OrderedMap.insert members name (merge (memberOrNull members name) change)) rest

end

end GameSidecar.Json
