import GameSidecar.Bootstrap.Path
import GameSidecar.OrderedMap

/-!
# A tree of files and directories

Places are reached by names from the root on. A look-up takes one name after the other: each place
that is left has to be a directory, a single dot stays there, two dots go up, and a name has at
most 255 bytes. Making a directory and writing a file change one place and nothing else.
-/

namespace GameSidecar.Bootstrap

/-- What stands at a place. -/
inductive Entry
  | directory
  | file (text : String)
  deriving Repr, DecidableEq

/-- The names from the root to a place. -/
abbrev Place := List String

/-- Why an operation on files fails. -/
inductive FileError
  | absent
  | present
  | notDirectory
  | isDirectory
  | nameTooLong
  | unnamed (number : Nat) (text : String)
  deriving Repr, DecidableEq

namespace FileError

/-- The number of an error. -/
def number : FileError → Nat
  | .absent => 2
  | .present => 17
  | .notDirectory => 20
  | .isDirectory => 21
  | .nameTooLong => 36
  | .unnamed number _ => number

/-- The wording of an error. -/
def wording : FileError → String
  | .absent => "No such file or directory"
  | .present => "File exists"
  | .notDirectory => "Not a directory"
  | .isDirectory => "Is a directory"
  | .nameTooLong => "File name too long"
  | .unnamed _ text => text

end FileError

/-- A tree: the entries by place. The root is a directory and has no entry of its own. -/
abbrev FileTree := OrderedMap Place Entry

namespace FileTree

/-- The entry at a place. -/
def standing? (tree : FileTree) (place : Place) : Option Entry :=
  if place = [] then some .directory else OrderedMap.get? tree place

/-- The tree with an entry at a place. -/
def put (tree : FileTree) (place : Place) (entry : Entry) : FileTree :=
  OrderedMap.insert tree place entry

/-- A change at one place shows nowhere else. The root stays a directory. -/
theorem standing?_put (tree : FileTree) (place asked : Place) (entry : Entry) (inside : place ≠ []) :
    (tree.put place entry).standing? asked =
      if place = asked then some entry else tree.standing? asked := by
  by_cases root : asked = []
  · simp [standing?, root, inside]
  · simp [standing?, put, root, OrderedMap.get?_insert]

/-- The greatest number of bytes of a name. -/
def longestName : Nat :=
  255

/-- The number of bytes from which on a path is too long as a whole. -/
def longestPath : Nat :=
  4096

/-- The place that a name leads to from another one, which has to be a directory. -/
def step (tree : FileTree) (place : Place) (name : String) : Except FileError Place :=
  match tree.standing? place with
  | none => .error .absent
  | some (.file _) => .error .notDirectory
  | some .directory =>
    if name = "." then .ok place
    else if name = ".." then .ok place.dropLast
    else if longestName < name.utf8ByteSize then .error .nameTooLong
    else .ok (place ++ [name])

/-- The place that a path leads to from a directory. The place itself may be empty. -/
def locate (tree : FileTree) (home : Place) (path : String) : Except FileError Place :=
  if path.isEmpty then .error .absent
  else if longestPath ≤ path.utf8ByteSize then .error .nameTooLong
  else
    (Path.namesOf path.toList).foldlM (step tree) (if path.startsWith "/" then [] else home)

/-- The entry that a path leads to. -/
def find? (tree : FileTree) (home : Place) (path : String) : Option Entry :=
  match tree.locate home path with
  | .ok place => tree.standing? place
  | .error _ => none

/-- Making a directory at a path, where nothing may stand. -/
def makeDirectory (tree : FileTree) (home : Place) (path : String) : Except FileError FileTree := do
  let place ← tree.locate home path
  match tree.standing? place with
  | some _ => .error .present
  | none => .ok (tree.put place .directory)

/-- Writing a file at a path, where no directory may stand. -/
def write (tree : FileTree) (home : Place) (path text : String) : Except FileError FileTree := do
  let place ← tree.locate home path
  match tree.standing? place with
  | some .directory => .error .isDirectory
  | _ => .ok (tree.put place (.file text))

end FileTree

end GameSidecar.Bootstrap
