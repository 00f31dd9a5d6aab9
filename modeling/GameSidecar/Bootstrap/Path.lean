import GameSidecar.Text.Split

/-!
# Paths

A path is a text of names with slashes between them. It is used in two forms. As it is given, it
can be cut before its last name. In its plain form it has no empty names and no single dots, and
two dots stay as they are, since what they mean depends on the tree.
-/

namespace GameSidecar.Bootstrap

/-- A path in plain form: the slashes of the root, if it starts there, and the names. -/
structure Path where
  root : String
  names : List String
  deriving Repr, DecidableEq

namespace Path

/-- The names between the slashes of a path. -/
def namesOf (text : List Char) : List String :=
  ((Text.split '/' text).filter fun name => !name.isEmpty).map String.ofList

/-- The root of a path: two slashes stay two, more count as one. -/
def rootOf (text : List Char) : String :=
  let slashes := (text.takeWhile (· = '/')).length
  if slashes = 0 then "" else if slashes = 2 then "//" else "/"

/-- The plain form of a path. -/
def ofText (text : String) : Path :=
  ⟨rootOf text.toList, (namesOf text.toList).filter (· ≠ ".")⟩

/-- A plain path as a text. Without root and names it is the current directory. -/
def text (path : Path) : String :=
  if path.root.isEmpty && path.names.isEmpty then "."
  else path.root ++ "/".intercalate path.names

/-- The path without its last name. -/
def parent (path : Path) : Path :=
  { path with names := path.names.dropLast }

/-- A path whose names are given from the last one on, and all that contain it, the longest
    first. -/
def lineageFrom (root : String) : List String → List Path
  | [] => [⟨root, []⟩]
  | name :: outer => ⟨root, (name :: outer).reverse⟩ :: lineageFrom root outer

/-- A path and all that contain it, the longest first. -/
def lineage (path : Path) : List Path :=
  lineageFrom path.root path.names.reverse

/-- A path before its last slash and the name behind it. The slashes at the end of the first part
    do not count, unless there is nothing else. -/
def cut (path : List Char) : List Char × List Char :=
  let front := path.reverse.dropWhile (· ≠ '/')
  let bare := front.dropWhile (· = '/')
  ((if bare.isEmpty then front else bare).reverse, (path.reverse.takeWhile (· ≠ '/')).reverse)

/-- A path before its last name and that name, also if slashes follow it. -/
def cutName (path : List Char) : List Char × List Char :=
  let (front, name) := cut path
  if name.isEmpty then cut front else (front, name)

/-- The two parts of a path that is cut are no longer than it. -/
theorem length_cut (path : List Char) :
    (cut path).1.length + (cut path).2.length ≤ path.length := by
  have whole := congrArg List.length
    (List.takeWhile_append_dropWhile (p := fun c => decide (c ≠ '/')) (l := path.reverse))
  have bare := (List.dropWhile_sublist (fun c => decide (c = '/'))
    (l := path.reverse.dropWhile (fun c => decide (c ≠ '/')))).length_le
  simp only [List.length_append, List.length_reverse] at whole
  simp only [cut, List.length_reverse]
  split <;> omega

/-- The two parts of a path that is cut at its last name are no longer than it. -/
theorem length_cutName (path : List Char) :
    (cutName path).1.length + (cutName path).2.length ≤ path.length := by
  have first := length_cut path
  have second := length_cut (cut path).1
  simp only [cutName]
  split <;> omega

/-- A path with its last name, and in the same way all that contain it, the longest first. -/
def lineageAsGiven (path : List Char) : List (List Char × List Char) :=
  if (cutName path).1.isEmpty || (cutName path).2.isEmpty then [(path, (cutName path).2)]
  else (path, (cutName path).2) :: lineageAsGiven (cutName path).1
termination_by path.length
decreasing_by
  rename_i named
  have shorter := length_cutName path
  have some : (cutName path).2 ≠ [] := by
    intro none
    simp [none] at named
  have positive := List.length_pos_iff.mpr some
  omega

example : (ofText "a//./b/../c/").text = "a/b/../c" := by decide +kernel

end Path

end GameSidecar.Bootstrap
