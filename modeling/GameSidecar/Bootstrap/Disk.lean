import GameSidecar.Bootstrap.FileTree
import GameSidecar.Text.Quoted

/-!
# Making folders and writing a file

The bootstrap needs four operations on files. They are given as one value, so the same steps run
on the disk of a machine and on a tree. Folders are made in two ways: for a path as it is given,
missing ones from the outside in; for a plain path, the innermost one first and the outer ones
only if that fails for want of them. A folder that is there already is no failure.
-/

namespace GameSidecar.Bootstrap

/-- The operations on files that the bootstrap needs. -/
structure Disk (m : Type → Type) where
  isDirectory : String → m Bool
  isPresent : String → m Bool
  makeDirectory : String → m (Except FileError Unit)
  write : String → String → m (Except FileError Unit)

/-- An operation on files that failed, with the path that it was tried at. -/
structure FileFailure where
  path : String
  error : FileError
  deriving Repr, DecidableEq

/-- What is said about a failed operation. -/
def FileFailure.message (failure : FileFailure) : String :=
  let number := String.ofList (Decimal.write failure.error.number)
  s!"[Errno {number}] {failure.error.wording}: {Text.quoted failure.path}"

namespace Disk

variable {m : Type → Type} [Monad m]

/-- A directory at a path, if none is there yet. -/
def ensureOne (disk : Disk m) (path : String) : m (Except FileFailure Unit) := do
  match ← disk.makeDirectory path with
  | .ok () => pure (.ok ())
  | .error error =>
    if ← disk.isDirectory path then pure (.ok ()) else pure (.error ⟨path, error⟩)

/-- A directory at the first path of a lineage, after those at the others that are missing. A path
    that ends in a single dot is there as soon as the one before it is. A lineage may be of any
    length: that an interpreter limits the depth of its recursion is left out, and so are paths with
    surrogate code points, which no text here can hold. -/
def ensureFromOutside (disk : Disk m) :
    List (List Char × List Char) → m (Except FileFailure Unit)
  | [] => pure (.ok ())
  | [(path, _)] => disk.ensureOne (String.ofList path)
  | (path, name) :: (outer, outerName) :: rest => do
    if ← disk.isPresent (String.ofList outer) then disk.ensureOne (String.ofList path)
    else
      match ← disk.ensureFromOutside ((outer, outerName) :: rest) with
      | .error failure =>
        if failure.error ≠ .present then pure (.error failure)
        else if name = ['.'] then pure (.ok ())
        else disk.ensureOne (String.ofList path)
      | .ok () =>
        if name = ['.'] then pure (.ok ()) else disk.ensureOne (String.ofList path)

/-- A directory at a path as it is given. -/
def ensureAsGiven (disk : Disk m) (path : String) : m (Except FileFailure Unit) :=
  disk.ensureFromOutside (Path.lineageAsGiven path.toList)

/-- A directory at the first path of a lineage; only if one around it is missing, those are made
    first. -/
def ensureFromInside (disk : Disk m) : List Path → m (Except FileFailure Unit)
  | [] => pure (.ok ())
  | path :: outer => do
    match ← disk.makeDirectory path.text with
    | .ok () => pure (.ok ())
    | .error .absent =>
      if outer.isEmpty then pure (.error ⟨path.text, .absent⟩)
      else
        match ← disk.ensureFromInside outer with
        | .ok () => disk.ensureOne path.text
        | .error failure => pure (.error failure)
    | .error error =>
      if ← disk.isDirectory path.text then pure (.ok ()) else pure (.error ⟨path.text, error⟩)

/-- A directory at a plain path. -/
def ensure (disk : Disk m) (path : Path) : m (Except FileFailure Unit) :=
  disk.ensureFromInside path.lineage

/-- A text written to a file at a plain path. -/
def save (disk : Disk m) (path : Path) (text : String) : m (Except FileFailure Unit) := do
  match ← disk.write path.text text with
  | .ok () => pure (.ok ())
  | .error error => pure (.error ⟨path.text, error⟩)

end Disk

namespace FileTree

/-- The operations on a tree, with paths that start at a directory of it. -/
def disk (home : Place) : Disk (StateM FileTree) where
  isDirectory path := do
    pure ((← get).find? home path = some .directory)
  isPresent path := do
    pure ((← get).find? home path).isSome
  makeDirectory path := do
    match (← get).makeDirectory home path with
    | .ok tree => set tree; pure (.ok ())
    | .error error => pure (.error error)
  write path text := do
    match (← get).write home path text with
    | .ok tree => set tree; pure (.ok ())
    | .error error => pure (.error error)

end FileTree

end GameSidecar.Bootstrap
