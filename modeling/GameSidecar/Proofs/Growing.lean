import GameSidecar.Bootstrap.Disk
import GameSidecar.Proofs.Walking

/-!
# Making folders adds directories only

Folders are made in two ways, from the outside in and from the inside out, and each may stop
anywhere. Whatever happens, all that stood before stands afterwards, and what is new is a
directory on the way along the path.

If the folders for a path as it is given have been made, its last one is there, with one exception.
A path that ends in a single dot counts as there as soon as the path before the dot has been tried,
and then nobody looks whether a file is in its place, or whether the whole is too long to be
looked up.
-/

namespace GameSidecar.Bootstrap

namespace FileTree

/-- A tree has grown along some paths: what stood still stands, and what is new is a directory to
    which a front of one of the paths leads. -/
structure Grows (home : Place) (paths : List Path) (before after : FileTree) : Prop where
  kept : ∀ place entry, before.standing? place = some entry → after.standing? place = some entry
  new : ∀ place entry, after.standing? place = some entry → before.standing? place = some entry ∨
    entry = .directory ∧ ∃ path ∈ paths, ∃ front, front <+: path.names ∧
      LeadsTo after (path.start home) front place

variable {home : Place} {paths : List Path} {tree before middle after : FileTree} {text : String}

namespace Grows

/-- A tree grows into itself. -/
theorem refl (home : Place) (paths : List Path) (tree : FileTree) : Grows home paths tree tree :=
  ⟨fun _ _ => id, fun _ _ => .inl⟩

/-- A tree that grows keeps its directories. -/
theorem keepsDirectories (grows : Grows home paths before after) :
    KeepsDirectories before after :=
  fun place => grows.kept place .directory

/-- A tree that has grown twice has grown. -/
theorem trans (first : Grows home paths before middle) (second : Grows home paths middle after) :
    Grows home paths before after where
  kept place entry stands := second.kept place entry (first.kept place entry stands)
  new place entry stands := by
    rcases second.new place entry stands with earlier | added
    · rcases first.new place entry earlier with old | ⟨same, path, member, front, begins, leads⟩
      · exact .inl old
      · exact .inr ⟨same, path, member, front, begins, leads.mono second.keepsDirectories⟩
    · exact .inr added

/-- No file comes, goes or changes. -/
theorem file_iff (grows : Grows home paths before after) (place : Place) (content : String) :
    after.standing? place = some (.file content) ↔
      before.standing? place = some (.file content) := by
  refine ⟨fun stands => ?_, grows.kept place _⟩
  rcases grows.new place _ stands with old | ⟨same, -⟩
  · exact old
  · cases same

end Grows

/-- A place that is no directory is not the root. -/
theorem ne_nil_of_ne_directory {place : Place} (other : tree.standing? place ≠ some .directory) :
    place ≠ [] := by
  rintro rfl
  exact other rfl

/-- What is put where no directory is takes none away. -/
theorem keepsDirectories_put {place : Place} (other : tree.standing? place ≠ some .directory)
    (entry : Entry) : KeepsDirectories tree (tree.put place entry) := by
  intro asked stands
  rw [standing?_put _ _ _ _ (ne_nil_of_ne_directory other)]
  split
  · next same => exact absurd (same ▸ stands) other
  · exact stands

/-- A directory is made exactly if its path leads to a place where nothing stands. -/
theorem makeDirectory_eq_ok_iff : tree.makeDirectory home text = .ok after ↔
    ∃ place, tree.locate home text = .ok place ∧ tree.standing? place = none ∧
      after = tree.put place .directory := by
  rw [makeDirectory]
  cases tree.locate home text with
  | error error => exact iff_of_false nofun (by simp)
  | ok place =>
    cases stands : tree.standing? place <;> simp [bind, Except.bind, stands, eq_comm]

/-- Making a directory adds one at the place of its path, which was free. -/
theorem grows_of_makeDirectory (made : tree.makeDirectory home text = .ok after) {path : Path}
    (member : path ∈ paths) (front : (Path.ofText text).IsFront path) :
    Grows home paths tree after ∧ after.find? home text = some .directory := by
  obtain ⟨place, located, stands, rfl⟩ := makeDirectory_eq_ok_iff.mp made
  have free : tree.standing? place ≠ some .directory := by simp [stands]
  have inside := ne_nil_of_ne_directory free
  have keeps := keepsDirectories_put free .directory
  have here : (tree.put place .directory).standing? place = some .directory := by
    rw [standing?_put _ _ _ _ inside, if_pos rfl]
  refine ⟨⟨fun other entry old => ?_, fun other entry new => ?_⟩, ?_⟩
  · rw [standing?_put _ _ _ _ inside]
    split
    · next same =>
      rw [← same, stands] at old
      cases old
    · exact old
  · rw [standing?_put _ _ _ _ inside] at new
    split at new
    · next same =>
      subst same
      have leads := (leadsTo_of_locate located).mono keeps
      have start : (Path.ofText text).start home = path.start home := by
        simp only [Path.start, front.start]
      exact .inr ⟨(Option.some.inj new).symm, path, member, _, front.names, start ▸ leads⟩
    · exact .inl new
  · exact find?_eq_some_iff.mpr ⟨place, locate_mono located keeps, here⟩

/-- A file stands where a path leads to by its names. -/
def Blocked (tree : FileTree) (home : Place) (text : String) : Prop :=
  ∃ content, tree.standing? ((Path.ofText text).place home) = some (.file content)

/-- What was there already and is no directory is a file. -/
theorem blocked_of_present (refused : tree.makeDirectory home text = .error .present)
    (other : tree.find? home text ≠ some .directory) : tree.Blocked home text := by
  rw [makeDirectory] at refused
  cases located : tree.locate home text with
  | error error =>
    rw [located] at refused
    obtain rfl := Except.error.inj refused
    exact absurd located locate_ne_present
  | ok place =>
    rw [located] at refused
    cases stands : tree.standing? place with
    | none =>
      simp only [bind, Except.bind, stands] at refused
      cases refused
    | some entry =>
      cases entry with
      | directory => exact absurd (find?_eq_some_iff.mpr ⟨place, located, stands⟩) other
      | file content => exact ⟨content, place_of_locate located ▸ stands⟩

end FileTree

end GameSidecar.Bootstrap
