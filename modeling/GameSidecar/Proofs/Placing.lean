import GameSidecar.Proofs.FatalExits
import GameSidecar.Proofs.Growing

/-!
# What the bootstrap leaves behind

The bootstrap makes folders along two paths and writes one file. The paths come from the
environment: they may be the same, one may lie inside the other, they may go up and down again, and
they may run into a file. The file is written last, when nothing else can fail any more. So a
bootstrap that fails has changed no file, and one that ends well has changed no other file than that
of the descriptor.

The folder for the logs is not always there in the end. The folders for a path as it is given are
made from the outside in, and what is there already is no failure on the way. If the path ends in a
single dot, nothing is made for the dot, so that nobody notices if what is there already is a file.
-/

namespace GameSidecar.Bootstrap

namespace FileTree

variable {home : Place} {paths : List Path} {tree : FileTree}

section Disk

variable (home : Place) (text : String) (tree : FileTree)

/-- On a tree a path is a directory if one is found there. -/
theorem isDirectory_disk :
    (disk home).isDirectory text tree = (decide (tree.find? home text = some .directory), tree) :=
  rfl

/-- On a tree something is present at a path if anything is found there. -/
theorem isPresent_disk :
    (disk home).isPresent text tree = ((tree.find? home text).isSome, tree) :=
  rfl

/-- A directory is made on a tree, or the tree is as it was. -/
theorem makeDirectory_disk :
    (disk home).makeDirectory text tree =
      match tree.makeDirectory home text with
      | .ok after => (.ok (), after)
      | .error error => (.error error, tree) := by
  change (match tree.makeDirectory home text with
    | .ok after => (do set after; pure (.ok ()) : StateM FileTree (Except FileError Unit))
    | .error error => pure (.error error)) tree = _
  cases tree.makeDirectory home text <;> rfl

/-- A file is written on a tree, or the tree is as it was. -/
theorem write_disk (content : String) :
    (disk home).write text content tree =
      match tree.write home text content with
      | .ok after => (.ok (), after)
      | .error error => (.error error, tree) := by
  change (match tree.write home text content with
    | .ok after => (do set after; pure (.ok ()) : StateM FileTree (Except FileError Unit))
    | .error error => pure (.error error)) tree = _
  cases tree.write home text content <;> rfl

/-- One folder is seen to on a tree: it is made, or it is there, or nothing changes. -/
theorem ensureOne_disk :
    (disk home).ensureOne text tree =
      match tree.makeDirectory home text with
      | .ok after => (.ok (), after)
      | .error error =>
        if tree.find? home text = some .directory then (.ok (), tree)
        else (.error ⟨text, error⟩, tree) := by
  rw [Disk.ensureOne, bind_apply, makeDirectory_disk]
  cases tree.makeDirectory home text with
  | ok after => rfl
  | error error =>
    dsimp only
    rw [bind_apply, isDirectory_disk]
    by_cases found : tree.find? home text = some .directory
    · rw [if_pos found, decide_eq_true found]
      rfl
    · rw [if_neg found, decide_eq_false found]
      rfl

/-- One level of the folders for a path, on a tree: the ones outside come first, unless they are
    there. -/
theorem ensureFromOutside_disk (path name outer outerName : List Char)
    (rest : List (List Char × List Char)) :
    (disk home).ensureFromOutside ((path, name) :: (outer, outerName) :: rest) tree =
      if (tree.find? home (String.ofList outer)).isSome then
        (disk home).ensureOne (String.ofList path) tree
      else
        match (disk home).ensureFromOutside ((outer, outerName) :: rest) tree with
        | (.error failure, after) =>
          if failure.error ≠ .present then (.error failure, after)
          else if name = ['.'] then (.ok (), after)
          else (disk home).ensureOne (String.ofList path) after
        | (.ok (), after) =>
          if name = ['.'] then (.ok (), after)
          else (disk home).ensureOne (String.ofList path) after := by
  rw [Disk.ensureFromOutside, bind_apply, isPresent_disk]
  dsimp only
  by_cases found : (tree.find? home (String.ofList outer)).isSome
  · rw [if_pos found, if_pos found]
  · rw [if_neg found, if_neg found, bind_apply]
    generalize (disk home).ensureFromOutside ((outer, outerName) :: rest) tree = inner
    obtain ⟨outcome, after⟩ := inner
    cases outcome with
    | error failure =>
      dsimp only
      split
      · rfl
      · split <;> rfl
    | ok made =>
      dsimp only
      split <;> rfl

end Disk

/-- Seeing to one folder adds folders on the way only. If that ends well the folder is there, and if
    something else is in its place the path is blocked. -/
theorem ensureOne_spec {text : String} {path : Path} (member : path ∈ paths)
    (front : (Path.ofText text).IsFront path) :
    Grows home paths tree ((disk home).ensureOne text tree).2 ∧
      (((disk home).ensureOne text tree).1 = .ok () →
        ((disk home).ensureOne text tree).2.find? home text = some .directory) ∧
      ∀ failure, ((disk home).ensureOne text tree).1 = .error failure → failure.error = .present →
        Blocked ((disk home).ensureOne text tree).2 home text := by
  rw [ensureOne_disk]
  cases made : tree.makeDirectory home text with
  | ok after =>
    obtain ⟨grows, found⟩ := grows_of_makeDirectory made member front
    exact ⟨grows, fun _ => found, nofun⟩
  | error error =>
    dsimp only
    by_cases found : tree.find? home text = some .directory
    · rw [if_pos found]
      exact ⟨.refl home paths tree, fun _ => found, nofun⟩
    · rw [if_neg found]
      refine ⟨.refl home paths tree, nofun, fun failure failed present => ?_⟩
      obtain rfl := Except.error.inj failed
      exact blocked_of_present (present ▸ made) found

/-- A path as it is given has been seen to: it is a directory, or it ends in a single dot and is
    too long as a whole, or in front of the dot there is a file. -/
def Settled (tree : FileTree) (home : Place) (text : String) : Prop :=
  tree.find? home text = some .directory ∨
    (Path.namesOf text.toList).getLast? = some "." ∧
      (longestPath ≤ text.utf8ByteSize ∨ tree.Blocked home text)

/-- What has been seen to stays so in a tree that has grown. -/
theorem Settled.mono {before after : FileTree} {text : String}
    (settled : before.Settled home text) (grows : Grows home paths before after) :
    after.Settled home text := by
  rcases settled with found | ⟨last, long | ⟨content, stands⟩⟩
  · exact .inl (find?_directory_mono found grows.keepsDirectories)
  · exact .inr ⟨last, .inl long⟩
  · exact .inr ⟨last, .inr ⟨content, grows.kept _ _ stands⟩⟩

/-- What comes of making the folders for a path as it is given. -/
structure Ensures (home : Place) (paths : List Path) (before : FileTree) (text : String)
    (result : Except FileFailure Unit × FileTree) : Prop where
  grows : Grows home paths before result.2
  settled : result.1 = .ok () → Settled result.2 home text
  blocked : ∀ failure, result.1 = .error failure → failure.error = .present →
    Blocked result.2 home text

/-- Seeing to one folder sees to its path. -/
theorem ensures_ensureOne (home : Place) (tree : FileTree) {text : String} {path : Path}
    (member : path ∈ paths) (front : (Path.ofText text).IsFront path) :
    Ensures home paths tree text ((disk home).ensureOne text tree) := by
  obtain ⟨grows, found, blocked⟩ := ensureOne_spec member front
  exact ⟨grows, fun done => .inl (found done), blocked⟩

/-- What a path has been seen to with may come after more folders. -/
theorem Ensures.after {before middle : FileTree} {text : String}
    {result : Except FileFailure Unit × FileTree} (ensures : Ensures home paths middle text result)
    (grows : Grows home paths before middle) : Ensures home paths before text result :=
  ⟨grows.trans ensures.grows, ensures.settled, ensures.blocked⟩

/-- The lineage of a path starts with the path and its last name. -/
theorem lineageAsGiven_eq (path : List Char) :
    ∃ rest, Path.lineageAsGiven path = (path, (Path.cutName path).2) :: rest := by
  rw [Path.lineageAsGiven]
  split
  · exact ⟨[], rfl⟩
  · exact ⟨_, rfl⟩

/-- If a path ends in a single dot, what was found about the path before it holds for the whole. -/
theorem settled_of_dot {front text : List Char} (some : front ≠ []) (before : front <+: text)
    (names : Path.namesOf text = Path.namesOf front ++ ["."])
    (settled : tree.Settled home (String.ofList front) ∨ tree.Blocked home (String.ofList front)) :
    tree.Settled home (String.ofList text) := by
  have last : (Path.namesOf (String.ofList text).toList).getLast? = .some "." := by
    rw [String.toList_ofList, names, List.getLast?_concat]
  have start : (Path.ofText (String.ofList text)).start home =
      (Path.ofText (String.ofList front)).start home := by
    have same := (Path.isFront_of_prefix some before (names ▸ List.prefix_append _ _)).start
    simp only [Path.start, same]
  have plainNames : (Path.ofText (String.ofList text)).names =
      (Path.ofText (String.ofList front)).names := by
    simp [Path.ofText, names]
  have blocked (stands : tree.Blocked home (String.ofList front)) :
      tree.Blocked home (String.ofList text) := by
    rw [Blocked, Path.place, plainNames, start]
    exact stands
  have longer : (String.ofList front).utf8ByteSize ≤ (String.ofList text).utf8ByteSize := by
    obtain ⟨back, rfl⟩ := before
    rw [String.ofList_append, String.utf8ByteSize_append]
    exact Nat.le_add_right _ _
  rcases settled with (found | ⟨-, long | stands⟩) | stands
  · by_cases short : (String.ofList text).utf8ByteSize < longestPath
    · obtain ⟨place, located, directory⟩ := find?_eq_some_iff.mp found
      obtain ⟨given, -, leads⟩ := locate_eq_ok_iff.mp located
      refine .inl (find?_eq_some_iff.mpr ⟨place, locate_eq_ok_iff.mpr ⟨?_, short, ?_⟩, directory⟩)
      · intro empty
        have none : text = [] := by simpa using congrArg String.toList empty
        exact some (List.prefix_nil.mp (none ▸ before))
      · rw [String.toList_ofList] at leads ⊢
        rw [names, start, leadsTo_append]
        refine ⟨place, leads, leadsTo_cons.mpr ⟨place, ?_, leadsTo_nil.mpr rfl⟩⟩
        exact step_eq_ok_iff.mpr ⟨directory, .inl ⟨rfl, rfl⟩⟩
    · exact .inr ⟨last, .inl (Nat.le_of_not_lt short)⟩
  · exact .inr ⟨last, .inl (long.trans longer)⟩
  · exact .inr ⟨last, .inr (blocked stands)⟩
  · exact .inr ⟨last, .inr (blocked stands)⟩

/-- The folders for a path as it is given are made on the way along the path, and if that ends well
    the path has been seen to. -/
theorem ensures_lineageAsGiven (home : Place) (tree : FileTree) (text : List Char) {path : Path}
    (member : path ∈ paths) (front : (Path.ofText (String.ofList text)).IsFront path) :
    Ensures home paths tree (String.ofList text)
      ((disk home).ensureFromOutside (Path.lineageAsGiven text) tree) := by
  fun_induction Path.lineageAsGiven text generalizing tree with
  | case1 text last =>
    rw [Disk.ensureFromOutside]
    exact ensures_ensureOne home tree member front
  | case2 text more inductionHypothesis =>
    simp only [Bool.or_eq_true, List.isEmpty_iff, not_or] at more
    obtain ⟨before, without, names⟩ := Path.cutName_spec text
    rw [Path.namesOf_of_not_mem more.2 without] at names
    have outside := (Path.isFront_of_prefix more.1 before (names ▸ List.prefix_append _ _)).trans
      front
    have inner : Ensures home paths tree (String.ofList (Path.cutName text).1) _ :=
      inductionHypothesis tree outside
    have whole (middle : FileTree) := ensures_ensureOne home middle member front
    obtain ⟨rest, lineage⟩ := lineageAsGiven_eq (Path.cutName text).1
    rw [lineage] at inner ⊢
    rw [ensureFromOutside_disk]
    split
    · exact whole tree
    · generalize (disk home).ensureFromOutside _ tree = result at inner ⊢
      obtain ⟨outcome, after⟩ := result
      have dotted (settled : after.Settled home (String.ofList (Path.cutName text).1) ∨
          after.Blocked home (String.ofList (Path.cutName text).1))
          (dot : (Path.cutName text).2 = ['.']) :
          Ensures home paths tree (String.ofList text) (.ok (), after) := by
        rw [dot] at names
        exact ⟨inner.grows, fun _ => settled_of_dot more.1 before names settled, nofun⟩
      cases outcome with
      | error failure =>
        dsimp only
        split
        · next other =>
          refine ⟨inner.grows, nofun, fun again failed present => ?_⟩
          obtain rfl := Except.error.inj failed
          exact absurd present other
        · next present =>
          split
          · next dot => exact dotted (.inr (inner.blocked failure rfl (not_not.mp present))) dot
          · exact (whole after).after inner.grows
      | ok made =>
        dsimp only
        split
        · next dot => exact dotted (.inl (inner.settled rfl)) dot
        · exact (whole after).after inner.grows

/-- The folders that are made from the inside out are on the way. -/
theorem grows_ensureFromInside {lineage : List Path} {path : Path} (member : path ∈ paths)
    (fronts : ∀ front ∈ lineage, (Path.ofText front.text).IsFront path) :
    Grows home paths tree ((disk home).ensureFromInside lineage tree).2 := by
  induction lineage generalizing tree with
  | nil => exact .refl home paths tree
  | cons first outer inductionHypothesis =>
    obtain ⟨front, others⟩ := List.forall_mem_cons.mp fronts
    rw [Disk.ensureFromInside, bind_apply, makeDirectory_disk]
    cases made : tree.makeDirectory home first.text with
    | ok after => exact (grows_of_makeDirectory made member front).1
    | error error =>
      cases error with
      | absent =>
        dsimp only
        split
        · exact .refl home paths tree
        · have inner : Grows home paths tree ((disk home).ensureFromInside outer tree).2 :=
            inductionHypothesis others
          rw [bind_apply]
          generalize (disk home).ensureFromInside outer tree = result at inner ⊢
          obtain ⟨outcome, after⟩ := result
          cases outcome with
          | error failure => exact inner
          | ok done => exact inner.trans (ensureOne_spec member front).1
      | _ =>
        dsimp only
        rw [bind_apply, isDirectory_disk]
        dsimp only
        split <;> exact .refl home paths tree

section Writing

variable {before after : FileTree} {text content : String}

/-- A file is written exactly if its path leads to a place that is no directory, and then it is put
    there. -/
theorem write_eq_ok_iff : before.write home text content = .ok after ↔
    ∃ place, before.locate home text = .ok place ∧
      before.standing? place ≠ some .directory ∧ after = before.put place (.file content) := by
  rw [write]
  cases before.locate home text with
  | error error => exact iff_of_false nofun (by simp)
  | ok place =>
    cases stands : before.standing? place with
    | none => simp [bind, Except.bind, stands, eq_comm]
    | some entry =>
      cases entry with
      | directory => simp [bind, Except.bind, stands]
      | file old => simp [bind, Except.bind, stands, eq_comm]

end Writing

end FileTree

open FileTree

/-- The paths along which the bootstrap makes folders: that of the logs, and the one around the
    file of the descriptor. -/
def ways (settings : Settings) : List Path :=
  [.ofText settings.logFolder, (Path.ofText settings.descriptorFile).parent]

/-- What the work on files comes to. If it fails, the tree has grown at most. Else it has grown,
    the path of the logs has been seen to, and then the descriptor was written. -/
inductive Places (home : Place) (settings : Settings) (descriptor : Descriptor)
    (before : FileTree) : Except FileFailure Unit × FileTree → Prop
  | stopped {failure : FileFailure} {after : FileTree}
      (grows : Grows home (ways settings) before after) :
    Places home settings descriptor before (.error failure, after)
  | written {grown : FileTree} {place : Place}
      (grows : Grows home (ways settings) before grown)
      (settled : Settled grown home settings.logFolder)
      (located : grown.locate home (Path.ofText settings.descriptorFile).text = .ok place)
      (other : grown.standing? place ≠ some .directory) :
    Places home settings descriptor before
      (.ok (), grown.put place (.file descriptor.document))

section Work

variable {home : Place} {tree : FileTree} {settings : Settings} {descriptor : Descriptor}

/-- The step that makes the log folder does no more to the tree than to see to its path. -/
theorem ensureLogFolder_disk (home : Place) (path : String) (tree : FileTree) :
    ∃ lines, ensureLogFolder (disk home) path tree =
      ((lines, ((disk home).ensureAsGiven path tree).1),
        ((disk home).ensureAsGiven path tree).2) := by
  rw [ensureLogFolder, bind_apply, isDirectory_disk]
  by_cases found : tree.find? home path = some .directory
  · rw [decide_eq_true found]
    exact ⟨[], rfl⟩
  · rw [decide_eq_false found]
    exact ⟨_, rfl⟩

/-- The folders around the folder of a file are on the way to it, if its path has no dots. -/
theorem isFront_parent {path front : Path} (dotless : ∀ name ∈ path.names, name ≠ ".")
    (plain : path.IsPlain) (member : front ∈ path.parent.lineage) :
    (Path.ofText front.text).IsFront path.parent := by
  have fewer : path.parent.names <+: path.names := List.dropLast_prefix _
  have parentPlain : path.parent.IsPlain :=
    ⟨plain.root, fun name among => plain.names name (fewer.subset among)⟩
  exact Path.isFront_of_mem_lineage parentPlain
    (fun name among => dotless name (fewer.subset among)) member

/-- The step that saves the descriptor sees to its folder and then writes the file. -/
theorem saveDescriptor_disk (home : Place) (path : Path) (document : String) (tree : FileTree) :
    ∃ lines, saveDescriptor (disk home) path document tree =
      match (disk home).ensure path.parent tree with
      | (.error failure, grown) => ((lines, .error failure), grown)
      | (.ok (), grown) =>
        match grown.write home path.text document with
        | .ok after => ((lines, .ok ()), after)
        | .error error => ((lines, .error ⟨path.text, error⟩), grown) := by
  rw [saveDescriptor, bind_apply]
  generalize (disk home).ensure path.parent tree = result
  obtain ⟨outcome, grown⟩ := result
  cases outcome with
  | error failure => exact ⟨_, rfl⟩
  | ok done =>
    dsimp only
    rw [bind_apply, Disk.save, bind_apply, write_disk]
    cases grown.write home path.text document <;> exact ⟨_, rfl⟩

/-- Placing the folders and the descriptor ends as it should, well or with a failure. -/
theorem places (home : Place) (settings : Settings) (descriptor : Descriptor) (tree : FileTree) :
    Places home settings descriptor tree ((place (disk home) settings descriptor tree).1.2,
      (place (disk home) settings descriptor tree).2) := by
  obtain ⟨lines, made⟩ := ensureLogFolder_disk home settings.logFolder tree
  have ensures : Ensures home (ways settings) tree settings.logFolder
      ((disk home).ensureAsGiven settings.logFolder tree) := by
    have front := ensures_lineageAsGiven home tree settings.logFolder.toList
      (List.mem_cons_self : Path.ofText settings.logFolder ∈ ways settings)
    rw [String.ofList_toList] at front
    exact front ⟨Iff.rfl, List.prefix_rfl⟩
  rw [place, bind_apply, made]
  generalize (disk home).ensureAsGiven settings.logFolder tree = result at ensures ⊢
  obtain ⟨outcome, grown⟩ := result
  cases outcome with
  | error failure => exact .stopped ensures.grows
  | ok done =>
    obtain ⟨more, saved⟩ := saveDescriptor_disk home (.ofText settings.descriptorFile)
      descriptor.document grown
    dsimp only
    rw [bind_apply, saved]
    have plain := Path.isPlain_ofText settings.descriptorFile
    have dotless : ∀ name ∈ (Path.ofText settings.descriptorFile).names, name ≠ "." := by
      intro name member
      simpa using (List.mem_filter.mp member).2
    have further : Grows home (ways settings) grown
        ((disk home).ensure (Path.ofText settings.descriptorFile).parent grown).2 :=
      grows_ensureFromInside (.tail _ (.head _)) fun front member =>
        isFront_parent dotless plain member
    generalize (disk home).ensure (Path.ofText settings.descriptorFile).parent grown = result
      at further ⊢
    obtain ⟨outcome, around⟩ := result
    cases outcome with
    | error failure => exact .stopped (ensures.grows.trans further)
    | ok done =>
      dsimp only
      cases wrote : around.write home (Path.ofText settings.descriptorFile).text
          descriptor.document with
      | error error => exact .stopped (ensures.grows.trans further)
      | ok after =>
        obtain ⟨place, located, other, rfl⟩ := write_eq_ok_iff.mp wrote
        exact .written (ensures.grows.trans further) ((ensures.settled rfl).mono further) located
          other

end Work

/-- A path is passed over: it ends in a single dot, and it is too long as a whole, or there is a
    file in front of the dot. -/
def PassedOver (tree : FileTree) (home : Place) (text : String) : Prop :=
  (Path.namesOf text.toList).getLast? = some "." ∧
    (longestPath ≤ text.utf8ByteSize ∨ tree.Blocked home text)

/-- What a bootstrap that ends well leaves behind: the descriptor in its file, all other files as
    they were, and all directories. The path of the file is taken in its plain form, so that slashes
    and single dots at its end do not count. A directory that is new lies on one of the two paths.
    The folder of the logs is there unless its path was passed over. -/
structure Placed (home : Place) (settings : Settings) (descriptor : Descriptor)
    (before after : FileTree) : Prop where
  file : ∃ place, after.locate home (Path.ofText settings.descriptorFile).text = .ok place ∧
    after.standing? place = some (.file descriptor.document) ∧
    ∀ other, other ≠ place → ∀ content,
      after.standing? other = some (.file content) ↔ before.standing? other = some (.file content)
  kept : KeepsDirectories before after
  new : ∀ place, after.standing? place = some .directory →
    before.standing? place = some .directory ∨ ∃ path ∈ ways settings, ∃ front,
      front <+: path.names ∧ LeadsTo after (path.start home) front place
  folder : after.find? home settings.logFolder = some .directory ↔
    ¬PassedOver before home settings.logFolder

/-- What a bootstrap that fails leaves behind: all files as they were, and all directories. It has
    done nothing at all if it failed over the settings or over the entries. -/
structure Spares (environment : List (String × String)) (before after : FileTree) : Prop where
  files : ∀ place content,
    after.standing? place = some (.file content) ↔ before.standing? place = some (.file content)
  kept : KeepsDirectories before after
  early : (∀ settings descriptor, Settings.read ⟨[], environment⟩ = Except.ok settings →
    Descriptor.ofSettings settings ≠ .ok descriptor) → after = before

section Outcome

variable {home : Place} {tree : FileTree} {settings : Settings} {descriptor : Descriptor}

/-- If the log folder has been seen to and the file is written, all is in its place. -/
theorem placed_of_written {grown : FileTree} {place : Place}
    (grows : Grows home (ways settings) tree grown)
    (settled : Settled grown home settings.logFolder)
    (located : grown.locate home (Path.ofText settings.descriptorFile).text = .ok place)
    (other : grown.standing? place ≠ some .directory) :
    Placed home settings descriptor tree (grown.put place (.file descriptor.document)) := by
  have inside := ne_nil_of_ne_directory other
  have keeps := keepsDirectories_put other (.file descriptor.document)
  refine ⟨⟨place, locate_mono located keeps, ?_, fun asked different content => ?_⟩, ?_, ?_, ?_⟩
  · rw [standing?_put _ _ _ _ inside, if_pos rfl]
  · rw [standing?_put _ _ _ _ inside, if_neg different.symm]
    exact grows.file_iff asked content
  · exact fun asked stands => keeps asked (grows.keepsDirectories asked stands)
  · intro asked stands
    rw [standing?_put _ _ _ _ inside] at stands
    split at stands
    · cases stands
    · rcases grows.new asked _ stands with old | ⟨-, path, member, front, begins, leads⟩
      · exact .inl old
      · exact .inr ⟨path, member, front, begins, leads.mono keeps⟩
  · constructor
    · rintro found ⟨-, long | ⟨content, stands⟩⟩
      · obtain ⟨_, locatedLog, -⟩ := find?_eq_some_iff.mp found
        exact (locate_eq_ok_iff.mp locatedLog).2.1.not_ge long
      · obtain ⟨reached, locatedLog, directory⟩ := find?_eq_some_iff.mp found
        obtain rfl := place_of_locate locatedLog
        rw [standing?_put _ _ _ _ inside, grows.kept _ _ stands] at directory
        split at directory <;> cases directory
    · intro noticed
      rcases settled with found | ⟨last, long | ⟨content, stands⟩⟩
      · exact find?_directory_mono found keeps
      · exact absurd ⟨last, .inl long⟩ noticed
      · exact absurd ⟨last, .inr ⟨content, (grows.file_iff _ _).mp stands⟩⟩ noticed

/-- A tree that is as it was has been spared. -/
theorem Spares.refl (environment : List (String × String)) (tree : FileTree) :
    Spares environment tree tree :=
  ⟨fun _ _ => Iff.rfl, fun _ => id, fun _ => rfl⟩

/-- A bootstrap that does not end well leaves all files as they are, and one that ends well has
    placed the descriptor of its settings. -/
theorem places_or_leaves (home : Place) (environment : List (String × String)) (tree : FileTree) :
    let ended := run (disk home) ⟨[], environment⟩ tree
    (ended.1.exit ≠ .done → Spares environment tree ended.2) ∧
    (ended.1.exit = .done → ∃ settings descriptor,
      Settings.read ⟨[], environment⟩ = Except.ok settings ∧
        Descriptor.ofSettings settings = .ok descriptor ∧
        Placed home settings descriptor tree ended.2) := by
  dsimp only
  cases read : (Settings.read ⟨[], environment⟩ : Except (List Fault) Settings) with
  | error faults =>
    have refused : run (disk home) ⟨[], environment⟩ tree =
        (⟨.fatal, .usual, [settingsLine faults]⟩, tree) := by
      unfold run
      rw [read]
      rfl
    rw [refused]
    exact ⟨fun _ => .refl environment tree, nofun⟩
  | ok settings =>
    cases described : Descriptor.ofSettings settings with
    | error error =>
      cases said : error.objection? with
      | none =>
        rw [run_of_unsaid read described said]
        exact ⟨fun _ => .refl environment tree, nofun⟩
      | some about =>
        rw [run_of_said read described said]
        exact ⟨fun _ => .refl environment tree, nofun⟩
    | ok descriptor =>
      have placed := places home settings descriptor tree
      rw [run_of_described read described]
      generalize place (disk home) settings descriptor tree = result at placed ⊢
      obtain ⟨⟨lines, outcome⟩, after⟩ := result
      cases placed with
      | stopped grows =>
        refine ⟨fun _ => ⟨grows.file_iff, grows.keepsDirectories, fun early => ?_⟩, nofun⟩
        exact absurd described (early settings descriptor read)
      | written grows settled located other =>
        exact ⟨fun failed => absurd rfl failed, fun _ =>
          ⟨settings, descriptor, rfl, described, placed_of_written grows settled located other⟩⟩

end Outcome

/-- An environment in which nothing is wrong, with a folder for the logs. -/
def withLogFolder (folder : String) : List (String × String) :=
  ("PF_GAMESERVER_PORTS", "game,80,10000") :: withoutPorts.map fun setting =>
    if setting.1 = "PF_SERVER_LOG_DIRECTORY" then (setting.1, folder) else setting

/-- The folder for the logs is to be made at the place of a file. The bootstrap ends well, and the
    folder is not there. -/
theorem passes_over_file :
    let ended := run (disk []) ⟨[], withLogFolder "a/../f/."⟩ [(["f"], .file "x")]
    ended.1.exit = .done ∧ ended.2.find? [] "a/../f/." ≠ some .directory := by
  decide +kernel

end GameSidecar.Bootstrap
