import Mathlib.Data.List.TakeWhile
import GameSidecar.Bootstrap.FileTree
import GameSidecar.Proofs.Splitting

/-!
# Walks through a tree of files

A path is cut before its last name, again and again, and each part is tried by itself. All parts
start where the path starts, and their names are the first names of the path. So the places that
they lead to lie on one walk.

Where a walk goes is decided by the names alone; the tree only says whether it can be made. A walk
that can be made stays possible as long as no directory goes away.
-/

namespace GameSidecar.Bootstrap

namespace Path

section Names

/-- The names of two paths with a slash between them are those of both. -/
theorem namesOf_append (front back : List Char) :
    namesOf (front ++ '/' :: back) = namesOf front ++ namesOf back := by
  simp [namesOf, Text.split_append_split]

/-- A text without a slash is one name, unless it is empty. -/
theorem namesOf_of_not_mem {name : List Char} (some : name ≠ []) (without : '/' ∉ name) :
    namesOf name = [String.ofList name] := by
  simp [namesOf, Text.split_of_not_mem without, some]

/-- Slashes at the end of a path add no name. -/
theorem namesOf_append_slashes (front : List Char) {slashes : List Char}
    (all : ∀ character ∈ slashes, character = '/') :
    namesOf (front ++ slashes) = namesOf front := by
  induction slashes generalizing front with
  | nil => rw [List.append_nil]
  | cons character slashes inductionHypothesis =>
    obtain ⟨rfl, later⟩ := List.forall_mem_cons.mp all
    have none : namesOf slashes = [] := inductionHypothesis [] later
    rw [namesOf_append, none, List.append_nil]

/-- Slashes at the front of a path add no name. -/
theorem namesOf_slashes_append {slashes : List Char} (back : List Char)
    (all : ∀ character ∈ slashes, character = '/') : namesOf (slashes ++ back) = namesOf back := by
  induction slashes with
  | nil => rfl
  | cons character slashes inductionHypothesis =>
    obtain ⟨rfl, later⟩ := List.forall_mem_cons.mp all
    have first := namesOf_append [] (slashes ++ back)
    rw [inductionHypothesis later] at first
    exact first

end Names

section Cutting

/-- A path up to its last slash. -/
def upToSlash (path : List Char) : List Char :=
  (path.reverse.dropWhile (· ≠ '/')).reverse

/-- A path up to its last slash, with the name behind it, is the path. -/
theorem upToSlash_append (path : List Char) : upToSlash path ++ (cut path).2 = path := by
  rw [upToSlash, cut, ← List.reverse_append, List.takeWhile_append_dropWhile, List.reverse_reverse]

/-- Where a path is cut, only slashes are left out. -/
theorem cut_append_slashes (path : List Char) : ∃ slashes : List Char,
    (∀ character ∈ slashes, character = '/') ∧ upToSlash path = (cut path).1 ++ slashes := by
  rw [upToSlash, cut]
  generalize path.reverse.dropWhile (· ≠ '/') = inner
  by_cases empty : (inner.dropWhile (· = '/')).isEmpty
  · exact ⟨[], List.forall_mem_nil _, by simp only [empty, if_true, List.append_nil]⟩
  · refine ⟨(inner.takeWhile (· = '/')).reverse, ?_, ?_⟩
    · intro character member
      have slash := List.mem_takeWhile_imp (List.mem_reverse.mp member)
      exact of_decide_eq_true slash
    · simp only [empty, Bool.false_eq_true, if_false]
      rw [← List.reverse_append, List.takeWhile_append_dropWhile]

/-- The name behind the last slash comes after all other names. -/
theorem namesOf_upToSlash (path : List Char) :
    namesOf path = namesOf (upToSlash path) ++ namesOf (cut path).2 := by
  have whole := upToSlash_append path
  rw [upToSlash] at whole ⊢
  cases front : path.reverse.dropWhile (· ≠ '/') with
  | nil =>
    rw [front] at whole
    exact congrArg namesOf whole.symm
  | cons character outer =>
    have slash : character = '/' := by
      have first := List.head?_dropWhile_not (· ≠ '/') path.reverse
      rw [front] at first
      simpa using first
    subst slash
    rw [front, List.reverse_cons, List.append_assoc] at whole
    calc
      namesOf path = namesOf (outer.reverse ++ '/' :: (cut path).2) := congrArg namesOf whole.symm
      _ = namesOf outer.reverse ++ namesOf (cut path).2 := namesOf_append ..
      _ = namesOf ('/' :: outer).reverse ++ namesOf (cut path).2 := by
        rw [List.reverse_cons, namesOf_append_slashes _ (List.forall_mem_singleton.mpr rfl)]

/-- The name behind the last slash comes after those of the first part of a path that is cut. -/
theorem namesOf_cut (path : List Char) :
    namesOf path = namesOf (cut path).1 ++ namesOf (cut path).2 := by
  obtain ⟨slashes, all, front⟩ := cut_append_slashes path
  rw [namesOf_upToSlash, front, namesOf_append_slashes _ all]

/-- The first part of a path that is cut is the beginning of it. -/
theorem isPrefix_cut (path : List Char) : (cut path).1 <+: path := by
  obtain ⟨slashes, -, front⟩ := cut_append_slashes path
  have whole := upToSlash_append path
  rw [front, List.append_assoc] at whole
  exact ⟨_, whole⟩

/-- Behind the last slash there is no slash. -/
theorem not_mem_cut (path : List Char) : '/' ∉ (cut path).2 := by
  intro member
  have other := List.mem_takeWhile_imp (List.mem_reverse.mp member)
  exact of_decide_eq_true other rfl

/-- A path before its last name starts as the path does, and its names are all but the last one. -/
theorem cutName_spec (path : List Char) :
    (cutName path).1 <+: path ∧ '/' ∉ (cutName path).2 ∧
      namesOf path = namesOf (cutName path).1 ++ namesOf (cutName path).2 := by
  rw [cutName]
  dsimp only
  by_cases none : (cut path).2.isEmpty
  · have named := namesOf_cut path
    rw [List.isEmpty_iff.mp none, namesOf_cut (cut path).1] at named
    rw [if_pos none]
    exact ⟨(isPrefix_cut _).trans (isPrefix_cut path), not_mem_cut _,
      named.trans (List.append_nil _)⟩
  · rw [if_neg none]
    exact ⟨isPrefix_cut path, not_mem_cut path, namesOf_cut path⟩

end Cutting

section Plain

/-- A name has a character, and none of them is a slash. -/
theorem mem_namesOf {text : List Char} {name : String} (member : name ∈ namesOf text) :
    name.toList ≠ [] ∧ '/' ∉ name.toList := by
  obtain ⟨part, among, rfl⟩ := List.mem_map.mp member
  obtain ⟨inside, some⟩ := List.mem_filter.mp among
  rw [String.toList_ofList]
  exact ⟨by simpa using some, Text.not_mem_of_mem_split inside⟩

/-- Names are written one after the other, with a slash between them. -/
theorem toList_intercalate_cons (name next : String) (names : List String) :
    ("/".intercalate (name :: next :: names)).toList =
      name.toList ++ '/' :: ("/".intercalate (next :: names)).toList := by
  rw [String.intercalate_cons_cons]
  simp

/-- The names of a text that is made of names are these names. -/
theorem namesOf_intercalate {names : List String}
    (fine : ∀ name ∈ names, name.toList ≠ [] ∧ '/' ∉ name.toList) :
    namesOf ("/".intercalate names).toList = names := by
  induction names with
  | nil => rfl
  | cons name names inductionHypothesis =>
    obtain ⟨⟨some, without⟩, later⟩ := List.forall_mem_cons.mp fine
    have single : namesOf name.toList = [name] := by
      rw [namesOf_of_not_mem some without, String.ofList_toList]
    cases names with
    | nil => simpa using single
    | cons next names =>
      rw [toList_intercalate_cons, namesOf_append, single, inductionHypothesis later,
        List.singleton_append]

/-- A path has no root exactly if it starts with no slash. -/
theorem rootOf_eq_empty_iff {text : List Char} : rootOf text = "" ↔ ¬['/'] <+: text := by
  cases text with
  | nil => simp [rootOf]
  | cons character rest =>
    by_cases slash : character = '/'
    · subst slash
      refine iff_of_false ?_ (not_not_intro (List.prefix_append ['/'] rest))
      rw [rootOf, List.takeWhile_cons_of_pos (by simp), if_neg (by simp)]
      split <;> decide
    · refine iff_of_true ?_ (by simpa using Ne.symm slash)
      rw [rootOf, List.takeWhile_cons_of_neg (by simpa using slash)]
      rfl

/-- A root consists of slashes. -/
theorem slash_of_mem_rootOf {text : List Char} : ∀ character ∈ (rootOf text).toList,
    character = '/' := by
  rw [rootOf]
  split
  · exact List.forall_mem_nil _
  · split <;> simp

/-- A path is a front of another one: both start alike, and its names are the first names of the
    other. -/
structure IsFront (front path : Path) : Prop where
  start : front.root = "" ↔ path.root = ""
  names : front.names <+: path.names

/-- What is in front of the front of a path is in front of the path. -/
theorem IsFront.trans {first second third : Path} (left : first.IsFront second)
    (right : second.IsFront third) : first.IsFront third :=
  ⟨left.start.trans right.start, left.names.trans right.names⟩

/-- A beginning of a text is in front of its path, if its names are the first ones. -/
theorem isFront_of_prefix {front text : List Char} (some : front ≠ []) (before : front <+: text)
    (names : namesOf front <+: namesOf text) :
    (ofText (String.ofList front)).IsFront (ofText (String.ofList text)) := by
  refine ⟨?_, ?_⟩
  · simp only [ofText, String.toList_ofList, rootOf_eq_empty_iff]
    obtain ⟨back, rfl⟩ := before
    cases front with
    | nil => exact absurd rfl some
    | cons character front => simp
  · simp only [ofText, String.toList_ofList]
    exact names.filter _

/-- A path is written with slashes for its root, and with names. -/
structure IsPlain (path : Path) : Prop where
  root : ∀ character ∈ path.root.toList, character = '/'
  names : ∀ name ∈ path.names, name.toList ≠ [] ∧ '/' ∉ name.toList

/-- The path of a text is written with slashes and names. -/
theorem isPlain_ofText (text : String) : (ofText text).IsPlain where
  root := slash_of_mem_rootOf
  names _ member := mem_namesOf (List.mem_filter.mp member).1

/-- Names are written without a slash in front of them. -/
theorem not_slash_first {name : String} {names : List String}
    (fine : ∀ given ∈ name :: names, given.toList ≠ [] ∧ '/' ∉ given.toList) :
    ¬['/'] <+: ("/".intercalate (name :: names)).toList := by
  obtain ⟨⟨some, without⟩, -⟩ := List.forall_mem_cons.mp fine
  have starts : ∃ back, ("/".intercalate (name :: names)).toList = name.toList ++ back := by
    cases names with
    | nil => exact ⟨[], by simp⟩
    | cons next names => exact ⟨_, toList_intercalate_cons name next names⟩
  obtain ⟨back, written⟩ := starts
  rw [written]
  cases letters : name.toList with
  | nil => exact absurd letters some
  | cons character others =>
    have other : '/' ≠ character := fun same => without (letters ▸ same ▸ List.mem_cons_self)
    simpa using other

/-- What is written of a plain path is a front of it. -/
theorem IsPlain.isFront_text {path : Path} (plain : path.IsPlain)
    (dotless : ∀ name ∈ path.names, name ≠ ".") : (ofText path.text).IsFront path := by
  obtain ⟨root, names⟩ := path
  rw [text]
  dsimp only
  by_cases bare : (root.isEmpty && names.isEmpty) = true
  · obtain ⟨rootless, nameless⟩ := Bool.and_eq_true_iff.mp bare
    obtain rfl := String.isEmpty_iff.mp rootless
    obtain rfl := List.isEmpty_iff.mp nameless
    exact ⟨by decide, by decide⟩
  · rw [if_neg bare]
    refine ⟨?_, ?_⟩
    · dsimp only [ofText]
      rw [rootOf_eq_empty_iff, String.toList_append]
      by_cases rootless : root = ""
      · subst rootless
        refine iff_of_true (fun slash => ?_) rfl
        cases names with
        | nil => exact bare rfl
        | cons name names => exact not_slash_first plain.names slash
      · refine iff_of_false (not_not_intro ?_) rootless
        cases written : root.toList with
        | nil => exact absurd (String.toList_eq_nil_iff.mp written) rootless
        | cons character others =>
          obtain rfl := plain.root character (written ▸ List.mem_cons_self)
          exact List.prefix_append ['/'] _
    · have named : (ofText (root ++ "/".intercalate names)).names = names := by
        dsimp only [ofText]
        rw [String.toList_append, namesOf_slashes_append _ plain.root,
          namesOf_intercalate plain.names]
        exact List.filter_eq_self.mpr fun name member => by simpa using dotless name member
      exact ⟨[], (List.append_nil _).trans named⟩

end Plain

section Lineage

/-- All paths of a lineage are fronts of the first one, down to the names of the paths around it. -/
theorem isFront_of_mem_lineageFrom {root : String} {names : List String} {front : Path}
    (member : front ∈ lineageFrom root names) :
    front.root = root ∧ front.names <+: names.reverse := by
  induction names with
  | nil =>
    obtain rfl := List.mem_singleton.mp member
    exact ⟨rfl, List.nil_prefix⟩
  | cons name names inductionHypothesis =>
    rcases List.mem_cons.mp member with rfl | outer
    · exact ⟨rfl, List.prefix_rfl⟩
    · obtain ⟨same, before⟩ := inductionHypothesis outer
      rw [List.reverse_cons]
      exact ⟨same, before.trans (List.prefix_append ..)⟩

/-- A path has its whole lineage in front of it, unless a single dot is among its names. -/
theorem isFront_of_mem_lineage {path front : Path} (plain : path.IsPlain)
    (dotless : ∀ name ∈ path.names, name ≠ ".") (member : front ∈ path.lineage) :
    (ofText front.text).IsFront path := by
  obtain ⟨same, before⟩ := isFront_of_mem_lineageFrom member
  rw [List.reverse_reverse] at before
  have frontPlain : front.IsPlain :=
    ⟨same ▸ plain.root, fun name among => plain.names name (before.subset among)⟩
  have whole := frontPlain.isFront_text fun name among => dotless name (before.subset among)
  exact whole.trans ⟨by rw [same], before⟩

end Lineage

/-- Where a path starts: at the root, or at a directory that is given. -/
def start (home : Place) (path : Path) : Place :=
  if path.root = "" then home else []

/-- The place that a plain path is about. Two dots go up, and any other name goes down. -/
def place (home : Place) (path : Path) : Place :=
  path.names.foldl (fun place name => if name = ".." then place.dropLast else place ++ [name])
    (path.start home)

end Path

namespace FileTree

/-- Some names lead from one place to another one, each place on the way being a directory. -/
def LeadsTo (tree : FileTree) (start : Place) (names : List String) (place : Place) : Prop :=
  names.foldlM (step tree) start = .ok place

section Walks

variable {tree : FileTree} {start place next : Place} {name : String} {names : List String}

/-- A step is made from a directory only: to the same one, to the one around it, or to a name in it
    that is not too long. -/
theorem step_eq_ok_iff : tree.step place name = .ok next ↔
    tree.standing? place = some .directory ∧
      ((name = "." ∧ next = place) ∨ (name = ".." ∧ next = place.dropLast) ∨
        (name ≠ "." ∧ name ≠ ".." ∧ name.utf8ByteSize ≤ longestName ∧ next = place ++ [name])) := by
  rw [step]
  cases tree.standing? place with
  | none => exact iff_of_false nofun (by simp)
  | some entry =>
    cases entry with
    | file text => exact iff_of_false nofun (by simp)
    | directory =>
      dsimp only
      split
      · next dot => simp [dot, eq_comm]
      · next noDot =>
        split
        · next dots => simp [dots, eq_comm]
        · next noDots =>
          split
          · next long => simp [noDot, noDots, Nat.not_le.mpr long]
          · next short => simp [noDot, noDots, Nat.not_lt.mp short, eq_comm]

/-- No name leads nowhere else. -/
@[simp] theorem leadsTo_nil : LeadsTo tree start [] place ↔ place = start := by
  simp [LeadsTo, pure, Except.pure, eq_comm]

/-- Names lead on from where the first of them leads. -/
theorem leadsTo_cons : LeadsTo tree start (name :: names) place ↔
    ∃ next, tree.step start name = .ok next ∧ LeadsTo tree next names place := by
  rw [LeadsTo, List.foldlM_cons]
  cases tree.step start name with
  | error error => exact iff_of_false nofun (by simp)
  | ok next => simp [LeadsTo, bind, Except.bind]

/-- A walk is made in two parts as it is in one. -/
theorem leadsTo_append {more : List String} : LeadsTo tree start (names ++ more) place ↔
    ∃ next, LeadsTo tree start names next ∧ LeadsTo tree next more place := by
  induction names generalizing start with
  | nil => simp
  | cons name names inductionHypothesis =>
    simp only [List.cons_append, leadsTo_cons, inductionHypothesis]
    constructor
    · rintro ⟨first, steps, next, leads, further⟩
      exact ⟨next, ⟨first, steps, leads⟩, further⟩
    · rintro ⟨next, ⟨first, steps, leads⟩, further⟩
      exact ⟨first, steps, next, leads, further⟩

/-- No directory of one tree is missing in another. -/
def KeepsDirectories (before after : FileTree) : Prop :=
  ∀ place, before.standing? place = some .directory → after.standing? place = some .directory

/-- A walk that can be made can still be made when directories have been added. -/
theorem LeadsTo.mono {after : FileTree} (leads : LeadsTo tree start names place)
    (keeps : KeepsDirectories tree after) : LeadsTo after start names place := by
  induction names generalizing start with
  | nil => exact leadsTo_nil.mpr (leadsTo_nil.mp leads)
  | cons name names inductionHypothesis =>
    obtain ⟨next, steps, further⟩ := leadsTo_cons.mp leads
    obtain ⟨stands, goes⟩ := step_eq_ok_iff.mp steps
    exact leadsTo_cons.mpr
      ⟨next, step_eq_ok_iff.mpr ⟨keeps start stands, goes⟩, inductionHypothesis further⟩

/-- Single dots can be left out. -/
theorem LeadsTo.plain (leads : LeadsTo tree start names place) :
    LeadsTo tree start (names.filter (· ≠ ".")) place := by
  induction names generalizing start with
  | nil => exact leads
  | cons name names inductionHypothesis =>
    obtain ⟨next, steps, further⟩ := leadsTo_cons.mp leads
    have rest := inductionHypothesis further
    by_cases dot : name = "."
    · subst dot
      rw [List.filter_cons_of_neg (by simp)]
      obtain ⟨-, goes⟩ := step_eq_ok_iff.mp steps
      obtain rfl : next = start := by simpa using goes
      exact rest
    · rw [List.filter_cons_of_pos (by simpa using dot)]
      exact leadsTo_cons.mpr ⟨next, steps, rest⟩

/-- The names alone say where a walk ends. -/
theorem LeadsTo.eq_foldl (leads : LeadsTo tree start names place)
    (dotless : ∀ name ∈ names, name ≠ ".") :
    place = names.foldl (fun place name =>
      if name = ".." then place.dropLast else place ++ [name]) start := by
  induction names generalizing start with
  | nil => exact leadsTo_nil.mp leads
  | cons name names inductionHypothesis =>
    obtain ⟨noDot, later⟩ := List.forall_mem_cons.mp dotless
    obtain ⟨next, steps, further⟩ := leadsTo_cons.mp leads
    obtain ⟨-, goes⟩ := step_eq_ok_iff.mp steps
    rw [List.foldl_cons, inductionHypothesis further later]
    congr 1
    rcases goes with ⟨dot, -⟩ | ⟨dots, rfl⟩ | ⟨-, noDots, -, rfl⟩
    · exact absurd dot noDot
    · rw [if_pos dots]
    · rw [if_neg noDots]

end Walks

section Locating

variable {tree after : FileTree} {home place : Place} {path : String}

/-- A path that starts with a slash is walked from the root, any other one from home. -/
theorem start_ofText (home : Place) (path : String) :
    (Path.ofText path).start home = if path.startsWith "/" then [] else home := by
  have rootless : (Path.ofText path).root = "" ↔ ¬path.startsWith "/" := by
    rw [String.startsWith_string_iff]
    exact Path.rootOf_eq_empty_iff
  rw [Path.start]
  by_cases slash : path.startsWith "/"
  · rw [if_pos slash, if_neg (not_not_intro slash ∘ rootless.mp)]
  · rw [if_neg slash, if_pos (rootless.mpr slash)]

/-- A path is located if it is neither empty nor too long and its names lead somewhere. -/
theorem locate_eq_ok_iff : tree.locate home path = .ok place ↔
    path ≠ "" ∧ path.utf8ByteSize < longestPath ∧
      LeadsTo tree ((Path.ofText path).start home) (Path.namesOf path.toList) place := by
  rw [locate, start_ofText]
  by_cases empty : path.isEmpty
  · rw [if_pos empty]
    exact iff_of_false nofun fun fine => fine.1 (String.isEmpty_iff.mp empty)
  · rw [if_neg empty]
    have some : path ≠ "" := fun same => empty (String.isEmpty_iff.mpr same)
    by_cases long : longestPath ≤ path.utf8ByteSize
    · rw [if_pos long]
      exact iff_of_false nofun fun fine => fine.2.1.not_ge long
    · rw [if_neg long]
      exact ⟨fun leads => ⟨some, Nat.lt_of_not_le long, leads⟩, fun fine => fine.2.2⟩

/-- The plain form of a path leads where the path leads. -/
theorem leadsTo_of_locate (located : tree.locate home path = .ok place) :
    LeadsTo tree ((Path.ofText path).start home) (Path.ofText path).names place :=
  (locate_eq_ok_iff.mp located).2.2.plain

/-- A path that is located leads to the place that its names spell. -/
theorem place_of_locate (located : tree.locate home path = .ok place) :
    place = (Path.ofText path).place home :=
  (leadsTo_of_locate located).eq_foldl fun name member => by
    simpa using (List.mem_filter.mp member).2

/-- A path is located at the same place when directories have been added. -/
theorem locate_mono (located : tree.locate home path = .ok place)
    (keeps : KeepsDirectories tree after) : after.locate home path = .ok place := by
  obtain ⟨some, short, leads⟩ := locate_eq_ok_iff.mp located
  exact locate_eq_ok_iff.mpr ⟨some, short, leads.mono keeps⟩

/-- What is found at a path is what stands where it is located. -/
theorem find?_eq_some_iff {entry : Entry} : tree.find? home path = some entry ↔
    ∃ place, tree.locate home path = .ok place ∧ tree.standing? place = some entry := by
  rw [find?]
  cases tree.locate home path <;> simp

/-- A directory that is found is found as long as no directory goes away. -/
theorem find?_directory_mono (found : tree.find? home path = some .directory)
    (keeps : KeepsDirectories tree after) : after.find? home path = some .directory := by
  obtain ⟨place, located, stands⟩ := find?_eq_some_iff.mp found
  exact find?_eq_some_iff.mpr ⟨place, locate_mono located keeps, keeps place stands⟩

/-- A walk is not stopped by what is there, but by what is missing or is no directory. -/
theorem locate_ne_present : tree.locate home path ≠ .error .present := by
  have walk (start : Place) (names : List String) :
      names.foldlM (step tree) start ≠ .error .present := by
    induction names generalizing start with
    | nil => exact nofun
    | cons name names inductionHypothesis =>
      rw [List.foldlM_cons]
      cases steps : tree.step start name with
      | ok next => exact inductionHypothesis next
      | error error =>
        intro same
        obtain rfl := Except.error.inj same
        rw [step] at steps
        split at steps
        · cases steps
        · cases steps
        · split at steps
          · cases steps
          · split at steps
            · cases steps
            · split at steps <;> cases steps
  rw [locate]
  split
  · exact nofun
  · split
    · exact nofun
    · exact walk _ _

end Locating

end FileTree

end GameSidecar.Bootstrap
