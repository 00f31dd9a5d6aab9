import GameSidecar.Proofs.Entries

/-!
# Segments of a text

A text of ports or of metadata consists of segments with question marks between them. The segments
that are not empty are its entries, and they are read one after the other: either each of them
reads as an item, or the first one that does not decides what is wrong with the text.

The other way round, items are strung together to a text. Each of them is shown by an entry, and
there is at least one question mark between two of them. More question marks there, and any number
in front and at the end, make no difference.
-/

namespace GameSidecar.Bootstrap

open Text (Divides split_eq_iff)

/-- The entries of a text are its segments that are not empty. -/
theorem entries_eq {text : List Char} {segments : List (List Char)}
    (divides : Divides '?' text segments) :
    entries text = segments.filter fun segment => !segment.isEmpty := by
  rw [entries, split_eq_iff.mpr divides]

/-- The entries of two texts with a question mark between them are those of both. -/
theorem entries_append (front back : List Char) :
    entries (front ++ '?' :: back) = entries front ++ entries back := by
  rw [entries, Text.split_append_split, List.filter_append, entries, entries]

/-- A question mark in front adds no entry. -/
theorem entries_mark (text : List Char) : entries ('?' :: text) = entries text :=
  entries_append [] text

/-- A text without a question mark is one entry, unless it is empty. -/
theorem entries_of_not_mem {entry : List Char} (given : entry ≠ []) (whole : '?' ∉ entry) :
    entries entry = [entry] := by
  rw [entries, Text.split_of_not_mem whole]
  exact List.filter_cons_of_pos (by simpa using given)

/-- No entry holds a question mark. -/
theorem not_mem_of_mem_entries {text entry : List Char} (member : entry ∈ entries text) :
    '?' ∉ entry :=
  Text.not_mem_of_mem_split (List.mem_filter.mp member).1

section Reading

variable {ε α : Type} {read : List Char → Except ε α}

/-- The entries of a text fail to be read with the error of the first segment that is not empty and
    cannot be read. -/
theorem mapM_entries_eq_error_iff {text : List Char} {segments : List (List Char)}
    (divides : Divides '?' text segments) {error : ε} :
    (entries text).mapM read = .error error ↔
      ∃ front segment back, segments = front ++ segment :: back ∧
        (∀ earlier ∈ front, earlier ≠ [] → ∃ value, read earlier = .ok value) ∧
        segment ≠ [] ∧ read segment = .error error := by
  rw [entries_eq divides, mapM_eq_error_iff]
  constructor
  · rintro ⟨front, segment, back, cut, fine, failed⟩
    obtain ⟨earlier, later, rfl, rfl, rest⟩ := List.filter_eq_append_iff.mp cut
    obtain ⟨blank, others, rfl, skipped, given, -⟩ := List.filter_eq_cons_iff.mp rest
    refine ⟨earlier ++ blank, segment, others, (List.append_assoc ..).symm, ?_,
      by simpa using given, failed⟩
    intro before member some
    rcases List.mem_append.mp member with first | second
    · exact fine before (by simp [first, some])
    · exact absurd (skipped before second) (by simpa using some)
  · rintro ⟨front, segment, back, rfl, fine, given, failed⟩
    refine ⟨_, _, _,
      by rw [List.filter_append, List.filter_cons_of_pos (by simpa using given)], ?_, failed⟩
    intro before member
    obtain ⟨present, some⟩ := List.mem_filter.mp member
    exact fine before present (by simpa using some)

end Reading

/-- A text strings items together: each of them is shown by an entry, behind an entry there is a
    question mark or the end of the text, and there may be any question marks before an entry and
    at the end. -/
inductive Strung {α : Type} (shows : α → List Char → Prop) : List α → List Char → Prop
  | nothing : Strung shows [] []
  | mark {items : List α} {text : List Char} (rest : Strung shows items text) :
    Strung shows items ('?' :: text)
  | last {item : α} {entry : List Char} (shown : shows item entry) : Strung shows [item] entry
  | item {item : α} {items : List α} {entry text : List Char} (shown : shows item entry)
      (rest : Strung shows items text) : Strung shows (item :: items) (entry ++ '?' :: text)

section Strings

variable {α : Type} {shows : α → List Char → Prop}

/-- Segments with question marks between them string together what those show that are not
    empty. -/
theorem strung_join {items : List α} {segments : List (List Char)} (some : segments ≠ [])
    (shown : List.Forall₂ (fun entry item => shows item entry)
      (segments.filter fun segment => !segment.isEmpty) items) :
    Strung shows items (Text.join '?' segments) := by
  induction segments generalizing items with
  | nil => exact absurd rfl some
  | cons segment segments inductionHypothesis =>
    by_cases last : segments = []
    · subst last
      cases segment with
      | nil =>
        obtain rfl := List.forall₂_nil_left_iff.mp shown
        exact .nothing
      | cons character segment =>
        obtain ⟨item, others, first, rest, rfl⟩ := List.forall₂_cons_left_iff.mp shown
        obtain rfl := List.forall₂_nil_left_iff.mp rest
        exact .last first
    · rw [Text.join_cons segment last]
      cases segment with
      | nil => exact .mark (inductionHypothesis last shown)
      | cons character segment =>
        obtain ⟨item, others, first, rest, rfl⟩ := List.forall₂_cons_left_iff.mp shown
        exact .item first (inductionHypothesis last rest)

variable (whole : ∀ item entry, shows item entry → entry ≠ [] ∧ '?' ∉ entry)
include whole

/-- A text strings items together exactly if its entries show them, one by one. -/
theorem strung_iff {items : List α} {text : List Char} :
    Strung shows items text ↔
      List.Forall₂ (fun entry item => shows item entry) (entries text) items := by
  constructor
  · intro strung
    induction strung with
    | nothing => exact .nil
    | mark rest inductionHypothesis => rwa [entries_mark]
    | @last item entry shown =>
      obtain ⟨given, unmarked⟩ := whole item entry shown
      rw [entries_of_not_mem given unmarked]
      exact .cons shown .nil
    | @item item items entry text shown rest inductionHypothesis =>
      obtain ⟨given, unmarked⟩ := whole item entry shown
      rw [entries_append, entries_of_not_mem given unmarked]
      exact .cons shown inductionHypothesis
  · intro shown
    rw [← Text.join_split '?' text]
    exact strung_join (Text.split_ne_nil '?' text) shown

/-- The entries of a text read as the items that it strings together, if entries are read as what
    they show. -/
theorem mapM_entries_eq_ok_iff {ε : Type} {read : List Char → Except ε α}
    (reads : ∀ item entry, '?' ∉ entry → entry ≠ [] → (read entry = .ok item ↔ shows item entry))
    {text : List Char} {items : List α} :
    (entries text).mapM read = .ok items ↔ Strung shows items text := by
  rw [mapM_eq_ok_iff, strung_iff whole]
  have each : ∀ entry ∈ entries text, '?' ∉ entry ∧ entry ≠ [] := by
    intro entry member
    exact ⟨not_mem_of_mem_entries member, by simpa using (List.mem_filter.mp member).2⟩
  constructor
  · intro read
    refine List.Forall₂.imp ?_ ((List.forall₂_and_left _ _).mpr ⟨each, read⟩)
    rintro entry item ⟨⟨unmarked, given⟩, same⟩
    exact (reads item entry unmarked given).mp same
  · refine List.Forall₂.imp fun entry item shown => ?_
    obtain ⟨given, unmarked⟩ := whole item entry shown
    exact (reads item entry unmarked given).mpr shown

end Strings

end GameSidecar.Bootstrap
