import GameSidecar.Text.Split

/-!
# What splitting gives

A separator divides a text in exactly one way. This is said without the function that splits: the
parts make up the text with a separator between any two of them, and no part has the separator in
it. Two texts with a separator between them are split one by one.
-/

namespace GameSidecar.Text

variable {separator : Char}

/-- Some parts divide a text: with a separator between any two of them they make it up, and none of
    them has the separator in it. There is at least one part. -/
structure Divides (separator : Char) (text : List Char) (parts : List (List Char)) : Prop where
  some : parts ≠ []
  joined : join separator parts = text
  without : ∀ part ∈ parts, separator ∉ part

/-- Parts are joined with a separator behind each but the last one. -/
theorem join_cons (part : List Char) {parts : List (List Char)} (more : parts ≠ []) :
    join separator (part :: parts) = part ++ separator :: join separator parts := by
  cases parts with
  | nil => exact absurd rfl more
  | cons next rest => rfl

/-- A text without the separator is one part. -/
theorem split_of_not_mem {text : List Char} (without : separator ∉ text) :
    split separator text = [text] := by
  induction text with
  | nil => rfl
  | cons character rest inductionHypothesis =>
    have other := List.ne_of_not_mem_cons without
    rw [split, if_neg other.symm, inductionHypothesis (List.not_mem_of_not_mem_cons without)]

/-- The parts of two texts with a separator between them are those of the one and then those of the
    other. -/
theorem split_append_split (front back : List Char) :
    split separator (front ++ separator :: back) =
      split separator front ++ split separator back := by
  induction front with
  | nil => simp [split]
  | cons character rest inductionHypothesis =>
    rw [List.cons_append, split, split, inductionHypothesis]
    split
    · rfl
    · cases parts : split separator rest with
      | nil => exact absurd parts (split_ne_nil separator rest)
      | cons part others => rfl

/-- The first part ends at the first separator. -/
theorem split_append {part : List Char} (without : separator ∉ part) (rest : List Char) :
    split separator (part ++ separator :: rest) = part :: split separator rest := by
  rw [split_append_split, split_of_not_mem without, List.singleton_append]

/-- The parts of a text hold no separator. -/
theorem not_mem_of_mem_split {text part : List Char} (member : part ∈ split separator text) :
    separator ∉ part := by
  induction text generalizing part with
  | nil =>
    obtain rfl := List.mem_singleton.mp member
    exact List.not_mem_nil
  | cons character rest inductionHypothesis =>
    rw [split] at member
    split at member
    · rcases List.mem_cons.mp member with rfl | later
      · exact List.not_mem_nil
      · exact inductionHypothesis later
    · next other =>
      cases parts : split separator rest with
      | nil => exact absurd parts (split_ne_nil separator rest)
      | cons first others =>
        rw [parts] at member inductionHypothesis
        rcases List.mem_cons.mp member with rfl | later
        · exact List.not_mem_cons_of_ne_of_not_mem (Ne.symm other)
            (inductionHypothesis List.mem_cons_self)
        · exact inductionHypothesis (.tail _ later)

/-- The parts that splitting gives divide the text, and no others do. -/
theorem split_eq_iff {text : List Char} {parts : List (List Char)} :
    split separator text = parts ↔ Divides separator text parts := by
  constructor
  · rintro rfl
    exact ⟨split_ne_nil separator text, join_split separator text,
      fun part member => not_mem_of_mem_split member⟩
  · rintro ⟨some, rfl, without⟩
    induction parts with
    | nil => exact absurd rfl some
    | cons part parts inductionHypothesis =>
      obtain ⟨first, later⟩ := List.forall_mem_cons.mp without
      by_cases last : parts = []
      · subst last
        exact split_of_not_mem first
      · rw [join_cons part last, split_append first, inductionHypothesis last later]

end GameSidecar.Text
