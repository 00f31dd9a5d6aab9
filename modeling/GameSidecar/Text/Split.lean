/-!
# Splitting a text

A separator cuts a text into parts, of which there is one more than there are separators. Parts
may be empty. Joining the parts gives the text back.
-/

namespace GameSidecar.Text

/-- The parts between the occurrences of a separator. -/
def split (separator : Char) : List Char → List (List Char)
  | [] => [[]]
  | character :: rest =>
    if character = separator then [] :: split separator rest
    else
      match split separator rest with
      | [] => [[character]]
      | part :: parts => (character :: part) :: parts

/-- Parts with a separator between them. -/
def join (separator : Char) : List (List Char) → List Char
  | [] => []
  | [part] => part
  | part :: parts => part ++ separator :: join separator parts

/-- A text has at least one part. -/
theorem split_ne_nil (separator : Char) (text : List Char) : split separator text ≠ [] := by
  cases text with
  | nil => simp [split]
  | cons character rest =>
    simp only [split]
    split
    · simp
    · split <;> simp

/-- Joining undoes splitting. -/
theorem join_split (separator : Char) (text : List Char) :
    join separator (split separator text) = text := by
  induction text with
  | nil => rfl
  | cons character rest inductionHypothesis =>
    simp only [split]
    split
    · rename_i same
      cases parts : split separator rest with
      | nil => exact absurd parts (split_ne_nil separator rest)
      | cons part others =>
        rw [parts] at inductionHypothesis
        simp [join, inductionHypothesis, same]
    · cases parts : split separator rest with
      | nil => exact absurd parts (split_ne_nil separator rest)
      | cons part others =>
        rw [parts] at inductionHypothesis
        cases others <;> simp_all [join]

end GameSidecar.Text
