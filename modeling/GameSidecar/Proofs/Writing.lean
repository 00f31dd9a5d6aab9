import Mathlib.Algebra.Group.Nat.Defs
import GameSidecar.Json.Writer
import GameSidecar.Proofs.Grammar
import GameSidecar.Proofs.Pairs

/-!
# What is written is a document

The writer keeps to the grammar. Whatever characters a text has, its escapes spell them. An integer
is written with as many digits as it needs. Arrays and objects are written part by part, so that a
value is a document as soon as the values in it are. An object that holds a name twice is no map,
and is not what its document stands for.
-/

namespace GameSidecar.Json

section Numbers

/-- A number is written in digits. -/
theorem isDigit_write (number : Nat) :
    ∀ digit ∈ Decimal.write number, digit.isDigit = true := by
  have each : ∀ value : Fin 10, (Decimal.digit value.val).isDigit = true := by decide
  induction number using Nat.strongRecOn with
  | _ number inductionHypothesis =>
    rw [Decimal.write]
    split
    · next small => exact List.forall_mem_singleton.mpr (each ⟨number, small⟩)
    · next large =>
      have last := each ⟨number % 10, Nat.mod_lt number (by decide)⟩
      exact List.forall_mem_append.mpr
        ⟨inductionHypothesis (number / 10) (by omega), List.forall_mem_singleton.mpr last⟩

/-- The digits that a number is written in have its value. -/
theorem value_write (number : Nat) : Numeral.value (Decimal.write number) = number := by
  have each : ∀ value : Fin 10, (Decimal.digit value.val).toNat - 0x30 = value.val := by decide
  induction number using Nat.strongRecOn with
  | _ number inductionHypothesis =>
    rw [Decimal.write]
    split
    · next small =>
      have digit := each ⟨number, small⟩
      simpa [Numeral.value, Decimal.positional] using digit
    · next large =>
      have front := inductionHypothesis (number / 10) (by omega)
      have last := each ⟨number % 10, Nat.mod_lt number (by decide)⟩
      simp only at last
      rw [Numeral.value] at front ⊢
      rw [List.map_append, Decimal.positional_append, front]
      simp only [List.map_cons, List.map_nil, Decimal.positional, List.foldl_cons, List.foldl_nil,
        last]
      omega

/-- A number below a power of ten has no more digits than that power. -/
theorem length_write {number digits : Nat} (positive : 0 < digits) (small : number < 10 ^ digits) :
    (Decimal.write number).length ≤ digits := by
  induction digits generalizing number with
  | zero => cases positive
  | succ digits inductionHypothesis =>
    rw [Decimal.write]
    split
    · exact positive
    · next large =>
      have front : number / 10 < 10 ^ digits := by
        rw [Nat.pow_succ] at small
        exact Nat.div_lt_of_lt_mul (by rwa [Nat.mul_comm] at small)
      have more : 0 < digits := by
        rcases Nat.eq_zero_or_pos digits with rfl | more
        · rw [Nat.zero_add, Nat.pow_one] at small
          exact absurd small large
        · exact more
      simpa using inductionHypothesis more front

/-- No number is written with a zero in front, but for zero itself. -/
theorem head_write {number : Nat} (positive : 0 < number) :
    ∃ first rest, Decimal.write number = first :: rest ∧ first ≠ '0' := by
  have each : ∀ value : Fin 10, 0 < value.val → Decimal.digit value.val ≠ '0' := by decide
  induction number using Nat.strongRecOn with
  | _ number inductionHypothesis =>
    rw [Decimal.write]
    split
    · next small => exact ⟨_, [], rfl, each ⟨number, small⟩ positive⟩
    · next large =>
      obtain ⟨first, rest, front, other⟩ :=
        inductionHypothesis (number / 10) (by omega) (by omega)
      exact ⟨first, rest ++ [Decimal.digit (number % 10)], by rw [front]; rfl, other⟩

/-- A number is written as a whole part of the grammar. -/
theorem isWholePart_write (number : Nat) : IsWholePart (Decimal.write number) := by
  rcases Nat.eq_zero_or_pos number with rfl | positive
  · exact .inl (by rw [Decimal.write]; rfl)
  · obtain ⟨first, rest, written, other⟩ := head_write positive
    exact .inr ⟨first, rest, written, other, isDigit_write number⟩

/-- An integer is written as a word, if it has no more digits than may be. -/
theorem word_writeInt {digits : Nat} (positive : 0 < digits) {number : Int}
    (small : number.natAbs < 10 ^ digits) :
    Word digits (.int number) (Decimal.writeInt number) := by
  have word (negative : Bool) {size : Nat} (small : size < 10 ^ digits) :
      Word digits (.int (if negative then -(size : Int) else (size : Int)))
        (minus negative ++ Decimal.write size) := by
    have word := @Word.int digits negative _ (isWholePart_write size) (length_write positive small)
    rwa [value_write] at word
  cases number with
  | ofNat size => exact word false small
  | negSucc size => exact word true small

end Numbers

section Texts

/-- The hexadecimal digit of a value is one of the grammar. -/
theorem isHexDigit_hexDigit {value : Nat} (small : value < 16) :
    IsHexDigit value (Text.hexDigit value) :=
  ⟨small, .inl rfl⟩

/-- Four hexadecimal digits are the code unit that they are written for. -/
theorem codeUnit_hexadecimal {code : Nat} (small : code < 0x10000) :
    CodeUnit code (Text.hexadecimal 4 code) := by
  have digit (number : Nat) : IsHexDigit (number % 16) (Text.hexDigit (number % 16)) :=
    isHexDigit_hexDigit (Nat.mod_lt number (by decide))
  have unit := CodeUnit.digits (digit (code / 16 / 16 / 16)) (digit (code / 16 / 16))
    (digit (code / 16)) (digit code)
  have whole : (((code / 16 / 16 / 16 % 16) * 16 + code / 16 / 16 % 16) * 16 +
      code / 16 % 16) * 16 + code % 16 = code := by omega
  rw [whole] at unit
  exact unit

/-- However a character is written, this is a spelling of it. -/
theorem spelling_writeCharacter (character : Char) :
    Spelling character (writeCharacter character) := by
  have known : ∀ entry ∈ escapeLetters, (entry.2, entry.1) ∈ [('"', '"'), ('\\', '\\'),
      ('/', '/'), ('b', '\x08'), ('f', '\x0c'), ('n', '\n'), ('r', '\r'), ('t', '\t')] := by
    decide
  unfold writeCharacter
  split
  · next letter found =>
    obtain ⟨front, back, split, -⟩ := List.lookup_eq_some_iff.mp found
    have member : (character, letter) ∈ escapeLetters := by simp [split]
    exact .short (known _ member)
  · next unescaped =>
    have other := List.lookup_eq_none_iff.mp unescaped
    split
    · next control => exact .unit (codeUnit_hexadecimal (Nat.lt_trans control (by decide)))
    · next visible =>
      refine .plain (Nat.not_lt.mp visible) ?_ ?_
      · simpa using other ('"', '"') (by decide)
      · simpa using other ('\\', '\\') (by decide)

/-- A text is written as a quotation of the grammar. -/
theorem quotation_writeText (text : String) : Quotation text (writeText text) := by
  have spells (characters : List Char) :
      Spells characters (characters.flatMap writeCharacter) := by
    induction characters with
    | nil => exact .nil
    | cons character rest inductionHypothesis =>
      exact .cons (spelling_writeCharacter character) inductionHypothesis
  exact .quoted (spells text.toList)

end Texts

section Values

variable {depth digits : Nat}

/-- A string is written as a phrase. -/
theorem phrase_string (limits : Limits) (text : String) :
    Phrase limits (.string text) (write (.string text)) :=
  .text (quotation_writeText text)

/-- An integer that does not have too many digits is written as a phrase. -/
theorem phrase_int {limits : Limits} (positive : 0 < limits.digits) {number : Int}
    (small : number.natAbs < 10 ^ limits.digits) :
    Phrase limits (.int number) (write (.int number)) :=
  .word (word_writeInt positive small)

/-- Nothing at all is blank. -/
theorem isBlank_nil : IsBlank [] :=
  List.forall_mem_nil _

/-- Items that are phrases are written as items of the grammar. -/
theorem items_writeItems {limits : Limits} {item : Json} {items : List Json}
    (each : ∀ other ∈ item :: items, Phrase limits other (write other)) :
    Items limits (item :: items) (separated [','] (writeItems (item :: items))) := by
  induction items generalizing item with
  | nil =>
    have last := Items.last isBlank_nil (each item List.mem_cons_self) isBlank_nil
    simpa [writeItems, separated] using last
  | cons next items inductionHypothesis =>
    obtain ⟨first, later⟩ := List.forall_mem_cons.mp each
    have more := Items.cons isBlank_nil first isBlank_nil (inductionHypothesis later)
    simpa [writeItems, separated] using more

/-- An array is written as a phrase if its items are. -/
theorem phrase_array {items : List Json}
    (each : ∀ item ∈ items, Phrase ⟨depth, digits⟩ item (write item)) :
    Phrase ⟨depth + 1, digits⟩ (.array items) (write (.array items)) := by
  cases items with
  | nil => exact .emptyArray isBlank_nil
  | cons item items =>
    rw [write]
    exact .array (items_writeItems each)

/-- Members whose values are phrases are written as members of it. -/
theorem members_writeMembers {limits : Limits} {pair : String × Json}
    {pairs : List (String × Json)}
    (each : ∀ other ∈ pair :: pairs, Phrase limits other.2 (write other.2)) :
    Members limits (pair :: pairs) (separated [','] (writeMembers (pair :: pairs))) := by
  induction pairs generalizing pair with
  | nil =>
    have last := Members.last isBlank_nil (quotation_writeText pair.1) isBlank_nil isBlank_nil
      (each pair List.mem_cons_self) isBlank_nil
    simpa [writeMembers, separated] using last
  | cons next pairs inductionHypothesis =>
    obtain ⟨first, later⟩ := List.forall_mem_cons.mp each
    have more := Members.cons isBlank_nil (quotation_writeText pair.1) isBlank_nil isBlank_nil first
      isBlank_nil (inductionHypothesis later)
    simpa [writeMembers, separated] using more

/-- An object is written as a phrase if its names are distinct and its members are phrases. -/
theorem phrase_object {pairs : List (String × Json)} (distinct : (OrderedMap.keys pairs).Nodup)
    (each : ∀ pair ∈ pairs, Phrase ⟨depth, digits⟩ pair.2 (write pair.2)) :
    Phrase ⟨depth + 1, digits⟩ (.object pairs) (write (.object pairs)) := by
  cases pairs with
  | nil => exact .emptyObject isBlank_nil
  | cons pair pairs =>
    -- A document stands for the map of its pairs, which is the object only if no name is repeated.
    have object := Phrase.object (members_writeMembers each)
    rw [OrderedMap.ofPairs_of_nodup distinct] at object
    rw [write]
    exact object

/-- What is written as a phrase is a document. -/
theorem document_document {limits : Limits} {value : Json}
    (phrase : Phrase limits value (write value)) : Document limits value value.document.toList := by
  have whole := Document.phrase isBlank_nil phrase isBlank_nil
  simpa [document] using whole

end Values

end GameSidecar.Json
