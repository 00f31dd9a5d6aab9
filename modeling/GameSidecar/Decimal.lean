/-!
# Decimal numbers as text

A decimal digit is a character that Unicode classes as one. Each script's ten digits stand in
a row, so the code points of the zeros determine them all. Numbers are read from the digits of
any script, also mixed, and are written with ASCII digits and no leading zero.
-/

namespace GameSidecar.Decimal

/-- The code point of the zero of each script that has decimal digits. -/
def zeros : List Nat := [
    0x30, 0x660, 0x6F0, 0x7C0, 0x966, 0x9E6, 0xA66, 0xAE6, 0xB66, 0xBE6, 0xC66, 0xCE6,
    0xD66, 0xDE6, 0xE50, 0xED0, 0xF20, 0x1040, 0x1090, 0x17E0, 0x1810, 0x1946, 0x19D0,
    0x1A80, 0x1A90, 0x1B50, 0x1BB0, 0x1C40, 0x1C50, 0xA620, 0xA8D0, 0xA900, 0xA9D0, 0xA9F0,
    0xAA50, 0xABF0, 0xFF10, 0x104A0, 0x10D30, 0x11066, 0x110F0, 0x11136, 0x111D0, 0x112F0,
    0x11450, 0x114D0, 0x11650, 0x116C0, 0x11730, 0x118E0, 0x11950, 0x11C50, 0x11D50,
    0x11DA0, 0x16A60, 0x16AC0, 0x16B50, 0x1D7CE, 0x1D7D8, 0x1D7E2, 0x1D7EC, 0x1D7F6,
    0x1E140, 0x1E2F0, 0x1E950, 0x1FBF0]

/-- The value of a decimal digit of any script. -/
def digitValue? (character : Char) : Option Nat :=
  (zeros.find? fun start => start ≤ character.toNat && character.toNat ≤ start + 9).map
    (character.toNat - ·)

/-- Whether the character is a decimal digit of some script. -/
def isDigit (character : Char) : Bool :=
  (digitValue? character).isSome

/-- The value of digit values written from the most significant one on, after `start`. -/
def positional (start : Nat) (values : List Nat) : Nat :=
  values.foldl (fun number value => 10 * number + value) start

/-- The values of the digits of a text, if it holds decimal digits only. -/
def digitValues? (text : List Char) : Option (List Nat) :=
  text.mapM digitValue?

/-- The number that a non-empty text of decimal digits stands for. -/
def read? (text : List Char) : Option Nat :=
  if text.isEmpty then none else (digitValues? text).map (positional 0)

/-- The ASCII digit of a value below ten. -/
def digit (value : Nat) : Char :=
  Char.ofNat (0x30 + value)

/-- A number in ASCII digits, without leading zeros. -/
def write (number : Nat) : List Char :=
  if number < 10 then [digit number]
  else write (number / 10) ++ [digit (number % 10)]
termination_by number
decreasing_by omega

/-- An integer in ASCII digits, with a minus sign in front of a negative one. -/
def writeInt : Int → List Char
  | .ofNat number => write number
  | .negSucc number => '-' :: write (number + 1)

/-- More digits are worth what they are after those before them. -/
theorem positional_append (start : Nat) (front back : List Nat) :
    positional start (front ++ back) = positional (positional start front) back := by
  simp [positional]

/-- A number is written with one digit at least. -/
theorem write_ne_nil (number : Nat) : write number ≠ [] := by
  rw [write]
  split <;> simp

/-- The ASCII digit of a value has that value. -/
theorem digitValue?_digit {value : Nat} (small : value < 10) :
    digitValue? (digit value) = some value := by
  have each : ∀ value : Fin 10, digitValue? (digit value.val) = some value.val := by decide
  exact each ⟨value, small⟩

/-- Reading undoes writing. -/
theorem digitValues?_write (number : Nat) :
    ∃ values, digitValues? (write number) = some values ∧ positional 0 values = number := by
  induction number using Nat.strongRecOn with
  | _ number inductionHypothesis =>
    rw [write]
    split
    · rename_i small
      exact ⟨[number], by simp [digitValues?, digitValue?_digit small], by simp [positional]⟩
    · rename_i large
      obtain ⟨values, reads, sums⟩ := inductionHypothesis (number / 10) (by omega)
      refine ⟨values ++ [number % 10], ?_, ?_⟩
      · have last := digitValue?_digit (Nat.mod_lt number (by decide : 0 < 10))
        simp only [digitValues?] at reads
        simp [digitValues?, List.mapM_append, reads, last]
      · rw [positional_append, sums]
        simp only [positional, List.foldl_cons, List.foldl_nil]
        omega

/-- The digits of several scripts may be mixed. -/
example : read? ['4', '\u0664', '\uff13'] = some 443 := by decide

example : read? [] = none ∧ read? ['\u00b2'] = none ∧ read? ['-', '1'] = none := by decide

end GameSidecar.Decimal
