import GameSidecar.Double
import GameSidecar.Text.Blank
import GameSidecar.Text.Split

/-!
# Numbers and truth values in settings

The environment holds texts only. A number may have white space around it and one sign. Single
underscores may stand inside it, but at neither end: in an integer between its digits, in any
other number wherever a character follows. Zeros at the front of an integer may be followed by any
number of underscores, and a fraction of zeros after it does no harm. A truth value is one of a
few words, in letters of either case and without white space.
-/

namespace GameSidecar.Settings

/-- The number that ASCII digits stand for. -/
def value (digits : List Char) : Nat :=
  Decimal.positional 0 (digits.map fun digit => digit.toNat - 0x30)

/-- A size with a sign. -/
def signed (negative : Bool) (size : Nat) : Int :=
  if negative then -(size : Int) else size

/-- A text without its underscores, of which none stands at an end or beside another one. -/
def withoutUnderscores? (text : List Char) : Option (List Char) :=
  let parts := Text.split '_' text
  if parts.length = 1 then some text
  else if parts.any List.isEmpty then none
  else some parts.flatten

/-! ## Integers -/

/-- What follows zeros and underscores, of which `last` was the last one. It stays if nothing or a
    point follows. -/
def afterZeros? (last : Char) : List Char → Option (List Char)
  | [] => some [last]
  | character :: rest =>
    if character = '0' || character = '_' then afterZeros? character rest
    else if character = '.' then some (last :: character :: rest)
    else if character.isDigit || character = '-' then some (character :: rest)
    else none

/-- An integer without the zeros at its front and the underscores after them. Nothing but a minus
    or a digit may stand there. -/
def withoutZeros? : List Char → Option (List Char)
  | [] => none
  | character :: rest =>
    if character = '0' then afterZeros? character rest
    else if character.isDigit || character = '-' then some (character :: rest)
    else none

/-- The part of a text before a fraction that holds zeros only. -/
def beforeZeros? (text : List Char) : Option (List Char) :=
  match Text.split '.' text with
  | [whole] => some whole
  | [whole, zeros] => if !zeros.isEmpty && zeros.all (· = '0') then some whole else none
  | _ => none

/-- The number that digits stand for, of which the first one is zero only if it is the only
    one. -/
def natural? (digits : List Char) : Option Nat :=
  if digits.isEmpty || !digits.all Char.isDigit then none
  else if digits.head? = some '0' && digits.length ≠ 1 then none
  else some (value digits)

/-- A text freed of everything that an integer may have beside its digits and a minus. -/
def bareInteger? (text : List Char) : Option (List Char) := do
  withoutUnderscores? (← beforeZeros? (← withoutZeros? text))

/-- The integer that a text without a sign at its front stands for. Zeros at the front may hide a
    minus. -/
def unsignedInteger? (text : List Char) : Option Int := do
  match ← bareInteger? text with
  | '-' :: digits => (natural? digits).map (signed true)
  | digits => (natural? digits).map (signed false)

/-- The integer that a text stands for. -/
def integer? (text : List Char) : Option Int :=
  match Text.trim Text.isWhiteSpace text with
  | '-' :: rest => ((bareInteger? rest).bind natural?).map (signed true)
  | '+' :: '-' :: _ => none
  | '+' :: rest => unsignedInteger? rest
  | rest => unsignedInteger? rest

/-! ## Numbers -/

/-- The sign at the front of a text, true for minus, and what follows it. -/
def sign : List Char → Bool × List Char
  | '-' :: rest => (true, rest)
  | '+' :: rest => (false, rest)
  | text => (false, text)

/-- The words for the numbers that have no digits. -/
def wordValue? (negative : Bool) (word : String) : Option Double :=
  if word = "inf" || word = "infinity" then some (.infinite negative)
  else if word = "nan" then some .nan
  else none

/-- The exponent of ten that follows the letter for it. -/
def exponent? (text : List Char) : Option Int :=
  let (negative, digits) := sign text
  if digits.isEmpty || !digits.all Char.isDigit then none
  else some (signed negative (value digits))

/-- The digits before and after the point of a number without exponent, of which there is at
    least one. -/
def mantissa? (text : List Char) : Option (List Char × List Char) := do
  let (whole, fraction) ←
    match Text.split '.' text with
    | [whole] => some (whole, [])
    | [whole, fraction] => some (whole, fraction)
    | _ => none
  guard (!whole.isEmpty || !fraction.isEmpty)
  guard (whole.all Char.isDigit && fraction.all Char.isDigit)
  pure (whole, fraction)

/-- The double that a text without white space and underscores stands for: digits with a point and
    an exponent, or a word. -/
def bareNumber? (text : List Char) : Option Double := do
  let (negative, rest) := sign text
  let letters := rest.map Char.toLower
  match wordValue? negative (String.ofList letters) with
  | some number => pure number
  | none =>
    let (whole, fraction) ← mantissa? (letters.takeWhile (· ≠ 'e'))
    let exponent ←
      match letters.dropWhile (· ≠ 'e') with
      | [] => some 0
      | _ :: power => exponent? power
    pure (.ofDecimal negative (value (whole ++ fraction)) (exponent - fraction.length))

/-- The double that a text stands for. It has white space around it, or underscores inside, but
    not both. -/
def number? (text : List Char) : Option Double :=
  (bareNumber? (Text.trim Text.isWhiteSpace text)).or
    ((withoutUnderscores? text).bind bareNumber?)

/-! ## Truth values -/

/-- The words for true. -/
def affirmations : List String :=
  ["1", "t", "true", "y", "yes", "on"]

/-- The words for false. -/
def denials : List String :=
  ["0", "f", "false", "n", "no", "off"]

/-- The truth value that a text stands for. -/
def truth? (text : String) : Option Bool :=
  let word := String.ofList (text.toList.map Char.toLower)
  if affirmations.contains word then some true
  else if denials.contains word then some false
  else none

example : integer? " +1_000.00 ".toList = some 1000 ∧ integer? "-0__5".toList = some (-5) := by
  decide +kernel

example : integer? "1__0".toList = none ∧ integer? "5.".toList = none := by decide +kernel

example : integer? "0_-1".toList = some (-1) ∧ integer? "0_".toList = none := by decide +kernel

example : number? "1_e2".toList = number? "100".toList ∧ number? "_1".toList = none := by
  decide +kernel

end GameSidecar.Settings
