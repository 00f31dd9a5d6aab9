import GameSidecar.Json

/-!
# JSON words

Outside of texts and punctuation a JSON document holds words: three names, three values that are
no ordinary numbers, and numerals. A numeral is an optional minus sign, digits without a leading
zero, an optional fraction and an optional exponent.
-/

namespace GameSidecar.Json

/-- The parts of a numeral. The exponent is none if the numeral has none. -/
structure Numeral where
  negative : Bool
  whole : List Char
  fraction : List Char
  exponent : Option Int
  deriving Repr, DecidableEq

namespace Numeral

/-- The longest run of digits at the front of a text, and what follows it. -/
def digits (text : List Char) : List Char × List Char :=
  (text.takeWhile Char.isDigit, text.dropWhile Char.isDigit)

/-- The number that digits stand for. -/
def value (digits : List Char) : Nat :=
  Decimal.positional 0 (digits.map fun digit => digit.toNat - 0x30)

/-- A minus sign at the front of a text, and what follows it. -/
def sign : List Char → Bool × List Char
  | '-' :: rest => (true, rest)
  | text => (false, text)

/-- The fraction at the front of a text, empty if no point stands there. A point needs a digit
    after it. -/
def fraction? : List Char → Option (List Char × List Char)
  | '.' :: rest =>
    let (found, rest) := digits rest
    if found.isEmpty then none else some (found, rest)
  | text => some ([], text)

/-- The exponent that a whole text consists of, after the letter and an optional sign. -/
def power? (text : List Char) : Option Int :=
  let (negative, text) :=
    match text with
    | '-' :: rest => (true, rest)
    | '+' :: rest => (false, rest)
    | _ => (false, text)
  let (found, rest) := digits text
  if found.isEmpty || !rest.isEmpty then none
  else some (if negative then -(value found : Int) else (value found : Int))

/-- The exponent that a whole text consists of, if it is not empty. -/
def exponent? : List Char → Option (Option Int)
  | [] => some none
  | letter :: rest => if letter = 'e' || letter = 'E' then (power? rest).map some else none

/-- Whether digits may stand before the point: at least one, and no zero before another digit. -/
def isWhole : List Char → Bool
  | [] => false
  | ['0'] => true
  | first :: _ => first ≠ '0'

/-- The numeral that a word is. -/
def ofWord? (word : List Char) : Option Numeral := do
  let (negative, rest) := sign word
  let (whole, rest) := digits rest
  guard (isWhole whole)
  let (fraction, rest) ← fraction? rest
  let exponent ← exponent? rest
  pure { negative, whole, fraction, exponent }

/-- The value of a numeral: an integer if it has neither fraction nor exponent. A numeral with
    more than `limit` digits before the point has none. -/
def json? (limit : Nat) (numeral : Numeral) : Option Json :=
  if limit < numeral.whole.length then none
  else if numeral.fraction.isEmpty && numeral.exponent.isNone then
    let size : Int := value numeral.whole
    some (.int (if numeral.negative then -size else size))
  else
    some (.real (Double.ofDecimal numeral.negative (value (numeral.whole ++ numeral.fraction))
      (numeral.exponent.getD 0 - numeral.fraction.length)))

end Numeral

/-- The values that have names, and the three numbers that no numeral stands for. -/
def namedValues : List (List Char × Json) :=
  [("true".toList, .bool true), ("false".toList, .bool false), ("null".toList, .null),
    ("NaN".toList, .real .nan), ("Infinity".toList, .real (.infinite false)),
    ("-Infinity".toList, .real (.infinite true))]

/-- The value that a word stands for. -/
def ofWord? (limit : Nat) (word : List Char) : Option Json :=
  match namedValues.lookup word with
  | some value => some value
  | none => (Numeral.ofWord? word).bind (Numeral.json? limit)

/-- The word for a double. -/
def realWord : Double → List Char
  | .nan => "NaN".toList
  | .infinite false => "Infinity".toList
  | .infinite true => "-Infinity".toList
  | number => number.write

end GameSidecar.Json
