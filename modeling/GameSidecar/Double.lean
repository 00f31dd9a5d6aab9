import GameSidecar.Decimal

/-!
# Double-precision numbers

A double is a sign, a natural significand below 2^53 and a power of two, or an infinity, or not a
number. Decimals are rounded to the nearest double, and a tie goes to the even significand. A
double is written with the fewest digits that read back to it; among those the nearest to its
value is taken. Everything is exact arithmetic on natural numbers and integers.
-/

namespace GameSidecar

/-- A number of double precision. A finite one is its significand times two to the exponent. -/
inductive Double
  | nan
  | infinite (negative : Bool)
  | finite (negative : Bool) (significand : Nat) (exponent : Int)
  deriving Repr, DecidableEq, Inhabited

namespace Double

/-- The exponent of the smallest positive double. -/
def minExponent : Int := -1074

/-- The exponent of the largest finite double. -/
def maxExponent : Int := 971

/-- A quotient of natural numbers rounded to the nearest one, a tie to the even one. -/
def roundQuotient (numerator denominator : Nat) : Nat :=
  let whole := numerator / denominator
  let rest := 2 * (numerator % denominator)
  if rest < denominator then whole
  else if denominator < rest then whole + 1
  else whole + whole % 2

/-- A quotient divided by a power of two, again as a numerator and a denominator. -/
def scale (numerator denominator : Nat) (exponent : Int) : Nat × Nat :=
  match exponent with
  | .ofNat up => (numerator, denominator * Nat.pow 2 up)
  | .negSucc down => (numerator * Nat.pow 2 (down + 1), denominator)

/-- The exponent that leaves a positive quotient a significand of 53 binary digits, and no less
    than the least exponent. -/
def exponentOf (numerator denominator : Nat) : Int :=
  let guess : Int := (numerator.log2 : Int) - (denominator.log2 : Int) - 53
  let scaled := scale numerator denominator guess
  let exact := if Nat.pow 2 53 ≤ scaled.1 / scaled.2 then guess + 1 else guess
  max exact minExponent

/-- The double nearest to a quotient of natural numbers, with a sign. -/
def ofQuotient (negative : Bool) (numerator denominator : Nat) : Double :=
  if numerator = 0 then .finite negative 0 minExponent
  else
    let exponent := exponentOf numerator denominator
    let scaled := scale numerator denominator exponent
    let rounded := roundQuotient scaled.1 scaled.2
    let carried := rounded = Nat.pow 2 53
    let significand := if carried then Nat.pow 2 52 else rounded
    let exponent := if carried then exponent + 1 else exponent
    if maxExponent < exponent then .infinite negative
    else .finite negative significand exponent

/-- The double nearest to `digits` times ten to the `exponent`. Powers that are certain to leave
    the range of doubles are not computed. -/
def ofDecimal (negative : Bool) (digits : Nat) (exponent : Int) : Double :=
  let places : Int := (Decimal.write digits).length
  if digits = 0 || places + exponent < -330 then .finite negative 0 minExponent
  else if 310 < places + exponent then .infinite negative
  else
    match exponent with
    | .ofNat up => ofQuotient negative (digits * Nat.pow 10 up) 1
    | .negSucc down => ofQuotient negative digits (Nat.pow 10 (down + 1))

/-- The double nearest to an integer. -/
def ofInt (number : Int) : Double :=
  ofQuotient (decide (number < 0)) number.natAbs 1

/-- The double nearest to a rational number. -/
def ofRat (number : Rat) : Double :=
  ofQuotient (decide (number < 0)) number.num.natAbs number.den

/-- The exact value of a finite double. -/
def toRat? : Double → Option Rat
  | .finite negative significand exponent =>
    let size : Rat := (significand : Rat) * (2 : Rat) ^ exponent
    some (if negative then -size else size)
  | _ => none

/-- Whether a double has the value of an integer. -/
def equalsInt (number : Double) (integer : Int) : Bool :=
  number.toRat? == some (integer : Rat)

/-- Whether a double is zero, of either sign. -/
def isZero : Double → Bool
  | .finite _ 0 _ => true
  | _ => false

/-- The number of decimal digits before the point of a positive quotient, negative if zeros follow
    the point, found from a guess that is at most two too large. -/
def magnitude (numerator denominator : Nat) : Int :=
  let guess : Int :=
    ((Decimal.write numerator).length : Int) - ((Decimal.write denominator).length : Int) + 1
  let reaches (power : Int) : Bool :=
    match power with
    | .ofNat up => denominator * Nat.pow 10 up ≤ numerator
    | .negSucc down => denominator ≤ numerator * Nat.pow 10 (down + 1)
  if reaches (guess - 1) then guess else if reaches (guess - 2) then guess - 1 else guess - 2

/-- The decimal of `count` digits below and the one above a positive quotient of the given
    magnitude. The nearer one comes first, and of two equally near ones the even one. -/
def neighbours (numerator denominator : Nat) (magnitude : Int) (count : Nat) : List Nat :=
  let scaled : Nat × Nat :=
    match (count : Int) - magnitude with
    | .ofNat up => (numerator * Nat.pow 10 up, denominator)
    | .negSucc down => (numerator, denominator * Nat.pow 10 (down + 1))
  let below := scaled.1 / scaled.2
  if roundQuotient scaled.1 scaled.2 = below then [below, below + 1] else [below + 1, below]

/-- The first decimal, from `count` digits on, that reads back to the double with this magnitude:
    its digits and its power of ten. At most `fuel` lengths are tried. -/
def shortestFrom (significand : Nat) (exponent : Int) (numerator denominator : Nat)
    (magnitude : Int) : (count fuel : Nat) → Nat × Int
  | count, 0 => (significand, (count : Int))
  | count, fuel + 1 =>
    let power := magnitude - (count : Int)
    match (neighbours numerator denominator magnitude count).find? fun digits =>
        ofDecimal false digits power == .finite false significand exponent with
    | some digits => (digits, power)
    | none => shortestFrom significand exponent numerator denominator magnitude (count + 1) fuel

/-- The shortest decimal that reads back to a positive double. Seventeen digits always do. -/
def shortest (significand : Nat) (exponent : Int) : Nat × Int :=
  let quotient : Nat × Nat :=
    match exponent with
    | .ofNat up => (significand * Nat.pow 2 up, 1)
    | .negSucc down => (significand, Nat.pow 2 (down + 1))
  shortestFrom significand exponent quotient.1 quotient.2 (magnitude quotient.1 quotient.2) 1 17

/-- The layout of a decimal: positional while the point stands after the fifth zero and before
    the seventeenth digit, with one digit at least on both sides of it; else one digit, the other
    digits after a point, and an exponent of two digits at least with its sign. -/
def layout (digits : List Char) (point : Int) : List Char :=
  if 0 < point && point ≤ 16 then
    let whole := digits.take point.toNat ++ List.replicate (point.toNat - digits.length) '0'
    let rest := digits.drop point.toNat
    whole ++ ['.'] ++ (if rest.isEmpty then ['0'] else rest)
  else if -4 < point && point ≤ 0 then
    ['0', '.'] ++ List.replicate (-point).toNat '0' ++ digits
  else
    let power := point - 1
    let size := Decimal.write power.natAbs
    digits.take 1 ++ (if digits.length ≤ 1 then [] else '.' :: digits.drop 1) ++ ['e'] ++
      [if power < 0 then '-' else '+'] ++ (if size.length < 2 then '0' :: size else size)

/-- A double as text. -/
def write : Double → List Char
  | .nan => ['n', 'a', 'n']
  | .infinite negative => (if negative then ['-'] else []) ++ ['i', 'n', 'f']
  | .finite negative significand exponent =>
    let body :=
      if significand = 0 then ['0', '.', '0']
      else
        let decimal := shortest significand exponent
        let digits := (Decimal.write decimal.1).reverse.dropWhile (· == '0')
        layout digits.reverse (((Decimal.write decimal.1).length : Int) + decimal.2)
    (if negative then ['-'] else []) ++ body

end Double

end GameSidecar
