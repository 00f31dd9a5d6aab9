import GameSidecar.Json.Reader

/-!
# The grammar of JSON

Which documents stand for which value is said here without a reader, rule by rule as RFC 8259 has
them. Blanks may stand around every value, name and mark of punctuation. A character of a text may
stand as itself or be escaped in several ways. The members of an object are those that its pairs
give: a name that stands several times counts in its first place, with the last of its values.

Two measures are kept beside the value, as readers limit them: how deep arrays and objects that hold
anything are nested, and how many digits a number has before its point.
-/

namespace GameSidecar.Json

/-- White space: space, tab, line feed and carriage return. -/
def IsBlank (text : List Char) : Prop :=
  ∀ character ∈ text, character ∈ [' ', '\t', '\n', '\r']

section Texts

/-- A hexadecimal digit in either case. -/
def IsHexDigit (value : Nat) (character : Char) : Prop :=
  value < 16 ∧ (character = Text.hexDigit value ∨ character = (Text.hexDigit value).toUpper)

/-- The four hexadecimal digits of a code unit. -/
inductive CodeUnit : Nat → List Char → Prop
  | digits {first second third fourth : Nat} {a b c d : Char} (one : IsHexDigit first a)
      (two : IsHexDigit second b) (three : IsHexDigit third c) (four : IsHexDigit fourth d) :
    CodeUnit (((first * 16 + second) * 16 + third) * 16 + fourth) [a, b, c, d]

/-- A character of a text as a document may spell it. -/
inductive Spelling : Char → List Char → Prop
  /-- It stands as itself. -/
  | plain {character : Char} (visible : 0x20 ≤ character.toNat) (quote : character ≠ '"')
      (backslash : character ≠ '\\') : Spelling character [character]
  /-- It is escaped by one character. -/
  | short {character letter : Char}
      (escape : (letter, character) ∈ [('"', '"'), ('\\', '\\'), ('/', '/'), ('b', '\x08'),
        ('f', '\x0c'), ('n', '\n'), ('r', '\r'), ('t', '\t')]) :
    Spelling character ['\\', letter]
  /-- It is escaped by its code point, which is one code unit. -/
  | unit {character : Char} {digits : List Char} (unit : CodeUnit character.toNat digits) :
    Spelling character ('\\' :: 'u' :: digits)
  /-- It is escaped by two code units, a high and a low surrogate. -/
  | pair {character : Char} {high low : Nat} {first second : List Char}
      (highUnit : CodeUnit high first) (lowUnit : CodeUnit low second)
      (highRange : 0xD800 ≤ high ∧ high ≤ 0xDBFF) (lowRange : 0xDC00 ≤ low ∧ low ≤ 0xDFFF)
      (point : character.toNat = 0x10000 + (high - 0xD800) * 0x400 + (low - 0xDC00)) :
    Spelling character ('\\' :: 'u' :: first ++ '\\' :: 'u' :: second)

/-- The characters of a text as a document may spell them. -/
inductive Spells : List Char → List Char → Prop
  | nil : Spells [] []
  | cons {character : Char} {rest spelled more : List Char} (first : Spelling character spelled)
      (later : Spells rest more) : Spells (character :: rest) (spelled ++ more)

/-- A text in its quotes. -/
inductive Quotation : String → List Char → Prop
  | quoted {text : String} {spelled : List Char} (spells : Spells text.toList spelled) :
    Quotation text ('"' :: spelled ++ ['"'])

end Texts

section Words

/-- The digits before the point of a number: a single zero, or no zero in front. -/
def IsWholePart (digits : List Char) : Prop :=
  digits = ['0'] ∨ ∃ first rest, digits = first :: rest ∧ first ≠ '0' ∧
    ∀ digit ∈ digits, digit.isDigit = true

/-- Some digits, at least one. -/
def IsDigits (digits : List Char) : Prop :=
  digits ≠ [] ∧ ∀ digit ∈ digits, digit.isDigit = true

/-- A minus sign, if a number is negative. -/
def minus (negative : Bool) : List Char :=
  if negative then ['-'] else []

/-- The fraction of a number, with the digits after the point. -/
inductive Fraction : List Char → List Char → Prop
  | none : Fraction [] []
  | some {digits : List Char} (given : IsDigits digits) : Fraction digits ('.' :: digits)

/-- The sign of an exponent, and whether it is negative. -/
inductive Sign : Bool → List Char → Prop
  | none : Sign false []
  | plus : Sign false ['+']
  | minus : Sign true ['-']

/-- The exponent of a number, if it has one. -/
inductive Exponent : Option Int → List Char → Prop
  | none : Exponent none []
  | some {letter : Char} {negative : Bool} {sign digits : List Char}
      (letters : letter = 'e' ∨ letter = 'E') (signed : Sign negative sign)
      (given : IsDigits digits) :
    Exponent (some (if negative then -(Numeral.value digits : Int)
      else (Numeral.value digits : Int))) (letter :: sign ++ digits)

/-- A value that is one word. -/
inductive Word : (digits : Nat) → Json → List Char → Prop
  | null {digits : Nat} : Word digits .null ['n', 'u', 'l', 'l']
  | true {digits : Nat} : Word digits (.bool true) ['t', 'r', 'u', 'e']
  | false {digits : Nat} : Word digits (.bool false) ['f', 'a', 'l', 's', 'e']
  | int {digits : Nat} {negative : Bool} {whole : List Char} (given : IsWholePart whole)
      (short : whole.length ≤ digits) :
    Word digits (.int (if negative then -(Numeral.value whole : Int)
      else (Numeral.value whole : Int))) (minus negative ++ whole)
  | real {digits : Nat} {negative : Bool} {whole fraction point tail : List Char}
      {exponent : Option Int} (given : IsWholePart whole) (short : whole.length ≤ digits)
      (fractional : Fraction fraction point) (exponential : Exponent exponent tail)
      (either : fraction ≠ [] ∨ exponent ≠ Option.none) :
    Word digits (.real (Double.ofDecimal negative (Numeral.value (whole ++ fraction))
      (exponent.getD 0 - fraction.length))) (minus negative ++ whole ++ point ++ tail)

end Words

mutual

/-- A value as a document may have it. -/
inductive Phrase : Limits → Json → List Char → Prop
  | word {limits : Limits} {value : Json} {text : List Char}
      (word : Word limits.digits value text) : Phrase limits value text
  | text {limits : Limits} {value : String} {text : List Char} (quoted : Quotation value text) :
    Phrase limits (.string value) text
  | emptyArray {limits : Limits} {blank : List Char} (blanks : IsBlank blank) :
    Phrase limits (.array []) ('[' :: blank ++ [']'])
  | array {depth digits : Nat} {items : List Json} {text : List Char}
      (within : Items ⟨depth, digits⟩ items text) :
    Phrase ⟨depth + 1, digits⟩ (.array items) ('[' :: text ++ [']'])
  | emptyObject {limits : Limits} {blank : List Char} (blanks : IsBlank blank) :
    Phrase limits (.object []) ('\x7b' :: blank ++ ['\x7d'])
  | object {depth digits : Nat} {pairs : List (String × Json)} {text : List Char}
      (within : Members ⟨depth, digits⟩ pairs text) :
    Phrase ⟨depth + 1, digits⟩ (.object (OrderedMap.ofPairs pairs)) ('\x7b' :: text ++ ['\x7d'])

/-- The items of an array with commas between them. -/
inductive Items : Limits → List Json → List Char → Prop
  | last {limits : Limits} {item : Json} {before text after : List Char} (first : IsBlank before)
      (value : Phrase limits item text) (second : IsBlank after) :
    Items limits [item] (before ++ text ++ after)
  | cons {limits : Limits} {item : Json} {items : List Json} {before text after rest : List Char}
      (first : IsBlank before) (value : Phrase limits item text) (second : IsBlank after)
      (more : Items limits items rest) :
    Items limits (item :: items) (before ++ text ++ after ++ ',' :: rest)

/-- The members of an object with commas between them. -/
inductive Members : Limits → List (String × Json) → List Char → Prop
  | last {limits : Limits} {name : String} {member : Json}
      {before title around between text after : List Char} (first : IsBlank before)
      (named : Quotation name title) (second : IsBlank around) (third : IsBlank between)
      (value : Phrase limits member text) (fourth : IsBlank after) :
    Members limits [(name, member)]
      (before ++ title ++ around ++ ':' :: between ++ text ++ after)
  | cons {limits : Limits} {name : String} {member : Json} {pairs : List (String × Json)}
      {before title around between text after rest : List Char} (first : IsBlank before)
      (named : Quotation name title) (second : IsBlank around) (third : IsBlank between)
      (value : Phrase limits member text) (fourth : IsBlank after)
      (more : Members limits pairs rest) :
    Members limits ((name, member) :: pairs)
      (before ++ title ++ around ++ ':' :: between ++ text ++ after ++ ',' :: rest)

end

/-- A document that stands for a value. -/
inductive Document (limits : Limits) (value : Json) : List Char → Prop
  | phrase {before text after : List Char} (first : IsBlank before)
      (phrase : Phrase limits value text) (second : IsBlank after) :
    Document limits value (before ++ text ++ after)

end GameSidecar.Json
