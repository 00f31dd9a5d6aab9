import GameSidecar.Fault
import GameSidecar.Settings.Level
import GameSidecar.Settings.Numeral

/-!
# Fields of settings

A field is looked for among the values that are given and then in the environment, without regard
to the case of its name. Of several spellings the first one counts among the values that are given
and the last one in the environment. A value that is given may have any type, the environment has
texts only. A text is read as the type of its field asks.
-/

namespace GameSidecar.Settings

/-- Where settings are looked for. -/
structure Sources where
  given : List (String × Json)
  environment : List (String × String)
  deriving Repr

/-- The values under a name, in any spelling of it. -/
def named {α : Type} (entries : List (String × α)) (name : String) : List α :=
  (entries.filter fun entry => Text.smallLetters entry.1 = name).map (·.2)

/-- The value of a field, if there is one. -/
def Sources.value? (sources : Sources) (name : String) : Option Json :=
  (named sources.given name).head?.or ((named sources.environment name).getLast?.map .string)

/-- How the value of a field is read: the value, or the rule that is broken. -/
abbrev Reader (α : Type) := Json → Except Rule α

namespace Reader

/-- Any text. -/
def text : Reader String
  | .string text => .ok text
  | _ => .error .string

/-- Any text but the empty one. -/
def nonEmptyText (value : Json) : Except Rule String := do
  let text ← text value
  if text.isEmpty then .error .tooShort else .ok text

/-- The level of log lines. -/
def level (value : Json) : Except Rule Level := do
  (Level.ofSetting (← text value)).mapError .accepted

/-- How many digits an integer may have in a text, leading zeros apart. -/
def longestInteger : Nat :=
  4300

/-- The first integer beyond a word of 64 binary digits with a sign. -/
def wordEnd : Int :=
  Nat.pow 2 63

/-- The integers that fit a word. -/
def isWord (number : Int) : Bool :=
  -wordEnd ≤ number && number < wordEnd

/-- The integer that a double without fraction is. It has to lie inside a word, both ends of which
    are left out. -/
def wholeNumber (number : Double) : Except Rule Int :=
  match number.toRat? with
  | none => .error .finite
  | some exact =>
    if exact.den ≠ 1 then .error .wholeNumber
    else if -wordEnd < exact.num && exact.num < wordEnd then .ok exact.num
    else .error .integerSize

/-- An integer; a double counts if it has no fraction, and a truth value as one or zero. -/
def integer : Reader Int
  | .int number => .ok number
  | .bool truth => .ok (if truth then 1 else 0)
  | .string text =>
    match integer? text.toList with
    | none => .error .integerText
    | some number =>
      if number.natAbs < Nat.pow 10 longestInteger then .ok number else .error .integerSize
  | .real number => wholeNumber number
  | _ => .error .integer

/-- A double; an integer counts if it does not leave the range of doubles, and a truth value as one
    or zero. -/
def number : Reader Double
  | .real number => .ok number
  | .int number =>
    match Double.ofInt number with
    | .infinite _ => .error .number
    | number => .ok number
  | .bool truth => .ok (.ofInt (if truth then 1 else 0))
  | .string text => (number? text.toList).elim (.error .numberText) .ok
  | _ => .error .number

/-- The truth value that an integer stands for: one and zero do. -/
def truthOfInteger (number : Int) : Except Rule Bool :=
  if number = 1 then .ok true
  else if number = 0 then .ok false
  else .error .truthText

/-- A truth value; one and zero count. Numbers that are no integers inside a word are not even
    looked at. -/
def truth : Reader Bool
  | .bool truth => .ok truth
  | .string text => (truth? text).elim (.error .truthText) .ok
  | .int number => if isWord number then truthOfInteger number else .error .truth
  | .real number =>
    match wholeNumber number with
    | .ok number => truthOfInteger number
    | .error _ => .error .truth
  | _ => .error .truth

end Reader

variable {α : Type}

/-- The value that is read under a name, or the fault of it. -/
def readNamed (read : Reader α) (name : String) (value : Json) : Checked α :=
  (read value).mapError fun rule => [⟨[.name name], rule, value⟩]

/-- A field that has to be given. -/
def Sources.required (sources : Sources) (name : String) (read : Reader α) : Checked α :=
  match sources.value? name with
  | some value => readNamed read name value
  | none => Except.error [⟨[.name name], .missing, .null⟩]

/-- A field with a value of its own where none is given. -/
def Sources.optional (sources : Sources) (name : String) (read : Reader α) (usual : α) :
    Checked α :=
  match sources.value? name with
  | some value => readNamed read name value
  | none => .fixed usual

end GameSidecar.Settings
