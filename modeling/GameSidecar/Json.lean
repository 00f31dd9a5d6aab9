import GameSidecar.Double
import GameSidecar.OrderedMap
import GameSidecar.Text.Quoted

/-!
# JSON values

Records, request texts and the descriptor are JSON. A number without fraction and exponent is an
integer of any size, any other number is a double. The members of an object keep the order in
which their names were first written.
-/

namespace GameSidecar

/-- A JSON value. -/
inductive Json
  | null
  | bool (value : Bool)
  | int (value : Int)
  | real (value : Double)
  | string (value : String)
  | array (items : List Json)
  | object (members : List (String × Json))
  deriving Repr, Inhabited

namespace Json

mutual

/-- Equality of values is decided member by member, in order. -/
def decideEq : (left right : Json) → Decidable (left = right)
  | .null, .null => isTrue rfl
  | .bool left, .bool right => decidable_of_iff (left = right) (by simp)
  | .int left, .int right => decidable_of_iff (left = right) (by simp)
  | .real left, .real right => decidable_of_iff (left = right) (by simp)
  | .string left, .string right => decidable_of_iff (left = right) (by simp)
  | .array left, .array right =>
    match decideEqItems left right with
    | isTrue same => isTrue (by rw [same])
    | isFalse differs => isFalse (by simpa using differs)
  | .object left, .object right =>
    match decideEqMembers left right with
    | isTrue same => isTrue (by rw [same])
    | isFalse differs => isFalse (by simpa using differs)
  | .null, .bool _ | .null, .int _ | .null, .real _ | .null, .string _ | .null, .array _
  | .null, .object _ | .bool _, .null | .bool _, .int _ | .bool _, .real _ | .bool _, .string _
  | .bool _, .array _ | .bool _, .object _ | .int _, .null | .int _, .bool _ | .int _, .real _
  | .int _, .string _ | .int _, .array _ | .int _, .object _ | .real _, .null | .real _, .bool _
  | .real _, .int _ | .real _, .string _ | .real _, .array _ | .real _, .object _
  | .string _, .null | .string _, .bool _ | .string _, .int _ | .string _, .real _
  | .string _, .array _ | .string _, .object _ | .array _, .null | .array _, .bool _
  | .array _, .int _ | .array _, .real _ | .array _, .string _ | .array _, .object _
  | .object _, .null | .object _, .bool _ | .object _, .int _ | .object _, .real _
  | .object _, .string _ | .object _, .array _ => isFalse (by simp)

/-- Equality of arrays, item by item. -/
def decideEqItems : (left right : List Json) → Decidable (left = right)
  | [], [] => isTrue rfl
  | [], _ :: _ => isFalse (by simp)
  | _ :: _, [] => isFalse (by simp)
  | left :: lefts, right :: rights =>
    match decideEq left right, decideEqItems lefts rights with
    | isTrue same, isTrue rest => isTrue (by rw [same, rest])
    | isFalse differs, _ => isFalse (by simp [differs])
    | _, isFalse differs => isFalse (by simp [differs])

/-- Equality of members, name and value, in order. -/
def decideEqMembers : (left right : List (String × Json)) → Decidable (left = right)
  | [], [] => isTrue rfl
  | [], _ :: _ => isFalse (by simp)
  | _ :: _, [] => isFalse (by simp)
  | (leftName, left) :: lefts, (rightName, right) :: rights =>
    if names : leftName = rightName then
      match decideEq left right, decideEqMembers lefts rights with
      | isTrue same, isTrue rest => isTrue (by rw [names, same, rest])
      | isFalse differs, _ => isFalse (by simp [differs])
      | _, isFalse differs => isFalse (by simp [differs])
    else isFalse (by simp [names])

end

instance : DecidableEq Json := decideEq

/-- Whether a value is null. -/
def isNull : Json → Bool
  | .null => true
  | _ => false

/-- Whether a value counts as absent where an empty one does: null, false, zero, and the empty
    text, array and object. -/
def isVoid : Json → Bool
  | .null => true
  | .bool value => !value
  | .int value => value == 0
  | .real value => value.isZero
  | .string value => value.isEmpty
  | .array items => items.isEmpty
  | .object members => members.isEmpty

/-- A value, or another one in its place if it is void. -/
def orElse (value other : Json) : Json :=
  if value.isVoid then other else value

/-- Whether a value equals an integer as a number. Truth values count as one and zero, and a
    double counts by its value. -/
def equalsInt (value : Json) (integer : Int) : Bool :=
  match value with
  | .bool true => integer == 1
  | .bool false => integer == 0
  | .int number => number == integer
  | .real number => number.equalsInt integer
  | _ => false

/-- The text of a string value. -/
def string? : Json → Option String
  | .string value => some value
  | _ => none

/-- The members of an object. -/
def members? : Json → Option (List (String × Json))
  | .object members => some members
  | _ => none

/-- The member of an object under a name. -/
def member? (value : Json) (name : String) : Option Json :=
  value.members?.bind (OrderedMap.get? · name)

/-- The member of an object under a name, or null. -/
def memberOrNull (members : List (String × Json)) (name : String) : Json :=
  (OrderedMap.get? members name).getD .null

/-- The word by which messages call the type of a value. -/
def typeName : Json → String
  | .null => "NoneType"
  | .bool _ => "bool"
  | .int _ => "int"
  | .real _ => "float"
  | .string _ => "str"
  | .array _ => "list"
  | .object _ => "dict"

/-- Texts with a separator between them. -/
def separated (separator : List Char) : List (List Char) → List Char
  | [] => []
  | [only] => only
  | first :: rest => first ++ separator ++ separated separator rest

mutual

/-- A value as messages show it: strings are quoted as messages quote texts. -/
def shown : Json → List Char
  | .null => "None".toList
  | .bool value => (if value then "True" else "False").toList
  | .int value => Decimal.writeInt value
  | .real value => value.write
  | .string value => (Text.quoted value).toList
  | .array items => '[' :: separated [',', ' '] (shownItems items) ++ [']']
  | .object members => '\x7b' :: separated [',', ' '] (shownMembers members) ++ ['\x7d']

/-- The items of an array as messages show them. -/
def shownItems : List Json → List (List Char)
  | [] => []
  | item :: rest => shown item :: shownItems rest

/-- The members of an object as messages show them, name, colon and value. -/
def shownMembers : List (String × Json) → List (List Char)
  | [] => []
  | (name, value) :: rest =>
    ((Text.quoted name).toList ++ [':', ' '] ++ shown value) :: shownMembers rest

end

/-- A value as messages show it inside other values. -/
def quoted (value : Json) : String :=
  String.ofList value.shown

/-- A value as messages show it on its own: a text stands without quotes. -/
def plain : Json → String
  | .string value => value
  | value => value.quoted

/-- A fixed sequence of values as messages show it: in round brackets, with a comma after an only
    one. -/
def tupleShown (items : List Json) : String :=
  String.ofList ('(' :: separated [',', ' '] (shownItems items) ++
    (if items.length = 1 then [','] else []) ++ [')'])

end Json

end GameSidecar
