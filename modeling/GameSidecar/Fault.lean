import GameSidecar.Json

/-!
# Faulty fields

Whoever reads typed fields out of untyped values reports every field that is wrong, with the place
where it stands, the rule it breaks and, where it helps, the value that was given.
-/

namespace GameSidecar

/-- One step on the way to a field. -/
inductive Step
  | name (name : String)
  | index (index : Nat)
  deriving Repr, DecidableEq

/-- The rule that a field breaks. -/
inductive Rule
  | malformed
  | missing
  | tooShort
  | object
  | array
  | string
  | gameState
  | integer
  | integerText
  | integerSize
  | wholeNumber
  | finite
  | number
  | numberText
  | truth
  | truthText
  | accepted (objection : String)
  deriving Repr, DecidableEq

namespace Rule

/-- The name of a rule that was broken. -/
def code : Rule → String
  | .malformed => "json_invalid"
  | .missing => "missing"
  | .tooShort => "string_too_short"
  | .object => "model_type"
  | .array => "list_type"
  | .string => "string_type"
  | .gameState => "enum"
  | .integer => "int_type"
  | .integerText => "int_parsing"
  | .integerSize => "int_parsing_size"
  | .wholeNumber => "int_from_float"
  | .finite => "finite_number"
  | .number => "float_type"
  | .numberText => "float_parsing"
  | .truth => "bool_type"
  | .truthText => "bool_parsing"
  | .accepted _ => "value_error"

/-- The wording of a rule that was broken. -/
def message : Rule → String
  | .malformed => "Invalid JSON"
  | .missing => "Field required"
  | .tooShort => "String should have at least 1 character"
  | .object => "Input should be an object"
  | .array => "Input should be a valid array"
  | .string => "Input should be a valid string"
  | .gameState =>
    "Input should be 'Invalid', 'Initializing', 'StandingBy', 'Active', 'Terminating', " ++
      "'Terminated' or 'Quarantined'"
  | .integer => "Input should be a valid integer"
  | .integerText =>
    "Input should be a valid integer, unable to parse string as an integer"
  | .integerSize => "Unable to parse input string as an integer, exceeded maximum size"
  | .wholeNumber =>
    "Input should be a valid integer, got a number with a fractional part"
  | .finite => "Input should be a finite number"
  | .number => "Input should be a valid number"
  | .numberText => "Input should be a valid number, unable to parse string as a number"
  | .truth => "Input should be a valid boolean"
  | .truthText => "Input should be a valid boolean, unable to interpret input"
  | .accepted objection => s!"Value error, {objection}"

end Rule

/-- A field that breaks a rule, with the value that was given for it. -/
structure Fault where
  place : List Step
  rule : Rule
  given : Json
  deriving Repr, DecidableEq

/-- What the checks of several fields come to: all values, or all faults in order. -/
def Fault.both {α β : Type} (left : Except (List Fault) α) (right : Except (List Fault) β) :
    Except (List Fault) (α × β) :=
  match left, right with
  | .ok left, .ok right => .ok (left, right)
  | .error left, .ok _ => .error left
  | .ok _, .error right => .error right
  | .error left, .error right => .error (left ++ right)

/-- What the checks of a list come to: all values in order, or all faults in order. -/
def Fault.all {α : Type} : List (Except (List Fault) α) → Except (List Fault) (List α)
  | [] => .ok []
  | first :: rest => (Fault.both first (Fault.all rest)).map fun values => values.1 :: values.2

/-- The value that is made of several fields, or the faults of all of them. Fields are combined
    by applying the maker of the value to one field after the other. -/
def Checked (α : Type) : Type :=
  Except (List Fault) α

namespace Checked

/-- A value without fields. -/
def fixed {α : Type} (value : α) : Checked α :=
  Except.ok value

instance : Functor Checked where
  map change := Except.map change

instance : Seq Checked where
  seq maker field := (Fault.both maker (field ())).map fun both => both.1 both.2

end Checked

end GameSidecar
