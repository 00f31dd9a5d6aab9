import GameSidecar.Json

/-!
# Look-ups along a path of names

Records have no schema, so a look-up has three outcomes. It is absent if a name is missing, or a
null stands where a map is needed; it is faulty if another value stands there, or if the value at
the end of the path has the wrong type; else it is found. A null at the end of the path is a value
like any other.
-/

namespace GameSidecar.Json

/-- What a look-up needed at a place and did not find there. -/
inductive Needed
  | map
  | string
  | stringList
  deriving Repr, DecidableEq

/-- A value of the wrong type: the path to it, what was needed, and the value. -/
structure Mismatch where
  path : List String
  needed : Needed
  value : Json
  deriving Repr, DecidableEq

/-- The names of a path with points between them. -/
def pathText (path : List String) : String :=
  ".".intercalate path

/-- The wording of a mismatch. -/
def Mismatch.message (mismatch : Mismatch) : String :=
  let place := pathText mismatch.path
  match mismatch.needed with
  | .map => s!"{place} is of type {mismatch.value.typeName}, expected map"
  | .string => s!"{place} is of type {mismatch.value.typeName}, expected string"
  | .stringList => s!"{place} is not a list of strings"

/-- The outcome of a look-up. -/
inductive Lookup (α : Type)
  | absent
  | faulty (mismatch : Mismatch)
  | found (value : α)
  deriving Repr, DecidableEq

namespace Lookup

variable {α β : Type}

/-- The value that was found. -/
def value? : Lookup α → Option α
  | .found value => some value
  | _ => none

/-- The mismatch that stopped the look-up. -/
def mismatch? : Lookup α → Option Mismatch
  | .faulty mismatch => some mismatch
  | _ => none

/-- Whether the look-up came to a value, of the right type or not. -/
def isPresent : Lookup α → Bool
  | .absent => false
  | _ => true

/-- Going on from the value that was found. -/
def bind : Lookup α → (α → Lookup β) → Lookup β
  | .absent, _ => .absent
  | .faulty mismatch, _ => .faulty mismatch
  | .found value, next => next value

/-- Another value in the place of the one that was found. -/
def map (change : α → β) (lookup : Lookup α) : Lookup β :=
  lookup.bind fun value => .found (change value)

/-- A look-up whose mismatch lies further down, below a path. -/
def below (path : List String) : Lookup α → Lookup α
  | .faulty mismatch => .faulty { mismatch with path := path ++ mismatch.path }
  | lookup => lookup

end Lookup

/-- The value at the end of a path, after the names that have been walked already. -/
def lookupFrom (walked : List String) : Json → List String → Lookup Json
  | value, [] => .found value
  | .object members, name :: rest =>
    match OrderedMap.get? members name with
    | none => .absent
    | some inner => lookupFrom (walked ++ [name]) inner rest
  | .null, _ :: _ => .absent
  | value, _ :: _ => .faulty ⟨walked, .map, value⟩

/-- The value at the end of a path. -/
def lookup (value : Json) (path : List String) : Lookup Json :=
  lookupFrom [] value path

/-- The text at the end of a path. -/
def lookupString (value : Json) (path : List String) : Lookup String :=
  (value.lookup path).bind fun leaf =>
    match leaf with
    | .string text => .found text
    | other => .faulty ⟨path, .string, other⟩

/-- The texts of an array that holds nothing else. -/
def strings? : Json → Option (List String)
  | .array items => items.mapM string?
  | _ => none

/-- The list of texts at the end of a path. -/
def lookupStrings (value : Json) (path : List String) : Lookup (List String) :=
  (value.lookup path).bind fun leaf =>
    match leaf.strings? with
    | some texts => .found texts
    | none => .faulty ⟨path, .stringList, leaf⟩

/-- A look-up that has come some way is the one from there, below that way. -/
theorem lookupFrom_eq_below (walked : List String) (value : Json) (path : List String) :
    lookupFrom walked value path = (lookup value path).below walked := by
  have general : ∀ (path : List String) (front walked : List String) (value : Json),
      lookupFrom (front ++ walked) value path = (lookupFrom walked value path).below front := by
    intro path
    induction path with
    | nil => intros; simp [lookupFrom, Lookup.below]
    | cons name rest inductionHypothesis =>
      intro front walked value
      cases value with
      | object members =>
        simp only [lookupFrom]
        split
        · simp [Lookup.below]
        · rw [List.append_assoc]
          exact inductionHypothesis ..
      | _ => simp [lookupFrom, Lookup.below]
  simpa [lookup] using general path walked [] value

end GameSidecar.Json
