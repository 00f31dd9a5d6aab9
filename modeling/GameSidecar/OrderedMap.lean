/-!
# Maps in order of first insertion

A map is a list of pairs with distinct keys. A key keeps the place where it was first inserted;
inserting it again replaces its value, and erasing it gives the place up.
-/

namespace GameSidecar

/-- The entries of a map, in the order in which their keys were first inserted. -/
abbrev OrderedMap (κ α : Type) := List (κ × α)

namespace OrderedMap

variable {κ α : Type}

/-- The keys in order. -/
def keys (map : OrderedMap κ α) : List κ :=
  map.map (·.1)

variable [DecidableEq κ]

/-- The value under a key. -/
def get? : OrderedMap κ α → κ → Option α
  | [], _ => none
  | entry :: rest, key => if entry.1 = key then some entry.2 else get? rest key

/-- The map with a value under a key: in the place of the key, or at the end if it is new. -/
def insert : OrderedMap κ α → κ → α → OrderedMap κ α
  | [], key, value => [(key, value)]
  | entry :: rest, key, value =>
    if entry.1 = key then (key, value) :: rest else entry :: insert rest key value

/-- The map without a key. -/
def erase (map : OrderedMap κ α) (key : κ) : OrderedMap κ α :=
  map.filter fun entry => entry.1 ≠ key

/-- The map that a list of pairs gives, a later pair replacing the value of an earlier one. -/
def ofPairs (pairs : List (κ × α)) : OrderedMap κ α :=
  pairs.foldl (fun map pair => map.insert pair.1 pair.2) []

/-- A pair that is inserted is found under its key, and nothing else changes. -/
theorem get?_insert (map : OrderedMap κ α) (key asked : κ) (value : α) :
    (map.insert key value).get? asked = if key = asked then some value else map.get? asked := by
  induction map with
  | nil => simp [insert, get?]
  | cons entry rest inductionHypothesis =>
    simp only [insert]
    split
    · rename_i same
      subst same
      by_cases found : entry.1 = asked <;> simp [get?, found]
    · by_cases found : entry.1 = asked
      · have differs : key ≠ asked := by
          intro same
          simp_all
        simp [get?, found, differs]
      · simp [get?, found, inductionHypothesis]

/-- A key that is erased is not found, and nothing else changes. -/
theorem get?_erase (map : OrderedMap κ α) (key asked : κ) :
    (map.erase key).get? asked = if key = asked then none else map.get? asked := by
  induction map with
  | nil => simp [erase, get?]
  | cons entry rest inductionHypothesis =>
    simp only [erase, ne_eq, decide_not] at inductionHypothesis ⊢
    by_cases removed : entry.1 = key
    · simp only [removed, decide_true, Bool.not_true, List.filter_cons, Bool.false_eq_true,
        ↓reduceIte, inductionHypothesis, get?]
      split <;> simp_all
    · simp only [removed, decide_false, Bool.not_false, List.filter_cons, ↓reduceIte, get?,
        inductionHypothesis]
      by_cases found : entry.1 = asked
      · have differs : key ≠ asked := fun same => removed (found.trans same.symm)
        simp [found, differs]
      · simp [found]

/-- Keeping some keys only keeps the values under them. -/
theorem get?_filter (map : OrderedMap κ α) (kept : κ → Bool) (asked : κ) :
    get? (map.filter fun entry => kept entry.1) asked =
      if kept asked then map.get? asked else none := by
  induction map with
  | nil => simp [get?]
  | cons entry rest inductionHypothesis =>
    by_cases found : entry.1 = asked
    · subst found
      cases keeps : kept entry.1 <;> simp_all [get?]
    · cases keeps : kept entry.1 <;> simp [keeps, get?, found, inductionHypothesis]

end OrderedMap

end GameSidecar
