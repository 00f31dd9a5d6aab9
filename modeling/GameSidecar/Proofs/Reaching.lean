import GameSidecar.Json.Lookup

/-!
# What a look-up finds

A path leads from a value to one inside it if each of its names is the name of a member. A walk that
does not come to the end of its path stops at the first value that has no member under the next
name. It is lost at a map without that name, and at null; any other value is in its way.

The three outcomes of a look-up are the three ends of the walk. As the walk along two paths in a row
is the walk along the first one and then, from where it has led, the walk along the second one,
look-ups compose, and the place that a mismatch names is told from the start.
-/

namespace GameSidecar.Json

/-- A path leads from a value to one inside it. -/
inductive Leads : Json → List String → Json → Prop
  /-- No name is left. -/
  | here (value : Json) : Leads value [] value
  /-- The value is a map, and the rest of the path leads on from a member of it. -/
  | into {members : List (String × Json)} {name : String} {inner leaf : Json} {rest : List String}
    (held : OrderedMap.get? members name = some inner) (further : Leads inner rest leaf) :
    Leads (.object members) (name :: rest) leaf

/-- A value at which a walk is lost if it goes on by a name. -/
inductive Lacks : Json → String → Prop
  | null (name : String) : Lacks .null name
  | missing {members : List (String × Json)} {name : String}
    (unheld : OrderedMap.get? members name = none) : Lacks (.object members) name

/-- A value that is in the way of a walk that goes on: it is no map, and it is not null. -/
structure Obstructs (value : Json) : Prop where
  not_null : value ≠ .null
  no_map : ∀ members, value ≠ .object members

/-- What a walk does at a value from which it goes on by a name. -/
theorem step_cases (value : Json) (name : String) :
    (∃ members inner, value = .object members ∧ OrderedMap.get? members name = some inner) ∨
      Lacks value name ∨ Obstructs value := by
  cases value with
  | null => exact .inr (.inl (.null name))
  | object members =>
    cases held : OrderedMap.get? members name with
    | none => exact .inr (.inl (.missing held))
    | some inner => exact .inl ⟨members, inner, rfl, held⟩
  | _ => exact .inr (.inr ⟨nofun, nofun⟩)

namespace Lookup

variable {α β γ : Type} (path : List String)

@[simp] theorem below_absent : (absent : Lookup α).below path = .absent := rfl

/-- What is wrong below a path is named by the path from outside. -/
@[simp] theorem below_faulty (mismatch : Mismatch) :
    (faulty mismatch : Lookup α).below path =
      .faulty { mismatch with path := path ++ mismatch.path } := rfl

@[simp] theorem below_found (value : α) : (found value).below path = .found value := rfl

/-- Where there is no value, there is none to go on from. -/
@[simp] theorem bind_absent (next : α → Lookup β) : absent.bind next = .absent := rfl

/-- A mismatch is passed on. -/
@[simp] theorem bind_faulty (mismatch : Mismatch) (next : α → Lookup β) :
    (faulty mismatch).bind next = .faulty mismatch := rfl

/-- A value that was found is gone on from. -/
@[simp] theorem bind_found (value : α) (next : α → Lookup β) :
    (found value).bind next = next value := rfl

/-- The empty path leads nowhere else. -/
@[simp] theorem below_nil (lookup : Lookup α) : lookup.below [] = lookup := by
  cases lookup <;> rfl

/-- A path below another one is the two of them together. -/
theorem below_below (lookup : Lookup α) (outer inner : List String) :
    (lookup.below inner).below outer = lookup.below (outer ++ inner) := by
  cases lookup <;> simp [below]

/-- What goes on from a value that was found lies as far down as the value does. -/
theorem below_bind (lookup : Lookup α) (next : α → Lookup β) :
    (lookup.bind next).below path =
      (lookup.below path).bind fun value => (next value).below path := by
  cases lookup <;> rfl

/-- Three look-ups one after the other may be put together either way. -/
theorem bind_assoc (lookup : Lookup α) (next : α → Lookup β) (last : β → Lookup γ) :
    (lookup.bind next).bind last = lookup.bind fun value => (next value).bind last := by
  cases lookup <;> rfl

end Lookup

section Steps

variable {value inner : Json} {members : List (String × Json)} {name : String} {rest : List String}

/-- At the empty path every value holds itself. -/
@[simp] theorem lookup_nil (value : Json) : value.lookup [] = .found value := by
  rw [lookup, lookupFrom]

/-- A path goes on in the member that its first name leads to. -/
theorem lookup_into (held : OrderedMap.get? members name = some inner) :
    (Json.object members).lookup (name :: rest) = (inner.lookup rest).below [name] := by
  rw [lookup, lookupFrom, held]
  exact lookupFrom_eq_below [name] inner rest

/-- Nothing is found below a name that is lacking. -/
theorem Lacks.lookup (lacks : Lacks value name) : value.lookup (name :: rest) = .absent := by
  cases lacks with
  | null => rfl
  | missing unheld => rw [Json.lookup, lookupFrom, unheld]

/-- A value that obstructs the way is reported, with the path that leads to it. -/
theorem Obstructs.lookup (obstructs : Obstructs value) :
    value.lookup (name :: rest) = .faulty ⟨[], .map, value⟩ := by
  cases value with
  | null => exact absurd rfl obstructs.not_null
  | object members => exact absurd rfl (obstructs.no_map members)
  | _ => rfl

end Steps

/-- A look-up along two paths in a row is one along the first path, and then one along the second
    from what was found. A mismatch of the second one lies below the first path. -/
theorem lookup_append (value : Json) (front back : List String) :
    value.lookup (front ++ back) =
      (value.lookup front).bind fun inner => (inner.lookup back).below front := by
  induction front generalizing value with
  | nil => simp
  | cons name front inductionHypothesis =>
    rcases step_cases value name with ⟨members, inner, rfl, held⟩ | lacks | obstructs
    · rw [List.cons_append, lookup_into held, lookup_into held, inductionHypothesis,
        Lookup.below_bind]
      simp only [Lookup.below_below, List.cons_append, List.nil_append]
    · rw [List.cons_append, lacks.lookup, lacks.lookup, Lookup.bind_absent]
    · rw [List.cons_append, obstructs.lookup, obstructs.lookup, Lookup.bind_faulty]

/-- How the walk along a path ends. -/
inductive Ends (value : Json) : List String → Lookup Json → Prop
  /-- It comes to the end of the path. -/
  | arrives {path : List String} {leaf : Json} (leads : Leads value path leaf) :
    Ends value path (.found leaf)
  /-- It is lost. -/
  | lost {front back : List String} {name : String} {inner : Json}
    (leads : Leads value front inner) (lacks : Lacks inner name) :
    Ends value (front ++ name :: back) .absent
  /-- Something is in its way. -/
  | blocked {front : List String} (name : String) (back : List String) {inner : Json}
    (leads : Leads value front inner) (obstructs : Obstructs inner) :
    Ends value (front ++ name :: back) (.faulty ⟨front, .map, inner⟩)

/-- A walk that leads to a value finds it. -/
theorem Leads.lookup {value leaf : Json} {path : List String} (leads : Leads value path leaf) :
    value.lookup path = .found leaf := by
  induction leads with
  | here value => exact lookup_nil value
  | into held further inductionHypothesis =>
    rw [lookup_into held, inductionHypothesis, Lookup.below_found]

/-- A walk that begins with a step ends as it does from the member. -/
theorem Ends.into {members : List (String × Json)} {name : String} {inner : Json}
    {path : List String} {outcome : Lookup Json}
    (held : OrderedMap.get? members name = some inner) (ends : Ends inner path outcome) :
    Ends (.object members) (name :: path) (outcome.below [name]) := by
  cases ends with
  | arrives leads => exact .arrives (.into held leads)
  | lost leads lacks => exact .lost (.into held leads) lacks
  | blocked next back leads obstructs => exact .blocked next back (.into held leads) obstructs

/-- A look-up ends as the walk along its path does. -/
theorem ends_lookup (value : Json) (path : List String) : Ends value path (value.lookup path) := by
  induction path generalizing value with
  | nil =>
    rw [lookup_nil]
    exact .arrives (.here value)
  | cons name path inductionHypothesis =>
    rcases step_cases value name with ⟨members, inner, rfl, held⟩ | lacks | obstructs
    · rw [lookup_into held]
      exact (inductionHypothesis inner).into held
    · rw [lacks.lookup]
      exact .lost (.here value) lacks
    · rw [obstructs.lookup]
      exact .blocked name path (.here value) obstructs

/-- A look-up tells how the walk ends. -/
theorem lookup_eq_iff {value : Json} {path : List String} {outcome : Lookup Json} :
    value.lookup path = outcome ↔ Ends value path outcome := by
  constructor
  · rintro rfl
    exact ends_lookup value path
  · intro ends
    cases ends with
    | arrives leads => exact leads.lookup
    | lost leads lacks => simp [lookup_append, leads.lookup, lacks.lookup]
    | blocked name back leads obstructs => simp [lookup_append, leads.lookup, obstructs.lookup]

section Outcomes

variable {value : Json} {path : List String}

/-- A value is found exactly if the walk leads to it. -/
theorem lookup_eq_found_iff {leaf : Json} :
    value.lookup path = .found leaf ↔ Leads value path leaf := by
  rw [lookup_eq_iff]
  constructor
  · intro ends
    cases ends with
    | arrives leads => exact leads
  · exact .arrives

/-- Nothing is found exactly if the walk comes to a name that is lacking. -/
theorem lookup_eq_absent_iff :
    value.lookup path = .absent ↔ ∃ front name back inner, path = front ++ name :: back ∧
      Leads value front inner ∧ Lacks inner name := by
  rw [lookup_eq_iff]
  constructor
  · intro ends
    cases ends with
    | lost leads lacks => exact ⟨_, _, _, _, rfl, leads, lacks⟩
  · rintro ⟨front, name, back, inner, rfl, leads, lacks⟩
    exact .lost leads lacks

/-- There is a mismatch exactly if the walk comes to a value that obstructs it, before the end of
    the path. -/
theorem lookup_eq_faulty_iff {mismatch : Mismatch} :
    value.lookup path = .faulty mismatch ↔ ∃ front name back inner, path = front ++ name :: back ∧
      Leads value front inner ∧ Obstructs inner ∧ mismatch = ⟨front, .map, inner⟩ := by
  rw [lookup_eq_iff]
  constructor
  · intro ends
    cases ends with
    | blocked name back leads obstructs => exact ⟨_, _, _, _, rfl, leads, obstructs, rfl⟩
  · rintro ⟨front, name, back, inner, rfl, leads, obstructs, rfl⟩
    exact .blocked name back leads obstructs

end Outcomes

/-- The value at the end of a path, read as one of a type. -/
def lookupAs {α : Type} (needed : Needed) (read? : Json → Option α) (value : Json)
    (path : List String) : Lookup α :=
  (value.lookup path).bind fun leaf =>
    match read? leaf with
    | some given => .found given
    | none => .faulty ⟨path, needed, leaf⟩

/-- The reader of a text looks a value up and takes strings only. -/
theorem lookupString_eq (value : Json) (path : List String) :
    value.lookupString path = value.lookupAs .string string? path := by
  rw [lookupString, lookupAs]
  congr 1
  funext leaf
  cases leaf <;> rfl

/-- The reader of a list of texts looks a value up and takes lists of strings only. -/
theorem lookupStrings_eq (value : Json) (path : List String) :
    value.lookupStrings path = value.lookupAs .stringList strings? path := by
  rw [lookupStrings, lookupAs]
  congr 1
  funext leaf
  cases leaf.strings? <;> rfl

/-- The text of a value is that of which it is the string. -/
theorem string?_eq_some_iff {leaf : Json} {text : String} :
    leaf.string? = some text ↔ leaf = .string text := by
  cases leaf <;> simp [string?]

/-- Values have texts one by one exactly if they are the strings of these. -/
theorem mapM_string?_eq_some_iff {items : List Json} {texts : List String} :
    items.mapM string? = some texts ↔ items = texts.map .string := by
  induction items generalizing texts with
  | nil => cases texts <;> simp
  | cons item items inductionHypothesis =>
    rw [List.mapM_cons]
    simp only [Option.bind_eq_bind, Option.bind_eq_some_iff, string?_eq_some_iff,
      inductionHypothesis]
    cases texts with
    | nil => simp
    | cons text texts => simp

/-- The texts of a value are those of which it is the list. -/
theorem strings?_eq_some_iff {leaf : Json} {texts : List String} :
    leaf.strings? = some texts ↔ leaf = .array (texts.map .string) := by
  cases leaf <;> simp [strings?, mapM_string?_eq_some_iff]

section Reading

variable {α : Type} (needed : Needed) (read? : Json → Option α)

/-- A leaf is read along a path in two parts as it is in one. -/
theorem lookupAs_append (value : Json) (front back : List String) :
    value.lookupAs needed read? (front ++ back) =
      (value.lookup front).bind fun inner => (inner.lookupAs needed read? back).below front := by
  simp only [lookupAs, lookup_append, Lookup.bind_assoc, Lookup.below_bind]
  congr 1
  funext inner
  congr 1
  funext leaf
  cases read? leaf <;> rfl

/-- What a look-up of a type finds, told by the walk. The value at the end of the path is one of the
    type or a mismatch, and a look-up that does not come to the end is as one of any value. -/
structure ReadsAs (value : Json) (path : List String) (written : α → Json) (lookup : Lookup α) :
    Prop where
  found : ∀ given, lookup = .found given ↔ Leads value path (written given)
  absent : lookup = .absent ↔ value.lookup path = .absent
  faulty : ∀ mismatch, lookup = .faulty mismatch ↔ value.lookup path = .faulty mismatch ∨
    ∃ leaf, Leads value path leaf ∧ (∀ given, leaf ≠ written given) ∧
      mismatch = ⟨path, needed, leaf⟩

variable {needed read?} in
/-- A reader gives the leaf that the walk leads to, or says why it cannot. -/
theorem readsAs_lookupAs {written : α → Json}
    (reads : ∀ leaf given, read? leaf = some given ↔ leaf = written given) (value : Json)
    (path : List String) :
    ReadsAs needed value path written (value.lookupAs needed read? path) := by
  -- a path leads to one value at most, the one that is found
  have leads_iff (leaf : Json) : Leads value path leaf ↔ value.lookup path = .found leaf :=
    lookup_eq_found_iff.symm
  simp only [lookupAs]
  cases ending : value.lookup path with
  | absent => constructor <;> simp [leads_iff, ending]
  | faulty mismatch => constructor <;> simp [leads_iff, ending, eq_comm]
  | found leaf =>
    cases read : read? leaf with
    | some given =>
      obtain rfl := (reads leaf given).mp read
      constructor <;> simp [leads_iff, ending, read, ← reads]
    | none =>
      have other (given : α) : leaf ≠ written given := by
        intro same
        exact nomatch read.symm.trans ((reads leaf given).mpr same)
      constructor <;> simp [leads_iff, ending, read, other, eq_comm]

end Reading

/-- What a message about a place begins with if the place lies below a path. -/
def lead (front path : List String) : String :=
  if front = [] then "" else if path = [] then pathText front else pathText front ++ "."

/-- The text of a path is that of its front, a dot if both have names, and that of the rest. -/
theorem pathText_append (front path : List String) :
    pathText (front ++ path) = lead front path ++ pathText path := by
  by_cases outer : front = []
  · simp [lead, outer]
  · by_cases inner : path = []
    · simp [lead, outer, inner, pathText]
    · rw [pathText, String.intercalate_append_of_ne_nil outer inner, lead, if_neg outer,
        if_neg inner]
      rfl

/-- The message of a mismatch below a path names that path before the rest. -/
theorem message_below (front : List String) (mismatch : Mismatch) :
    ({ mismatch with path := front ++ mismatch.path } : Mismatch).message =
      lead front mismatch.path ++ mismatch.message := by
  obtain ⟨path, needed, value⟩ := mismatch
  cases needed <;> simp [Mismatch.message, pathText_append, String.append_assoc, toString]

/-- Look-ups along two paths in a row are look-ups along the second one from what is found at the
    end of the first one. -/
structure Composes (value : Json) (front back : List String) : Prop where
  any : value.lookup (front ++ back) =
    (value.lookup front).bind fun inner => (inner.lookup back).below front
  string : value.lookupString (front ++ back) =
    (value.lookup front).bind fun inner => (inner.lookupString back).below front
  strings : value.lookupStrings (front ++ back) =
    (value.lookup front).bind fun inner => (inner.lookupStrings back).below front
  /-- The place of a mismatch further down is told from the start. -/
  told : ∀ inner mismatch, value.lookup front = .found inner → inner.lookup back = .faulty mismatch →
    ∃ whole, value.lookup (front ++ back) = .faulty whole ∧ whole.path = front ++ mismatch.path ∧
      whole.message = lead front mismatch.path ++ mismatch.message

/-- What a look-up of any value finds, told by the walk. -/
structure ReadsAny (value : Json) (path : List String) : Prop where
  found : ∀ leaf, value.lookup path = .found leaf ↔ Leads value path leaf
  /-- The walk has come to null or to a map without the next name, before the end of the path. -/
  absent : value.lookup path = .absent ↔ ∃ front name back inner, path = front ++ name :: back ∧
    Leads value front inner ∧ Lacks inner name
  /-- The walk has come to another value that is no map, before the end of the path. -/
  faulty : ∀ mismatch, value.lookup path = .faulty mismatch ↔ ∃ front name back inner,
    path = front ++ name :: back ∧ Leads value front inner ∧ Obstructs inner ∧
      mismatch = ⟨front, .map, inner⟩

/-- Look-ups compose, and each of the three kinds finds what the walk along its path comes to. -/
theorem lookups_follow_walk (value : Json) :
    (∀ front back, Composes value front back) ∧
    ∀ path, ReadsAny value path ∧
      ReadsAs .string value path .string (value.lookupString path) ∧
      ReadsAs .stringList value path (fun texts => .array (texts.map .string))
        (value.lookupStrings path) := by
  constructor
  · intro front back
    refine ⟨lookup_append value front back, ?_, ?_, ?_⟩
    · simp only [lookupString_eq, lookupAs_append]
    · simp only [lookupStrings_eq, lookupAs_append]
    · intro inner mismatch found faulty
      refine ⟨_, ?_, rfl, message_below front mismatch⟩
      rw [lookup_append, found, Lookup.bind_found, faulty, Lookup.below_faulty]
  · intro path
    refine ⟨⟨fun _ => lookup_eq_found_iff, lookup_eq_absent_iff, fun _ => lookup_eq_faulty_iff⟩,
      ?_, ?_⟩
    · rw [lookupString_eq]
      exact readsAs_lookupAs (fun _ _ => string?_eq_some_iff) value path
    · rw [lookupStrings_eq]
      exact readsAs_lookupAs (fun _ _ => strings?_eq_some_iff) value path

/-- A null at the end of a path is found, and one before the end is not. -/
example :
    let record : Json := .object [("status", .object [("state", .null)])]
    record.lookup ["status", "state"] = .found .null ∧
      record.lookupString ["status", "state"] = .faulty ⟨["status", "state"], .string, .null⟩ ∧
      record.lookup ["status", "state", "name"] = .absent := by
  decide

end GameSidecar.Json
