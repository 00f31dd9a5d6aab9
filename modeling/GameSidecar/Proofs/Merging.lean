import GameSidecar.Json.Lookup
import GameSidecar.Json.MergePatch
import GameSidecar.Proofs.Pairs

/-!
# Merge patches of a few fields

A patch that names one part of a record, and some fields of this part, changes the values of these
fields and nothing else: the part keeps its other fields, and the record its other parts. That is
so if the part is a map or is absent, and if the values are such that merging puts them in place
as they are. A record that has the values already stays as it is.
-/

namespace GameSidecar.Json

/-- A value that merging puts in place as it is. Null would remove a member, and an object would be
    merged into it. -/
def isLeaf : Json → Bool
  | .null | .object _ => false
  | _ => true

/-- A patch of some fields of one part. -/
def partPatch (part : String) (fields : List (String × Json)) : Json :=
  .object [(part, .object fields)]

/-- A record is a map in which a part is a map or absent. -/
def fits (part : String) (record : Json) : Bool :=
  record.members?.any fun members =>
    (OrderedMap.get? members part).all fun value => value.members?.isSome

/-- Neither does a path lead to one of some fields of a part, nor does it come by one. -/
def Foreign (part : String) (names path : List String) : Prop :=
  ∀ name ∈ names, ¬[part, name] <+: path ∧ ¬path <+: [part, name]

instance (part : String) (names path : List String) : Decidable (Foreign part names path) :=
  inferInstanceAs (Decidable (∀ name ∈ names, ¬[part, name] <+: path ∧ ¬path <+: [part, name]))

section Merging

variable {members fields changes : List (String × Json)} {part : String} {record : Json}

/-- A record fits if it is a map whose part is a map, or missing. -/
theorem fits_iff :
    record.fits part = true ↔ ∃ members inner, record = .object members ∧
      OrderedMap.get? members part = Option.map Json.object inner := by
  cases record with
  | object members =>
    cases held : OrderedMap.get? members part with
    | none => exact iff_of_true (by simp [fits, members?, held]) ⟨members, none, rfl, held⟩
    | some value =>
      cases value with
      | object inner =>
        exact iff_of_true (by simp [fits, members?, held]) ⟨members, some inner, rfl, held⟩
      | _ =>
        refine iff_of_false (by simp [fits, members?, held]) ?_
        rintro ⟨_, inner, same, given⟩
        obtain rfl := Json.object.inj same
        rw [held] at given
        cases inner <;> cases given
  | _ => exact iff_of_false Bool.false_ne_true (by rintro ⟨_, _, ⟨⟩, -⟩)

/-- A change that is no map replaces what was there. -/
theorem merge_leaf {change : Json} (leaf : change.isLeaf = true) (value : Json) :
    value.merge change = change := by
  cases change with
  | null | object => cases leaf
  | _ => simp [merge]

/-- Members that change are merged one after the other, unless they are null. -/
theorem mergeMembers_cons {name : String} {change : Json} (given : change ≠ .null) :
    mergeMembers members ((name, change) :: changes) =
      mergeMembers (OrderedMap.insert members name (merge (memberOrNull members name) change))
        changes := by
  rw [mergeMembers]
  exact given

/-- Leaves are put in place one after the other. -/
theorem mergeMembers_leaves (leaves : ∀ field ∈ changes, field.2.isLeaf = true) :
    mergeMembers members changes = OrderedMap.insertAll members changes := by
  induction changes generalizing members with
  | nil => rfl
  | cons field changes inductionHypothesis =>
    obtain ⟨name, value⟩ := field
    obtain ⟨leaf, later⟩ := List.forall_mem_cons.mp leaves
    have notNull : value ≠ .null := by
      rintro rfl
      cases leaf
    rw [mergeMembers_cons notNull, merge_leaf leaf, inductionHypothesis later]
    rfl

/-- A record after a patch of some fields of one part. -/
theorem merge_partPatch {inner : Option (List (String × Json))}
    (held : OrderedMap.get? members part = inner.map Json.object)
    (leaves : ∀ field ∈ fields, field.2.isLeaf = true) :
    (Json.object members).merge (partPatch part fields) =
      .object (OrderedMap.insert members part
        (.object (OrderedMap.insertAll (inner.getD []) fields))) := by
  have under : (memberOrNull members part).members?.getD [] = inner.getD [] := by
    rw [memberOrNull, held]
    cases inner <;> rfl
  rw [partPatch, merge, members?, Option.getD_some, mergeMembers_cons (by simp), merge, under,
    mergeMembers_leaves leaves, mergeMembers]

/-- A record still fits when fields have been merged into its part. -/
theorem fits_merge (fit : record.fits part = true)
    (leaves : ∀ field ∈ fields, field.2.isLeaf = true) :
    (record.merge (partPatch part fields)).fits part = true := by
  obtain ⟨members, inner, rfl, held⟩ := fits_iff.mp fit
  rw [merge_partPatch held leaves]
  exact fits_iff.mpr ⟨_, some _, rfl, by rw [OrderedMap.get?_insert, if_pos rfl]; rfl⟩

end Merging

section Lookups

variable {members fields : List (String × Json)} {part : String} {record : Json}

/-- A look-up in a map goes on in the member of the first name. -/
theorem lookup_part (name : String) (rest : List String) :
    (Json.object members).lookup (name :: rest) =
      ((OrderedMap.get? members name).map fun value => lookupFrom [name] value rest).getD
        .absent := by
  rw [lookup, lookupFrom]
  cases OrderedMap.get? members name <;> rfl

/-- A look-up that has come some way goes on in the member of the next name. -/
theorem lookupFrom_object (walked : List String) (name : String) (rest : List String) :
    lookupFrom walked (.object members) (name :: rest) =
      ((OrderedMap.get? members name).map fun value =>
        lookupFrom (walked ++ [name]) value rest).getD .absent := by
  rw [lookupFrom]
  cases OrderedMap.get? members name <;> rfl

/-- A patch of some fields leaves all else as it is. -/
theorem lookup_merge_of_foreign (fit : record.fits part = true) (some : fields ≠ [])
    (leaves : ∀ field ∈ fields, field.2.isLeaf = true) {path : List String}
    (foreign : Foreign part (OrderedMap.keys fields) path) :
    (record.merge (partPatch part fields)).lookup path = record.lookup path := by
  obtain ⟨members, inner, rfl, held⟩ := fits_iff.mp fit
  obtain ⟨field, among⟩ := List.exists_mem_of_ne_nil fields some
  have apart := foreign field.1 (List.mem_map_of_mem among)
  rw [merge_partPatch held leaves]
  match path with
  | [] => exact absurd List.nil_prefix apart.2
  | first :: rest =>
    rw [lookup_part, lookup_part, OrderedMap.get?_insert]
    by_cases other : part = first
    · subst other
      rw [if_pos rfl, held]
      match rest with
      | [] => exact absurd (List.prefix_append [part] [field.1]) apart.2
      | name :: rest =>
        have unnamed : name ∉ OrderedMap.keys fields := fun named =>
          (foreign name named).1 (List.prefix_append [part, name] rest)
        rw [Option.map_some, Option.getD_some, lookupFrom_object,
          OrderedMap.get?_insertAll_of_not_mem _ unnamed]
        cases inner with
        | none => rfl
        | some inner =>
          rw [Option.map_some, Option.map_some, Option.getD_some, lookupFrom_object]
          rfl
    · rw [if_neg other]

/-- A field of a part is found if the part holds it. -/
theorem lookup_field {inner : List (String × Json)} {name : String} {value : Json}
    (held : OrderedMap.get? members part = some (.object inner)) :
    (Json.object members).lookup [part, name] = .found value ↔
      OrderedMap.get? inner name = some value := by
  rw [lookup_part, held, Option.map_some, Option.getD_some, lookupFrom_object]
  cases OrderedMap.get? inner name <;> simp [lookupFrom]

/-- A record that has the values of a patch already stays as it is. -/
theorem merge_eq_self (fit : record.fits part = true) (some : fields ≠ [])
    (leaves : ∀ field ∈ fields, field.2.isLeaf = true)
    (shown : ∀ field ∈ fields, record.lookup [part, field.1] = .found field.2) :
    record.merge (partPatch part fields) = record := by
  obtain ⟨members, inner, rfl, held⟩ := fits_iff.mp fit
  rw [merge_partPatch held leaves]
  cases inner with
  | none =>
    obtain ⟨field, among⟩ := List.exists_mem_of_ne_nil fields some
    have found := shown field among
    rw [lookup_part, held] at found
    cases found
  | some inner =>
    have same : OrderedMap.insertAll inner fields = inner :=
      OrderedMap.insertAll_eq_self fun field among => (lookup_field held).mp (shown field among)
    rw [Option.getD_some, same, OrderedMap.insert_eq_self held]

end Lookups

end GameSidecar.Json
