import GameSidecar.OrderedMap
import Mathlib.Data.List.Induction
import Mathlib.Data.List.Nodup

/-!
# Maps that are made of pairs

Pairs are put into a map one after the other. Every key is held once, in the place of its first
pair and with the value of its last one. If no key stands twice among the pairs, they are the map
already. Some pairs may be made into a map of their own before they are put into another one: that
makes no difference.
-/

namespace GameSidecar.OrderedMap

variable {κ α β : Type}

/-- A map whose values are changed has the same keys. -/
@[simp] theorem keys_map (map : OrderedMap κ α) (change : α → β) :
    keys (List.map (fun entry => (entry.1, change entry.2)) map) = keys map := by
  simp [keys]

variable [DecidableEq κ]

/-- The map with some pairs put into it. -/
def insertAll (map : OrderedMap κ α) (pairs : List (κ × α)) : OrderedMap κ α :=
  pairs.foldl (fun map pair => map.insert pair.1 pair.2) map

theorem insertAll_cons (map : OrderedMap κ α) (pair : κ × α) (pairs : List (κ × α)) :
    map.insertAll (pair :: pairs) = (map.insert pair.1 pair.2).insertAll pairs := rfl

/-- An empty map takes pairs in as a new one does. -/
theorem insertAll_nil (pairs : List (κ × α)) : insertAll [] pairs = ofPairs pairs := rfl

section Values

/-- Of several pairs with one key the last one counts, and all count more than the map before. -/
theorem get?_insertAll (map : OrderedMap κ α) (pairs : List (κ × α)) (asked : κ) :
    (map.insertAll pairs).get? asked =
      (((pairs.filter fun pair => pair.1 = asked).getLast?).map Prod.snd).or (map.get? asked) := by
  induction pairs generalizing map with
  | nil => rfl
  | cons pair pairs inductionHypothesis =>
    rw [insertAll_cons, inductionHypothesis, get?_insert, List.filter_cons]
    by_cases same : pair.1 = asked
    · simp only [same, if_true, decide_true, List.getLast?_cons]
      cases (pairs.filter fun pair => pair.1 = asked).getLast? <;> rfl
    · simp [same]

/-- Of several pairs with one key the last one counts. -/
theorem get?_ofPairs (pairs : List (κ × α)) (asked : κ) :
    (ofPairs pairs).get? asked =
      ((pairs.filter fun pair => pair.1 = asked).getLast?).map Prod.snd := by
  rw [← insertAll_nil, get?_insertAll, get?, Option.or_none]

/-- A value that a key has already makes no difference. -/
theorem insert_eq_self {map : OrderedMap κ α} {key : κ} {value : α}
    (held : map.get? key = some value) : map.insert key value = map := by
  induction map with
  | nil => cases held
  | cons entry rest inductionHypothesis =>
    rw [get?] at held
    rw [insert]
    split at held
    · next same =>
      obtain rfl := Option.some.inj held
      obtain rfl := same
      rw [if_pos rfl]
    · next other => rw [if_neg other, inductionHypothesis held]

/-- Pairs that are held already change nothing. -/
theorem insertAll_eq_self {map : OrderedMap κ α} {pairs : List (κ × α)}
    (held : ∀ pair ∈ pairs, map.get? pair.1 = some pair.2) : map.insertAll pairs = map := by
  induction pairs with
  | nil => rfl
  | cons pair pairs inductionHypothesis =>
    obtain ⟨first, later⟩ := List.forall_mem_cons.mp held
    rw [insertAll_cons, insert_eq_self first, inductionHypothesis later]

/-- Keys that stand in none of some pairs keep their values. -/
theorem get?_insertAll_of_not_mem (map : OrderedMap κ α) {pairs : List (κ × α)} {asked : κ}
    (absent : asked ∉ keys pairs) : (map.insertAll pairs).get? asked = map.get? asked := by
  have none : pairs.filter (fun pair => pair.1 = asked) = [] :=
    List.filter_eq_nil_iff.mpr fun pair member same =>
      absent (of_decide_eq_true same ▸ List.mem_map_of_mem member)
  rw [get?_insertAll, none]
  rfl

end Values

section Keys

/-- A key that is new comes behind all others, and one that is held keeps its place. -/
theorem keys_insert (map : OrderedMap κ α) (key : κ) (value : α) :
    (map.insert key value).keys = if key ∈ map.keys then map.keys else map.keys ++ [key] := by
  induction map with
  | nil => rfl
  | cons entry rest inductionHypothesis =>
    have first (later : OrderedMap κ α) : keys (entry :: later) = entry.1 :: later.keys := rfl
    rw [insert, first]
    by_cases same : entry.1 = key
    · rw [if_pos same, if_pos (by simp [same])]
      exact congrArg (· :: keys rest) same.symm
    · rw [if_neg same, first, inductionHypothesis]
      by_cases held : key ∈ keys rest
      · rw [if_pos held, if_pos (.tail _ held)]
      · rw [if_neg held, if_neg (List.not_mem_cons_of_ne_of_not_mem (Ne.symm same) held)]
        rfl

/-- Inserting a pair adds its key and no other one. -/
theorem mem_keys_insert {map : OrderedMap κ α} {key asked : κ} {value : α} :
    asked ∈ (map.insert key value).keys ↔ asked = key ∨ asked ∈ map.keys := by
  rw [keys_insert]
  split
  · next held =>
    refine ⟨.inr, ?_⟩
    rintro (rfl | present)
    · exact held
    · exact present
  · rw [List.mem_append, List.mem_singleton, Or.comm]

/-- No key is held twice after an insertion. -/
theorem nodup_insert {map : OrderedMap κ α} (distinct : map.keys.Nodup) (key : κ) (value : α) :
    (map.insert key value).keys.Nodup := by
  rw [keys_insert]
  split
  · exact distinct
  · next absent =>
    rw [← List.concat_eq_append]
    exact List.Nodup.concat absent distinct

/-- No key is held twice after several insertions. -/
theorem nodup_insertAll {map : OrderedMap κ α} (distinct : map.keys.Nodup)
    (pairs : List (κ × α)) : (map.insertAll pairs).keys.Nodup := by
  induction pairs generalizing map with
  | nil => exact distinct
  | cons pair pairs inductionHypothesis =>
    exact inductionHypothesis (nodup_insert distinct pair.1 pair.2)

/-- A map that is made of pairs holds each key once. -/
theorem nodup_ofPairs (pairs : List (κ × α)) : (keys (ofPairs pairs)).Nodup := by
  have empty : (keys ([] : OrderedMap κ α)).Nodup := List.nodup_nil
  exact nodup_insertAll empty pairs

/-- The pairs of two lists are taken in one list after the other. -/
theorem ofPairs_append (front back : List (κ × α)) :
    ofPairs (front ++ back) = (ofPairs front).insertAll back :=
  List.foldl_append

/-- The keys of a map that is made of pairs are those of the pairs, in the order in which they
    first occur. -/
theorem keys_ofPairs (pairs : List (κ × α)) : (ofPairs pairs).keys = (keys pairs).eraseDups := by
  induction pairs using List.reverseRecOn with
  | nil => rfl
  | append_singleton front pair inductionHypothesis =>
    have all : keys (front ++ [pair]) = keys front ++ [pair.1] := List.map_append
    have inserted : ofPairs (front ++ [pair]) = (ofPairs front).insert pair.1 pair.2 :=
      ofPairs_append front [pair]
    rw [inserted, keys_insert, inductionHypothesis, all, List.eraseDups_append]
    by_cases held : pair.1 ∈ keys front
    · rw [if_pos (List.mem_eraseDups.mpr held)]
      simp [List.removeAll, held]
    · rw [if_neg (by rwa [List.mem_eraseDups])]
      simp [List.removeAll, held, List.eraseDups_cons]

/-- A new key is put at the end. -/
theorem insert_of_not_mem {map : OrderedMap κ α} {key : κ} (absent : key ∉ map.keys) (value : α) :
    map.insert key value = map ++ [(key, value)] := by
  induction map with
  | nil => rfl
  | cons entry rest inductionHypothesis =>
    obtain ⟨other, later⟩ := List.ne_and_not_mem_of_not_mem_cons absent
    rw [insert, if_neg (Ne.symm other), inductionHypothesis later]
    rfl

/-- Pairs with keys of their own are put at the end in their order. -/
theorem insertAll_of_nodup {map : OrderedMap κ α} {pairs : List (κ × α)}
    (distinct : (keys (map ++ pairs)).Nodup) : map.insertAll pairs = map ++ pairs := by
  induction pairs generalizing map with
  | nil => exact (List.append_nil map).symm
  | cons pair pairs inductionHypothesis =>
    have absent : pair.1 ∉ map.keys := by
      intro present
      rw [keys, List.map_append, List.map_cons] at distinct
      exact (List.nodup_append.mp distinct).2.2 _ present _ List.mem_cons_self rfl
    rw [insertAll_cons, insert_of_not_mem absent, inductionHypothesis]
    · simp
    · simpa using distinct

/-- Pairs with distinct keys are a map already. -/
theorem ofPairs_of_nodup {pairs : List (κ × α)} (distinct : (keys pairs).Nodup) :
    ofPairs pairs = pairs :=
  insertAll_of_nodup distinct

end Keys

section Order

/-- A value that is replaced at once makes no difference. -/
theorem insert_insert (map : OrderedMap κ α) (key : κ) (old value : α) :
    (map.insert key old).insert key value = map.insert key value := by
  induction map with
  | nil => simp [insert]
  | cons entry rest inductionHypothesis =>
    by_cases same : entry.1 = key
    · simp [insert, same]
    · simp [insert, same, inductionHypothesis]

/-- A key that is held keeps its place, so that its value may be replaced before or after another
    key is inserted. -/
theorem insert_comm {map : OrderedMap κ α} {key other : κ} (held : key ∈ map.keys)
    (apart : key ≠ other) (value another : α) :
    (map.insert other another).insert key value = (map.insert key value).insert other another := by
  induction map with
  | nil => cases held
  | cons entry rest inductionHypothesis =>
    by_cases same : entry.1 = key
    · simp [insert, same, apart]
    · have later : key ∈ keys rest := (List.mem_cons.mp held).resolve_left (Ne.symm same)
      by_cases found : entry.1 = other
      · simp [insert, found, apart.symm]
      · simp [insert, same, found, inductionHypothesis later]

/-- A key that is held keeps its place, so its value may be set before other pairs are put in. -/
theorem insert_insertAll {map : OrderedMap κ α} {pairs : List (κ × α)} {key : κ}
    (held : key ∈ map.keys) (absent : key ∉ keys pairs) (value : α) :
    (map.insertAll pairs).insert key value = (map.insert key value).insertAll pairs := by
  induction pairs generalizing map with
  | nil => rfl
  | cons pair pairs inductionHypothesis =>
    obtain ⟨apart, later⟩ := List.ne_and_not_mem_of_not_mem_cons absent
    have stays : key ∈ (map.insert pair.1 pair.2).keys := mem_keys_insert.mpr (.inr held)
    rw [insertAll_cons, insertAll_cons, inductionHypothesis stays later, insert_comm held apart]

/-- A pair may be put into a map before the map is put into another one, or afterwards. -/
theorem insertAll_insert (map : OrderedMap κ α) {more : OrderedMap κ α}
    (distinct : more.keys.Nodup) (key : κ) (value : α) :
    map.insertAll (more.insert key value) = (map.insertAll more).insert key value := by
  induction more generalizing map with
  | nil => rfl
  | cons entry rest inductionHypothesis =>
    obtain ⟨apart, later⟩ := List.nodup_cons.mp distinct
    by_cases same : entry.1 = key
    · subst same
      have held : entry.1 ∈ (map.insert entry.1 entry.2).keys := mem_keys_insert.mpr (.inl rfl)
      rw [insert, if_pos rfl, insertAll_cons, insertAll_cons, insert_insertAll held apart,
        insert_insert]
    · rw [insert, if_neg same, insertAll_cons, insertAll_cons, inductionHypothesis _ later]

/-- Pairs may be made into a map of their own before they are put into another one. -/
theorem insertAll_ofPairs (map : OrderedMap κ α) (pairs : List (κ × α)) :
    map.insertAll (ofPairs pairs) = map.insertAll pairs := by
  induction pairs using List.reverseRecOn with
  | nil => rfl
  | append_singleton front pair inductionHypothesis =>
    have last : ofPairs (front ++ [pair]) = (ofPairs front).insert pair.1 pair.2 :=
      ofPairs_append front [pair]
    have split : map.insertAll (front ++ [pair]) = (map.insertAll front).insert pair.1 pair.2 :=
      List.foldl_append
    rw [last, insertAll_insert map (nodup_ofPairs front), inductionHypothesis, split]

end Order

end GameSidecar.OrderedMap
