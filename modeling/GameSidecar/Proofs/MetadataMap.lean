import GameSidecar.Proofs.Pairs
import GameSidecar.Proofs.Segments
import Mathlib.Data.List.TakeWhile

/-!
# The map of some metadata

A pair of a key and a value is shown by an entry: the key, a comma and the value. The key ends at
the first comma, so that it has none itself, while the value may have more of them. What pairs are
strung together to comes back as a map, in which a key keeps the place of its first pair and has the
value of its last one.

Metadata may be read in two pieces. The second piece counts after the first one, as its errors do.
-/

namespace GameSidecar.Bootstrap.Metadata

open Text (Divides split_eq_iff)

/-- An entry shows a pair: the key, a comma and the value. There is no comma in the key, and no
    question mark in either of them. -/
structure ShownBy (pair : String × String) (entry : List Char) : Prop where
  parts : entry = pair.1.toList ++ ',' :: pair.2.toList
  noComma : ',' ∉ pair.1.toList
  noMark : '?' ∉ pair.1.toList
  noMarkBehind : '?' ∉ pair.2.toList

/-- A map holds each key of some pairs once, in the order in which they occur first, and with the
    value of the last pair that has it. -/
structure Gathers (pairs : List (String × String)) (map : OrderedMap String String) : Prop where
  keys : map.keys = (pairs.map Prod.fst).eraseDups
  values : ∀ key, map.get? key = ((pairs.filter fun pair => pair.1 = key).getLast?).map Prod.snd

/-- The fault of some segments: the first one that is not empty and has no comma. -/
inductive FirstFault (segments : List (List Char)) : EntryError → Option String → Prop
  | segment {front : List (List Char)} {segment : List Char} {back : List (List Char)}
      (cut : segments = front ++ segment :: back)
      (fine : ∀ earlier ∈ front, earlier ≠ [] → ',' ∈ earlier) (given : segment ≠ [])
      (noComma : ',' ∉ segment) :
    FirstFault segments (.metadataShape segment)
      (some ("could not parse build metadata entry " ++ Text.quoted (String.ofList segment) ++
        ", expected key,value"))

section Entries

/-- The key ends at the first comma. -/
theorem pair_append {key : List Char} (noComma : ',' ∉ key) (value : List Char) :
    pair (key ++ ',' :: value) = .ok (String.ofList key, String.ofList value) := by
  have before : ∀ character ∈ key, decide (character ≠ ',') = true := by
    intro character member
    exact decide_eq_true (ne_of_mem_of_not_mem member noComma)
  have rest : (key ++ ',' :: value).dropWhile (· ≠ ',') = ',' :: value := by
    rw [List.dropWhile_append_of_pos before]
    rfl
  have first : (key ++ ',' :: value).takeWhile (· ≠ ',') = key := by
    rw [List.takeWhile_append_of_pos before]
    exact List.append_nil key
  rw [pair, rest, first]

/-- An entry without a comma is no pair. -/
theorem pair_of_not_mem {entry : List Char} (noComma : ',' ∉ entry) :
    pair entry = .error (.metadataShape entry) := by
  have none : entry.dropWhile (· ≠ ',') = [] := by
    rw [List.dropWhile_eq_nil_iff]
    intro character member
    exact decide_eq_true (ne_of_mem_of_not_mem member noComma)
  rw [pair, none]

/-- The one fault of an entry is that it has no comma, and the message quotes it. -/
theorem pair_eq_error_iff {entry : List Char} {error : EntryError} :
    pair entry = .error error ↔ ',' ∉ entry ∧ error = .metadataShape entry := by
  by_cases comma : ',' ∈ entry
  · obtain ⟨key, value, rfl, noComma⟩ := List.eq_append_cons_of_mem comma
    rw [pair_append noComma]
    simp
  · rw [pair_of_not_mem comma]
    simp [comma, eq_comm]

/-- An entry is a pair exactly if it has a comma. -/
theorem exists_pair_iff {entry : List Char} :
    (∃ item, pair entry = .ok item) ↔ ',' ∈ entry := by
  by_cases comma : ',' ∈ entry
  · obtain ⟨key, value, rfl, noComma⟩ := List.eq_append_cons_of_mem comma
    exact iff_of_true ⟨_, pair_append noComma value⟩ comma
  · rw [pair_of_not_mem comma]
    exact iff_of_false nofun comma

/-- What shows a pair is not empty and holds no question mark. -/
theorem ShownBy.whole {item : String × String} {entry : List Char} (shown : ShownBy item entry) :
    entry ≠ [] ∧ '?' ∉ entry := by
  obtain ⟨rfl, -, noMark, noMarkBehind⟩ := shown
  simp [noMark, noMarkBehind]

/-- An entry shows the pair that is read from it, and no other. -/
theorem pair_eq_ok_iff {item : String × String} {entry : List Char} (whole : '?' ∉ entry) :
    pair entry = .ok item ↔ ShownBy item entry := by
  constructor
  · intro read
    obtain ⟨key, value, rfl, noComma⟩ := List.eq_append_cons_of_mem (exists_pair_iff.mp ⟨_, read⟩)
    obtain rfl := Except.ok.inj ((pair_append noComma value).symm.trans read)
    have noMark : '?' ∉ key := fun member => whole (List.mem_append_left _ member)
    have noMarkBehind : '?' ∉ value := fun member =>
      whole (List.mem_append_right _ (.tail _ member))
    exact ⟨by simp, by simpa using noComma, by simpa using noMark, by simpa using noMarkBehind⟩
  · rintro ⟨rfl, noComma, -, -⟩
    rw [pair_append noComma]
    simp

end Entries

section Maps

/-- The map of some pairs gathers them. -/
theorem gathers_ofPairs (pairs : List (String × String)) : Gathers pairs (.ofPairs pairs) :=
  ⟨OrderedMap.keys_ofPairs pairs, OrderedMap.get?_ofPairs pairs⟩

/-- A text is read as the map of the pairs that it strings together. -/
theorem read_of_strung {pairs : List (String × String)} {text : List Char}
    (strung : Strung ShownBy pairs text) : read text = .ok (.ofPairs pairs) := by
  have all : (entries text).mapM pair = .ok pairs :=
    (mapM_entries_eq_ok_iff (fun _ _ => ShownBy.whole) fun _ _ whole _ =>
      pair_eq_ok_iff whole).mpr strung
  rw [read, all]
  rfl

/-- The pairs of the second piece are put into the map of the first one. -/
theorem read_append (front back : List Char) :
    read (front ++ '?' :: back) =
      (read front).bind fun first => (read back).map fun second => first.insertAll second := by
  rw [read, entries_append, List.mapM_append, read, read]
  cases (entries front).mapM pair with
  | error error => rfl
  | ok pairs =>
    cases (entries back).mapM pair with
    | error error => rfl
    | ok more =>
      have together : OrderedMap.ofPairs (pairs ++ more) =
          (OrderedMap.ofPairs pairs).insertAll (OrderedMap.ofPairs more) := by
        rw [OrderedMap.insertAll_ofPairs, OrderedMap.ofPairs_append]
      exact congrArg Except.ok together

end Maps

section Faults

/-- Metadata cannot be read exactly if an entry cannot. -/
theorem read_eq_error_iff_mapM {text : List Char} {error : EntryError} :
    read text = .error error ↔ (entries text).mapM pair = .error error := by
  rw [read]
  cases (entries text).mapM pair <;> simp [Except.map]

/-- The first segment that is neither empty nor a pair decides what is wrong. -/
theorem read_eq_error_iff {text : List Char} {segments : List (List Char)}
    (divides : Divides '?' text segments) {error : EntryError} {about : Option String} :
    read text = .error error ∧ error.objection? = about ↔ FirstFault segments error about := by
  simp only [read_eq_error_iff_mapM, mapM_entries_eq_error_iff divides, exists_pair_iff,
    pair_eq_error_iff]
  constructor
  · rintro ⟨⟨front, segment, back, cut, fine, given, noComma, rfl⟩, rfl⟩
    exact .segment cut fine given noComma
  · rintro ⟨cut, fine, given, noComma⟩
    exact ⟨⟨_, _, _, cut, fine, given, noComma, rfl⟩, rfl⟩

/-- Metadata cannot be read exactly if there is such a segment. -/
theorem exists_error_iff {text : List Char} {segments : List (List Char)}
    (divides : Divides '?' text segments) :
    (∃ error, read text = .error error) ↔ ∃ segment ∈ segments, segment ≠ [] ∧ ',' ∉ segment := by
  have either : (∃ error, read text = .error error) ↔
      ¬∃ pairs, (entries text).mapM pair = .ok pairs := by
    simp only [read_eq_error_iff_mapM]
    cases (entries text).mapM pair <;> simp
  simp only [either, exists_mapM_eq_ok_iff, entries_eq divides, exists_pair_iff]
  simp

end Faults

/-- Metadata are the map of the pairs that they string together. Two pieces with a question mark
    between them are read one after the other, and the map of the first one is updated by that of
    the second. They cannot be read exactly if a segment that is not empty has no comma, and the
    first one that is so is quoted. -/
theorem read_gathers_pairs :
    (∀ pairs text, Strung ShownBy pairs text → ∃ map, read text = .ok map ∧ Gathers pairs map) ∧
    (∀ front back, read (front ++ '?' :: back) =
      (read front).bind fun first => (read back).map fun second => first.insertAll second) ∧
    ∀ text, ∃ segments, Divides '?' text segments ∧
      ((∃ error, read text = .error error) ↔
        ∃ segment ∈ segments, segment ≠ [] ∧ ',' ∉ segment) ∧
      ∀ error about, read text = .error error ∧ error.objection? = about ↔
        FirstFault segments error about := by
  refine ⟨?_, read_append, ?_⟩
  · intro pairs text strung
    exact ⟨.ofPairs pairs, read_of_strung strung, gathers_ofPairs pairs⟩
  · intro text
    have divides := split_eq_iff.mp (Eq.refl (Text.split '?' text))
    exact ⟨_, divides, exists_error_iff divides, fun _ _ => read_eq_error_iff divides⟩

/-- A key is repeated, a key and a value are empty, and values have commas in them. -/
theorem read_gathers_pairs_unusual :
    Strung ShownBy [("key", "a"), ("", ",b,"), ("key", ""), ("z", "🎲")]
        "??key,a?,,b,???key,?z,🎲?".toList ∧
      ∃ map, read "??key,a?,,b,???key,?z,🎲?".toList = .ok map ∧
        Gathers [("key", "a"), ("", ",b,"), ("key", ""), ("z", "🎲")] map ∧
        map = [("key", ""), ("", ",b,"), ("z", "🎲")] := by
  have strung : Strung ShownBy [("key", "a"), ("", ",b,"), ("key", ""), ("z", "🎲")]
      "??key,a?,,b,???key,?z,🎲?".toList := by
    have first : ShownBy ("key", "a") "key,a".toList := ⟨rfl, by decide, by decide, by decide⟩
    have second : ShownBy ("", ",b,") ",,b,".toList := ⟨rfl, by decide, by decide, by decide⟩
    have third : ShownBy ("key", "") "key,".toList := ⟨rfl, by decide, by decide, by decide⟩
    have last : ShownBy ("z", "🎲") "z,🎲".toList := ⟨rfl, by decide, by decide, by decide⟩
    exact .mark (.mark (.item first (.item second (.mark (.mark (.item third
      (.item last .nothing)))))))
  obtain ⟨map, read, gathers⟩ := read_gathers_pairs.1 _ _ strung
  exact ⟨strung, map, read, gathers, Except.ok.inj (read.symm.trans (by rfl))⟩

end GameSidecar.Bootstrap.Metadata
