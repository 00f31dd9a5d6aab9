import Mathlib.Data.List.Forall2
import Mathlib.Tactic.ByContra
import GameSidecar.Bootstrap.Descriptor
import GameSidecar.Proofs.Splitting

/-!
# The first faulty entry

Ports and metadata are read entry by entry, and the first entry that is faulty decides what is said
about the text. This module says which entries of ports are faulty in which way, without the
functions that read them: a number is one or more decimal digits of any scripts, and it is too long
if there are more than 4300 of them. Within an entry the number inside the container comes before
the one on the host.
-/

namespace GameSidecar.Bootstrap

section Reading

variable {ε α β : Type} {read : α → Except ε β}

/-- A list fails to be read with the error of the first item that fails. -/
theorem mapM_eq_error_iff {items : List α} {error : ε} :
    items.mapM read = .error error ↔
      ∃ front item back, items = front ++ item :: back ∧
        (∀ earlier ∈ front, ∃ value, read earlier = .ok value) ∧ read item = .error error := by
  induction items with
  | nil =>
    constructor
    · intro failed
      cases failed
    · rintro ⟨front, item, back, split, -⟩
      simp at split
  | cons first rest inductionHypothesis =>
    rw [List.mapM_cons]
    cases reads : read first with
    | error other =>
      constructor
      · intro failed
        obtain rfl : other = error := Except.error.inj failed
        exact ⟨[], first, rest, rfl, by simp, reads⟩
      · rintro ⟨front, item, back, split, fine, fails⟩
        cases front with
        | nil =>
          obtain ⟨rfl, -⟩ := List.cons.inj split
          obtain rfl : other = error := Except.error.inj (reads.symm.trans fails)
          rfl
        | cons earlier front =>
          obtain ⟨rfl, -⟩ := List.cons.inj split
          obtain ⟨value, read⟩ := fine first (by simp)
          exact nomatch reads.symm.trans read
    | ok value =>
      have later : (do let values ← rest.mapM read; pure (value :: values)) = .error error ↔
          rest.mapM read = .error error := by
        cases rest.mapM read with
        | error other => exact Iff.rfl
        | ok values => exact ⟨fun failed => (nomatch failed), fun failed => (nomatch failed)⟩
      refine later.trans (inductionHypothesis.trans ?_)
      constructor
      · rintro ⟨front, item, back, rfl, fine, fails⟩
        refine ⟨first :: front, item, back, rfl, ?_, fails⟩
        intro earlier member
        rcases List.mem_cons.mp member with rfl | member
        · exact ⟨value, reads⟩
        · exact fine earlier member
      · rintro ⟨front, item, back, split, fine, fails⟩
        cases front with
        | nil =>
          obtain ⟨rfl, -⟩ := List.cons.inj split
          exact nomatch reads.symm.trans fails
        | cons earlier front =>
          obtain ⟨rfl, rfl⟩ := List.cons.inj split
          exact ⟨front, item, back, rfl, fun other member => fine other (.tail _ member), fails⟩

/-- What is read in two steps has been read in the first one. -/
theorem ok_of_bind {first : Except ε α} {next : α → Except ε β} {result : β}
    (reads : first >>= next = .ok result) :
    ∃ value, first = .ok value ∧ next value = .ok result := by
  cases first with
  | error error => cases reads
  | ok value => exact ⟨value, rfl, reads⟩

/-- A list is read item by item. -/
theorem mapM_eq_ok_iff {items : List α} {values : List β} :
    items.mapM read = .ok values ↔
      List.Forall₂ (fun item value => read item = .ok value) items values := by
  induction items generalizing values with
  | nil =>
    rw [List.forall₂_nil_left_iff, List.mapM_nil]
    exact ⟨fun same => (Except.ok.inj same).symm, fun same => same ▸ rfl⟩
  | cons item items inductionHypothesis =>
    rw [List.forall₂_cons_left_iff, List.mapM_cons]
    constructor
    · intro reads
      obtain ⟨value, first, later⟩ := ok_of_bind reads
      obtain ⟨others, rest, same⟩ := ok_of_bind later
      exact ⟨value, others, first, inductionHypothesis.mp rest, (Except.ok.inj same).symm⟩
    · rintro ⟨value, others, first, rest, rfl⟩
      rw [first, inductionHypothesis.mpr rest]
      rfl

/-- A list can be read exactly if each of its items can. -/
theorem exists_mapM_eq_ok_iff {items : List α} :
    (∃ values, items.mapM read = .ok values) ↔ ∀ item ∈ items, ∃ value, read item = .ok value := by
  simp only [mapM_eq_ok_iff]
  induction items with
  | nil => simp
  | cons first rest inductionHypothesis =>
    rw [List.forall_mem_cons, ← inductionHypothesis]
    constructor
    · rintro ⟨_, _ | ⟨reads, others⟩⟩
      exact ⟨⟨_, reads⟩, _, others⟩
    · rintro ⟨⟨value, reads⟩, values, others⟩
      exact ⟨value :: values, .cons reads others⟩

/-- Every item of a list that is read comes from an item that reads so. -/
theorem exists_of_mem_mapM {items : List α} {values : List β}
    (reads : items.mapM read = .ok values) {value : β} (member : value ∈ values) :
    ∃ item ∈ items, read item = .ok value := by
  have each := mapM_eq_ok_iff.mp reads
  clear reads
  induction each with
  | nil => cases member
  | cons first _ inductionHypothesis =>
    rcases List.mem_cons.mp member with rfl | later
    · exact ⟨_, .head _, first⟩
    · obtain ⟨item, present, reads⟩ := inductionHypothesis later
      exact ⟨item, .tail _ present, reads⟩

end Reading

/-- One or more decimal digits of any scripts, and nothing else. -/
def IsNumber (text : List Char) : Prop :=
  text ≠ [] ∧ ∀ character ∈ text, Decimal.isDigit character = true

instance (text : List Char) : Decidable (IsNumber text) :=
  inferInstanceAs (Decidable (_ ∧ _))

/-- Digits have values. -/
theorem digitValues?_eq_some {text : List Char}
    (digits : ∀ character ∈ text, Decimal.isDigit character = true) :
    ∃ values, Decimal.digitValues? text = some values := by
  induction text with
  | nil => exact ⟨[], rfl⟩
  | cons character rest inductionHypothesis =>
    obtain ⟨value, first⟩ := Option.isSome_iff_exists.mp (digits character (by simp))
    obtain ⟨values, others⟩ :=
      inductionHypothesis fun later member => digits later (by simp [member])
    refine ⟨value :: values, ?_⟩
    rw [Decimal.digitValues?] at others ⊢
    simp [first, others]

/-- What has the values of digits consists of digits. -/
theorem isDigit_of_digitValues? {text : List Char} {values : List Nat}
    (read : Decimal.digitValues? text = some values) :
    ∀ character ∈ text, Decimal.isDigit character = true := by
  induction text generalizing values with
  | nil => simp
  | cons character rest inductionHypothesis =>
    rw [Decimal.digitValues?, List.mapM_cons] at read
    obtain ⟨value, first, more⟩ := Option.bind_eq_some_iff.mp read
    obtain ⟨others, later, -⟩ := Option.bind_eq_some_iff.mp more
    intro digit member
    rcases List.mem_cons.mp member with rfl | member
    · exact Option.isSome_iff_exists.mpr ⟨value, first⟩
    · exact inductionHypothesis later digit member

/-- A text cannot be read exactly if it is no number. -/
theorem read?_eq_none_iff {text : List Char} : Decimal.read? text = none ↔ ¬IsNumber text := by
  by_cases empty : text = []
  · simp [Decimal.read?, IsNumber, empty]
  · simp only [Decimal.read?, List.isEmpty_iff, empty, if_false, Option.map_eq_none_iff, IsNumber,
      ne_eq, not_false_eq_true, true_and]
    constructor
    · intro unread digits
      obtain ⟨values, read⟩ := digitValues?_eq_some digits
      cases unread.symm.trans read
    · intro other
      by_contra read
      obtain ⟨values, found⟩ := Option.ne_none_iff_exists'.mp read
      exact other (isDigit_of_digitValues? found)

namespace Port

/-- A number of a port that can be read. -/
def Fits (text : List Char) : Prop :=
  IsNumber text ∧ text.length ≤ longestNumber

/-- A number of a port with too many digits. -/
def Overruns (text : List Char) : Prop :=
  IsNumber text ∧ longestNumber < text.length

/-- A number is read, is no number, or has too many digits. -/
theorem number_cases (name : List Char) (side : Side) (text : List Char) :
    (Fits text ∧ ∃ value, number name side text = .ok value) ∨
      (¬IsNumber text ∧ number name side text = .error (.portNumber name side text)) ∨
      (Overruns text ∧ number name side text = .error (.portLength name side)) := by
  cases read : Decimal.read? text with
  | none => exact .inr (.inl ⟨read?_eq_none_iff.mp read, by simp [number, read]⟩)
  | some value =>
    have isNumber : IsNumber text := by
      by_contra other
      exact nomatch (read?_eq_none_iff.mpr other).symm.trans read
    by_cases short : text.length ≤ longestNumber
    · exact .inl ⟨⟨isNumber, short⟩, value, by simp [number, read, short]⟩
    · exact .inr (.inr ⟨⟨isNumber, Nat.not_le.mp short⟩, by simp [number, read, short]⟩)

/-- A number that is too long does not fit. -/
theorem not_fits_of_overruns {text : List Char} (long : Overruns text) : ¬Fits text :=
  fun fits => Nat.not_le.mpr long.2 fits.2

/-- What is no number does not fit. -/
theorem not_fits_of_not_isNumber {text : List Char} (other : ¬IsNumber text) : ¬Fits text :=
  fun fits => other fits.1

/-- What is no number is not too long either. -/
theorem not_overruns_of_not_isNumber {text : List Char} (other : ¬IsNumber text) :
    ¬Overruns text :=
  fun long => other long.1

/-- A number that fits is not too long. -/
theorem not_overruns_of_fits {text : List Char} (fits : Fits text) : ¬Overruns text :=
  fun long => not_fits_of_overruns long fits

/-- An entry that describes a port. -/
def IsEntry (entry : List Char) : Prop :=
  ∃ name container host, Text.split ',' entry = [name, container, host] ∧ Fits container ∧ Fits host

/-- An entry that would describe a port, were it not for a number with too many digits. The number
    on the host counts only if the one inside the container can be read. -/
def OverrunsEntry (entry : List Char) : Prop :=
  ∃ name container host, Text.split ',' entry = [name, container, host] ∧
    (Overruns container ∨ (Fits container ∧ Overruns host))

/-- Only one way to cut an entry into three parts has to be looked at. -/
theorem exists_parts_iff {entry name container host : List Char}
    {holds : List Char → List Char → Prop}
    (split : Text.split ',' entry = [name, container, host]) :
    (∃ name container host, Text.split ',' entry = [name, container, host] ∧ holds container host) ↔
      holds container host := by
  constructor
  · rintro ⟨_, _, _, same, parts⟩
    obtain ⟨-, rfl, rfl⟩ : name = _ ∧ container = _ ∧ host = _ := by
      simpa using split.symm.trans same
    exact parts
  · exact fun parts => ⟨name, container, host, split, parts⟩

/-- An entry of three fields is read number by number, the one inside the container first. -/
theorem ofEntry_eq {entry name container host : List Char}
    (split : Text.split ',' entry = [name, container, host]) :
    ofEntry entry = (number name .container container).bind fun listening =>
      (number name .host host).bind fun connecting =>
        .ok ⟨String.ofList name, listening, connecting⟩ := by
  simp only [ofEntry, split]
  rfl

/-- An entry that has not three fields is faulty in its shape. -/
theorem ofEntry_eq_shape {entry : List Char}
    (other : ∀ name container host, Text.split ',' entry ≠ [name, container, host]) :
    ofEntry entry = .error (.portShape entry) := by
  unfold ofEntry
  split
  · rename_i name container host split
    exact absurd split (other name container host)
  · rfl

/-- An entry is read, is faulty only for a number with too many digits, or is faulty otherwise. -/
theorem ofEntry_cases (entry : List Char) :
    (IsEntry entry ∧ ¬OverrunsEntry entry ∧ ∃ port, ofEntry entry = .ok port) ∨
      (¬IsEntry entry ∧ OverrunsEntry entry ∧
        ∃ name side, ofEntry entry = .error (.portLength name side)) ∨
      (¬IsEntry entry ∧ ¬OverrunsEntry entry ∧ ∃ error, ofEntry entry = .error error ∧
        ∀ name side, error ≠ .portLength name side) := by
  by_cases shape : ∃ name container host, Text.split ',' entry = [name, container, host]
  · obtain ⟨name, container, host, split⟩ := shape
    rw [IsEntry, OverrunsEntry, exists_parts_iff split, exists_parts_iff split, ofEntry_eq split]
    rcases number_cases name .container container with
      ⟨fits, listening, inside⟩ | ⟨other, inside⟩ | ⟨long, inside⟩
    · rcases number_cases name .host host with
        ⟨fitsToo, connecting, outside⟩ | ⟨otherToo, outside⟩ | ⟨longToo, outside⟩
      · simp [inside, outside, Except.bind, fits, fitsToo, not_overruns_of_fits]
      · simp [inside, outside, Except.bind, fits, not_overruns_of_fits,
          not_fits_of_not_isNumber otherToo, not_overruns_of_not_isNumber otherToo]
      · simp [inside, outside, Except.bind, fits, longToo, not_fits_of_overruns longToo]
    · simp [inside, Except.bind, not_fits_of_not_isNumber other, not_overruns_of_not_isNumber other]
    · simp [inside, Except.bind, long, not_fits_of_overruns long]
  · simp only [not_exists] at shape
    rw [ofEntry_eq_shape shape]
    simp [IsEntry, OverrunsEntry, shape]

/-- A port is read from an entry exactly if it is one of the grammar. -/
theorem ofEntry_eq_ok_iff {entry : List Char} :
    (∃ port, ofEntry entry = .ok port) ↔ IsEntry entry := by
  rcases ofEntry_cases entry with
    ⟨isEntry, -, read⟩ | ⟨other, -, name, side, failed⟩ | ⟨other, -, error, failed, -⟩
  · exact iff_of_true read isEntry
  · exact iff_of_false (by simp [failed]) other
  · exact iff_of_false (by simp [failed]) other

/-- An entry breaks the reading off exactly if its first faulty number is one that is too long. -/
theorem ofEntry_eq_length_iff {entry : List Char} :
    (∃ name side, ofEntry entry = .error (.portLength name side)) ↔ OverrunsEntry entry := by
  rcases ofEntry_cases entry with
    ⟨-, fine, port, read⟩ | ⟨-, long, failed⟩ | ⟨-, other, error, failed, unlike⟩
  · exact iff_of_false (by simp [read]) fine
  · exact iff_of_true failed long
  · exact iff_of_false (by simp [failed, unlike]) other

/-- A text whose first faulty entry is faulty only for a number with too many digits. -/
def OverrunsText (text : List Char) : Prop :=
  ∃ front entry back, entries text = front ++ entry :: back ∧ (∀ earlier ∈ front, IsEntry earlier) ∧
    OverrunsEntry entry

/-- A text does exactly if its first faulty entry does. -/
theorem readAll_eq_length_iff {text : List Char} :
    (∃ name side, readAll text = .error (.portLength name side)) ↔ OverrunsText text := by
  simp only [readAll, mapM_eq_error_iff, OverrunsText, ← ofEntry_eq_length_iff, ← ofEntry_eq_ok_iff]
  constructor
  · rintro ⟨name, side, front, entry, back, split, fine, fails⟩
    exact ⟨front, entry, back, split, fine, name, side, fails⟩
  · rintro ⟨front, entry, back, split, fine, name, side, fails⟩
    exact ⟨name, side, front, entry, back, split, fine, fails⟩

end Port

/-- Nothing is said about an error exactly if it is a number of a port with too many digits. -/
theorem EntryError.objection?_eq_none_iff {error : EntryError} :
    error.objection? = none ↔ ∃ name side, error = .portLength name side := by
  cases error <;> simp [objection?]

namespace Metadata

/-- Metadata are faulty only where an entry has no comma. -/
theorem shape_of_read {text : List Char} {error : EntryError}
    (failed : read text = .error error) : ∃ entry, error = .metadataShape entry := by
  have fails : (entries text).mapM pair = .error error := by
    cases all : (entries text).mapM pair with
    | error other => simpa [read, all, Except.map] using failed
    | ok pairs => simp [read, all, Except.map] at failed
  obtain ⟨front, entry, back, -, -, faulty⟩ := mapM_eq_error_iff.mp fails
  refine ⟨entry, ?_⟩
  unfold pair at faulty
  split at faulty
  · exact (Except.error.inj faulty).symm
  · cases faulty

end Metadata

namespace Descriptor

/-- What is wrong with ports is reported before the metadata are looked at. -/
theorem ofSettings_eq_error_iff {settings : Settings} {error : EntryError} :
    ofSettings settings = .error error ↔
      Port.readAll settings.ports.toList = .error error ∨
        (∃ ports, Port.readAll settings.ports.toList = .ok ports) ∧
          Metadata.read settings.metadata.toList = .error error := by
  unfold ofSettings
  cases Port.readAll settings.ports.toList with
  | error other => simp [bind, Except.bind]
  | ok ports =>
    cases Metadata.read settings.metadata.toList <;> simp [bind, Except.bind, pure, Except.pure]

/-- Of settings whose first faulty entry of ports has a number with too many digits, nothing is
    said, and of no others. -/
theorem objection?_eq_none_iff {settings : Settings} :
    (∃ error, ofSettings settings = .error error ∧ error.objection? = none) ↔
      Port.OverrunsText settings.ports.toList := by
  rw [← Port.readAll_eq_length_iff]
  constructor
  · rintro ⟨error, failed, unsaid⟩
    obtain ⟨name, side, rfl⟩ := EntryError.objection?_eq_none_iff.mp unsaid
    rcases ofSettings_eq_error_iff.mp failed with ports | ⟨-, metadata⟩
    · exact ⟨name, side, ports⟩
    · obtain ⟨entry, shape⟩ := Metadata.shape_of_read metadata
      cases shape
  · rintro ⟨name, side, ports⟩
    exact ⟨_, ofSettings_eq_error_iff.mpr (.inl ports), rfl⟩

end Descriptor

end GameSidecar.Bootstrap
