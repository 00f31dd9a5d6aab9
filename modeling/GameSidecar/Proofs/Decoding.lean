import Mathlib.Data.List.Sort
import GameSidecar.Proofs.Checking
import GameSidecar.Proofs.Spelling

/-!
# Decoding reports every fault

A heartbeat is decoded from any JSON value at all. Which values stand for a heartbeat, and for which
one, is said here without the functions that read them, and so are the faults of all others: each
field has at most one, and so has each player if the players are an array. The list that is reported
has one entry for every position at which there is a fault, in the order of the positions, and each
is located by the spelling that was taken.

A spelling that comes later is not looked at, so a null under the first name hides a value under the
second. Several faults at once do not hide each other.
-/

namespace GameSidecar

namespace Heartbeat.Request

section Meanings

/-- What an object has under some names: the first of them that is present, with its value, whatever
    that is, or nothing. -/
inductive Finds (members : List (String × Json)) (names : List String) :
    Option (String × Json) → Prop
  | first {before after : List String} {name : String} {value : Json}
      (order : names = before ++ name :: after)
      (absent : ∀ earlier ∈ before, OrderedMap.get? members earlier = none)
      (present : OrderedMap.get? members name = some value) :
    Finds members names (some (name, value))
  | nothing (absent : ∀ name ∈ names, OrderedMap.get? members name = none) :
    Finds members names none

/-- What an object has under some names has a meaning. -/
def Holds (members : List (String × Json)) (names : List String) (means : Option Json → Prop) :
    Prop :=
  ∃ found, Finds members names found ∧ means (found.map Prod.snd)

/-- An object that gives the identity of a player, or leaves it out. -/
inductive Identifies (player : String) : Json → Prop
  | object {members : List (String × Json)}
      (given : Holds members playerNames (MeansIdentity player)) :
    Identifies player (.object members)

/-- Players are given as an array. No players may be null or be left out. -/
inductive MeansRoster : List String → Option Json → Prop
  | listed {players : List String} {items : List Json}
      (each : List.Forall₂ Identifies players items) : MeansRoster players (some (.array items))
  | null : MeansRoster [] (some .null)
  | missing : MeansRoster [] none

/-- A value that stands for a heartbeat: an object whose three fields have the meanings of its. -/
inductive StandsFor (request : Request) : Json → Prop
  | object {members : List (String × Json)}
      (state : Holds members stateNames (MeansState request.state))
      (health : Holds members healthNames (MeansHealth request.health))
      (players : Holds members playersNames (MeansRoster request.players)) :
    StandsFor request (.object members)

end Meanings

section Offences

/-- Where a fault can be: at a field, or at one of the players. -/
inductive Position
  | state
  | health
  | players
  | player (index : Nat)

/-- The order in which faults are reported. -/
def Position.rank : Position → Nat
  | .state => 0
  | .health => 1
  | .players => 2
  | .player index => 3 + index

/-- What is wrong with a player at a place: it is no object, or its identity is no text. -/
inductive PlayerFault (place : List Step) : Json → Fault → Prop
  | shape {item : Json} (other : ∀ members, item ≠ .object members) :
    PlayerFault place item ⟨place, .object, item⟩
  | identity {members : List (String × Json)} {name : String} {value : Json}
      (found : Finds members playerNames (some (name, value)))
      (other : ∀ player, value ≠ .string player) :
    PlayerFault place (.object members) ⟨place ++ [.name name], .string, value⟩

/-- What is wrong with an object at a position, located by the name under which it is found. -/
inductive Offends (members : List (String × Json)) : Position → Fault → Prop
  | state {name : String} {value : Json} (found : Finds members stateNames (some (name, value)))
      (other : ∀ state, ¬MeansState state (some value)) :
    Offends members .state ⟨[.name name], .gameState, value⟩
  | health {name : String} {value : Json} (found : Finds members healthNames (some (name, value)))
      (other : ∀ health, ¬MeansHealth health (some value)) :
    Offends members .health ⟨[.name name], .string, value⟩
  | players {name : String} {value : Json}
      (found : Finds members playersNames (some (name, value))) (given : value ≠ .null)
      (other : ∀ items, value ≠ .array items) :
    Offends members .players ⟨[.name name], .array, value⟩
  | player {name : String} {items : List Json} {index : Nat} {item : Json} {fault : Fault}
      (found : Finds members playersNames (some (name, .array items)))
      (present : items[index]? = some item)
      (wrong : PlayerFault [.name name, .index index] item fault) :
    Offends members (.player index) fault

/-- The faults that a value is refused with. A value that is no object has one fault only; those of
    an object are listed by their positions, without leaving one out. -/
inductive Refused : Json → List Fault → Prop
  | shape {value : Json} (other : ∀ members, value ≠ .object members) :
    Refused value [⟨[], .object, value⟩]
  | fields {members : List (String × Json)} {positions : List Position} {faults : List Fault}
      (some : faults ≠ []) (each : List.Forall₂ (Offends members) positions faults)
      (order : positions.Pairwise fun earlier later => earlier.rank < later.rank)
      (all : ∀ position fault, Offends members position fault → position ∈ positions) :
    Refused (.object members) faults

end Offences

section Finding

variable {members : List (String × Json)} {names : List String} {found : Option (String × Json)}

/-- The member that the reader takes is the first one that is found under the names. -/
theorem finds_taken? (members : List (String × Json)) (names : List String) :
    Finds members names (taken? members names) := by
  induction names with
  | nil => exact .nothing (List.forall_mem_nil _)
  | cons name names inductionHypothesis =>
    rw [taken?]
    cases here : OrderedMap.get? members name with
    | some value => exact .first (List.nil_append _).symm (List.forall_mem_nil _) here
    | none =>
      dsimp only
      generalize taken? members names = found at inductionHypothesis
      cases inductionHypothesis with
      | first order absent present =>
        exact .first (congrArg (name :: ·) order) (List.forall_mem_cons.mpr ⟨here, absent⟩) present
      | nothing absent => exact .nothing (List.forall_mem_cons.mpr ⟨here, absent⟩)

/-- What an object has under some names is what is taken of it. -/
theorem Finds.eq_taken? (finds : Finds members names found) : found = taken? members names := by
  cases finds with
  | @first before after name value order absent present =>
    subst order
    induction before with
    | nil => simp [taken?, present]
    | cons earlier before inductionHypothesis =>
      obtain ⟨here, later⟩ := List.forall_mem_cons.mp absent
      simp [taken?, here, ← inductionHypothesis later]
  | nothing absent => rw [taken?_of_absent absent]

/-- What is held under some names is what the member means that is taken. -/
theorem holds_iff {means : Option Json → Prop} :
    Holds members names means ↔ means ((taken? members names).map Prod.snd) := by
  constructor
  · rintro ⟨found, finds, meant⟩
    exact finds.eq_taken? ▸ meant
  · exact fun meant => ⟨_, finds_taken? members names, meant⟩

end Finding

section Offending

variable {members : List (String × Json)}

/-- At most one member is found. -/
theorem Finds.unique {names : List String} {name other : String} {value given : Json}
    (finds : Finds members names (some (name, value)))
    (again : Finds members names (some (other, given))) : name = other ∧ value = given := by
  have same := finds.eq_taken?.trans again.eq_taken?.symm
  simpa using same

/-- A player has one fault at most. -/
theorem PlayerFault.unique {place : List Step} {item : Json} {fault other : Fault}
    (wrong : PlayerFault place item fault) (too : PlayerFault place item other) :
    fault = other := by
  cases wrong with
  | shape strange =>
    cases too with
    | shape => rfl
    | identity => exact absurd rfl (strange _)
  | identity found =>
    cases too with
    | shape strange => exact absurd rfl (strange _)
    | identity again =>
      obtain ⟨rfl, rfl⟩ := found.unique again
      rfl

/-- There is at most one fault at a position. -/
theorem Offends.unique {position : Position} {fault other : Fault}
    (offends : Offends members position fault) (too : Offends members position other) :
    fault = other := by
  cases offends with
  | state found =>
    cases too with
    | state again =>
      obtain ⟨rfl, rfl⟩ := found.unique again
      rfl
  | health found =>
    cases too with
    | health again =>
      obtain ⟨rfl, rfl⟩ := found.unique again
      rfl
  | players found =>
    cases too with
    | players again =>
      obtain ⟨rfl, rfl⟩ := found.unique again
      rfl
  | player found present wrong =>
    cases too with
    | player again presentToo wrongToo =>
      obtain ⟨rfl, same⟩ := found.unique again
      obtain rfl := Json.array.inj same
      obtain rfl := Option.some.inj (present.symm.trans presentToo)
      exact wrong.unique wrongToo

end Offending

/-- What a check comes to: a value with a meaning, or the one fault that there is. -/
structure Judged {α : Type} (means : α → Prop) (wrong : Fault → Prop)
    (checked : Except (List Fault) α) : Prop where
  fine : ∀ value, checked = .ok value ↔ means value
  faulty : ∀ faults, checked = .error faults ↔ ∃ fault, faults = [fault] ∧ wrong fault

/-- A reader judges what it reads if it gives each value that is meant, and one fault when there is
    none. -/
theorem Judged.of_cases {α : Type} {means : α → Prop} {wrong : Fault → Prop}
    {checked : Except (List Fault) α} (fine : ∀ value, means value → checked = .ok value)
    (faulty : (∀ value, ¬means value) → ∃ fault, checked = .error [fault] ∧ wrong fault)
    (apart : ∀ value fault, means value → ¬wrong fault)
    (once : ∀ fault other, wrong fault → wrong other → fault = other) :
    Judged means wrong checked := by
  by_cases sense : ∃ value, means value
  · obtain ⟨value, meant⟩ := sense
    obtain rfl := fine value meant
    refine ⟨fun other => ⟨?_, fine other⟩, fun faults => iff_of_false nofun ?_⟩
    · intro same
      exact Except.ok.inj same ▸ meant
    · rintro ⟨fault, -, offence⟩
      exact apart value fault meant offence
  · simp only [not_exists] at sense
    obtain ⟨fault, rfl, offence⟩ := faulty sense
    refine ⟨fun value => iff_of_false nofun (sense value), fun faults => ⟨?_, ?_⟩⟩
    · intro same
      exact ⟨fault, (Except.error.inj same).symm, offence⟩
    · rintro ⟨other, rfl, too⟩
      rw [once fault other offence too]

/-- A check that is judged is not refused without a fault. -/
theorem Judged.reports {α : Type} {means : α → Prop} {wrong : Fault → Prop}
    {checked : Except (List Fault) α} (judged : Judged means wrong checked) :
    checked ≠ .error [] := by
  rintro rfl
  obtain ⟨fault, same, -⟩ := (judged.faulty []).mp rfl
  cases same

section Fields

variable (members : List (String × Json))

/-- The state is judged by what is held under its names. -/
theorem judged_state :
    Judged (fun state => Holds members stateNames (MeansState state)) (Offends members .state)
      (readState members) := by
  have finds := finds_taken? members stateNames
  simp only [holds_iff]
  refine .of_cases (fun state meant => readState_of_means meant) (fun senseless => ?_) ?_
    fun _ _ offends too => offends.unique too
  · unfold readState
    generalize taken? members stateNames = found at finds senseless
    match found with
    | none => exact absurd .missing (senseless none)
    | some (name, value) =>
      refine ⟨_, ?_, .state finds senseless⟩
      cases value with
      | null => exact absurd .null (senseless none)
      | string text =>
        have given : text ≠ "" := by
          rintro rfl
          exact senseless none .empty
        cases named : GameState.ofName? text with
        | some state =>
          obtain rfl := GameState.name_of_ofName? named
          exact absurd (.named state) (senseless (some state))
        | none => simp [given, Json.string?, named]
      | _ => rfl
  · intro state fault meant offends
    cases offends with
    | state found other =>
      rw [← found.eq_taken?] at meant
      exact other state meant

/-- The health is judged by what is held under its names. -/
theorem judged_health :
    Judged (fun health => Holds members healthNames (MeansHealth health)) (Offends members .health)
      (readHealth members) := by
  have finds := finds_taken? members healthNames
  simp only [holds_iff]
  refine .of_cases (fun health meant => readHealth_of_means meant) (fun senseless => ?_) ?_
    fun _ _ offends too => offends.unique too
  · unfold readHealth
    generalize taken? members healthNames = found at finds senseless
    match found with
    | none => exact absurd .missing (senseless "")
    | some (name, value) =>
      refine ⟨_, ?_, .health finds senseless⟩
      cases value with
      | null => exact absurd .null (senseless "")
      | string text => exact absurd (.text text) (senseless text)
      | _ => rfl
  · intro health fault meant offends
    cases offends with
    | health found other =>
      rw [← found.eq_taken?] at meant
      exact other health meant

end Fields

/-- A map identifies a player by what it holds under the names for that. -/
theorem identifies_iff {player : String} {members : List (String × Json)} :
    Identifies player (.object members) ↔
      MeansIdentity player ((taken? members playerNames).map Prod.snd) := by
  constructor
  · rintro ⟨given⟩
    exact holds_iff.mp given
  · exact fun meant => .object (holds_iff.mpr meant)

/-- A player is judged by whether the item identifies one. -/
theorem judged_player (place : List Step) (item : Json) :
    Judged (fun player => Identifies player item) (PlayerFault place item)
      (readPlayer place item) := by
  refine .of_cases (fun player identifies => ?_) (fun senseless => ?_) ?_
    fun _ _ wrong too => wrong.unique too
  · cases identifies with
    | @object members given =>
      rw [holds_iff] at given
      simp only [readPlayer]
      generalize taken? members playerNames = found at given
      rcases found with _ | ⟨name, value⟩ <;> cases given <;> rfl
  · cases item with
    | object members =>
      have finds := finds_taken? members playerNames
      simp only [identifies_iff] at senseless
      simp only [readPlayer]
      generalize taken? members playerNames = found at finds senseless
      rcases found with _ | ⟨name, value⟩
      · exact absurd .missing (senseless "")
      · cases value with
        | string text => exact absurd (.text text) (senseless text)
        | _ => exact ⟨_, rfl, .identity finds (by simp)⟩
    | _ => exact ⟨_, rfl, .shape (by simp)⟩
  · intro player fault identifies wrong
    cases wrong with
    | shape other => cases identifies; exact other _ rfl
    | identity found other =>
      rw [identifies_iff, ← found.eq_taken?] at identifies
      cases identifies
      exact other player rfl

/-- Some faults are those of an object in a range of positions: one for each position at which there
    is one, in order. -/
structure Covered (members : List (String × Json)) (range : Position → Prop)
    (positions : List Position) (faults : List Fault) : Prop where
  each : List.Forall₂ (Offends members) positions faults
  order : positions.Pairwise fun earlier later => earlier.rank < later.rank
  all : ∀ position, position ∈ positions ↔ range position ∧ ∃ fault, Offends members position fault

/-- Each position that is listed has a fault of its own. -/
theorem offends_of_mem {members : List (String × Json)} {positions : List Position}
    {faults : List Fault} (each : List.Forall₂ (Offends members) positions faults)
    {position : Position} (member : position ∈ positions) :
    ∃ fault, Offends members position fault := by
  induction each with
  | nil => cases member
  | cons offends _ inductionHypothesis =>
    rcases List.mem_cons.mp member with rfl | member
    · exact ⟨_, offends⟩
    · exact inductionHypothesis member

namespace Covered

variable {members : List (String × Json)} {left right : Position → Prop}
  {positions others : List Position} {faults more : List Fault}

/-- No position is left, and there is no fault. -/
theorem nil (fine : ∀ position fault, left position → ¬Offends members position fault) :
    Covered members left [] [] where
  each := .nil
  order := .nil
  all position := iff_of_false List.not_mem_nil fun ⟨inside, fault, offends⟩ =>
    fine position fault inside offends

/-- One position that offends is covered by its fault. -/
theorem singleton {position : Position} {fault : Fault} (offends : Offends members position fault) :
    Covered members (· = position) [position] [fault] where
  each := .cons offends .nil
  order := List.pairwise_singleton _ _
  all other := by
    rw [List.mem_singleton]
    exact ⟨fun same => ⟨same, fault, same ▸ offends⟩, And.left⟩

/-- Faults of earlier positions come before those of later ones. -/
theorem append (covered : Covered members left positions faults)
    (further : Covered members right others more)
    (apart : ∀ earlier later, left earlier → right later → earlier.rank < later.rank) :
    Covered members (fun position => left position ∨ right position) (positions ++ others)
      (faults ++ more) where
  each := List.rel_append covered.each further.each
  order := List.pairwise_append.mpr ⟨covered.order, further.order, fun earlier first later second =>
    apart earlier later ((covered.all earlier).mp first).1 ((further.all later).mp second).1⟩
  all position := by rw [List.mem_append, covered.all, further.all, or_and_right]

/-- A range matters only where there are faults. -/
theorem congr (covered : Covered members left positions faults)
    (same : ∀ position fault, Offends members position fault → (left position ↔ right position)) :
    Covered members right positions faults where
  each := covered.each
  order := covered.order
  all position := (covered.all position).trans
    (and_congr_left fun ⟨fault, offends⟩ => same position fault offends)

/-- The faults of the same positions are the same. -/
theorem unique (covered : Covered members left positions faults)
    (again : Covered members left others more) : faults = more := by
  have irreflexive : Std.Irrefl fun earlier later : Position => earlier.rank < later.rank :=
    ⟨fun position => lt_irrefl position.rank⟩
  obtain rfl : positions = others := covered.order.eq_of_mem_iff again.order fun position =>
    (covered.all position).trans (again.all position).symm
  exact List.right_unique_forall₂' (fun _ _ _ offends too => offends.unique too) covered.each
    again.each

end Covered

section Fields

variable {members : List (String × Json)}

/-- A check that is judged by what is wrong at a position covers this position. -/
theorem Judged.covers {α : Type} {means : α → Prop} {wrong : Fault → Prop}
    {checked : Except (List Fault) α} {position : Position} (judged : Judged means wrong checked)
    (same : ∀ fault, Offends members position fault ↔ wrong fault) :
    ∃ positions, Covered members (· = position) positions (Checked.faults checked) := by
  cases checked with
  | ok value =>
    refine ⟨[], .nil ?_⟩
    rintro position fault rfl offends
    have refused := (judged.faulty [fault]).mpr ⟨fault, rfl, (same fault).mp offends⟩
    cases refused
  | error faults =>
    obtain ⟨fault, rfl, offence⟩ := (judged.faulty faults).mp rfl
    exact ⟨[position], .singleton ((same fault).mpr offence)⟩

/-- The faults of some players are those of their positions, in order. -/
theorem covers_playersFrom {name : String} {items rest : List Json} {index : Nat}
    (found : Finds members playersNames (some (name, .array items)))
    (here : items.drop index = rest) :
    ∃ positions, Covered members (fun position => ∃ later ≥ index, position = .player later)
      positions ((readPlayersFrom name index rest).flatMap Checked.faults) := by
  induction rest generalizing index with
  | nil =>
    refine ⟨[], .nil ?_⟩
    rintro _ fault ⟨later, further, rfl⟩ offends
    cases offends with
    | player again present wrong =>
      obtain ⟨-, same⟩ := found.unique again
      obtain rfl := Json.array.inj same
      have beyond := (List.drop_eq_nil_iff.mp here).trans further
      rw [List.getElem?_eq_none beyond] at present
      cases present
  | cons item rest inductionHypothesis =>
    have standing : items[index]? = some item := by
      rw [← List.head?_drop, here]
      rfl
    have same (fault : Fault) : Offends members (.player index) fault ↔
        PlayerFault [.name name, .index index] item fault := by
      refine ⟨fun offends => ?_, .player found standing⟩
      cases offends with
      | player again present wrong =>
        obtain ⟨rfl, same⟩ := found.unique again
        obtain rfl := Json.array.inj same
        obtain rfl := Option.some.inj (standing.symm.trans present)
        exact wrong
    have next : items.drop (index + 1) = rest := by
      rw [← List.drop_drop, here]
      rfl
    obtain ⟨first, coveredFirst⟩ := (judged_player _ item).covers same
    obtain ⟨later, coveredLater⟩ := inductionHypothesis next
    refine ⟨first ++ later, (coveredFirst.append coveredLater ?_).congr ?_⟩
    · rintro _ _ rfl ⟨later, further, rfl⟩
      simp only [Position.rank]
      omega
    · intro position _ _
      constructor
      · rintro (rfl | ⟨later, further, rfl⟩)
        · exact ⟨index, le_rfl, rfl⟩
        · exact ⟨later, by omega, rfl⟩
      · rintro ⟨later, further, rfl⟩
        rcases further.eq_or_lt with rfl | further
        · exact .inl rfl
        · exact .inr ⟨later, further, rfl⟩

/-- The positions of the players come after all others. -/
theorem Position.two_le_rank_iff {position : Position} :
    2 ≤ position.rank ↔ position = .players ∨ ∃ index, position = .player index := by
  cases position with
  | player index =>
    have after : 2 ≤ 3 + index := by omega
    exact iff_of_true after (.inr ⟨index, rfl⟩)
  | _ => simp [rank]

/-- The faults of the list of players are those of the list itself, or of the players in it. -/
theorem covers_players (members : List (String × Json)) :
    ∃ positions, Covered members (2 ≤ ·.rank) positions (readPlayers members).faults := by
  have finds := finds_taken? members playersNames
  -- No position but those of the players has so high a rank.
  have only {position : Position} {fault : Fault} (high : 2 ≤ position.rank)
      (offends : Offends members position fault) : ∃ name value,
        taken? members playersNames = some (name, value) ∧ value ≠ .null := by
    rcases Position.two_le_rank_iff.mp high with rfl | ⟨index, rfl⟩
    · cases offends with
      | players found given => exact ⟨_, _, found.eq_taken?.symm, given⟩
    · cases offends with
      | player found => exact ⟨_, _, found.eq_taken?.symm, nofun⟩
  unfold readPlayers
  match which : taken? members playersNames with
  | none =>
    refine ⟨[], .nil fun position fault high offends => ?_⟩
    obtain ⟨name, value, same, -⟩ := only high offends
    cases which.symm.trans same
  | some (name, value) =>
    rw [which] at finds
    have single (given : value ≠ .null) (strange : ∀ items, value ≠ .array items) :
        ∃ positions, Covered members (2 ≤ ·.rank) positions [⟨[.name name], .array, value⟩] := by
      refine ⟨_, (Covered.singleton (.players finds given strange)).congr ?_⟩
      intro position fault offends
      refine ⟨fun same => same ▸ le_rfl, fun high => ?_⟩
      rcases Position.two_le_rank_iff.mp high with rfl | ⟨index, rfl⟩
      · rfl
      · cases offends with
        | player found => exact absurd (finds.unique found).2 (strange _)
    cases value with
    | null =>
      refine ⟨[], .nil fun position fault high offends => ?_⟩
      obtain ⟨_, _, same, given⟩ := only high offends
      obtain ⟨-, rfl⟩ := Prod.mk.inj (Option.some.inj (which.symm.trans same))
      exact given rfl
    | array items =>
      obtain ⟨positions, covered⟩ :=
        covers_playersFrom finds (List.drop_zero : items.drop 0 = items)
      have reported := Checked.faults_all (readPlayersFrom name 0 items)
      refine ⟨positions, reported ▸ covered.congr fun position fault offends =>
        ⟨?_, fun high => ?_⟩⟩
      · rintro ⟨later, -, rfl⟩
        exact Position.two_le_rank_iff.mpr (.inr ⟨later, rfl⟩)
      · rcases Position.two_le_rank_iff.mp high with rfl | ⟨index, rfl⟩
        · cases offends with
          | players found given other => exact absurd (found.unique finds).2 (other _)
        · exact ⟨index, Nat.zero_le _, rfl⟩
    | _ => exact single nofun nofun

/-- The faults of a map are those of its state, its health and its players, in this order. -/
theorem ofJson_covers (members : List (String × Json)) :
    ∃ positions, Covered members (fun _ => True) positions (ofJson (.object members)).faults := by
  obtain ⟨first, coveredState⟩ := (judged_state members).covers fun _ => Iff.rfl
  obtain ⟨second, coveredHealth⟩ := (judged_health members).covers fun _ => Iff.rfl
  obtain ⟨third, coveredPlayers⟩ := covers_players members
  rw [ofJson_object, Checked.faults_seq, Checked.faults_seq, Checked.faults_map]
  refine ⟨first ++ second ++ third,
    ((coveredState.append coveredHealth ?_).append coveredPlayers ?_).congr ?_⟩
  · rintro _ _ rfl rfl
    decide
  · rintro _ later (rfl | rfl) high
    · exact (by decide : (0 : Nat) < 2).trans_le high
    · exact (by decide : (1 : Nat) < 2).trans_le high
  · intro position fault offends
    refine iff_of_true ?_ trivial
    cases position with
    | state => exact .inl (.inl rfl)
    | health => exact .inl (.inr rfl)
    | players => exact .inr le_rfl
    | player index => exact .inr (Position.two_le_rank_iff.mpr (.inr ⟨index, rfl⟩))

end Fields

section Values

variable {members : List (String × Json)}

/-- The state is read exactly as it is meant. -/
theorem readState_eq_ok_iff {state : Option GameState} :
    readState members = Except.ok state ↔ Holds members stateNames (MeansState state) :=
  (judged_state members).fine state

/-- The health is read exactly as it is meant. -/
theorem readHealth_eq_ok_iff {health : String} :
    readHealth members = Except.ok health ↔ Holds members healthNames (MeansHealth health) :=
  (judged_health members).fine health

/-- Players are read exactly if each item identifies one. -/
theorem readPlayersFrom_eq_iff {players : List String} {name : String} {index : Nat}
    {items : List Json} :
    readPlayersFrom name index items = players.map .ok ↔
      List.Forall₂ Identifies players items := by
  induction items generalizing players index with
  | nil => cases players <;> simp [readPlayersFrom]
  | cons item items inductionHypothesis =>
    cases players with
    | nil => simp [readPlayersFrom]
    | cons player players =>
      rw [readPlayersFrom, List.map_cons, List.cons.injEq, inductionHypothesis,
        (judged_player _ item).fine, List.forall₂_cons]

/-- The list of players is read exactly as it is meant. -/
theorem readPlayers_eq_ok_iff {players : List String} :
    readPlayers members = Except.ok players ↔
      Holds members playersNames (MeansRoster players) := by
  rw [holds_iff]
  unfold readPlayers
  rcases taken? members playersNames with _ | ⟨name, value⟩
  · constructor
    · intro same
      obtain rfl := Except.ok.inj same
      exact .missing
    · rintro ⟨⟩
      rfl
  · cases value with
    | null =>
      constructor
      · intro same
        obtain rfl := Except.ok.inj same
        exact .null
      · rintro ⟨⟩
        rfl
    | array items =>
      constructor
      · exact fun all => .listed (readPlayersFrom_eq_iff.mp (Checked.eq_map_of_all all))
      · rintro ⟨each⟩
        dsimp only
        rw [readPlayersFrom_eq_iff.mpr each]
        exact Answer.all_ok players
    | _ => exact iff_of_false nofun nofun

/-- A value is decoded as the heartbeat that it stands for, and as no other one. -/
theorem ofJson_eq_ok_iff {request : Request} {value : Json} :
    ofJson value = Except.ok request ↔ StandsFor request value := by
  cases value with
  | object members =>
    rw [ofJson_object]
    simp only [Checked.seq_eq_ok_iff, Checked.map_eq_ok_iff, readState_eq_ok_iff,
      readHealth_eq_ok_iff, readPlayers_eq_ok_iff]
    constructor
    · rintro ⟨_, players, ⟨_, health, ⟨state, stated, rfl⟩, healthy, rfl⟩, joined, rfl⟩
      exact .object stated healthy joined
    · rintro ⟨stated, healthy, joined⟩
      exact ⟨_, request.players, ⟨_, request.health, ⟨request.state, stated, rfl⟩, healthy, rfl⟩,
        joined, rfl⟩
  | _ => exact iff_of_false nofun nofun

/-- What is read in a list of players is read from one item each. -/
theorem mem_playersFrom {name : String} {index : Nat} {items : List Json}
    {check : Except (List Fault) String} (member : check ∈ readPlayersFrom name index items) :
    ∃ place item, check = readPlayer place item := by
  induction items generalizing index with
  | nil => cases member
  | cons item items inductionHypothesis =>
    rw [readPlayersFrom, List.mem_cons] at member
    rcases member with rfl | member
    · exact ⟨_, item, rfl⟩
    · exact inductionHypothesis member

/-- Players are not refused without a fault. -/
theorem readPlayers_reports : readPlayers members ≠ Except.error [] := by
  unfold readPlayers
  rcases taken? members playersNames with _ | ⟨name, value⟩
  · exact nofun
  · cases value with
    | array items =>
      refine Checked.ne_error_nil_all fun check member => ?_
      obtain ⟨place, item, rfl⟩ := mem_playersFrom member
      exact (judged_player place item).reports
    | _ => exact nofun

/-- A map that is refused is refused with a fault. -/
theorem ofJson_reports : ofJson (.object members) ≠ Except.error [] := by
  rw [ofJson_object]
  exact Checked.ne_error_nil_seq (Checked.ne_error_nil_seq
    (Checked.ne_error_nil_map (judged_state members).reports) (judged_health members).reports)
    readPlayers_reports

/-- A value is refused exactly with the faults that it has. -/
theorem ofJson_eq_error_iff {value : Json} {faults : List Fault} :
    ofJson value = Except.error faults ↔ Refused value faults := by
  cases value with
  | object members =>
    obtain ⟨positions, covered⟩ := ofJson_covers members
    constructor
    · intro same
      have told : (ofJson (.object members)).faults = faults := by
        rw [same]
        rfl
      rw [told] at covered
      refine .fields ?_ covered.each covered.order fun position fault offends =>
        (covered.all position).mpr ⟨trivial, fault, offends⟩
      rintro rfl
      exact ofJson_reports same
    · intro refused
      cases refused with
      | shape other => exact absurd rfl (other members)
      | fields some each order all =>
        have again : Covered members (fun _ => True) _ faults :=
          ⟨each, order, fun position => ⟨fun member => ⟨trivial, offends_of_mem each member⟩,
            fun ⟨_, fault, offends⟩ => all position fault offends⟩⟩
        obtain rfl := covered.unique again
        exact Checked.eq_error some
  | _ =>
    constructor
    · intro same
      obtain rfl := Except.error.inj same
      exact .shape nofun
    · rintro ⟨⟩
      rfl

end Values

/-- Decoding accepts exactly the values that stand for a heartbeat, and then gives this heartbeat.
    All other values are refused with their faults, one for each position at which there is one, and
    a value that is no object with the one fault that it is none. -/
theorem decoding_reports_every_fault (value : Json) :
    (∀ request, ofJson value = Except.ok request ↔ StandsFor request value) ∧
      (∀ faults, ofJson value = Except.error faults ↔ Refused value faults) ∧
      (∀ members position fault other,
        Offends members position fault → Offends members position other → fault = other) ∧
      Rule.object.code = "model_type" :=
  ⟨fun _ => ofJson_eq_ok_iff, fun _ => ofJson_eq_error_iff, fun _ _ _ _ => Offends.unique, rfl⟩

/-- A null under the first name hides the state under another, and no fault hides another one. -/
example :
    (ofJson (.object [
      ("CurrentGameState", .string "Active"), ("currentGameState", .null),
      ("current_game_health", .int 1),
      ("currentPlayers", .array [.null, .object [("PlayerId", .string "ann")], .object [
        ("player_id", .null)]])])).faults.map Fault.place =
      [[.name "current_game_health"], [.name "currentPlayers", .index 0],
        [.name "currentPlayers", .index 2, .name "player_id"]] := by
  decide

end Heartbeat.Request

end GameSidecar
