import GameSidecar.Proofs.Observation
import Mathlib.Data.List.Chain

/-!
# The reference cache

What a watch delivers is told by a second machine. It reads the same observations, keeps them all,
and has no other state: the record of a name is the one that was observed last, unless the name
was removed after that. A list removes the names that it does not hold, a deletion the name of its
record. Bookmarks, errors and events without a record say nothing about any name, and a null in a
list is no record.

An item of a list is delivered if its name has a record of another version, an event only if it
says that a record was modified and its name has one.

As long as a name is neither removed nor shown by an event of another kind, its updates continue
each other: the old record of an update is the new one of the update before it, or one of the same
version that a list has shown in between.
-/

namespace GameSidecar.Watch

/-- A record that an event is about, and what the event says of it. -/
structure Notice where
  type : Json
  record : Json
  deriving Repr, DecidableEq

/-- The notice that an event gives; none if it reports an error or is about no map. -/
def Notice.ofEvent? : Json → Option Notice
  | .object event =>
    match Json.memberOrNull event "object" with
    | .object members =>
      let type := Json.memberOrNull event "type"
      if type = .string "ERROR" then none else some ⟨type, .object members⟩
    | _ => none
  | _ => none

/-- What is said about a name: nothing, that it is gone, or which record it has. -/
inductive Word
  | nothing
  | gone
  | shown (record : Json)
  deriving Repr, DecidableEq

/-- The record that a name has after a word about it. -/
def Word.after (record? : Option Json) : Word → Option Json
  | .nothing => record?
  | .gone => none
  | .shown record => some record

/-- What a notice says about a name. -/
def Notice.about (notice : Notice) (name : String) : Word :=
  if Record.name notice.record ≠ name then .nothing
  else if notice.type = .string "BOOKMARK" then .nothing
  else if notice.type = .string "DELETED" then .gone
  else .shown notice.record

/-- What an observation says about a name. -/
def Observation.about (observation : Observation) (name : String) : Word :=
  match observation with
  | .item record =>
    if Record.name record ≠ name then .nothing
    else if record.isNull then .gone
    else .shown record
  | .listed items => if name ∈ items.map Record.name then .nothing else .gone
  | .event sent => (Notice.ofEvent? sent).elim .nothing (·.about name)

/-- The record of a name that was observed last, unless the name was removed after that. -/
def lastSeen (history : List Observation) (name : String) : Option Json :=
  history.foldl (fun record? observation => (observation.about name).after record?) none

namespace Reference

/-- The update that the reference delivers on an observation, by what was observed before. -/
def update? (history : List Observation) : Observation → Option (Json × Json)
  | .item record =>
    ((lastSeen history (Record.name record)).filter fun old =>
      Record.version? old ≠ Record.version? record).map (·, record)
  | .listed _ => none
  | .event event =>
    match Notice.ofEvent? event with
    | none => none
    | some notice =>
      if notice.type = .string "MODIFIED" then
        (lastSeen history (Record.name notice.record)).map (·, notice.record)
      else none

/-- The reference reads an observation. -/
def step (history : List Observation) (observation : Observation) :
    List Observation × List (Json × Json) :=
  (history ++ [observation], (update? history observation).toList)

/-- What the reference delivers on some observations after others. -/
def deliveriesAfter (history observations : List Observation) : List (Json × Json) :=
  (Machine.run step history observations).2

/-- What the reference delivers on all observations. -/
def deliveries (observations : List Observation) : List (Json × Json) :=
  deliveriesAfter [] observations

/-- The reference keeps what it reads. -/
theorem run_history (history observations : List Observation) :
    (Machine.run step history observations).1 = history ++ observations := by
  induction observations generalizing history with
  | nil => simp
  | cons observation rest inductionHypothesis =>
    simp [Machine.run_cons, inductionHypothesis, step]

@[simp] theorem deliveriesAfter_nil (history : List Observation) :
    deliveriesAfter history [] = [] := rfl

/-- What the reference delivers on an observation comes before what it delivers after that. -/
theorem deliveriesAfter_cons (history rest : List Observation) (observation : Observation) :
    deliveriesAfter history (observation :: rest) =
      (update? history observation).toList ++ deliveriesAfter (history ++ [observation]) rest :=
  rfl

/-- What the reference delivers on some observations comes before what it delivers on those after
    them. -/
theorem deliveriesAfter_append (history front back : List Observation) :
    deliveriesAfter history (front ++ back) =
      deliveriesAfter history front ++ deliveriesAfter (history ++ front) back := by
  simp only [deliveriesAfter, Machine.run_append, run_history]

end Reference

/-- The last observation has the last word about a name. -/
@[simp] theorem lastSeen_snoc (history : List Observation) (observation : Observation)
    (name : String) :
    lastSeen (history ++ [observation]) name =
      (observation.about name).after (lastSeen history name) := by
  simp [lastSeen]

/-- An observation does not break the course of a name: it does not remove the name, and an event
    that shows its record says that it was modified. -/
def Observation.Steady (name : String) (observation : Observation) : Prop :=
  observation.about name ≠ .gone ∧
    ∀ sent notice, observation = .event sent → Notice.ofEvent? sent = some notice →
      observation.about name = .shown notice.record → notice.type = .string "MODIFIED"

/-- An update continues another one: its old record is the new one of the other, or a list has
    shown it since then with the same version. -/
def Continues (stretch : List Observation) (left right : Json × Json) : Prop :=
  right.1 = left.2 ∨
    .item right.1 ∈ stretch ∧ Record.version? right.1 = Record.version? left.2

namespace Reference

variable {history : List Observation} {observation : Observation} {old new : Json} {name : String}

/-- The new record of an update is the one that its observation shows, if it is not null. -/
theorem about_of_update? (delivered : update? history observation = some (old, new))
    (kept : observation.about (Record.name new) ≠ .gone) :
    observation.about (Record.name new) = .shown new := by
  cases observation with
  | item record =>
    obtain ⟨seen, found, same⟩ := Option.map_eq_some_iff.mp delivered
    obtain ⟨-, rfl⟩ := Prod.mk.inj same
    simp_all [Observation.about]
  | listed items => cases delivered
  | event sent =>
    simp only [update?] at delivered
    split at delivered
    · cases delivered
    · rename_i notice given
      split at delivered
      · rename_i modified
        obtain ⟨seen, found, same⟩ := Option.map_eq_some_iff.mp delivered
        obtain ⟨-, rfl⟩ := Prod.mk.inj same
        simp [Observation.about, given, Notice.about, modified]
      · cases delivered

/-- An event shows a record of a name only by a notice about that name. -/
theorem event_shown {sent record : Json}
    (shown : Observation.about (.event sent) name = .shown record) :
    ∃ notice, Notice.ofEvent? sent = some notice ∧ notice.record = record ∧
      Record.name notice.record = name := by
  cases given : Notice.ofEvent? sent with
  | none => simp [Observation.about, given] at shown
  | some notice =>
    simp only [Observation.about, given, Option.elim_some, Notice.about] at shown
    split at shown
    · cases shown
    · rename_i named
      split at shown
      · cases shown
      · split at shown
        · cases shown
        · exact ⟨notice, rfl, Word.shown.inj shown, not_not.mp named⟩

/-- A steady observation of a name that has a record either delivers an update from that record,
    or leaves it, or is an item of a list that has its version. -/
theorem steady_cases {last : Json} (steady : observation.Steady name)
    (seen : lastSeen history name = some last) :
    (∃ new, update? history observation = some (last, new) ∧ Record.name new = name) ∨
      (∀ pair, update? history observation = some pair → Record.name pair.2 ≠ name) ∧
        (lastSeen (history ++ [observation]) name = some last ∨
          ∃ next, observation = .item next ∧ Record.version? next = Record.version? last ∧
            lastSeen (history ++ [observation]) name = some next) := by
  cases word : observation.about name with
  | gone => exact absurd word steady.1
  | nothing =>
    refine .inr ⟨?_, .inl (by simp [word, Word.after, seen])⟩
    rintro ⟨old, new⟩ delivered named
    have named : Record.name new = name := named
    have shown := about_of_update? delivered (by simp [named, word])
    simp [named, word] at shown
  | shown record =>
    cases observation with
    | item item =>
      have named : Record.name item = name ∧ item = record := by
        simp only [Observation.about] at word
        split at word
        · cases word
        · rename_i named
          split at word
          · cases word
          · exact ⟨not_not.mp named, Word.shown.inj word⟩
      obtain ⟨named, rfl⟩ := named
      by_cases same : Record.version? last = Record.version? item
      · refine .inr ⟨?_, .inr ⟨item, rfl, same.symm, by simp [word, Word.after]⟩⟩
        intro pair delivered
        simp [update?, named, seen, same] at delivered
      · exact .inl ⟨item, by simp [update?, named, seen, same], named⟩
    | listed items =>
      simp only [Observation.about] at word
      split at word <;> cases word
    | event sent =>
      obtain ⟨notice, given, rfl, named⟩ := event_shown word
      have modified := steady.2 sent notice rfl given word
      exact .inl ⟨notice.record, by simp [update?, given, modified, named, seen], named⟩

/-- The updates of a name among some deliveries. -/
def ofName (name : String) (pairs : List (Json × Json)) : List (Json × Json) :=
  pairs.filter fun pair => Record.name pair.2 = name

/-- The updates of a name come in the order of all updates. -/
theorem ofName_append (name : String) (front back : List (Json × Json)) :
    ofName name (front ++ back) = ofName name front ++ ofName name back :=
  List.filter_append ..

/-- An update of another name is none of this one. -/
theorem ofName_toList_of_none {update? : Option (Json × Json)}
    (none : ∀ pair, update? = some pair → Record.name pair.2 ≠ name) :
    ofName name update?.toList = [] := by
  cases update? with
  | none => rfl
  | some pair => simp [ofName, none pair rfl]

/-- Over a steady stretch the next update of a name continues from the record that the name has.

    Induction on the stretch. An item of a list with the same version takes the place of the
    record, so that the versions are equal all along. -/
theorem continues_next (stretch : List Observation) {last : Json}
    (steady : ∀ observation ∈ stretch, observation.Steady name)
    (seen : lastSeen history name = some last) {pair : Json × Json}
    (next : (ofName name (deliveriesAfter history stretch)).head? = some pair) :
    pair.1 = last ∨
      .item pair.1 ∈ stretch ∧ Record.version? pair.1 = Record.version? last := by
  induction stretch generalizing history last with
  | nil => simp [ofName] at next
  | cons observation rest inductionHypothesis =>
    have others : ∀ later ∈ rest, later.Steady name :=
      fun later member => steady later (List.mem_cons_of_mem _ member)
    rw [deliveriesAfter_cons, ofName_append] at next
    rcases steady_cases (steady observation (by simp)) seen with
      ⟨new, delivered, named⟩ | ⟨undelivered, kept | ⟨item, shows, same, shown⟩⟩
    · left
      have first : (last, new) = pair := by simpa [ofName, delivered, named] using next
      exact first ▸ rfl
    · rw [ofName_toList_of_none undelivered, List.nil_append] at next
      rcases inductionHypothesis others kept next with same | ⟨member, same⟩
      · exact .inl same
      · exact .inr ⟨List.mem_cons_of_mem _ member, same⟩
    · rw [ofName_toList_of_none undelivered, List.nil_append] at next
      rcases inductionHypothesis others shown next with rfl | ⟨member, later⟩
      · exact .inr ⟨by simp [shows], same⟩
      · exact .inr ⟨List.mem_cons_of_mem _ member, later.trans same⟩

/-- Over a steady stretch the updates of a name continue each other. -/
theorem isChain_deliveriesAfter (stretch : List Observation)
    (steady : ∀ observation ∈ stretch, observation.Steady name) :
    (ofName name (deliveriesAfter history stretch)).IsChain (Continues stretch) := by
  induction stretch generalizing history with
  | nil => exact .nil
  | cons observation rest inductionHypothesis =>
    have others : ∀ later ∈ rest, later.Steady name :=
      fun later member => steady later (List.mem_cons_of_mem _ member)
    have widened : (ofName name (deliveriesAfter (history ++ [observation]) rest)).IsChain
        (Continues (observation :: rest)) :=
      (inductionHypothesis others).imp fun _ _ continued =>
        continued.imp_right fun listed => ⟨List.mem_cons_of_mem _ listed.1, listed.2⟩
    rw [deliveriesAfter_cons, ofName_append]
    by_cases undelivered : ∀ pair, update? history observation = some pair →
        Record.name pair.2 ≠ name
    · rw [ofName_toList_of_none undelivered, List.nil_append]
      exact widened
    · push Not at undelivered
      obtain ⟨⟨old, new⟩, delivered, named⟩ := undelivered
      have named : Record.name new = name := named
      have shown : lastSeen (history ++ [observation]) name = some new := by
        have about := about_of_update? delivered (named ▸ (steady observation (by simp)).1)
        rw [lastSeen_snoc, ← named, about]
        rfl
      have first : ofName name (update? history observation).toList = [(old, new)] := by
        simp [ofName, delivered, named]
      rw [first, List.singleton_append, List.isChain_cons]
      refine ⟨fun pair head => ?_, widened⟩
      exact (continues_next rest others shown head).imp_right fun listed =>
        ⟨List.mem_cons_of_mem _ listed.1, listed.2⟩

end Reference
end GameSidecar.Watch
