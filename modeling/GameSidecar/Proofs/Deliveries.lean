import GameSidecar.Proofs.ReferenceCache

/-!
# The deliveries of a watch

A watch keeps a map, a version and a phase, and it works off lists and streams bit by bit. Still
its map gives every name the record that the reference cache gives it, and its deliveries are
those of the reference, after every run and whatever moves it is made of. Whether cycles end,
fail, expire or start with a list in between makes no difference, nor does a stop.

The invariant has two parts. What is known recalls the history of all that was read; and a list
that is left in the middle, for a delivery, has noted the names of exactly the items that are done.
-/

namespace GameSidecar.Watch

namespace Known

/-- What is observed is known of its name, a null as none, and of no other name. -/
theorem record?_observe (known : Known) (record : Json) (name : String) :
    (known.observe record).record? name =
      if Record.name record = name then (if record.isNull then none else some record)
      else known.record? name := by
  simp only [record?, observe, OrderedMap.get?_insert]
  split
  · cases empty : record.isNull <;> simp [Option.filter, empty]
  · rfl

/-- What is forgotten is known no more. -/
theorem record?_forget (known : Known) (gone name : String) :
    (known.forget gone).record? name = if gone = name then none else known.record? name := by
  simp only [record?, forget, OrderedMap.get?_erase]
  split <;> simp

/-- Only the names of the list are still known. -/
theorem record?_restrict (known : Known) (names : List String) (name : String) :
    (known.restrict names).record? name =
      if name ∈ names then known.record? name else none := by
  have kept := OrderedMap.get?_filter known.records (fun key => names.contains key) name
  simp only [record?, restrict, kept, List.contains_iff_mem]
  split <;> simp

/-- A version to resume from tells nothing about records. -/
@[simp] theorem record?_advance (known : Known) (record : Json) (name : String) :
    (known.advance record).record? name = known.record? name := by
  simp only [advance]
  split
  · rfl
  · split <;> rfl

/-- What is known agrees with a history: each name has the record that was seen last. -/
def Recalls (known : Known) (history : List Observation) : Prop :=
  ∀ name, known.record? name = lastSeen history name

variable {known : Known} {history : List Observation}

/-- An item of a list is recalled as soon as it is observed. -/
theorem Recalls.item (recalls : known.Recalls history) (record : Json) :
    (known.observe record).Recalls (history ++ [.item record]) := by
  intro name
  rw [record?_observe, lastSeen_snoc, recalls name]
  simp only [Observation.about, ne_eq, ite_not]
  split
  · split <;> rfl
  · rfl

/-- The item of a list is delivered exactly where the reference delivers it. -/
theorem Recalls.replaced?_item (recalls : known.Recalls history) (record : Json) :
    Reference.update? history (.item record) = (known.replaced? record).map (·, record) := by
  simp only [Reference.update?, replaced?, recalls (Record.name record)]

/-- Once a list is worked through, only its names are left. -/
theorem Recalls.listed (recalls : known.Recalls history) {names : List String} {items : List Json}
    (all : ∀ name, name ∈ names ↔ name ∈ items.map Record.name) :
    (known.restrict names).Recalls (history ++ [.listed items]) := by
  intro name
  rw [record?_restrict, lastSeen_snoc, recalls name]
  simp only [Observation.about, all name]
  split <;> rfl

/-- An event that gives no notice leaves everything as it was. -/
theorem Recalls.silent (recalls : known.Recalls history) {event : Json}
    (silent : Notice.ofEvent? event = none) : known.Recalls (history ++ [.event event]) := by
  intro name
  simp [Observation.about, silent, Word.after, recalls name]

/-- A notice of another kind than a bookmark or a deletion shows its record. -/
theorem Recalls.shown (recalls : known.Recalls history) {event : Json} {notice : Notice}
    (given : Notice.ofEvent? event = some notice)
    (notBookmark : notice.type ≠ .string "BOOKMARK") (notDeleted : notice.type ≠ .string "DELETED")
    (notNull : notice.record.isNull = false) :
    (known.observe notice.record).Recalls (history ++ [.event event]) := by
  intro name
  rw [record?_observe, lastSeen_snoc, recalls name]
  simp only [Observation.about, given, Option.elim_some, Notice.about, notBookmark, notDeleted,
    notNull, ne_eq, ite_not, if_false, Bool.false_eq_true]
  split <;> rfl

end Known

/-- A meaning of an event agrees with the reference: what is known then recalls the event as well,
    and an update is delivered exactly where the reference delivers the same. -/
def Meaning.Agrees (known : Known) (history : List Observation) (event : Json) : Meaning → Prop
  | .learned next _ =>
    next.Recalls (history ++ [.event event]) ∧ Reference.update? history (.event event) = none
  | .updated next old new =>
    next.Recalls (history ++ [.event event]) ∧
      Reference.update? history (.event event) = some (old, new)
  | .expired | .failed _ | .defective _ =>
    known.Recalls (history ++ [.event event]) ∧ Reference.update? history (.event event) = none

variable {known : Known} {history : List Observation}

/-- A record that an event brings is worked in as the reference does it: first its version, then
    its type decides whether its name is left alone, removed or given the record. -/
theorem Known.Recalls.recordMeaning (recalls : known.Recalls history) (target : Target)
    {event : Json} {notice : Notice} (given : Notice.ofEvent? event = some notice)
    (notNull : notice.record.isNull = false) :
    (known.recordMeaning target notice.type notice.record).Agrees known history event := by
  have advanced : (known.advance notice.record).Recalls history := by
    intro name
    rw [record?_advance, recalls name]
  have last := advanced (Record.name notice.record)
  unfold Known.recordMeaning
  by_cases bookmark : notice.type = .string "BOOKMARK"
  · rw [if_pos bookmark]
    refine ⟨fun name => ?_, by simp [Reference.update?, given, bookmark]⟩
    rw [lastSeen_snoc, advanced name]
    simp [Observation.about, given, Notice.about, bookmark, Word.after]
  rw [if_neg bookmark]
  by_cases deleted : notice.type = .string "DELETED"
  · rw [if_pos deleted]
    refine ⟨fun name => ?_, by simp [Reference.update?, given, deleted]⟩
    rw [record?_forget, lastSeen_snoc, advanced name]
    simp only [Observation.about, given, Option.elim_some, Notice.about, deleted, ne_eq, ite_not]
    split <;> simp [Word.after]
  rw [if_neg deleted]
  have shown := advanced.shown given bookmark deleted notNull
  cases found : (known.advance notice.record).record? (Record.name notice.record) with
  | none =>
    rw [found] at last
    exact ⟨shown, by simp [Reference.update?, given, ← last]⟩
  | some old =>
    rw [found] at last
    by_cases modified : notice.type = .string "MODIFIED"
    · simp only [modified, if_true]
      exact ⟨shown, by simp [Reference.update?, given, modified, ← last]⟩
    · simp only [modified, if_false]
      exact ⟨shown, by simp [Reference.update?, given, modified]⟩

/-- The meaning of every event agrees with the reference. -/
theorem Known.Recalls.meaning (recalls : known.Recalls history) (target : Target) (event : Json) :
    (known.meaning target event).Agrees known history event := by
  have unheard (silent : Notice.ofEvent? event = none) :
      known.Recalls (history ++ [.event event]) ∧ Reference.update? history (.event event) = none :=
    ⟨recalls.silent silent, by simp [Reference.update?, silent]⟩
  cases event with
  | object members =>
    by_cases error : Json.memberOrNull members "type" = .string "ERROR"
    · have silent : Notice.ofEvent? (.object members) = none := by
        simp only [Notice.ofEvent?, error, if_true]
        split <;> rfl
      simp only [Known.meaning, error, if_true, errorMeaning]
      split
      · exact unheard silent
      · split <;> exact unheard silent
    · simp only [Known.meaning, error, if_false]
      cases held : Json.memberOrNull members "object" with
      | object record =>
        have given : Notice.ofEvent? (.object members) =
            some ⟨Json.memberOrNull members "type", .object record⟩ := by
          simp [Notice.ofEvent?, held, error]
        exact recalls.recordMeaning target given rfl
      | _ => exact unheard (by simp [Notice.ofEvent?, held])
  | _ => exact unheard rfl


variable (plan : Plan) {watch : Watch}

/-- The update that the handler of a watch has been given and has not come to the end of. -/
def handed? (watch : Watch) : Option (Json × Json) :=
  match watch.phase with
  | .delivering old new _ => some (old, new)
  | _ => none

/-- A watch comes to an outcome without having learned of a record and without a delivery. -/
structure Quiet (watch : Watch) (outcome : Watch × List Effect) : Prop where
  records : outcome.1.known.records = watch.known.records
  silent : deliveries outcome.2 = []
  idle : outcome.1.handed? = none

/-- A watch delivers nothing when it ends. -/
theorem quiet_finish (watch : Watch) (ending : Ending) : Quiet watch (watch.finish plan ending) :=
  ⟨rfl, rfl, rfl⟩

/-- A watch delivers nothing when a cycle ends well. -/
theorem quiet_rest (watch : Watch) : Quiet watch watch.rest :=
  ⟨rfl, rfl, rfl⟩

/-- A watch delivers nothing when a cycle fails. -/
theorem quiet_fail (watch : Watch) (error : StoreError) : Quiet watch (watch.fail plan error) := by
  unfold fail
  split <;> exact ⟨rfl, rfl, rfl⟩

/-- A watch delivers nothing when it opens a stream. -/
theorem quiet_openStream (watch : Watch) : Quiet watch watch.openStream := by
  unfold openStream
  split <;> exact ⟨rfl, rfl, rfl⟩

/-- A watch delivers nothing when it starts a cycle. -/
theorem quiet_startCycle (watch : Watch) : Quiet watch watch.startCycle := by
  unfold startCycle
  split
  · exact ⟨rfl, rfl, rfl⟩
  · exact quiet_openStream watch

/-- A watch delivers nothing when it leaves a stream, if the cycle then ends quietly. -/
theorem quiet_leave (lines : List Line) {conclusion : Watch → Watch × List Effect}
    (concluded : Quiet watch (conclusion watch)) : Quiet watch (watch.leave lines conclusion) := by
  refine ⟨concluded.records, ?_, concluded.idle⟩
  have silent := concluded.silent
  simp only [leave, deliveries_append, deliveries_lines, List.nil_append]
  exact silent

/-- A version that has expired delivers nothing. -/
theorem quiet_expire (watch : Watch) : Quiet watch (watch.expire plan) := by
  have left := quiet_leave [expiryLine plan.target]
    (quiet_rest { watch with known := { watch.known with version := .null } })
  exact ⟨left.records, left.silent, left.idle⟩

/-- A watch delivers nothing when an event brings nothing to deliver. -/
theorem quiet_stayOrLeave (watch : Watch) (lines : List Line) :
    Quiet watch (watch.stayOrLeave lines) := by
  unfold stayOrLeave
  split
  · exact quiet_leave lines (quiet_rest watch)
  · exact ⟨rfl, deliveries_lines lines, rfl⟩

/-- The items of a list that are done, and those that are pending, are all its items, and the
    names of those that are done are known. -/
def Listing.Halfway (listing : Listing) (pending : List Json) : Prop :=
  ∃ done, listing.all = done ++ pending ∧ listing.seen = (done.map Record.name).reverse

/-- A list that is left for a delivery is left halfway. -/
def Orderly (watch : Watch) : Prop :=
  ∀ old new listing, watch.phase = .delivering old new (.listing listing) →
    listing.Halfway listing.pending

/-- An outcome follows the reference over what has been read on the way to it. -/
structure Follows (history read : List Observation) (outcome : Watch × List Effect) : Prop where
  recalls : outcome.1.known.Recalls (history ++ read)
  delivers : deliveries outcome.2 = Reference.deliveriesAfter history read
  orderly : outcome.1.Orderly

/-- What delivers and observes nothing follows the reference. -/
theorem Quiet.follows {outcome : Watch × List Effect} (quiet : Quiet watch outcome)
    (recalls : watch.known.Recalls history) : Follows history [] outcome where
  recalls := by
    intro name
    rw [List.append_nil, ← recalls name, Known.record?, Known.record?, quiet.records]
  delivers := quiet.silent
  orderly := by
    intro old new listing phase
    have idle := quiet.idle
    simp [handed?, phase] at idle

/-- One more observation that is delivered nowhere comes before what follows. -/
theorem Follows.after {read : List Observation} {observation : Observation}
    {outcome : Watch × List Effect}
    (follows : Follows (history ++ [observation]) read outcome)
    (undelivered : Reference.update? history observation = none) :
    Follows history (observation :: read) outcome where
  recalls := by simpa using follows.recalls
  delivers := by
    rw [follows.delivers, Reference.deliveriesAfter_cons, undelivered]
    rfl
  orderly := follows.orderly

/-- Working off a list does not stop a watch. -/
theorem stopped_workOff (watch : Watch) (listing : Listing) (pending : List Json) :
    (watch.workOff plan listing pending).1.stopped = watch.stopped := by
  induction pending generalizing watch listing with
  | nil =>
    unfold workOff concludeListing
    split
    · rfl
    · simp only [openStream]
      split <;> simp_all [rest]
  | cons item pending inductionHypothesis =>
    simp only [workOff]
    split
    · rfl
    · split
      · rfl
      · exact inductionHypothesis ..

/-- A list that is left by a delivery has fewer items pending than before. -/
theorem pending_workOff (watch : Watch) (listing : Listing) (pending : List Json) {old new : Json}
    {rest : Listing}
    (left : (watch.workOff plan listing pending).1.phase = .delivering old new (.listing rest)) :
    rest.pending.length < pending.length := by
  induction pending generalizing watch listing with
  | nil =>
    unfold workOff concludeListing at left
    split at left
    · simp [finish] at left
    · simp only [openStream] at left
      split at left <;> simp [Watch.rest] at left
  | cons item pending inductionHypothesis =>
    simp only [workOff] at left
    split at left
    · obtain ⟨-, -, same⟩ := Phase.delivering.inj left
      simp [← Continuation.listing.inj same, Listing.advance]
    · split at left
      · simp [Watch.rest] at left
      · have fewer := inductionHypothesis _ _ left
        simp only [List.length_cons]
        omega

/-- The end of a list removes the names that it does not hold, and delivers nothing. -/
theorem follows_concludeListing {listing : Listing} (recalls : watch.known.Recalls history)
    (done : listing.Halfway []) :
    Follows history [.listed listing.all] (watch.concludeListing plan listing) := by
  obtain ⟨items, all, seen⟩ := done
  have names : ∀ name, name ∈ listing.seen ↔ name ∈ listing.all.map Record.name := by
    intro name
    simp [seen, all]
  have restricted := recalls.listed names
  refine Follows.after ?_ rfl
  unfold concludeListing Known.conclude
  cases listing.version with
  | error defect =>
    exact (quiet_finish plan { watch with known := watch.known.restrict listing.seen } _).follows
      restricted
  | ok version =>
    let concluded := { watch.known.restrict listing.seen with version }
    have opened := quiet_openStream { watch with known := concluded }
    have quiet : Quiet { watch with known := concluded }
        ({ watch with known := concluded }.openStream.1,
          .log (listLine plan.target listing.count version) ::
            { watch with known := concluded }.openStream.2) :=
      ⟨opened.records, opened.silent, opened.idle⟩
    exact quiet.follows restricted

/-- An item that is done is read before the rest of its list. -/
theorem readOf_cons (listing : Listing) (item : Json) {pending : List Json} {after : Watch}
    (running : after.stopped = false)
    (fewer : ∀ old new rest, after.phase = .delivering old new (.listing rest) →
      rest.pending.length < pending.length) :
    readOf listing (item :: pending) after =
      .item item :: readOf (listing.advance item pending) pending after := by
  unfold readOf
  cases phase : after.phase with
  | delivering old new next =>
    cases next with
    | listing rest =>
      have short := fewer old new rest phase
      have split : (item :: pending).length - rest.pending.length =
          (pending.length - rest.pending.length) + 1 := by
        simp only [List.length_cons]
        omega
      simp only [split, List.take_succ_cons, List.map_cons]
    | streaming => simp [running, Listing.all, Listing.advance]
  | _ => simp [running, Listing.all, Listing.advance]

/-- No record is with a handler when a list has been worked through. -/
theorem handed?_concludeListing (watch : Watch) (listing : Listing) :
    (watch.concludeListing plan listing).1.handed? = none := by
  unfold concludeListing
  split
  · rfl
  · exact (quiet_openStream _).idle

/-- A list without pending items is read to its end. -/
theorem readOf_workOff_nil (watch : Watch) (listing : Listing) :
    readOf listing [] (watch.workOff plan listing []).1 = [.listed listing.all] := by
  have idle := handed?_concludeListing plan watch { listing with pending := [] }
  rw [workOff]
  unfold readOf
  split
  · rename_i left
    simp [handed?, left] at idle
  · simp

/-- Working off a list follows the reference item by item. -/
theorem follows_workOff {listing : Listing} {pending : List Json}
    (recalls : watch.known.Recalls history) (halfway : listing.Halfway pending) :
    Follows history (readOf listing pending (watch.workOff plan listing pending).1)
      (watch.workOff plan listing pending) := by
  induction pending generalizing watch listing history with
  | nil =>
    have concluded := follows_concludeListing plan recalls
      (show Listing.Halfway { listing with pending := [] } [] from halfway)
    rw [readOf_workOff_nil]
    exact concluded
  | cons item pending inductionHypothesis =>
    have onward : (listing.advance item pending).Halfway pending := by
      obtain ⟨done, all, seen⟩ := halfway
      exact ⟨done ++ [item], by simpa [Listing.all, Listing.advance] using all,
        by simp [Listing.advance, seen]⟩
    have observed := recalls.item item
    have delivered := recalls.replaced?_item item
    cases replaced : watch.known.replaced? item with
    | some old =>
      have read : readOf listing (item :: pending)
          (watch.workOff plan listing (item :: pending)).1 = [.item item] := by
        simp [workOff, replaced, readOf, Listing.advance]
      rw [read, workOff]
      simp only [replaced]
      refine ⟨observed, ?_, ?_⟩
      · simp [deliveries, Reference.deliveriesAfter_cons, delivered, replaced]
      · intro _ _ left phase
        obtain ⟨-, -, same⟩ := Phase.delivering.inj phase
        rw [← Continuation.listing.inj same]
        exact onward
    | none =>
      have undelivered : Reference.update? history (.item item) = none := by
        rw [delivered, replaced]
        rfl
      cases running : watch.stopped with
      | true =>
        have read : readOf listing (item :: pending)
            (watch.workOff plan listing (item :: pending)).1 = [.item item] := by
          simp [workOff, replaced, running, readOf, rest]
        rw [read, workOff]
        simp only [replaced, running, if_true]
        exact ((quiet_rest _).follows observed).after undelivered
      | false =>
        let next := { watch with known := watch.known.observe item }
        have same : watch.workOff plan listing (item :: pending) =
            next.workOff plan (listing.advance item pending) pending := by
          simp [workOff, replaced, running, next]
        have onward : Follows (history ++ [.item item]) _
            (next.workOff plan (listing.advance item pending) pending) :=
          inductionHypothesis observed onward
        have read := readOf_cons listing item
          ((stopped_workOff plan next (listing.advance item pending) pending).trans running)
          (fun _ _ _ left => pending_workOff plan next _ _ left)
        rw [same, read]
        exact onward.after undelivered

/-- All items of an answer are pending at first. -/
theorem Listing.halfway_ofAnswer {answer : Json} {listing : Listing}
    (given : Listing.ofAnswer answer = .ok listing) : listing.Halfway listing.pending := by
  cases answer with
  | object members =>
    simp only [Listing.ofAnswer] at given
    cases held : Listing.items (Json.memberOrNull members "items") with
    | error defect => simp [held, bind, Except.bind] at given
    | ok items =>
      have same : (⟨[], items, items.length, members⟩ : Listing) = listing := by
        simpa [held, bind, Except.bind, pure, Except.pure] using given
      subst same
      exact ⟨[], by simp [Listing.all, held, Except.toOption], rfl⟩
  | _ => simp [Listing.ofAnswer] at given

/-- A move that concerns neither the records nor the phase follows the reference by standing
    still. -/
theorem Follows.still {outcome : Watch × List Effect} (recalls : watch.known.Recalls history)
    (orderly : watch.Orderly) (known : outcome.1.known = watch.known)
    (phase : outcome.1.phase = watch.phase) (silent : deliveries outcome.2 = []) :
    Follows history [] outcome where
  recalls := by
    rw [List.append_nil, known]
    exact recalls
  delivers := silent
  orderly := by
    intro old new listing left
    exact orderly old new listing (phase ▸ left)

/-- An answer is worked off as the reference reads its items. -/
theorem follows_takeAnswer (recalls : watch.known.Recalls history) (answer : Json) :
    Follows history
      (match Listing.ofAnswer answer with
        | .ok listing => readOf listing listing.pending (watch.takeAnswer plan (.ok answer)).1
        | .error _ => [])
      (watch.takeAnswer plan (.ok answer)) := by
  cases given : Listing.ofAnswer answer with
  | error defect =>
    simp only [takeAnswer, given]
    exact (quiet_finish plan watch _).follows recalls
  | ok listing =>
    simp only [takeAnswer, given]
    exact follows_workOff plan recalls (Listing.halfway_ofAnswer given)

/-- An event is worked in as the reference reads it. -/
theorem follows_takeEvent (recalls : watch.known.Recalls history) (event : Json) :
    Follows history [.event event] (watch.takeEvent plan event) := by
  have agrees := recalls.meaning plan.target event
  unfold takeEvent
  cases meant : watch.known.meaning plan.target event with
  | learned known lines =>
    obtain ⟨learned, undelivered⟩ : _ ∧ _ := meant ▸ agrees
    exact ((quiet_stayOrLeave { watch with known } lines).follows learned).after undelivered
  | updated known old new =>
    obtain ⟨learned, delivered⟩ : _ ∧ _ := meant ▸ agrees
    refine ⟨learned, ?_, ?_⟩
    · simp [deliveries, Reference.deliveriesAfter_cons, delivered]
    · intro _ _ listing phase
      cases phase
  | expired =>
    obtain ⟨learned, undelivered⟩ : _ ∧ _ := meant ▸ agrees
    exact ((quiet_expire plan watch).follows learned).after undelivered
  | failed error =>
    obtain ⟨learned, undelivered⟩ : _ ∧ _ := meant ▸ agrees
    exact ((quiet_leave [] (quiet_fail plan watch error)).follows learned).after undelivered
  | defective defect =>
    obtain ⟨learned, undelivered⟩ : _ ∧ _ := meant ▸ agrees
    exact ((quiet_leave [] (quiet_finish plan watch _)).follows learned).after undelivered

/-- An item of a stream other than an event ends the cycle without a delivery. -/
theorem quiet_takeItem {item : Item} (noEvent : ∀ event, item ≠ .event event) :
    Quiet watch (watch.takeItem plan item) := by
  cases item with
  | event event => exact absurd rfl (noEvent event)
  | failed cause =>
    simp only [takeItem]
    split
    · exact quiet_expire plan watch
    · exact quiet_leave [] (quiet_fail plan watch _)
  | ended => exact quiet_leave [streamEndLine plan.target] (quiet_rest watch)
  | stopped => exact quiet_leave [] (quiet_rest watch)

/-- After a delivery from the middle of a list its pending items are read, if the watch is not
    stopped. -/
theorem follows_resume {listing : Listing} {lines : List Line}
    (recalls : watch.known.Recalls history) (halfway : listing.Halfway listing.pending) :
    Follows history
      (if watch.stopped then []
        else readOf listing listing.pending (watch.resume plan lines (.listing listing)).1)
      (watch.resume plan lines (.listing listing)) := by
  have lineless (outcome : Watch × List Effect) (read : List Observation)
      (follows : Follows history read outcome) :
      Follows history read (outcome.1, lines.map .log ++ outcome.2) :=
    ⟨follows.recalls, by simpa using follows.delivers, follows.orderly⟩
  cases running : watch.stopped with
  | true =>
    simp only [resume, running, if_true]
    exact lineless _ _ ((quiet_rest watch).follows recalls)
  | false =>
    simp only [resume, running, Bool.false_eq_true, if_false]
    exact lineless _ _ (follows_workOff plan recalls halfway)

section Steps

variable (recalls : watch.known.Recalls history) (orderly : watch.Orderly)
include recalls orderly

/-- A move that a watch does not wait for brings nothing to read. -/
theorem follows_still : Follows history [] (watch, []) :=
  .still recalls orderly rfl rfl rfl

/-- An answer to a list call is read as the reference reads its items. -/
theorem follows_listed (outcome : Except Cause Json) :
    Follows history (watch.reads plan (.listed outcome)) (watch.step plan (.listed outcome)) := by
  cases phase : watch.phase with
  | listing =>
    cases outcome with
    | error cause =>
      simp only [reads, step, phase, takeAnswer]
      exact (quiet_fail plan watch _).follows recalls
    | ok answer =>
      simp only [reads, step, phase]
      exact follows_takeAnswer plan recalls answer
  | _ => simpa only [reads, step, phase] using follows_still recalls orderly

/-- An event that is taken from the queue is read as the reference reads it. Any other item tells
    nothing about a name. -/
theorem follows_take : Follows history (watch.reads plan .take) (watch.step plan .take) := by
  cases phase : watch.phase with
  | streaming =>
    cases queue : watch.queue with
    | nil => simpa only [reads, step, phase, queue] using follows_still recalls orderly
    | cons item rest =>
      have recalled : ({ watch with queue := rest } : Watch).known.Recalls history := recalls
      cases item with
      | event event =>
        simp only [reads, step, phase, queue, takeItem]
        exact follows_takeEvent plan recalled event
      | _ =>
        simp only [reads, step, phase, queue]
        exact (quiet_takeItem plan (by simp)).follows recalled
  | _ => simpa only [reads, step, phase] using follows_still recalls orderly

/-- When a handler has come to its end, the rest of its list is read. -/
theorem follows_handled (failure : Option String) :
    Follows history (watch.reads plan (.handled failure)) (watch.step plan (.handled failure)) := by
  cases phase : watch.phase with
  | delivering old new next =>
    cases next with
    | streaming =>
      simp only [reads, step, phase, resume]
      exact (quiet_stayOrLeave watch _).follows recalls
    | listing listing =>
      simp only [reads, step, phase]
      exact follows_resume plan recalls (orderly old new listing phase)
  | _ => simpa only [reads, step, phase] using follows_still recalls orderly

/-- Every step of a watch follows the reference over what is read during it. -/
theorem follows_step (move : Move) :
    Follows history (watch.reads plan move) (watch.step plan move) := by
  have still : Follows history [] (watch, []) := follows_still recalls orderly
  cases move with
  | stop =>
    simp only [reads, step, stop]
    split
    · exact still
    · refine .still recalls orderly rfl rfl ?_
      split <;> rfl
  | post stream item =>
    simp only [reads, step, post]
    split <;> exact .still recalls orderly rfl rfl rfl
  | proceed =>
    cases phase : watch.phase with
    | ready =>
      simp only [reads, step, phase]
      split
      · exact (quiet_finish plan watch _).follows recalls
      · exact (quiet_startCycle watch).follows recalls
    | _ => simpa only [reads, step, phase] using still
  | slept =>
    cases phase : watch.phase with
    | sleeping =>
      simp only [reads, step, phase]
      exact (quiet_startCycle watch).follows recalls
    | _ => simpa only [reads, step, phase] using still
  | listed outcome => exact follows_listed plan recalls orderly outcome
  | take => exact follows_take plan recalls orderly
  | handled failure => exact follows_handled plan recalls orderly failure

end Steps

/-- A run follows the reference: what every step keeps is kept by all of them, and the deliveries
    of the steps are put together as the reference puts its own together. -/
theorem follows_run (recalls : watch.known.Recalls history) (orderly : watch.Orderly)
    (moves : List Move) :
    Follows history (watch.observations plan moves) (watch.run plan moves) := by
  induction moves generalizing watch history with
  | nil => exact .still recalls orderly rfl rfl rfl
  | cons move moves inductionHypothesis =>
    have first := follows_step plan recalls orderly move
    have others := inductionHypothesis first.recalls first.orderly
    refine ⟨?_, ?_, others.orderly⟩
    · simpa only [Machine.run_cons, Machine.trace, List.append_assoc] using others.recalls
    · simp only [Machine.run_cons, Machine.trace, deliveries_append,
        Reference.deliveriesAfter_append]
      rw [first.delivers, others.delivers]

/-- Every run of a watch follows the reference from its start. -/
theorem follows_start (moves : List Move) :
    Follows [] (({} : Watch).observations plan moves) (({} : Watch).run plan moves) := by
  apply follows_run
  · intro name
    rfl
  · intro old new listing left
    cases left

/-- The deliveries of a watch are those of the reference cache, over whatever it has read: any
    lists and events, for any names, with any failures, expiries and stops in between. And over
    every stretch of what was read that is steady for a name, the updates of that name continue
    each other. -/
theorem deliveries_eq_reference (moves : List Move) :
    let observed := ({} : Watch).observations plan moves
    deliveries (({} : Watch).run plan moves).2 = Reference.deliveries observed ∧
      ∀ name earlier stretch later, observed = earlier ++ stretch ++ later →
        (∀ observation ∈ stretch, observation.Steady name) →
          (Reference.ofName name (Reference.deliveriesAfter earlier stretch)).IsChain
            (Continues stretch) := by
  constructor
  · exact (follows_start plan moves).delivers
  · intro name earlier stretch later _ steady
    exact Reference.isChain_deliveriesAfter stretch steady

/-- A record is listed, modified and listed again after its version has expired. When it has been
    deleted an event about it is no update. -/
example :
    let record (version : String) : Json := .object [
      ("metadata", .object [("name", .string "gs"), ("resourceVersion", .string version)])]
    let listed (version : String) : Move := .listed (.ok (.object [
      ("metadata", .object [("resourceVersion", .string version)]),
      ("items", .array [record version])]))
    let event (type version : String) : Item :=
      .event (.object [("type", .string type), ("object", record version)])
    deliveries (({} : Watch).run ⟨⟨.gameServer, "default", "gs"⟩, none⟩ [.proceed, listed "1",
        .post 1 (event "MODIFIED" "2"), .take, .handled none,
        .post 1 (.failed (.api (some 410) none)), .take, .proceed, listed "3", .handled none,
        .post 2 (event "DELETED" "4"), .take, .post 2 (event "MODIFIED" "5"), .take]).2 =
      [(record "1", record "2"), (record "2", record "3")] := by
  decide +kernel

end GameSidecar.Watch
