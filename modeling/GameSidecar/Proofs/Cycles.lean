import GameSidecar.Proofs.Ending
import GameSidecar.Proofs.Stopping
import GameSidecar.Proofs.Waiting

/-!
# How cycles follow each other

A cycle that nobody has stopped goes on until its list fails, its stream comes to an end or fails,
or an event reports an error. These conclusions are classed here by what has been sent, apart from
what the watch makes of it. There are four classes, and each of them leads to one continuation: the
next cycle starts at once, or with a list, or after a wait, or never.

The wait grows with the failures in a row. The watch counts them itself; that its count is right
follows from the conclusions of all cycles so far, of which the ones at the end that are passing
failures are those in a row.
-/

namespace GameSidecar

/-- How a cycle comes to its end. -/
inductive Conclusion
  /-- Its stream has come to its end. -/
  | ended
  /-- The version to resume from has expired. -/
  | expired
  /-- Its list or its stream has failed, but may succeed if it is tried again. -/
  | passing
  /-- Its list or its stream has failed in any other way. -/
  | fatal
  deriving Repr, DecidableEq

/-- The statuses after which a call may succeed if it is tried again. -/
def passingStatuses : List Int :=
  [408, 425, 429, 500, 502, 503, 504]

/-- The conclusion of a call that has failed. -/
def Cause.conclusion : Cause → Conclusion
  | .api none _ | .api (some 0) _ | .transport _ _ | .connection _ _ => .passing
  | .api (some status) _ => if status ∈ passingStatuses then .passing else .fatal
  | .store _ | .other _ _ => .fatal

/-- An integer is a passing status if it is one of the list. -/
theorem StoreError.passes_int (code : Int) :
    StoreError.passes (.int code) = decide (code ∈ passingStatuses) := by
  rw [Bool.eq_iff_iff]
  simp [StoreError.passes, StoreError.retryableStatuses, passingStatuses, Json.isNull,
    Json.equalsInt]

namespace Cause

/-- Only the status zero is passed on as none. -/
theorem statusJson_of_ne_zero {status : Int} (other : status ≠ 0) :
    statusJson (some status) = .int status := by
  unfold statusJson
  split
  · contradiction
  · rename_i zero
    exact absurd (Option.some.inj zero) other
  · rename_i same
    rw [Option.some.inj same]

/-- A status other than zero passes if it is one of the list. -/
theorem conclusion_of_ne_zero {status : Int} (other : status ≠ 0) (reason : Option String) :
    (Cause.api (some status) reason).conclusion =
      if status ∈ passingStatuses then .passing else .fatal := by
  unfold conclusion
  split <;> simp_all

variable {cause : Cause} (raw : ∀ error, cause ≠ .store error) (action : String)
include raw

/-- A failed call passes exactly if the error that it is made into allows another one. -/
theorem conclusion_eq :
    cause.conclusion = if (cause.toError action).retryable then .passing else .fatal := by
  cases cause with
  | store error => exact absurd rfl (raw error)
  | api status reason =>
    cases status with
    | none => rfl
    | some status =>
      by_cases zero : status = 0
      · subst zero
        rfl
      · simp only [conclusion_of_ne_zero zero, toError, statusJson_of_ne_zero zero,
          StoreError.ofStatus, StoreError.passes_int, decide_eq_true_eq]
  | _ => rfl

/-- Only the status of an expired version is made into the error of one. -/
theorem isExpired_toError :
    (cause.toError action).isExpired = true ↔ ∃ reason, cause = .api (some 410) reason := by
  cases cause with
  | store error => exact absurd rfl (raw error)
  | api status reason =>
    cases status with
    | none => simp [toError, statusJson, StoreError.ofStatus, StoreError.isExpired, Json.equalsInt]
    | some status =>
      by_cases zero : status = 0
      · subst zero
        simp [toError, statusJson, StoreError.ofStatus, StoreError.isExpired, Json.equalsInt]
      · simp [toError, statusJson_of_ne_zero zero, StoreError.ofStatus, StoreError.isExpired,
          Json.equalsInt]
  | _ => simp [toError, StoreError.isExpired, Json.equalsInt]

end Cause

namespace Watch

/-- The conclusion of an error that an event reports with a code, or with none. -/
def codeConclusion : Json → Conclusion
  | .null => .passing
  | .int code =>
    if code = 410 then .expired else if code ∈ passingStatuses then .passing else .fatal
  | _ => .fatal

/-- The conclusion to which an item of a stream brings its cycle. -/
def Item.conclusion? : Item → Option Conclusion
  | .ended => some .ended
  | .failed (.api (some 410) _) => some .expired
  | .failed cause => some cause.conclusion
  | .event sent => if reportsError sent then some (codeConclusion (errorCode sent)) else none
  | .stopped => none

/-- The conclusion to which a move brings the cycle of a watch. -/
def conclusion? (watch : Watch) (move : Move) : Option Conclusion :=
  match move, watch.phase with
  | .listed (.error cause), .listing => some cause.conclusion
  | .take, .streaming => watch.queue.head?.bind Item.conclusion?
  | _, _ => none

variable (plan : Plan)

/-- The conclusions of all cycles that come to their end during some moves, in order. -/
abbrev conclusions (watch : Watch) (moves : List Move) : List Conclusion :=
  Machine.trace (step plan) (fun watch move => (watch.conclusion? move).toList) watch moves

/-- How many of some conclusions are passing failures in a row, up to the last one. -/
def inARow (conclusions : List Conclusion) : Nat :=
  (conclusions.reverse.takeWhile (· = .passing)).length

/-- What a stream sends is regular: an event is a map, and the code of an error that it reports is
    missing or an integer; a failure has not been made into an error. -/
def Item.isRegular : Item → Bool
  | .event (.object members) =>
    match reportsError (.object members), errorCode (.object members) with
    | false, _ | true, .null | true, .int _ => true
    | _, _ => false
  | .event _ | .failed (.store _) | .stopped => false
  | .failed _ | .ended => true

/-- What is sent with a move is regular. An answer is a map without a defect. -/
def Move.isRegular : Move → Bool
  | .listed (.ok (.object members)) =>
    (Datum.answer (.object members)).defect?.isNone && (Datum.metadata members).defect?.isNone
  | .listed (.ok _) | .listed (.error (.store _)) => false
  | .post _ item => item.isRegular
  | _ => true

/-- The call with which a cycle starts. -/
def opening (watch : Watch) : Effect :=
  if watch.known.version.isNull then .list
  else .openStream (watch.streams + 1) watch.known.version

/-- A watch takes nothing upon itself before a move. With that it starts a cycle with a call, and
    knows what it knew before. -/
def StartsCycle (watch : Watch) (trigger : Move) (call : Effect) : Prop :=
  ∀ between, (∀ move ∈ between, move ≠ trigger ∧ move ≠ .stop) →
    let before := watch.run plan between
    let outcome := before.1.step plan trigger
    undertakings before.2 = [] ∧ undertakings outcome.2 = [call] ∧ outcome.1.known = watch.known

/-- What a conclusion leads a watch to, whose failures in a row are counted with it. -/
def LeadsTo (watch : Watch) (failures : Nat) (outcome : Watch × List Effect) : Conclusion → Prop
  | .ended =>
    outcome.1.known = watch.known ∧ undertakings outcome.2 = [] ∧
      outcome.1.StartsCycle plan .proceed watch.opening
  | .expired =>
    outcome.1.known = { watch.known with version := .null } ∧ undertakings outcome.2 = [] ∧
      outcome.1.StartsCycle plan .proceed .list
  | .passing =>
    outcome.1.known = watch.known ∧
      undertakings outcome.2 = [.sleep (max 1 (plan.atMost (2 ^ (failures - 1))))] ∧
      outcome.1.StartsCycle plan .slept watch.opening
  | .fatal =>
    outcome.1.phase = .ended .gaveUp ∧
      (∃ error, undertakings outcome.2 = [.log (giveUpLine plan.target error)]) ∧
      ∀ later, undertakings (outcome.1.run plan later).2 = []

/-- A watch is in a cycle: it waits for the answer to a list call, for an item of its stream, or for
    its handler. -/
def InCycle (watch : Watch) : Prop :=
  watch.phase = .listing ∨ watch.phase = .streaming ∨ watch.handed?.isSome

/-- One more conclusion goes on with the failures in a row, or puts an end to them. -/
theorem inARow_snoc (conclusions : List Conclusion) (conclusion : Conclusion) :
    inARow (conclusions ++ [conclusion]) =
      if conclusion = .passing then inARow conclusions + 1 else 0 := by
  simp only [inARow, List.reverse_append, List.reverse_cons, List.reverse_nil, List.nil_append,
    List.singleton_append, List.takeWhile_cons, decide_eq_true_eq]
  split <;> rfl

variable {watch : Watch}

section Between

variable {trigger : Move} (waits : watch.phase = .ready ∧ trigger = .proceed ∨
  watch.phase = .sleeping ∧ trigger = .slept)
include waits

/-- A watch between two cycles is moved by nothing but what it waits for and a stop. A stream that
    has been left may still bring something. -/
theorem step_between {move : Move} (other : move ≠ trigger) (unstopped : move ≠ .stop) :
    ∃ queue, watch.step plan move = ({ watch with queue }, []) := by
  have still (same : watch.step plan move = (watch, [])) :
      ∃ queue, watch.step plan move = ({ watch with queue }, []) := ⟨watch.queue, same⟩
  cases move with
  | stop => exact absurd rfl unstopped
  | post stream item =>
    simp only [step, post]
    split
    · exact ⟨watch.queue, rfl⟩
    · exact ⟨_, rfl⟩
  | proceed =>
    rcases waits with ⟨-, rfl⟩ | ⟨phase, -⟩
    · exact absurd rfl other
    · exact still (by simp only [step, phase])
  | slept =>
    rcases waits with ⟨phase, -⟩ | ⟨-, rfl⟩
    · exact still (by simp only [step, phase])
    · exact absurd rfl other
  | _ =>
    rcases waits with ⟨phase, -⟩ | ⟨phase, -⟩ <;> exact still (by simp only [step, phase])

/-- A watch between two cycles is left alone by any moves without the one that it waits for. -/
theorem run_between {between : List Move}
    (others : ∀ move ∈ between, move ≠ trigger ∧ move ≠ .stop) :
    ∃ queue, watch.run plan between = ({ watch with queue }, []) := by
  induction between generalizing watch with
  | nil => exact ⟨watch.queue, rfl⟩
  | cons move between inductionHypothesis =>
    obtain ⟨other, unstopped⟩ := others move (by simp)
    obtain ⟨queue, stepped⟩ := step_between plan waits other unstopped
    rw [run, Machine.run_cons, stepped]
    exact inductionHypothesis waits fun move among => others move (by simp [among])

/-- A watch between two cycles starts the next one with the call for which it has what it needs. -/
theorem startsCycle_of_waits (running : watch.stopped = false) :
    watch.StartsCycle plan trigger watch.opening := by
  intro between others before outcome
  obtain ⟨queue, ran⟩ := run_between plan waits others
  have started : outcome = ({ watch with queue } : Watch).startCycle := by
    simp only [outcome, before, ran]
    rcases waits with ⟨phase, rfl⟩ | ⟨phase, rfl⟩
    · simp only [step, phase, running, Bool.false_eq_true, if_false]
    · simp only [step, phase]
  have calls : undertakings ({ watch with queue } : Watch).startCycle.2 = [watch.opening] ∧
      ({ watch with queue } : Watch).startCycle.1.known = watch.known := by
    simp only [startCycle, opening, openStream, running, Bool.false_eq_true, if_false]
    split <;> exact ⟨rfl, rfl⟩
  rw [started]
  exact ⟨by simp only [before, ran, undertakings_nil], calls⟩

end Between

/-- An outcome concludes the cycle of a watch: it leads to what the conclusion calls for, leaves
    nothing of the cycle, and counts the failures in a row. -/
structure Concludes (watch : Watch) (conclusion : Conclusion) (outcome : Watch × List Effect) :
    Prop where
  leads : LeadsTo plan watch (watch.failures + 1) outcome conclusion
  parked : outcome.1.Parked
  queue : outcome.1.queue ⊆ watch.queue
  failures : (∀ ending, outcome.1.phase ≠ .ended ending) →
    outcome.1.failures = if conclusion = .passing then watch.failures + 1 else 0

section

variable (running : watch.stopped = false)
include running

/-- A stream that comes to its end. -/
theorem concludes_ended :
    Concludes plan watch .ended (watch.leave [streamEndLine plan.target] rest) where
  leads := ⟨rfl, rfl, startsCycle_of_waits plan (.inl ⟨rfl, rfl⟩) running⟩
  parked := .inl rfl
  queue := List.Subset.refl _
  failures _ := rfl

/-- A version that has expired. -/
theorem concludes_expired : Concludes plan watch .expired (watch.expire plan) where
  leads := ⟨rfl, rfl, startsCycle_of_waits plan (.inl ⟨rfl, rfl⟩) running⟩
  parked := .inl rfl
  queue := List.Subset.refl _
  failures _ := rfl

/-- A failure, by whether the same call may succeed. -/
theorem concludes_fail (error : StoreError) :
    Concludes plan watch (if error.retryable then .passing else .fatal)
      (watch.fail plan error) := by
  unfold fail
  cases error.retryable with
  | true =>
    rw [if_pos rfl, if_pos rfl]
    constructor
    · refine ⟨rfl, ?_, startsCycle_of_waits plan (.inr ⟨rfl, rfl⟩) running⟩
      rw [← plan.wait_eq]
      rfl
    · exact .inr (.inl rfl)
    · exact List.Subset.refl _
    · intro _
      rfl
  | false =>
    rw [if_neg Bool.false_ne_true, if_neg Bool.false_ne_true]
    constructor
    · exact ⟨rfl, ⟨error, rfl⟩, undertakings_run_of_ended plan rfl⟩
    · exact .inr (.inr ⟨_, rfl⟩)
    · exact List.Subset.refl _
    · intro onward
      exact absurd rfl (onward .gaveUp)

end

/-- What has been taken from the queue makes no difference. -/
theorem Concludes.of_queue {plan : Plan} {queue : List Item} {conclusion : Conclusion}
    {outcome : Watch × List Effect}
    (concludes : Concludes plan { watch with queue } conclusion outcome)
    (taken : queue ⊆ watch.queue) : Concludes plan watch conclusion outcome where
  leads := by cases conclusion <;> exact concludes.leads
  parked := concludes.parked
  queue := List.Subset.trans concludes.queue taken
  failures := concludes.failures

/-- A stream that is left makes no difference. -/
theorem Concludes.leave {plan : Plan} {conclusion : Conclusion}
    {concluded : Watch → Watch × List Effect}
    (concludes : Concludes plan watch conclusion (concluded watch)) :
    Concludes plan watch conclusion (watch.leave [] concluded) where
  leads := by cases conclusion <;> exact concludes.leads
  parked := concludes.parked
  queue := concludes.queue
  failures := concludes.failures

/-- A reported error means that the version has expired, or it is a failure of the class to which
    its code belongs. -/
theorem meaning_of_reportsError (known : Known) (target : Target) {sent : Json}
    (regular : (Item.event sent).isRegular = true) (reports : reportsError sent = true) :
    (known.meaning target sent = .expired ∧ codeConclusion (errorCode sent) = .expired) ∨
      ∃ error : StoreError, known.meaning target sent = .failed error ∧
        codeConclusion (errorCode sent) = if error.retryable then .passing else .fatal := by
  cases sent with
  | object members =>
    have type : Json.memberOrNull members "type" = .string "ERROR" := by
      simpa [reportsError] using reports
    have code : Json.memberOrNull (errorMembers members) "code" = errorCode (.object members) := rfl
    simp only [Item.isRegular, reports] at regular
    simp only [Known.meaning, type, if_true, errorMeaning, code]
    cases given : errorCode (.object members) with
    | null => exact .inr ⟨_, rfl, rfl⟩
    | int code =>
      simp only [codeConclusion, Json.equalsInt, beq_iff_eq, isPlain, Bool.not_true,
        Bool.false_eq_true, if_false]
      by_cases expired : code = 410
      · rw [if_pos expired, if_pos expired]
        exact .inl ⟨rfl, rfl⟩
      · rw [if_neg expired, if_neg expired]
        refine .inr ⟨_, rfl, ?_⟩
        simp only [StoreError.ofStatus, StoreError.passes_int, decide_eq_true_eq]
    | _ => simp [given] at regular
  | _ => cases reports

/-- A failure of a stream is one of its cause, unless the version has expired. -/
theorem Item.conclusion?_failed {cause : Cause}
    (other : ¬∃ reason, cause = .api (some 410) reason) :
    (Item.failed cause).conclusion? = some cause.conclusion := by
  unfold Item.conclusion?
  split
  · rename_i same
    cases same
  · rename_i reason same
    exact absurd ⟨reason, Item.failed.inj same⟩ other
  · rename_i same
    rw [Item.failed.inj same]
  · rename_i same
    cases same
  · rename_i same
    cases same

/-- An item of a stream that concludes the cycle. -/
theorem concludes_takeItem (running : watch.stopped = false) {item : Item}
    (regular : item.isRegular = true) {conclusion : Conclusion}
    (concludes : item.conclusion? = some conclusion) :
    Concludes plan watch conclusion (watch.takeItem plan item) := by
  cases item with
  | event sent =>
    simp only [Item.conclusion?] at concludes
    split at concludes
    · rename_i reports
      obtain rfl := Option.some.inj concludes
      simp only [takeItem, takeEvent]
      rcases meaning_of_reportsError watch.known plan.target regular reports with
        ⟨meant, code⟩ | ⟨error, meant, code⟩
      · simp only [meant, code]
        exact concludes_expired plan running
      · simp only [meant, code]
        exact (concludes_fail plan running error).leave
    · cases concludes
  | failed cause =>
    have raw (error : StoreError) : cause ≠ .store error := by
      rintro rfl
      cases regular
    have expiry := Cause.isExpired_toError raw s!"watch {plan.target.describe}"
    have class_eq := Cause.conclusion_eq raw s!"watch {plan.target.describe}"
    simp only [takeItem]
    by_cases expired : (cause.toError s!"watch {plan.target.describe}").isExpired
    · rw [if_pos expired]
      obtain ⟨reason, rfl⟩ := expiry.mp expired
      obtain rfl := Option.some.inj concludes
      exact concludes_expired plan running
    · rw [if_neg expired]
      have failed : conclusion = cause.conclusion := by
        have other : ¬∃ reason, cause = .api (some 410) reason :=
          fun same => expired (expiry.mpr same)
        rw [Item.conclusion?_failed other] at concludes
        exact (Option.some.inj concludes).symm
      rw [failed, class_eq]
      exact (concludes_fail plan running _).leave
  | ended =>
    obtain rfl := Option.some.inj concludes
    exact concludes_ended plan running
  | stopped => cases concludes

/-- A watch that is left in a list by a delivery is left in one whose metadata have no defect. -/
def Closable (watch : Watch) : Prop :=
  ∀ old new listing, watch.phase = .delivering old new (.listing listing) →
    (Datum.metadata listing.answer).defect? = none

/-- An outcome goes on with the cycle of a watch: it waits within the cycle, has not slept, and
    keeps the count of failures. -/
structure GoesOn (watch : Watch) (outcome : Watch × List Effect) : Prop where
  inCycle : outcome.1.InCycle
  sleepless : ∀ seconds, .sleep seconds ∉ outcome.2
  failures : outcome.1.failures = watch.failures
  queue : outcome.1.queue ⊆ watch.queue
  closable : outcome.1.Closable

/-- A watch with a stream is in no list. -/
theorem Streams.closable (streams : watch.Streams) : watch.Closable := by
  intro old new listing phase
  exact absurd phase (streams.ne_delivering old new listing)

/-- What the watch has learned, and what it has taken from its queue, makes no difference. -/
theorem GoesOn.since {earlier : Watch} {outcome : Watch × List Effect}
    (goesOn : GoesOn earlier outcome) (failures : earlier.failures = watch.failures)
    (taken : earlier.queue ⊆ watch.queue) : GoesOn watch outcome where
  inCycle := goesOn.inCycle
  sleepless := goesOn.sleepless
  failures := goesOn.failures.trans failures
  queue := List.Subset.trans goesOn.queue taken
  closable := goesOn.closable

/-- Lines that are written first make no difference. -/
theorem GoesOn.after_lines {outcome : Watch × List Effect} (goesOn : GoesOn watch outcome)
    (lines : List Line) : GoesOn watch (outcome.1, lines.map .log ++ outcome.2) where
  inCycle := goesOn.inCycle
  sleepless := by simpa using goesOn.sleepless
  failures := goesOn.failures
  queue := goesOn.queue
  closable := goesOn.closable

section

variable (running : watch.stopped = false)
include running

/-- A cycle goes on with a stream. -/
theorem goesOn_openStream : GoesOn watch watch.openStream := by
  simp only [openStream, running, Bool.false_eq_true, if_false]
  exact ⟨.inr (.inl rfl), by simp, rfl, by simp, Streams.closable (.inl rfl)⟩

/-- A cycle starts with its list or with its stream. -/
theorem goesOn_startCycle : GoesOn watch watch.startCycle := by
  unfold startCycle
  split
  · refine ⟨.inl rfl, by simp, rfl, List.Subset.refl _, ?_⟩
    intro old new listing phase
    cases phase
  · exact goesOn_openStream running

/-- A cycle goes on with the next item of its stream. -/
theorem goesOn_stayOrLeave (lines : List Line) : GoesOn watch (watch.stayOrLeave lines) := by
  simp only [stayOrLeave, running, Bool.false_eq_true, if_false]
  exact ⟨.inr (.inl rfl), by simp, rfl, List.Subset.refl _, Streams.closable (.inl rfl)⟩

/-- A list whose metadata have no defect goes on to its stream. -/
theorem goesOn_concludeListing {listing : Listing}
    (sound : (Datum.metadata listing.answer).defect? = none) :
    GoesOn watch (watch.concludeListing plan listing) := by
  rw [← listing.defectOf_version] at sound
  unfold concludeListing Known.conclude
  cases given : listing.version with
  | error defect => simp [given, defectOf] at sound
  | ok version =>
    let known := { watch.known.restrict listing.seen with version }
    have opened : GoesOn { watch with known } ({ watch with known } : Watch).openStream :=
      goesOn_openStream running
    have goesOn : GoesOn watch ({ watch with known } : Watch).openStream :=
      opened.since rfl (List.Subset.refl _)
    exact goesOn.after_lines [listLine plan.target listing.count version]

/-- A cycle goes on with the items of a list whose metadata have no defect, and with a stream after
    them. -/
theorem goesOn_workOff {listing : Listing} (sound : (Datum.metadata listing.answer).defect? = none)
    (pending : List Json) : GoesOn watch (watch.workOff plan listing pending) := by
  induction pending generalizing watch listing with
  | nil => exact goesOn_concludeListing plan running sound
  | cons item pending inductionHypothesis =>
    cases replaced : watch.known.replaced? item with
    | some old =>
      simp only [workOff, replaced]
      refine ⟨.inr (.inr rfl), by simp, rfl, List.Subset.refl _, ?_⟩
      intro _ _ left phase
      obtain ⟨-, -, same⟩ := Phase.delivering.inj phase
      rw [← Continuation.listing.inj same]
      exact sound
    | none =>
      have next : GoesOn { watch with known := watch.known.observe item }
          (({ watch with known := watch.known.observe item } : Watch).workOff plan
            (listing.advance item pending) pending) :=
        inductionHypothesis (by exact running) sound
      simp only [workOff, replaced]
      rw [if_neg (Bool.eq_false_iff.mp running)]
      exact next.since rfl (List.Subset.refl _)

/-- A regular answer goes on to its items and to its stream. -/
theorem goesOn_takeAnswer {answer : Json}
    (regular : (Move.listed (.ok answer)).isRegular = true) :
    GoesOn watch (watch.takeAnswer plan (.ok answer)) := by
  cases answer with
  | object members =>
    simp only [Move.isRegular, Bool.and_eq_true, Option.isNone_iff_eq_none] at regular
    obtain ⟨items, metadata⟩ := regular
    rw [← Listing.defectOf_ofAnswer] at items
    simp only [takeAnswer]
    cases given : Listing.ofAnswer (.object members) with
    | error defect => simp [given, defectOf] at items
    | ok listing =>
      obtain rfl := Json.object.inj (Listing.answer_ofAnswer given)
      exact goesOn_workOff plan running metadata listing.pending
  | _ => cases regular

/-- An event that reports no error goes on with the stream. -/
theorem goesOn_takeEvent {members : List (String × Json)}
    (noError : reportsError (.object members) = false) :
    GoesOn watch (watch.takeEvent plan (.object members)) := by
  have type : ¬Json.memberOrNull members "type" = .string "ERROR" := by
    simpa [reportsError] using noError
  have stays (known : Known) (lines : List Line) :
      GoesOn watch (({ watch with known } : Watch).stayOrLeave lines) := by
    have stayed : GoesOn { watch with known } (({ watch with known } : Watch).stayOrLeave lines) :=
      goesOn_stayOrLeave (by exact running) lines
    exact stayed.since rfl (List.Subset.refl _)
  simp only [takeEvent, Known.meaning, if_neg type]
  cases Json.memberOrNull members "object" with
  | object parts =>
    dsimp only
    rcases recordMeaning_cases watch.known plan.target (Json.memberOrNull members "type")
        (.object parts) with ⟨next, lines, meant, -⟩ | ⟨next, old, meant, -⟩
    · simp only [meant]
      exact stays next lines
    · simp only [meant]
      exact ⟨.inr (.inr rfl), by simp, rfl, List.Subset.refl _,
        Streams.closable (.inr ⟨old, _, rfl⟩)⟩
  | _ => exact stays _ _

/-- An item of a stream that does not conclude the cycle is an event that reports no error. -/
theorem goesOn_takeItem {item : Item} (regular : item.isRegular = true)
    (unconcluded : item.conclusion? = none) : GoesOn watch (watch.takeItem plan item) := by
  cases item with
  | event sent =>
    have noError : reportsError sent = false := by
      simpa [Item.conclusion?] using unconcluded
    cases sent with
    | object members => exact goesOn_takeEvent plan running noError
    | _ => cases regular
  | failed cause =>
    unfold Item.conclusion? at unconcluded
    split at unconcluded <;> simp_all
  | ended => cases unconcluded
  | stopped => cases regular

/-- After a handler a cycle goes on where the delivery has left it. -/
theorem goesOn_resume (closable : watch.Closable) {old new : Json} {next : Continuation}
    (phase : watch.phase = .delivering old new next) (lines : List Line) :
    GoesOn watch (watch.resume plan lines next) := by
  cases next with
  | streaming => exact goesOn_stayOrLeave running lines
  | listing listing =>
    have onward := goesOn_workOff plan running (closable old new listing phase) listing.pending
    simp only [resume, running, Bool.false_eq_true, if_false]
    exact onward.after_lines lines

end

/-- What holds of a watch as long as it is not stopped, after some conclusions: its queue is
    regular, its list has no defect, and it has counted the failures in a row. -/
structure Sound (watch : Watch) (conclusions : List Conclusion) : Prop where
  queue : ∀ item ∈ watch.queue, item.isRegular = true
  closable : watch.Closable
  failures : (∀ ending, watch.phase ≠ .ended ending) → watch.failures = inARow conclusions

/-- A watch in a cycle has not ended. -/
theorem InCycle.ne_ended (inCycle : watch.InCycle) (ending : Ending) :
    watch.phase ≠ .ended ending := by
  intro ended
  rcases inCycle with phase | phase | handed
  · cases phase.symm.trans ended
  · cases phase.symm.trans ended
  · simp [handed?, ended] at handed

/-- What a step of a watch that is not stopped does for its cycle. -/
structure Advances (watch : Watch) (conclusions : List Conclusion)
    (conclusion? : Option Conclusion) (outcome : Watch × List Effect) : Prop where
  leads : ∀ conclusion ∈ conclusion?,
    LeadsTo plan watch (inARow (conclusions ++ [conclusion])) outcome conclusion
  goesOn : conclusion? = none → watch.InCycle →
    outcome.1.InCycle ∧ ∀ seconds, .sleep seconds ∉ outcome.2
  sound : outcome.1.stopped = false → Sound outcome.1 (conclusions ++ conclusion?.toList)

variable {plan} {conclusions : List Conclusion}

/-- A step that concludes the cycle advances it, with the failures in a row as they are counted. -/
theorem Concludes.advances {conclusion : Conclusion} {outcome : Watch × List Effect}
    (concludes : Concludes plan watch conclusion outcome) (sound : Sound watch conclusions)
    (inCycle : watch.InCycle) :
    Advances plan watch conclusions (some conclusion) outcome := by
  have counted := inARow_snoc conclusions conclusion
  rw [← sound.failures inCycle.ne_ended] at counted
  constructor
  · intro same given
    obtain rfl := Option.some.inj given
    rw [counted]
    cases conclusion <;> exact concludes.leads
  · intro none
    cases none
  · intro _
    constructor
    · intro item among
      exact sound.queue item (concludes.queue among)
    · intro old new listing phase
      exact absurd phase (concludes.parked.ne_delivering old new _)
    · intro onward
      exact (concludes.failures onward).trans counted.symm

/-- A step that goes on with the cycle advances it, without a conclusion. -/
theorem GoesOn.advances {outcome : Watch × List Effect} (goesOn : GoesOn watch outcome)
    (sound : Sound watch conclusions) (waited : ∀ ending, watch.phase ≠ .ended ending) :
    Advances plan watch conclusions none outcome where
  leads := by
    intro conclusion given
    cases given
  goesOn _ _ := ⟨goesOn.inCycle, goesOn.sleepless⟩
  sound _ := by
    rw [Option.toList_none, List.append_nil]
    exact ⟨fun item among => sound.queue item (goesOn.queue among), goesOn.closable,
      fun _ => goesOn.failures.trans (sound.failures waited)⟩

/-- A step that changes at most the queue, and undertakes nothing. -/
theorem Sound.advances_queue (sound : Sound watch conclusions) {queue : List Item}
    (regular : ∀ item ∈ queue, item.isRegular = true) :
    Advances plan watch conclusions none ({ watch with queue }, []) where
  leads := by
    intro conclusion given
    cases given
  goesOn _ inCycle := ⟨inCycle, by simp⟩
  sound _ := by
    rw [Option.toList_none, List.append_nil]
    exact ⟨regular, sound.closable, sound.failures⟩

/-- A stop leaves the cycle as it is. -/
theorem advances_stop (running : watch.stopped = false) :
    Advances plan watch conclusions none (watch.stop plan) where
  leads := by
    intro conclusion given
    cases given
  goesOn _ inCycle := by
    simp only [stop, running, Bool.false_eq_true, if_false]
    refine ⟨inCycle, fun seconds => ?_⟩
    split <;> simp
  sound unstopped := by
    rw [stopped_stop] at unstopped
    cases unstopped

section Steps

variable (sound : Sound watch conclusions) (running : watch.stopped = false)
include sound

/-- A move that the watch does not wait for. -/
theorem Sound.advances_still : Advances plan watch conclusions none (watch, []) :=
  sound.advances_queue sound.queue

include running

/-- What a stream posts is regular in the queue as well, as long as the watch is not stopped. -/
theorem Sound.advances_post (stream : Nat) {item : Item} (regular : item.isRegular = true) :
    Advances plan watch conclusions none (watch.post stream item, []) := by
  unfold post
  split
  · exact sound.advances_still
  · apply sound.advances_queue
    intro queued among
    rcases List.mem_append.mp among with earlier | posted
    · exact sound.queue queued earlier
    · obtain rfl := List.mem_singleton.mp posted
      cases item with
      | event sent =>
        simp only [running, Bool.false_eq_true, if_false]
        exact regular
      | _ => exact regular

/-- A list call that fails concludes the cycle, and an answer goes on with it. -/
theorem Sound.advances_listed {outcome : Except Cause Json}
    (regular : (Move.listed outcome).isRegular = true) :
    Advances plan watch conclusions (watch.conclusion? (.listed outcome))
      (watch.step plan (.listed outcome)) := by
  cases phase : watch.phase with
  | listing =>
    cases outcome with
    | error cause =>
      have raw (error : StoreError) : cause ≠ .store error := by
        rintro rfl
        cases regular
      have failed := concludes_fail plan running (cause.toError s!"list {plan.target.describe}")
      rw [← Cause.conclusion_eq raw] at failed
      simp only [step, conclusion?, phase]
      exact failed.advances sound (.inl phase)
    | ok answer =>
      simp only [step, conclusion?, phase]
      exact (goesOn_takeAnswer plan running regular).advances sound (by simp [phase])
  | _ => cases outcome <;> simpa only [step, conclusion?, phase] using sound.advances_still

/-- An item that is taken from the queue of a stream concludes the cycle or goes on with it. -/
theorem Sound.advances_takeItem (phase : watch.phase = .streaming) {item : Item}
    {queue : List Item} (next : watch.queue = item :: queue) :
    Advances plan watch conclusions item.conclusion?
      (({ watch with queue } : Watch).takeItem plan item) := by
  have queued := sound.queue item (by simp [next])
  have taken : queue ⊆ watch.queue := by simp [next]
  cases concluded : item.conclusion? with
  | some conclusion =>
    have concludes : Concludes plan { watch with queue } conclusion
        (({ watch with queue } : Watch).takeItem plan item) :=
      concludes_takeItem plan (by exact running) queued concluded
    exact (concludes.of_queue taken).advances sound (.inr (.inl phase))
  | none =>
    have goesOn : GoesOn { watch with queue } (({ watch with queue } : Watch).takeItem plan item) :=
      goesOn_takeItem plan (by exact running) queued concluded
    have onward : GoesOn watch (({ watch with queue } : Watch).takeItem plan item) :=
      goesOn.since rfl taken
    exact onward.advances sound (by simp [phase])

/-- A move that takes an item concludes the cycle or goes on with it, if there is an item to take.
    -/
theorem Sound.advances_take :
    Advances plan watch conclusions (watch.conclusion? .take) (watch.step plan .take) := by
  cases phase : watch.phase with
  | streaming =>
    cases next : watch.queue with
    | nil =>
      simp only [step, conclusion?, phase, next]
      exact sound.advances_still
    | cons item queue =>
      have advances : Advances plan watch conclusions item.conclusion? _ :=
        sound.advances_takeItem running phase next
      rw [phase] at advances
      simpa only [step, conclusion?, phase, next, List.head?_cons, Option.bind_some] using advances
  | _ => simpa only [step, conclusion?, phase] using sound.advances_still

/-- Every step of a watch that is not stopped does for its cycle what its conclusion calls for. -/
theorem Sound.advances_step {move : Move} (regular : move.isRegular = true) :
    Advances plan watch conclusions (watch.conclusion? move) (watch.step plan move) := by
  have still : Advances plan watch conclusions none (watch, []) := sound.advances_still
  cases move with
  | stop => exact advances_stop running
  | post stream item => exact sound.advances_post running stream regular
  | listed outcome => exact sound.advances_listed running regular
  | take => exact sound.advances_take running
  | proceed =>
    cases phase : watch.phase with
    | ready =>
      simp only [step, conclusion?, phase, running, Bool.false_eq_true, if_false]
      exact (goesOn_startCycle running).advances sound (by simp [phase])
    | _ => simpa only [step, conclusion?, phase] using still
  | handled failure =>
    cases phase : watch.phase with
    | delivering old new next =>
      simp only [step, conclusion?, phase]
      exact (goesOn_resume plan running sound.closable phase _).advances sound (by simp [phase])
    | _ => simpa only [step, conclusion?, phase] using still
  | slept =>
    cases phase : watch.phase with
    | sleeping =>
      simp only [step, conclusion?, phase]
      exact (goesOn_startCycle running).advances sound (by simp [phase])
    | _ => simpa only [step, conclusion?, phase] using still

end Steps

variable (plan)

/-- A watch that has not been stopped is sound after regular moves. -/
theorem sound_run (moves : List Move) (regular : ∀ move ∈ moves, move.isRegular = true)
    (running : (({} : Watch).run plan moves).1.stopped = false) :
    Sound (({} : Watch).run plan moves).1 (({} : Watch).conclusions plan moves) := by
  induction moves using List.reverseRecOn with
  | nil =>
    constructor
    · simp
    · intro old new listing phase
      cases phase
    · intro _
      rfl
  | append_singleton front move inductionHypothesis =>
    rw [run, Machine.run_append, Machine.run_single] at running ⊢
    rw [conclusions, Machine.trace_append, Machine.trace_single]
    have before : (({} : Watch).run plan front).1.stopped = false := by
      by_contra stopped
      have stays := (within_step plan (Bool.not_eq_false _ ▸ stopped) move).stopped
      simp [stays] at running
    have sound := inductionHypothesis (fun made among => regular made (by simp [among])) before
    have advances : Advances plan _ _ _ _ := sound.advances_step before (regular move (by simp))
    exact advances.sound running

/-- Every step of a watch that nobody has stopped either concludes its cycle or goes on with it. A
    conclusion leads to the one continuation of its class. -/
theorem cycles_follow (front : List Move) (move : Move)
    (regular : ∀ made ∈ front ++ [move], made.isRegular = true)
    (running : (({} : Watch).run plan front).1.stopped = false) :
    let watch := (({} : Watch).run plan front).1
    let outcome := watch.step plan move
    (∀ conclusion ∈ watch.conclusion? move,
      LeadsTo plan watch (inARow (({} : Watch).conclusions plan (front ++ [move]))) outcome
        conclusion) ∧
    (watch.conclusion? move = none → watch.InCycle →
      outcome.1.InCycle ∧ ∀ seconds, .sleep seconds ∉ outcome.2) := by
  intro watch outcome
  have sound := sound_run plan front (fun made among => regular made (by simp [among])) running
  have advances : Advances plan _ _ _ _ := sound.advances_step running (regular move (by simp))
  refine ⟨fun conclusion concludes => ?_, advances.goesOn⟩
  have leads := advances.leads conclusion concludes
  have all : ({} : Watch).conclusions plan (front ++ [move]) =
      ({} : Watch).conclusions plan front ++ [conclusion] := by
    rw [conclusions, Machine.trace_append, Machine.trace_single]
    exact congrArg (_ ++ Option.toList ·) concludes
  rw [all]
  exact leads

/-- After the second failure in a row a watch waits for two seconds and asks for its list again. -/
theorem waits_after_second_failure :
    let plan : Plan := ⟨⟨.gameServer, "default", "gs"⟩, some 30⟩
    let failed : Move := .listed (.error (.api (some 503) none))
    let watch := (({} : Watch).run plan [.proceed, failed, .slept]).1
    watch.conclusion? failed = some .passing ∧
      LeadsTo plan watch 2 (watch.step plan failed) .passing ∧
      undertakings (watch.step plan failed).2 = [.sleep 2] ∧ watch.opening = .list := by
  intro plan failed watch
  have follows := cycles_follow plan [.proceed, failed, .slept] failed (by decide) rfl
  have leads : LeadsTo plan watch 2 (watch.step plan failed) .passing := follows.1 .passing rfl
  have two : max 1 (plan.atMost (2 ^ (2 - 1))) = 2 := by
    norm_num [Plan.atMost, plan]
  exact ⟨rfl, leads, two ▸ leads.2.1, rfl⟩

end Watch
end GameSidecar
