import GameSidecar.Proofs.Resumption

/-!
# How a watch ends

What the API server sends may have any shape. Most of what a watch cannot use is passed over, or
counts as absent. Four things are not: an answer or an event that is no map, items that are neither
void nor made of parts, metadata that are neither void nor a map, and the code of an error that is
an array or a map. A watch that looks at one of them breaks off, and reports nothing.

These are all cases in which it breaks off, and they are told here by the data alone. In every other
case a watch goes on, ends because it is stopped, or gives up, and then reports why.
-/

namespace GameSidecar.Watch

/-- What the API server has sent, by the use that a watch makes of it. -/
inductive Datum
  /-- The answer to a list call, of which the items are read. -/
  | answer (answer : Json)
  /-- An answer all of whose items are done, of which the metadata are read. -/
  | metadata (answer : List (String × Json))
  /-- An event. -/
  | event (event : Json)
  deriving Repr, DecidableEq

/-- What is wrong with the items of an answer. A text and a map have parts as well. -/
def itemsDefect? : Json → Option Defect
  | .array _ | .string _ | .object _ => none
  | value => if value.isVoid then none else some .notList

/-- What is wrong with the metadata of an answer. -/
def metadataDefect? : Json → Option Defect
  | .object _ => none
  | value => if value.isVoid then none else some .notMap

/-- What is wrong with the code of an error. -/
def codeDefect? : Json → Option Defect
  | .array _ | .object _ => some .notPlain
  | _ => none

/-- What is wrong with a datum, so that no watch can use it. -/
def Datum.defect? : Datum → Option Defect
  | .answer (.object members) => itemsDefect? (Json.memberOrNull members "items")
  | .answer _ => some .notMap
  | .metadata members => metadataDefect? (Json.memberOrNull members "metadata")
  | .event (.object members) =>
    if reportsError (.object members) then codeDefect? (errorCode (.object members)) else none
  | .event _ => some .notMap

/-- The line of an effect, if it reports an error. -/
def Effect.complaint? : Effect → Option Line
  | .log line => if Level.error.rank ≤ line.level.rank then some line else none
  | _ => none

/-- The lines that report errors, in order. -/
def complaints (effects : List Effect) : List Line :=
  effects.filterMap Effect.complaint?

@[simp] theorem complaints_nil : complaints [] = [] := rfl

/-- Errors are reported in the order of the effects. -/
@[simp] theorem complaints_append (front back : List Effect) :
    complaints (front ++ back) = complaints front ++ complaints back :=
  List.filterMap_append

/-- What reports no error may be left out. -/
@[simp] theorem complaints_undertakings (effects : List Effect) :
    complaints (undertakings effects) = complaints effects := by
  simp only [complaints, undertakings, List.filterMap_filter]
  congr 1
  funext effect
  cases effect <;> simp [Effect.undertakes, Effect.complaint?]

variable (plan : Plan)

/-- The metadata of an answer, if all its items have been read. -/
def closing (answer : List (String × Json)) (read : List Observation) : List Datum :=
  read.filterMap fun observation =>
    match observation with
    | .listed _ => some (.metadata answer)
    | .item _ | .event _ => none

/-- An item does not close the answer that it stands in. -/
@[simp] theorem closing_item (answer : List (String × Json)) (record : Json)
    (read : List Observation) : closing answer (.item record :: read) = closing answer read := rfl

/-- The data that a watch looks at during a move: an event, or an answer, or the metadata of an
    answer whose items are all done. -/
def data (watch : Watch) (move : Move) : List Datum :=
  match move, watch.phase with
  | .take, .streaming =>
    match watch.queue with
    | .event event :: _ => [.event event]
    | _ => []
  | .listed (.ok answer), .listing =>
    .answer answer :: closing (answer.members?.getD []) (watch.reads plan move)
  | .handled _, .delivering _ _ (.listing listing) =>
    closing listing.answer (watch.reads plan move)
  | _, _ => []

/-- All data that a watch looks at during some moves, in order. -/
abbrev allData (watch : Watch) (moves : List Move) : List Datum :=
  Machine.trace (step plan) (data plan) watch moves

/-- What the handler that comes to its end with a move has failed with. -/
def failuresOf (watch : Watch) (move : Move) : List String :=
  match move, watch.phase with
  | .handled failure, .delivering _ _ _ => failure.toList
  | _, _ => []

/-- What the handlers of a watch have failed with during some moves, in order. -/
abbrev allFailures (watch : Watch) (moves : List Move) : List String :=
  Machine.trace (step plan) failuresOf watch moves

/-- The lines on handlers that have failed. -/
def handlerLines (failures : List String) : List Line :=
  failures.map (handlerLine plan.target)

/-- How a watch has come to an outcome, with some lines on handlers that failed and the first
    defect of the data that it has looked at: it is still on, or it has ended in one of three
    ways. -/
inductive Stands (told : List Line) (defect? : Option Defect) (outcome : Watch × List Effect) :
    Prop
  /-- The watch is still on. -/
  | on (sound : defect? = none) (waits : ∀ ending, outcome.1.phase ≠ .ended ending)
      (complains : complaints outcome.2 = told)
  /-- The watch has ended because it was stopped. -/
  | stopped (sound : defect? = none) (ended : outcome.1.phase = .ended .stopped)
      (called : outcome.1.stopped = true) (complains : complaints outcome.2 = told)
  /-- The watch has given up, for an error after which the same call cannot succeed. -/
  | gaveUp (sound : defect? = none) (ended : outcome.1.phase = .ended .gaveUp)
      (error : StoreError) (final : error.retryable = false)
      (complains : complaints outcome.2 = told ++ [giveUpLine plan.target error])
  /-- The watch has broken off. It reports nothing about that. -/
  | broken (defect : Defect) (defective : defect? = some defect)
      (ended : outcome.1.phase = .ended (.broken defect)) (complains : complaints outcome.2 = told)

/-- Lines that report no error. -/
def Harmless (lines : List Line) : Prop :=
  complaints (lines.map .log) = []

variable {watch : Watch} {told : List Line} {defect? : Option Defect}

/-- Effects that come before others, with the lines on errors that are among them. -/
theorem Stands.after {plan : Plan} {outcome : Watch × List Effect}
    (stands : Stands plan told defect? outcome) (effects : List Effect) :
    Stands plan (complaints effects ++ told) defect? (outcome.1, effects ++ outcome.2) := by
  cases stands with
  | on sound waits complains =>
    exact .on sound waits (by rw [complaints_append, complains])
  | stopped sound ended called complains =>
    exact .stopped sound ended called (by rw [complaints_append, complains])
  | gaveUp sound ended error final complains =>
    exact .gaveUp sound ended error final
      (by rw [complaints_append, complains, List.append_assoc])
  | broken defect defective ended complains =>
    exact .broken defect defective ended (by rw [complaints_append, complains])

/-- A watch whose cycle ends well is still on. -/
theorem stands_rest (watch : Watch) : Stands plan [] none watch.rest :=
  .on rfl (fun _ => Phase.noConfusion) rfl

/-- A defect breaks the watch off. -/
theorem stands_broken (watch : Watch) (defect : Defect) :
    Stands plan [] (some defect) (watch.finish plan (.broken defect)) :=
  .broken defect rfl rfl rfl

/-- After a failure the watch is still on, or it has given up and reported the error. -/
theorem stands_fail (watch : Watch) (error : StoreError) :
    Stands plan [] none (watch.fail plan error) := by
  unfold fail
  split
  · exact .on rfl (fun _ => Phase.noConfusion) rfl
  · rename_i final
    exact .gaveUp rfl rfl error (by simpa using final) rfl

/-- A watch that opens a stream is still on. -/
theorem stands_openStream (watch : Watch) : Stands plan [] none watch.openStream := by
  unfold openStream
  split
  · exact stands_rest plan watch
  · exact .on rfl (fun _ => Phase.noConfusion) rfl

/-- A watch that starts a cycle is still on. -/
theorem stands_startCycle (watch : Watch) : Stands plan [] none watch.startCycle := by
  unfold startCycle
  split
  · exact .on rfl (fun _ => Phase.noConfusion) rfl
  · exact stands_openStream plan watch

/-- A stream that is left makes no difference to the end of its cycle. -/
theorem stands_leave (watch : Watch) (lines : List Line)
    {conclusion : Watch → Watch × List Effect}
    (stands : Stands plan told defect? (conclusion watch)) :
    Stands plan (complaints (lines.map .log) ++ told) defect? (watch.leave lines conclusion) := by
  have left := stands.after (lines.map .log ++ [.closeStream watch.streams])
  have closes : complaints [.closeStream watch.streams] = [] := rfl
  rw [complaints_append, closes, List.append_nil, List.append_assoc] at left
  exact left

/-- A watch whose version has expired is still on. -/
theorem stands_expire (watch : Watch) : Stands plan [] none (watch.expire plan) :=
  stands_leave plan _ [expiryLine plan.target] (stands_rest plan _)

/-- A watch whose stream has brought nothing to deliver is still on. -/
theorem stands_stayOrLeave (watch : Watch) (lines : List Line) :
    Stands plan (complaints (lines.map .log)) none (watch.stayOrLeave lines) := by
  unfold stayOrLeave
  split
  · have left := stands_leave plan watch lines (stands_rest plan watch)
    rw [List.append_nil] at left
    exact left
  · exact .on rfl (fun _ => Phase.noConfusion) rfl

/-- The defect that a reader has come upon. -/
def defectOf {α : Type} : Except Defect α → Option Defect
  | .ok _ => none
  | .error defect => some defect

/-- A list has no version exactly if its metadata have a defect. -/
theorem Listing.defectOf_version (listing : Listing) :
    defectOf listing.version = (Datum.metadata listing.answer).defect? := by
  simp only [Listing.version, Datum.defect?, Json.orElse]
  cases Json.memberOrNull listing.answer "metadata" with
  | object members => cases members <;> rfl
  | _ =>
    simp only [metadataDefect?]
    split_ifs <;> rfl

/-- An answer holds no list exactly if it has a defect. -/
theorem Listing.defectOf_ofAnswer (answer : Json) :
    defectOf (Listing.ofAnswer answer) = (Datum.answer answer).defect? := by
  cases answer with
  | object members =>
    simp only [Listing.ofAnswer, Listing.items, Datum.defect?]
    cases Json.memberOrNull members "items" with
    | array items => cases items <;> rfl
    | object members => cases members <;> rfl
    | _ =>
      simp only [itemsDefect?]
      split_ifs <;> rfl
  | _ => rfl

/-- A list that has been worked through breaks the watch off if its metadata have a defect. -/
theorem stands_concludeListing (watch : Watch) (listing : Listing) :
    Stands plan [] (Datum.metadata listing.answer).defect?
      (watch.concludeListing plan listing) := by
  rw [← listing.defectOf_version]
  unfold concludeListing Known.conclude
  cases listing.version with
  | error defect => exact stands_broken plan _ defect
  | ok value =>
    exact (stands_openStream plan _).after [.log (listLine plan.target listing.count value)]

/-- Working off a list breaks off only over its metadata, once all its items are done. -/
theorem stands_workOff (watch : Watch) (listing : Listing) (pending : List Json) :
    Stands plan [] ((closing listing.answer
        (readOf listing pending (watch.workOff plan listing pending).1)).findSome? Datum.defect?)
      (watch.workOff plan listing pending) := by
  induction pending generalizing watch listing with
  | nil =>
    have concluded : Stands plan [] (Datum.metadata listing.answer).defect?
        (watch.concludeListing plan { listing with pending := [] }) :=
      stands_concludeListing plan watch { listing with pending := [] }
    rw [readOf_workOff_nil, workOff]
    simpa [closing] using concluded
  | cons item pending inductionHypothesis =>
    cases replaced : watch.known.replaced? item with
    | some old =>
      simp only [workOff, replaced]
      have read : closing listing.answer (readOf listing (item :: pending) {
          watch with
          known := watch.known.observe item
          phase := .delivering old item (.listing (listing.advance item pending)) }) = [] := by
        simp [readOf, Listing.advance, closing]
      rw [read]
      exact .on rfl (fun _ => Phase.noConfusion) rfl
    | none =>
      cases running : watch.stopped with
      | true =>
        simp only [workOff, replaced]
        rw [if_pos running]
        have read : closing listing.answer (readOf listing (item :: pending)
            ({ watch with known := watch.known.observe item } : Watch).rest.1) = [] := by
          simp [readOf, rest, running, closing]
        rw [read]
        exact stands_rest plan _
      | false =>
        let next := { watch with known := watch.known.observe item }
        have same : watch.workOff plan listing (item :: pending) =
            next.workOff plan (listing.advance item pending) pending := by
          simp [workOff, replaced, running, next]
        have read := readOf_cons listing item
          ((stopped_workOff plan next (listing.advance item pending) pending).trans running)
          (fun _ _ _ left => pending_workOff plan next _ _ left)
        rw [same, read, closing_item]
        exact inductionHypothesis next (listing.advance item pending)

/-- The items of an answer belong to it. -/
theorem Listing.answer_ofAnswer {answer : Json} {listing : Listing}
    (given : Listing.ofAnswer answer = .ok listing) : answer = .object listing.answer := by
  cases answer with
  | object members =>
    simp only [Listing.ofAnswer, bind, Except.bind, pure, Except.pure] at given
    split at given
    · cases given
    · rw [← Except.ok.inj given]
  | _ => cases given

/-- An answer breaks the watch off over its items, or over its metadata once all items are done. -/
theorem stands_takeAnswer (watch : Watch) (answer : Json) :
    let outcome := watch.takeAnswer plan (.ok answer)
    let read :=
      match Listing.ofAnswer answer with
      | .ok listing => readOf listing listing.pending outcome.1
      | .error _ => []
    Stands plan []
      ((Datum.answer answer :: closing (answer.members?.getD []) read).findSome? Datum.defect?)
      outcome := by
  have defect := Listing.defectOf_ofAnswer answer
  simp only [takeAnswer, List.findSome?_cons, ← defect]
  cases given : Listing.ofAnswer answer with
  | error defect => exact stands_broken plan watch defect
  | ok listing =>
    obtain rfl := Listing.answer_ofAnswer given
    exact stands_workOff plan watch listing listing.pending

/-- The lines on a record that is worked in report no error. -/
theorem Known.harmless_recordMeaning {known next : Known} {target : Target} {type record : Json}
    {lines : List Line} (meant : known.recordMeaning target type record = .learned next lines) :
    Harmless lines := by
  simp only [Known.recordMeaning] at meant
  split at meant
  · obtain ⟨-, rfl⟩ := Meaning.learned.inj meant
    rfl
  split at meant
  · obtain ⟨-, rfl⟩ := Meaning.learned.inj meant
    rfl
  split at meant
  · obtain ⟨-, rfl⟩ := Meaning.learned.inj meant
    rfl
  · split at meant
    · cases meant
    · obtain ⟨-, rfl⟩ := Meaning.learned.inj meant
      rfl

/-- What an event means is a defect exactly if it has one, and no lines on it report an error. -/
theorem Known.meaning_cases (known : Known) (target : Target) (event : Json) :
    match known.meaning target event with
    | .learned _ lines => (Datum.event event).defect? = none ∧ Harmless lines
    | .defective defect => (Datum.event event).defect? = some defect
    | _ => (Datum.event event).defect? = none := by
  cases event with
  | object members =>
    by_cases error : Json.memberOrNull members "type" = .string "ERROR"
    · have defect : (Datum.event (.object members)).defect? =
          codeDefect? (Json.memberOrNull (errorMembers members) "code") := by
        simp [Datum.defect?, reportsError, error, errorCode, Json.members?]
      rw [defect]
      simp only [Known.meaning, error, if_true, errorMeaning]
      cases Json.memberOrNull (errorMembers members) "code" with
      | array items => rfl
      | object parts => rfl
      | _ =>
        simp only [isPlain]
        split_ifs <;> rfl
    · have sound : (Datum.event (.object members)).defect? = none := by
        simp [Datum.defect?, reportsError, error]
      simp only [Known.meaning, error, if_false]
      cases Json.memberOrNull members "object" with
      | object parts =>
        dsimp only
        rcases recordMeaning_cases known target (Json.memberOrNull members "type")
            (.object parts) with ⟨next, lines, meant, -⟩ | ⟨next, old, meant, -⟩
        · rw [meant]
          exact ⟨sound, harmless_recordMeaning meant⟩
        · rw [meant]
          exact sound
      | _ => exact ⟨sound, rfl⟩
  | _ => rfl

/-- An event breaks the watch off if it has a defect. -/
theorem stands_takeEvent (watch : Watch) (event : Json) :
    Stands plan [] (Datum.event event).defect? (watch.takeEvent plan event) := by
  have means := watch.known.meaning_cases plan.target event
  unfold takeEvent
  cases meant : watch.known.meaning plan.target event with
  | learned known lines =>
    obtain ⟨sound, harmless⟩ : _ ∧ _ := meant ▸ means
    rw [sound]
    have stays := stands_stayOrLeave plan { watch with known } lines
    rw [harmless] at stays
    exact stays
  | updated known old new =>
    have sound : _ = none := meant ▸ means
    rw [sound]
    exact .on rfl (fun _ => Phase.noConfusion) rfl
  | expired =>
    have sound : _ = none := meant ▸ means
    rw [sound]
    exact stands_expire plan watch
  | failed error =>
    have sound : _ = none := meant ▸ means
    rw [sound]
    exact stands_leave plan watch [] (stands_fail plan watch error)
  | defective defect =>
    have defective : _ = some defect := meant ▸ means
    rw [defective]
    exact stands_leave plan watch [] (stands_broken plan watch defect)

/-- An item of a stream breaks the watch off only if it is an event with a defect. -/
theorem stands_takeItem (watch : Watch) (item : Item) :
    Stands plan []
      (match item with
        | .event event => (Datum.event event).defect?
        | _ => none)
      (watch.takeItem plan item) := by
  cases item with
  | event event => exact stands_takeEvent plan watch event
  | failed cause =>
    simp only [takeItem]
    split
    · exact stands_expire plan watch
    · exact stands_leave plan watch [] (stands_fail plan watch _)
  | ended => exact stands_leave plan watch [streamEndLine plan.target] (stands_rest plan watch)
  | stopped => exact stands_leave plan watch [] (stands_rest plan watch)

/-- Failures of handlers are reported. -/
theorem complaints_handlerLines (failures : List String) :
    complaints ((handlerLines plan failures).map .log) = handlerLines plan failures := by
  induction failures with
  | nil => rfl
  | cons failure failures inductionHypothesis =>
    exact congrArg (handlerLine plan.target failure :: ·) inductionHypothesis

/-- A watch that is stopped is still on until it looks at that. -/
theorem stands_stop (watch : Watch) (running : ∀ ending, watch.phase ≠ .ended ending) :
    Stands plan [] none (watch.stop plan) := by
  unfold stop
  split
  · exact .on rfl running rfl
  · refine .on rfl running ?_
    split <;> rfl

/-- What a stream posts only comes into the queue. -/
theorem stands_post (watch : Watch) (running : ∀ ending, watch.phase ≠ .ended ending)
    (stream : Nat) (item : Item) : Stands plan [] none (watch.post stream item, []) := by
  refine .on rfl ?_ rfl
  unfold post
  split <;> exact running

/-- A handler that has come to its end is followed by the rest of the list, or of the stream. -/
theorem stands_resume (watch : Watch) (failures : List String) (next : Continuation) :
    let outcome := watch.resume plan (handlerLines plan failures) next
    Stands plan (handlerLines plan failures)
      (match next with
        | .streaming => none
        | .listing listing =>
          (closing listing.answer (if watch.stopped then []
            else readOf listing listing.pending outcome.1)).findSome? Datum.defect?)
      outcome := by
  have told := complaints_handlerLines plan failures
  cases next with
  | streaming =>
    have stays := stands_stayOrLeave plan watch (handlerLines plan failures)
    rw [told] at stays
    exact stays
  | listing listing =>
    simp only [resume]
    have onward := (stands_workOff plan watch listing listing.pending).after
      ((handlerLines plan failures).map .log)
    have rests := (stands_rest plan watch).after ((handlerLines plan failures).map .log)
    rw [told, List.append_nil] at onward rests
    split
    · exact rests
    · exact onward

section Steps

variable (running : ∀ ending, watch.phase ≠ .ended ending)
include running

/-- A move that a watch does not wait for leaves it on. -/
theorem stands_still : Stands plan [] none (watch, []) :=
  .on rfl running rfl

/-- A watch between two cycles starts the next one, or ends because it is stopped. -/
theorem stands_proceed : Stands plan [] none (watch.step plan .proceed) := by
  cases phase : watch.phase with
  | ready =>
    simp only [step, phase]
    split
    · rename_i stopped
      exact .stopped rfl rfl stopped rfl
    · exact stands_startCycle plan watch
  | _ =>
    simp only [step, phase]
    exact stands_still plan running

/-- The answer to a list call breaks the watch off over what it has looked at. -/
theorem stands_listed (outcome : Except Cause Json) :
    Stands plan [] ((watch.data plan (.listed outcome)).findSome? Datum.defect?)
      (watch.step plan (.listed outcome)) := by
  cases phase : watch.phase with
  | listing =>
    cases outcome with
    | error cause =>
      simp only [step, phase]
      exact stands_fail plan watch _
    | ok answer =>
      simp only [step, data, reads, phase]
      exact stands_takeAnswer plan watch answer
  | _ =>
    cases outcome <;> simp only [step, data, phase] <;> exact stands_still plan running

/-- An event that is taken from the queue breaks the watch off if it has a defect. -/
theorem stands_take :
    Stands plan [] ((watch.data plan .take).findSome? Datum.defect?) (watch.step plan .take) := by
  cases phase : watch.phase with
  | streaming =>
    cases next : watch.queue with
    | nil =>
      simp only [step, data, phase, next]
      exact stands_still plan running
    | cons item queue =>
      have taken := stands_takeItem plan { watch with queue } item
      cases item with
      | event event =>
        have only : [Datum.event event].findSome? Datum.defect? =
            (Datum.event event).defect? := by simp
        simp only [step, data, phase, next, only]
        exact taken
      | _ =>
        simp only [step, data, phase, next]
        exact taken
  | _ =>
    simp only [step, data, phase]
    exact stands_still plan running

/-- A handler reports its failure, and the rest of its list may break the watch off. -/
theorem stands_handled (failure : Option String) :
    Stands plan (handlerLines plan (watch.failuresOf (.handled failure)))
      ((watch.data plan (.handled failure)).findSome? Datum.defect?)
      (watch.step plan (.handled failure)) := by
  cases phase : watch.phase with
  | delivering old new next =>
    have resumed := stands_resume plan watch failure.toList next
    cases next with
    | streaming =>
      simp only [step, data, failuresOf, phase]
      exact resumed
    | listing listing =>
      simp only [step, data, failuresOf, reads, phase]
      exact resumed
  | _ =>
    simp only [step, data, failuresOf, phase]
    exact stands_still plan running

/-- After its wait a watch starts another cycle. -/
theorem stands_slept : Stands plan [] none (watch.step plan .slept) := by
  cases phase : watch.phase with
  | sleeping =>
    simp only [step, phase]
    exact stands_startCycle plan watch
  | _ =>
    simp only [step, phase]
    exact stands_still plan running

/-- Where a step leads a watch that is still on. -/
theorem stands_step (move : Move) :
    Stands plan (handlerLines plan (watch.failuresOf move))
      ((watch.data plan move).findSome? Datum.defect?) (watch.step plan move) := by
  cases move with
  | stop => exact stands_stop plan watch running
  | post stream item => exact stands_post plan watch running stream item
  | proceed => exact stands_proceed plan running
  | listed outcome => exact stands_listed plan running outcome
  | take => exact stands_take plan running
  | handled failure => exact stands_handled plan running failure
  | slept => exact stands_slept plan running

end Steps

/-- A watch that has ended stays so, looks at nothing and undertakes nothing. -/
theorem step_of_ended {ending : Ending} (ended : watch.phase = .ended ending) (move : Move) :
    (watch.step plan move).1.phase = .ended ending ∧
      (watch.stopped = true → (watch.step plan move).1.stopped = true) ∧
      undertakings (watch.step plan move).2 = [] ∧
      watch.failuresOf move = [] ∧ watch.data plan move = [] := by
  cases move with
  | stop =>
    refine ⟨?_, fun _ => stopped_stop plan watch, undertakings_stop plan watch, rfl, rfl⟩
    simp only [step, stop]
    split <;> exact ended
  | post stream item =>
    refine ⟨?_, ?_, rfl, rfl, rfl⟩ <;> simp only [step, post] <;> split
    · exact ended
    · exact ended
    · exact id
    · exact id
  | listed outcome => cases outcome <;> simp [step, failuresOf, data, ended]
  | _ => simp [step, failuresOf, data, ended]

/-- A watch that has ended undertakes nothing any more. -/
theorem undertakings_run_of_ended {ending : Ending} (ended : watch.phase = .ended ending)
    (moves : List Move) : undertakings (watch.run plan moves).2 = [] := by
  induction moves generalizing watch with
  | nil => rfl
  | cons move moves inductionHypothesis =>
    obtain ⟨phase, -, idle, -⟩ := step_of_ended plan ended move
    rw [run, Machine.run_cons, undertakings_append, idle, inductionHypothesis phase]
    rfl

/-- One more step leads a watch on, unless it has ended. -/
theorem Stands.then {plan : Plan} {outcome : Watch × List Effect}
    (stands : Stands plan told defect? outcome) (move : Move) :
    Stands plan (told ++ handlerLines plan (outcome.1.failuresOf move))
      (defect?.or ((outcome.1.data plan move).findSome? Datum.defect?))
      ((outcome.1.step plan move).1, outcome.2 ++ (outcome.1.step plan move).2) := by
  have silent (idle : undertakings (outcome.1.step plan move).2 = []) :
      complaints (outcome.1.step plan move).2 = [] := by
    rw [← complaints_undertakings, idle]
    rfl
  cases stands with
  | on sound waits complains =>
    have onward := (stands_step plan waits move).after outcome.2
    rw [complains] at onward
    rw [sound]
    exact onward
  | stopped sound ended called complains =>
    obtain ⟨phase, stays, idle, unfailing, blind⟩ := step_of_ended plan ended move
    exact .stopped (by simp [sound, blind]) phase (stays called)
      (by simp [complains, silent idle, unfailing, handlerLines])
  | gaveUp sound ended error final complains =>
    obtain ⟨phase, -, idle, unfailing, blind⟩ := step_of_ended plan ended move
    exact .gaveUp (by simp [sound, blind]) phase error final
      (by simp [complains, silent idle, unfailing, handlerLines])
  | broken defect defective ended complains =>
    obtain ⟨phase, -, idle, unfailing, blind⟩ := step_of_ended plan ended move
    exact .broken defect (by simp [defective]) phase
      (by simp [complains, silent idle, unfailing, handlerLines])

/-- Every run leaves a watch on, or ended in one of three ways. -/
theorem stands_run (moves : List Move) :
    Stands plan (handlerLines plan (({} : Watch).allFailures plan moves))
      ((({} : Watch).allData plan moves).findSome? Datum.defect?)
      (({} : Watch).run plan moves) := by
  induction moves using List.reverseRecOn with
  | nil => exact .on rfl (fun _ => Phase.noConfusion) rfl
  | append_singleton front move inductionHypothesis =>
    have onward := inductionHypothesis.then move
    simp only [run, Machine.run_append, Machine.run_single, allFailures, allData,
      Machine.trace_append, Machine.trace_single, List.findSome?_append, handlerLines,
      List.map_append] at onward ⊢
    exact onward

/-- A watch has broken off exactly if there was a defect. -/
theorem Stands.broken_iff {plan : Plan} {outcome : Watch × List Effect}
    (stands : Stands plan told defect? outcome) :
    (∃ defect, outcome.1.phase = .ended (.broken defect)) ↔ defect? ≠ none := by
  cases stands with
  | on sound waits => simp [sound, waits]
  | stopped sound ended => simp [sound, ended]
  | gaveUp sound ended => simp [sound, ended]
  | broken defect defective ended => simp [defective, ended]

/-- A watch breaks off exactly if one of the data that it has looked at has a defect, and reports
    nothing about that. Else it is on, or it has ended because it was stopped, or it has given up
    and reported the error. -/
theorem breaks_off_iff_defective (moves : List Move) :
    let outcome := ({} : Watch).run plan moves
    let data := ({} : Watch).allData plan moves
    ((∃ defect, outcome.1.phase = .ended (.broken defect)) ↔
      ∃ datum ∈ data, datum.defect? ≠ none) ∧
    Stands plan (handlerLines plan (({} : Watch).allFailures plan moves))
      (data.findSome? Datum.defect?) outcome := by
  intro outcome data
  have stands := stands_run plan moves
  have found : (∃ datum ∈ data, datum.defect? ≠ none) ↔
      data.findSome? Datum.defect? ≠ none := by simp
  rw [found]
  exact ⟨stands.broken_iff, stands⟩

/-- An error whose code is a map breaks off a watch that nobody has stopped, and nothing is
    reported. -/
theorem breaks_off_over_code :
    let plan : Plan := ⟨⟨.gameServer, "default", "gs"⟩, none⟩
    let error : Json :=
      .object [("type", .string "ERROR"), ("object", .object [("code", .object [])])]
    let outcome := ({} : Watch).run plan
      [.proceed, .listed (.ok (.object [])), .post 1 (.event error), .take]
    outcome.1.phase = .ended (.broken .notPlain) ∧ outcome.1.stopped = false ∧
      complaints outcome.2 = [] :=
  ⟨rfl, rfl, rfl⟩

end GameSidecar.Watch
