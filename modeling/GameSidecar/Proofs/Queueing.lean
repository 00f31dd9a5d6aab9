import GameSidecar.Proofs.Resumption

/-!
# A watch and its queue

What a stream brings waits in the queue until the watch takes it. Apart from that a watch does not
look at its queue: it does the same whatever is in there, and leaves it as it is or starts with an
empty one on a new stream. And it takes from the queue again only as long as it has its stream and
is not stopped.

Two watches that differ in their queues are compared by what they do, and by what they ask for apart
from log lines.
-/

namespace GameSidecar.Watch

/-- Whether an effect is a log line. -/
def Effect.isLog : Effect → Bool
  | .log _ => true
  | _ => false

/-- What a watch asks for apart from log lines, in order. -/
def unlogged (effects : List Effect) : List Effect :=
  effects.filter fun effect => !effect.isLog

@[simp] theorem unlogged_nil : unlogged [] = [] := rfl

/-- What is asked for apart from log lines is put together as the effects are. -/
@[simp] theorem unlogged_append (front back : List Effect) :
    unlogged (front ++ back) = unlogged front ++ unlogged back :=
  List.filter_append ..

/-- Log lines ask for nothing. -/
@[simp] theorem unlogged_lines (lines : List Line) : unlogged (lines.map .log) = [] := by
  simp [unlogged, Effect.isLog]

@[simp] theorem unlogged_log (line : Line) (effects : List Effect) :
    unlogged (.log line :: effects) = unlogged effects := rfl

/-- Log lines are no calls. -/
@[simp] theorem calls_unlogged (effects : List Effect) :
    calls (unlogged effects) = calls effects := by
  simp only [calls, unlogged, List.filterMap_filter]
  congr 1
  funext effect
  cases effect <;> rfl

/-- Log lines are no deliveries. -/
@[simp] theorem deliveries_unlogged (effects : List Effect) :
    deliveries (unlogged effects) = deliveries effects := by
  simp only [deliveries, unlogged, List.filterMap_filter]
  congr 1
  funext effect
  cases effect <;> rfl

/-- Two outcomes match: the watches know the same and wait for the same, and differ at most in their
    queues. Apart from log lines they have asked for the same. -/
structure Matches (left right : Watch × List Effect) : Prop where
  watch : right.1 = { left.1 with queue := right.1.queue }
  effects : unlogged left.2 = unlogged right.2

/-- A watch takes from its queue, now or after its handler: it has a stream and is not stopped. -/
def Attends (watch : Watch) : Prop :=
  watch.stopped = false ∧ watch.Streams

/-- A watch does the same whatever is in its queue, and leaves it as it is. It opens no stream, and
    is stopped if it was. -/
structure Steady (watch : Watch) (act : Watch → Watch × List Effect) : Prop where
  same : ∀ queue, act { watch with queue } = ({ (act watch).1 with queue }, (act watch).2)
  streams : (act watch).1.streams = watch.streams
  stopped : (act watch).1.stopped = watch.stopped

/-- What a watch does is done without a look at its queue. -/
inductive Blind (watch : Watch) (act : Watch → Watch × List Effect) : Prop
  /-- The watch does not take from its queue any more. -/
  | parks (steady : Steady watch act) (leaves : ¬(act watch).1.Attends)
      (idle : (act watch).1.phase ≠ .streaming)
  /-- The watch goes on with its queue, and makes no call. -/
  | stays (steady : Steady watch act) (attends : watch.Attends)
      (uncalled : calls (act watch).2 = [])
  /-- The watch opens a stream and gets an empty queue. -/
  | opens (running : watch.stopped = false)
      (same : ∀ queue, act { watch with queue } = act watch)
      (empty : (act watch).1.queue = []) (streams : (act watch).1.streams = watch.streams + 1)
      (stopped : (act watch).1.stopped = false)

variable (plan : Plan) {watch : Watch}

/-- What is done without a look at the queue leaves it as it is. -/
theorem Steady.queue {act : Watch → Watch × List Effect} (steady : Steady watch act) :
    (act watch).1.queue = watch.queue := by
  have own : act watch = ({ (act watch).1 with queue := watch.queue }, (act watch).2) :=
    steady.same watch.queue
  rw [own]

/-- A watch that is parked takes nothing from its queue. -/
theorem Blind.of_parked {act : Watch → Watch × List Effect} (steady : Steady watch act)
    (parked : (act watch).1.Parked) : Blind watch act := by
  refine .parks steady (fun attends => parked.not_streams attends.2) fun streaming => ?_
  exact parked.not_streams (.inl streaming)

/-- A cycle ends well whatever is in the queue. -/
theorem steady_rest (watch : Watch) : Steady watch rest :=
  ⟨fun _ => rfl, rfl, rfl⟩

/-- A watch ends whatever is in the queue. -/
theorem steady_finish (watch : Watch) (ending : Ending) : Steady watch (·.finish plan ending) :=
  ⟨fun _ => rfl, rfl, rfl⟩

/-- A cycle fails whatever is in the queue. -/
theorem steady_fail (watch : Watch) (error : StoreError) : Steady watch (·.fail plan error) := by
  unfold fail
  split
  · exact ⟨fun _ => rfl, rfl, rfl⟩
  · exact ⟨fun _ => rfl, rfl, rfl⟩

/-- A stream is left whatever is in its queue, if the cycle then ends so. -/
theorem Steady.leave {conclusion : Watch → Watch × List Effect} (steady : Steady watch conclusion)
    (lines : List Line) : Steady watch (·.leave lines conclusion) where
  same queue := by
    rw [Watch.leave, steady.same queue]
    rfl
  streams := steady.streams
  stopped := steady.stopped

/-- A watch that has failed takes nothing from its queue until it has waited, or ever again. -/
theorem parked_fail (watch : Watch) (error : StoreError) : (watch.fail plan error).1.Parked := by
  unfold fail
  split
  · exact .inr (.inl rfl)
  · exact .inr (.inr ⟨_, rfl⟩)

/-- A cycle that ends well does not look at the queue. -/
theorem blind_rest (watch : Watch) : Blind watch rest :=
  .of_parked (steady_rest watch) (.inl rfl)

/-- A watch that ends does not look at the queue. -/
theorem blind_finish (watch : Watch) (ending : Ending) : Blind watch (·.finish plan ending) :=
  .of_parked (steady_finish plan watch ending) (.inr (.inr ⟨_, rfl⟩))

/-- A cycle that fails does not look at the queue. -/
theorem blind_fail (watch : Watch) (error : StoreError) : Blind watch (·.fail plan error) :=
  .of_parked (steady_fail plan watch error) (parked_fail plan watch error)

/-- What a watch does may be told in another way, if that is right whatever is in its queue. -/
theorem Blind.congr {act other : Watch → Watch × List Effect} (blind : Blind watch other)
    (same : ∀ queue, act { watch with queue } = other { watch with queue }) : Blind watch act := by
  have own : act watch = other watch := same watch.queue
  cases blind with
  | parks steady leaves idle =>
    refine .parks ⟨fun queue => ?_, own ▸ steady.streams, own ▸ steady.stopped⟩ (own ▸ leaves)
      (own ▸ idle)
    rw [same, own, steady.same]
  | stays steady attends uncalled =>
    refine .stays ⟨fun queue => ?_, own ▸ steady.streams, own ▸ steady.stopped⟩ attends
      (own ▸ uncalled)
    rw [same, own, steady.same]
  | opens running unseen empty streams stopped =>
    refine .opens running (fun queue => ?_) (own ▸ empty) (own ▸ streams) (own ▸ stopped)
    rw [same, own, unseen]

/-- Lines that come before other effects do not depend on the queue either. -/
theorem Blind.after_lines {act : Watch → Watch × List Effect} (blind : Blind watch act)
    (lines : List Line) :
    Blind watch fun watch => ((act watch).1, lines.map .log ++ (act watch).2) := by
  have steadily (steady : Steady watch act) :
      Steady watch fun watch => ((act watch).1, lines.map .log ++ (act watch).2) :=
    ⟨fun queue => by rw [steady.same], steady.streams, steady.stopped⟩
  cases blind with
  | parks steady leaves idle => exact .parks (steadily steady) leaves idle
  | stays steady attends uncalled =>
    refine .stays (steadily steady) attends ?_
    rw [calls_append, calls_lines, uncalled, List.nil_append]
  | opens running unseen empty streams stopped =>
    exact .opens running (fun queue => by rw [unseen]) empty streams stopped

/-- What a watch learns makes no difference to its queue. -/
theorem Blind.with_known {known : Known} {act : Watch → Watch × List Effect}
    (blind : Blind { watch with known } act) :
    Blind watch fun watch => act { watch with known } := by
  cases blind with
  | parks steady leaves idle =>
    exact .parks ⟨steady.same, steady.streams, steady.stopped⟩ leaves idle
  | stays steady attends uncalled =>
    exact .stays ⟨steady.same, steady.streams, steady.stopped⟩ attends uncalled
  | opens running unseen empty streams stopped => exact .opens running unseen empty streams stopped

/-- A new stream has a queue of its own, so what is in the old one makes no difference. -/
theorem blind_openStream (watch : Watch) : Blind watch openStream := by
  cases running : watch.stopped with
  | true => exact (blind_rest watch).congr fun queue => if_pos running
  | false =>
    have opened (queue : List Item) : openStream { watch with queue } =
        ({ watch with streams := watch.streams + 1, queue := [], phase := .streaming },
          [.openStream (watch.streams + 1) watch.known.version]) :=
      if_neg (by simp [running])
    have own := opened watch.queue
    refine .opens running (fun queue => (opened queue).trans own.symm) ?_ ?_ ?_
    · exact congrArg (·.1.queue) own
    · exact congrArg (·.1.streams) own
    · exact (congrArg (·.1.stopped) own).trans running

/-- A cycle starts without a look at the queue. -/
theorem blind_startCycle (watch : Watch) : Blind watch startCycle := by
  cases known : watch.known.version.isNull with
  | true =>
    have lists (queue : List Item) : startCycle { watch with queue } =
        ({ watch with queue, phase := .listing }, [.list]) := if_pos known
    have own : startCycle watch = ({ watch with phase := .listing }, [.list]) :=
      lists watch.queue
    refine .parks ⟨fun queue => ?_, ?_, ?_⟩ ?_ ?_
    · rw [lists, own]
    · rw [own]
    · rw [own]
    · rw [own]
      rintro ⟨-, streams⟩
      exact streams.ne_listing rfl
    · rw [own]
      exact Phase.noConfusion
  | false => exact (blind_openStream watch).congr fun queue => if_neg (by simp [known])

/-- A list that has been worked through leads to a new stream, or ends the watch, whatever is in the
    queue. -/
theorem blind_concludeListing (watch : Watch) (listing : Listing) :
    Blind watch (·.concludeListing plan listing) := by
  cases concluded : watch.known.conclude listing with
  | mk known defect? =>
    cases defect? with
    | some defect =>
      refine (blind_finish plan { watch with known } (.broken defect)).with_known.congr ?_
      intro queue
      simp only [concludeListing, concluded]
    | none =>
      have opened := (blind_openStream { watch with known }).with_known.after_lines
        [listLine plan.target listing.count known.version]
      refine opened.congr fun queue => ?_
      simp only [concludeListing, concluded]
      rfl

/-- A list is worked off whatever is in the queue. -/
theorem blind_workOff (watch : Watch) (listing : Listing) (pending : List Json) :
    Blind watch (·.workOff plan listing pending) := by
  -- With every item the watch learns something, so it is general in the induction.
  induction pending generalizing watch listing with
  | nil => exact blind_concludeListing plan watch { listing with pending := [] }
  | cons item pending inductionHypothesis =>
    cases replaced : watch.known.replaced? item with
    | some old =>
      have delivers : Blind watch fun watch => ({
          watch with
          known := watch.known.observe item
          phase := .delivering old item (.listing (listing.advance item pending)) },
          [.deliver old item]) := by
        refine .parks ⟨fun queue => rfl, rfl, rfl⟩ ?_ Phase.noConfusion
        rintro ⟨-, streams⟩
        exact streams.ne_delivering _ _ _ rfl
      refine delivers.congr fun queue => ?_
      simp only [workOff, replaced]
    | none =>
      cases running : watch.stopped with
      | true =>
        refine (blind_rest { watch with known := watch.known.observe item }).with_known.congr ?_
        intro queue
        simp [workOff, replaced, running]
      | false =>
        have later := inductionHypothesis { watch with known := watch.known.observe item }
          (listing.advance item pending)
        refine later.with_known.congr fun queue => ?_
        simp [workOff, replaced, running]

/-- An answer to a list call is worked off without a look at the queue. -/
theorem blind_takeAnswer (watch : Watch) (outcome : Except Cause Json) :
    Blind watch (·.takeAnswer plan outcome) := by
  cases outcome with
  | error cause => exact blind_fail plan watch _
  | ok answer =>
    cases given : Listing.ofAnswer answer with
    | error defect =>
      refine (blind_finish plan watch (.broken defect)).congr fun queue => ?_
      simp only [takeAnswer, given]
    | ok listing =>
      refine (blind_workOff plan watch listing listing.pending).congr fun queue => ?_
      simp only [takeAnswer, given]

/-- A stream that is left well is left without a look at the rest of its queue. -/
theorem blind_leave_rest (watch : Watch) (lines : List Line) : Blind watch (·.leave lines rest) :=
  .of_parked ((steady_rest watch).leave lines) (.inl rfl)

/-- A stream whose version has expired is left without a look at the rest of its queue. -/
theorem blind_expire (watch : Watch) : Blind watch (·.expire plan) :=
  .of_parked ⟨fun _ => rfl, rfl, rfl⟩ (.inl rfl)

/-- A stream that has failed is left without a look at the rest of its queue. -/
theorem blind_leave_fail (watch : Watch) (error : StoreError) :
    Blind watch (·.leave [] (·.fail plan error)) :=
  .of_parked ((steady_fail plan watch error).leave []) (parked_fail plan watch error)

/-- A watch that is not stopped waits for the next item of its stream. -/
theorem blind_stayOrLeave (streams : watch.Streams) (lines : List Line) :
    Blind watch (·.stayOrLeave lines) := by
  cases running : watch.stopped with
  | true => exact (blind_leave_rest watch lines).congr fun queue => if_pos running
  | false =>
    have stays : Blind watch fun watch => ({ watch with phase := .streaming }, lines.map .log) :=
      .stays ⟨fun queue => rfl, rfl, rfl⟩ ⟨running, streams⟩ (calls_lines lines)
    exact stays.congr fun queue => if_neg (by simp [running])

/-- An event is worked in without a look at what comes behind it. -/
theorem blind_takeEvent (streaming : watch.phase = .streaming) (event : Json) :
    Blind watch (·.takeEvent plan event) := by
  cases meant : watch.known.meaning plan.target event with
  | learned known lines =>
    have learned := @blind_stayOrLeave { watch with known } (.inl streaming) lines
    refine learned.with_known.congr fun queue => ?_
    simp only [takeEvent, meant]
  | updated known old new =>
    have steady : Steady watch fun watch => (
        { watch with known, phase := .delivering old new .streaming }, [.deliver old new]) :=
      ⟨fun queue => rfl, rfl, rfl⟩
    have delivers : Blind watch fun watch => (
        { watch with known, phase := .delivering old new .streaming }, [.deliver old new]) := by
      cases running : watch.stopped with
      | true =>
        refine .parks steady ?_ Phase.noConfusion
        rintro ⟨unstopped, -⟩
        exact Bool.noConfusion (running.symm.trans unstopped)
      | false => exact .stays steady ⟨running, .inl streaming⟩ rfl
    refine delivers.congr fun queue => ?_
    simp only [takeEvent, meant]
  | expired =>
    refine (blind_expire plan watch).congr fun queue => ?_
    simp only [takeEvent, meant]
  | failed error =>
    refine (blind_leave_fail plan watch error).congr fun queue => ?_
    simp only [takeEvent, meant]
  | defective defect =>
    have breaks : Blind watch (·.leave [] (·.finish plan (.broken defect))) :=
      .of_parked ((steady_finish plan watch _).leave []) (.inr (.inr ⟨_, rfl⟩))
    refine breaks.congr fun queue => ?_
    simp only [takeEvent, meant]

/-- What is behind an item in the queue makes no difference to it. -/
theorem blind_takeItem (streaming : watch.phase = .streaming) (item : Item) :
    Blind watch (·.takeItem plan item) := by
  cases item with
  | event event => exact blind_takeEvent plan streaming event
  | failed cause =>
    by_cases expired : (cause.toError s!"watch {plan.target.describe}").isExpired = true
    · exact (blind_expire plan watch).congr fun queue => if_pos expired
    · exact (blind_leave_fail plan watch _).congr fun queue => if_neg expired
  | ended => exact blind_leave_rest watch _
  | stopped => exact blind_leave_rest watch _

/-- After a handler the watch goes on without a look at the queue. -/
theorem blind_resume {old new : Json} {next : Continuation}
    (delivering : watch.phase = .delivering old new next) (lines : List Line) :
    Blind watch (·.resume plan lines next) := by
  cases next with
  | streaming => exact blind_stayOrLeave (.inr ⟨old, new, delivering⟩) lines
  | listing listing =>
    cases running : watch.stopped with
    | true =>
      refine ((blind_rest watch).after_lines lines).congr fun queue => ?_
      simp only [resume, running, if_true]
    | false =>
      refine ((blind_workOff plan watch listing listing.pending).after_lines lines).congr ?_
      intro queue
      simp only [resume, running, Bool.false_eq_true, if_false]

/-- A move that neither looks at the queue nor adds to it. -/
def Move.isBlind : Move → Bool
  | .take | .post _ _ | .stop => false
  | _ => true

/-- Such a move is blind to the queue, or it is not waited for. -/
theorem blind_step {move : Move} (isBlind : move.isBlind = true) :
    Blind watch (·.step plan move) ∨
      ∀ queue, { watch with queue }.step plan move = ({ watch with queue }, []) := by
  cases move with
  | proceed =>
    cases phase : watch.phase with
    | ready =>
      left
      cases running : watch.stopped with
      | true =>
        refine (blind_finish plan watch .stopped).congr fun queue => ?_
        simp only [step, phase, running, if_true]
      | false =>
        refine (blind_startCycle watch).congr fun queue => ?_
        simp only [step, phase, running, Bool.false_eq_true, if_false]
    | _ => exact .inr fun queue => by simp only [step]
  | listed outcome =>
    cases phase : watch.phase with
    | listing =>
      left
      refine (blind_takeAnswer plan watch outcome).congr fun queue => ?_
      simp only [step, phase]
    | _ => exact .inr fun queue => by simp only [step]
  | handled failure =>
    cases phase : watch.phase with
    | delivering old new next =>
      left
      refine (blind_resume plan phase
        (failure.toList.map (handlerLine plan.target))).congr fun queue => ?_
      simp only [step, phase]
    | _ => exact .inr fun queue => by simp only [step]
  | slept =>
    cases phase : watch.phase with
    | sleeping =>
      left
      refine (blind_startCycle watch).congr fun queue => ?_
      simp only [step, phase]
    | _ => exact .inr fun queue => by simp only [step]
  | _ => cases isBlind

/-- A watch that is stopped closes its stream and finds the end of it behind its queue. -/
theorem stop_of_running (running : watch.stopped = false) (queue : List Item) :
    ({ watch with queue } : Watch).stop plan =
      ({ watch with stopped := true, queue := queue ++ [.stopped] },
        (if watch.streams = 0 then [] else [.closeStream watch.streams]) ++
          [.log (stopLine plan.target)]) :=
  if_neg (by simp [running])

/-- What comes into the queue when a stream brings an item. -/
def Item.arriving (stopped : Bool) : Item → Item
  | .event sent => if stopped then .ended else .event sent
  | item => item

/-- The newest stream adds to the queue, and other streams do nothing. -/
theorem post_eq (watch : Watch) (stream : Nat) (item : Item) :
    watch.post stream item =
      if stream ≠ watch.streams then watch
      else { watch with queue := watch.queue ++ [item.arriving watch.stopped] } := by
  unfold post
  split
  · rfl
  · cases item <;> rfl

/-- A watch takes an item, and does what it brings with it. -/
theorem step_take (streaming : watch.phase = .streaming) {item : Item} {later : List Item}
    (queue : watch.queue = item :: later) :
    watch.step plan .take = ({ watch with queue := later } : Watch).takeItem plan item := by
  simp only [step, streaming, queue]

/-- Nothing is taken from an empty queue. -/
theorem step_take_of_empty (streaming : watch.phase = .streaming) (empty : watch.queue = []) :
    watch.step plan .take = (watch, []) := by
  simp only [step, streaming, empty]

/-- A watch that does not wait for an item takes none. -/
theorem step_take_of_ne (other : watch.phase ≠ .streaming) :
    watch.step plan .take = (watch, []) := by
  cases phase : watch.phase with
  | streaming => exact absurd phase other
  | _ => simp only [step, phase]

end GameSidecar.Watch
