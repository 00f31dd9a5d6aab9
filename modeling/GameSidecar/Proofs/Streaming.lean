import GameSidecar.Proofs.Passage
import Mathlib.Logic.Function.Basic

/-!
# One stream at a time

A watch has one stream at most. It stops a stream before it opens another one and before it ends, in
whatever way the cycle of that stream has come to its end. What it works off are the events of its
newest stream, each of them once and in the order in which they were produced. A stream that has
been left may still produce events, but none of them is worked off.

The chronicle of a run tells what happens with streams, one thing after the other. What is right is
said of chronicles alone, without a look at the watch or at its queue: whatever happens has to be
admitted by what has happened before.
-/

namespace GameSidecar.Watch

/-- What happens with the streams of a watch. -/
inductive Happening
  /-- A stream is opened. -/
  | opened (stream : Nat)
  /-- A stream is stopped. -/
  | stopped (stream : Nat)
  /-- A stream produces an event. -/
  | produced (stream : Nat) (event : Json)
  /-- The watch works off an event. -/
  | dispatched (event : Json)
  /-- The watch ends. -/
  | ended
  deriving Repr, DecidableEq

/-- The streams that have been opened and have not been stopped since, in order. -/
def unstopped (past : List Happening) : List Nat :=
  past.foldl (fun streams happening =>
    match happening with
    | .opened stream => streams ++ [stream]
    | .stopped stream => streams.filter (· ≠ stream)
    | _ => streams) []

/-- The events that a stream has produced, in order. -/
def producedBy (stream : Nat) (past : List Happening) : List Json :=
  past.filterMap fun happening =>
    match happening with
    | .produced source event => if source = stream then some event else none
    | _ => none

/-- The events that have been worked off, in order. -/
def dispatchedIn (past : List Happening) : List Json :=
  past.filterMap fun happening =>
    match happening with
    | .dispatched event => some event
    | _ => none

/-- A stream is the one that was opened last, with all that has happened since then. -/
def IsNewest (past : List Happening) (stream : Nat) (since : List Happening) : Prop :=
  ∃ earlier, past = earlier ++ .opened stream :: since ∧ ∀ other, .opened other ∉ since

/-- The past admits what happens next. A stream that is opened is a new one, and then as well as at
    the end no other one is left unstopped. The events that have been worked off since the newest
    stream was opened are, with the next one, the first that this stream has produced. -/
def Admits (past : List Happening) : Happening → Prop
  | .opened stream => .opened stream ∉ past ∧ unstopped past = []
  | .ended => unstopped past = []
  | .dispatched event =>
    ∃ stream since, IsNewest past stream since ∧
      dispatchedIn since ++ [event] <+: producedBy stream since
  | .produced _ _ | .stopped _ => True

/-- Everything that happens is admitted by what has happened before. -/
def Admissible (chronicle : List Happening) : Prop :=
  ∀ past happening future, chronicle = past ++ happening :: future → Admits past happening

/-- What an effect does with a stream. -/
def Effect.happening? : Effect → Option Happening
  | .openStream number _ => some (.opened number)
  | .closeStream number => some (.stopped number)
  | _ => none

/-- What effects do with streams, in order. -/
def told (effects : List Effect) : List Happening :=
  effects.filterMap Effect.happening?

/-- The event that a stream produces with a move, or that the watch takes to work it off. -/
def eventOf (watch : Watch) (move : Move) : List Happening :=
  match move, watch.phase with
  | .post stream (.event event), _ => [.produced stream event]
  | .take, .streaming =>
    match watch.queue with
    | .event event :: _ => [.dispatched event]
    | _ => []
  | _, _ => []

/-- The end of a watch, if it has come between two states. -/
def endOf (before after : Watch) : List Happening :=
  match before.phase, after.phase with
  | .ended _, _ => []
  | _, .ended _ => [.ended]
  | _, _ => []

variable (plan : Plan)

/-- What happens with the streams of a watch during a move. -/
def happenings (watch : Watch) (move : Move) : List Happening :=
  let outcome := watch.step plan move
  watch.eventOf move ++ (told outcome.2 ++ endOf watch outcome.1)

/-- All that happens with the streams of a watch during some moves, in order. -/
abbrev chronicle (watch : Watch) (moves : List Move) : List Happening :=
  Machine.trace (step plan) (happenings plan) watch moves

/-- The events among some items. -/
def eventsAmong (items : List Item) : List Json :=
  items.filterMap fun item =>
    match item with
    | .event event => some event
    | _ => none

@[simp] theorem told_nil : told [] = [] := rfl

/-- What happens with streams comes in the order of the effects. -/
@[simp] theorem told_append (front back : List Effect) :
    told (front ++ back) = told front ++ told back :=
  List.filterMap_append

/-- Log lines do nothing with streams. -/
@[simp] theorem told_lines (lines : List Line) : told (lines.map .log) = [] := by
  simp [told, Effect.happening?]

/-- What a stream produces comes in the order of what happens. -/
@[simp] theorem producedBy_append (stream : Nat) (front back : List Happening) :
    producedBy stream (front ++ back) = producedBy stream front ++ producedBy stream back :=
  List.filterMap_append

/-- What is worked off comes in the order of what happens. -/
@[simp] theorem dispatchedIn_append (front back : List Happening) :
    dispatchedIn (front ++ back) = dispatchedIn front ++ dispatchedIn back :=
  List.filterMap_append

/-- The events among some items come in their order. -/
@[simp] theorem eventsAmong_append (front back : List Item) :
    eventsAmong (front ++ back) = eventsAmong front ++ eventsAmong back :=
  List.filterMap_append

/-- A stream that is opened is not stopped yet. -/
@[simp] theorem unstopped_opened (past : List Happening) (stream : Nat) :
    unstopped (past ++ [.opened stream]) = unstopped past ++ [stream] := by
  simp [unstopped]

/-- A stream that is stopped is unstopped no more. -/
@[simp] theorem unstopped_stopped (past : List Happening) (stream : Nat) :
    unstopped (past ++ [.stopped stream]) = (unstopped past).filter (· ≠ stream) := by
  simp [unstopped]

/-- An event that a stream produces stops no stream. -/
@[simp] theorem unstopped_produced (past : List Happening) (stream : Nat) (event : Json) :
    unstopped (past ++ [.produced stream event]) = unstopped past := by
  simp [unstopped]

/-- An event that is worked off stops no stream. -/
@[simp] theorem unstopped_dispatched (past : List Happening) (event : Json) :
    unstopped (past ++ [.dispatched event]) = unstopped past := by
  simp [unstopped]

/-- The end of the watch stops no stream. -/
@[simp] theorem unstopped_ended (past : List Happening) :
    unstopped (past ++ [.ended]) = unstopped past := by
  simp [unstopped]

/-- One more happening leaves a chronicle admissible if the past admits it. -/
theorem Admissible.snoc {past : List Happening} (admissible : Admissible past)
    {happening : Happening} (admitted : Admits past happening) :
    Admissible (past ++ [happening]) := by
  intro earlier next future split
  rcases future.eq_nil_or_concat with rfl | ⟨middle, last, rfl⟩
  · obtain ⟨rfl, same⟩ := List.append_inj' split rfl
    obtain rfl := (List.cons.inj same).1
    exact admitted
  · have cut : past ++ [happening] = (earlier ++ next :: middle) ++ [last] := by simpa using split
    exact admissible earlier next middle (List.append_inj' cut rfl).1

/-- A stream is the newest one until another one is opened. -/
theorem IsNewest.snoc {past since : List Happening} {stream : Nat}
    (newest : IsNewest past stream since) {happening : Happening}
    (other : ∀ stream, happening ≠ .opened stream) :
    IsNewest (past ++ [happening]) stream (since ++ [happening]) := by
  obtain ⟨earlier, rfl, last⟩ := newest
  refine ⟨earlier, by simp, fun stream among => ?_⟩
  rcases List.mem_append.mp among with before | same
  · exact last stream before
  · exact other stream (List.mem_singleton.mp same).symm

/-- Nothing has happened since the newest stream was opened. -/
theorem isNewest_opened (past : List Happening) (stream : Nat) :
    IsNewest (past ++ [.opened stream]) stream [] :=
  ⟨past, rfl, fun _ => List.not_mem_nil⟩

/-- A watch holds on to its stream, which is the newest one and alone unstopped. The events in its
    queue are what the stream has produced behind those that have been worked off. Only a watch that
    is stopped misses some: those that were produced later. -/
structure HoldsOn (past : List Happening) (watch : Watch) (since : List Happening)
    (missed : List Json) : Prop where
  newest : IsNewest past watch.streams since
  alone : ∀ stream ∈ unstopped past, stream = watch.streams
  inOrder : producedBy watch.streams since =
    dispatchedIn since ++ (eventsAmong watch.queue ++ missed)
  complete : watch.stopped = false → missed = []

/-- What has happened so far is admissible and fits the watch: streams were numbered up to the
    newest one. The watch holds on to that one, or no stream is left unstopped. -/
structure Fits (past : List Happening) (watch : Watch) : Prop where
  admissible : Admissible past
  numbered : ∀ stream, .opened stream ∈ past → stream ≤ watch.streams
  away : ¬watch.Streams → unstopped past = []
  within : watch.Streams → ∃ since missed, HoldsOn past watch since missed

/-- What an outcome means for the stream of a watch. -/
inductive Turns (watch : Watch) (outcome : Watch × List Effect) : Prop
  /-- Nothing happens with streams, and the watch has a stream if it had one. -/
  | stays (silent : told outcome.2 = []) (same : outcome.1.Streams ↔ watch.Streams)
      (streams : outcome.1.streams = watch.streams) (queue : outcome.1.queue = watch.queue)
      (stopped : outcome.1.stopped = watch.stopped)
  /-- The stream is stopped and left. -/
  | leaves (stops : told outcome.2 = [.stopped watch.streams]) (away : ¬outcome.1.Streams)
      (streams : outcome.1.streams = watch.streams)
  /-- A watch without a stream opens the next one, with an empty queue. -/
  | opens (calls : told outcome.2 = [.opened (watch.streams + 1)]) (away : ¬watch.Streams)
      (within : outcome.1.Streams) (streams : outcome.1.streams = watch.streams + 1)
      (queue : outcome.1.queue = [])

variable {plan} {watch : Watch}

/-- The end of a cycle does nothing with streams. -/
theorem EndsCycle.silent {act : Watch → Watch × List Effect} (ends : EndsCycle plan act)
    (watch : Watch) : told (act watch).2 = [] := by
  cases ends with
  | rests => rfl
  | finishes ending => rfl
  | fails error =>
    simp only [fail]
    split <;> rfl

/-- Each way that a watch can take turns its stream as it should. -/
theorem Way.turns {outcome : Watch × List Effect} (way : Way plan watch outcome) :
    Turns watch outcome := by
  cases way with
  | stays within => exact .stays rfl (iff_of_true (.inl rfl) within) rfl rfl rfl
  | hands old new next source =>
    refine .stays rfl (Iff.trans ?_ source) rfl rfl rfl
    simp [Streams]
  | lists away =>
    refine .stays rfl (iff_of_false ?_ away) rfl rfl rfl
    exact fun streams => streams.ne_listing rfl
  | opens away running => exact .opens rfl away (.inl rfl) rfl rfl
  | ends away ends =>
    have steady := ends.steady watch
    exact .stays (ends.silent watch) (iff_of_false (ends.parked watch).not_streams away)
      steady.streams steady.queue steady.stopped
  | leaves within ends =>
    refine .leaves ?_ (ends.parked watch).not_streams (ends.steady watch).streams
    rename_i act
    have effects : (watch.leave [] act).2 = [.closeStream watch.streams] ++ (act watch).2 := rfl
    rw [effects, told_append, ends.silent watch]
    rfl

/-- What a watch learns on its way and the lines that it writes make no difference to its stream. -/
theorem Passes.turns {outcome : Watch × List Effect} (passes : Passes plan watch outcome) :
    Turns watch outcome := by
  obtain ⟨known, lines, way⟩ := passes
  rename_i outcome
  have same : told (lines.map .log ++ outcome.2) = told outcome.2 := by
    rw [told_append, told_lines, List.nil_append]
  cases way.turns with
  | stays silent both streams queue stopped =>
    exact .stays (same.trans silent) both streams queue stopped
  | leaves stops away streams => exact .leaves (same.trans stops) away streams
  | opens calls away within streams queue =>
    exact .opens (same.trans calls) away within streams queue

variable (plan)

/-- No event comes with a move that neither adds to the queue nor takes from it. -/
theorem eventOf_of_isBlind (watch : Watch) {move : Move} (isBlind : move.isBlind = true) :
    watch.eventOf move = [] := by
  cases move with
  | take | post _ _ | stop => cases isBlind
  | _ => rfl

section

variable {past : List Happening} (fits : Fits past watch)
include fits

/-- Nothing happens, and the watch keeps its stream and the events in its queue. -/
theorem Fits.recast {after : Watch} (streams : after.streams = watch.streams)
    (same : after.Streams ↔ watch.Streams)
    (queue : eventsAmong after.queue = eventsAmong watch.queue)
    (stopped : after.stopped = false → watch.stopped = false) : Fits past after := by
  constructor
  · exact fits.admissible
  · simpa only [streams] using fits.numbered
  · exact fun away => fits.away fun within => away (same.mpr within)
  · intro within
    obtain ⟨since, missed, holds⟩ := fits.within (same.mp within)
    refine ⟨since, missed, ?_⟩
    constructor
    · simpa only [streams] using holds.newest
    · simpa only [streams] using holds.alone
    · simpa only [streams, queue] using holds.inOrder
    · exact fun running => holds.complete (stopped running)

/-- Whatever an outcome means for the stream, the past admits it. -/
theorem Fits.turns {outcome : Watch × List Effect} (turns : Turns watch outcome) :
    Fits (past ++ told outcome.2) outcome.1 := by
  cases turns with
  | stays silent same streams queue stopped =>
    rw [silent, List.append_nil]
    exact fits.recast streams same (congrArg eventsAmong queue) (stopped ▸ id)
  | leaves stops away streams =>
    rw [stops]
    constructor
    · exact fits.admissible.snoc trivial
    · intro stream among
      rw [streams]
      exact fits.numbered stream (by simpa using among)
    · intro _
      rw [unstopped_stopped, List.filter_eq_nil_iff]
      intro stream left
      by_cases within : watch.Streams
      · obtain ⟨since, missed, holds⟩ := fits.within within
        simpa using holds.alone stream left
      · simp [fits.away within] at left
    · exact fun within => absurd within away
  | opens calls away within streams queue =>
    rw [calls]
    constructor
    · refine fits.admissible.snoc ⟨fun among => ?_, fits.away away⟩
      exact absurd (fits.numbered _ among) (by omega)
    · intro stream among
      rw [streams]
      rcases List.mem_append.mp among with earlier | newest
      · exact (fits.numbered stream earlier).trans (Nat.le_succ _)
      · obtain rfl := Happening.opened.inj (List.mem_singleton.mp newest)
        exact le_rfl
    · exact fun without => absurd within without
    · intro _
      refine ⟨[], [], ?_⟩
      constructor
      · rw [streams]
        exact isNewest_opened past _
      · simp [fits.away away, streams]
      · rw [queue]
        rfl
      · exact fun _ => rfl

/-- A watch ends without a stream. -/
theorem Fits.endOf (before : Watch) : Fits (past ++ endOf before watch) watch := by
  have still : Fits (past ++ []) watch := by rwa [List.append_nil]
  unfold Watch.endOf
  split
  · exact still
  · rename_i ending phase running
    have away : ¬watch.Streams := Parked.not_streams (.inr (.inr ⟨ending, phase⟩))
    constructor
    · exact fits.admissible.snoc (fits.away away)
    · simpa using fits.numbered
    · simpa using fits.away
    · exact fun within => absurd within away
  · exact still

/-- Something happens, other than that a stream is opened, that the past admits and that leaves no
    more streams unstopped. The watch has its stream as before. -/
theorem Fits.happens {happening : Happening} {after : Watch} (admitted : Admits past happening)
    (unopened : ∀ stream, happening ≠ .opened stream)
    (fewer : unstopped (past ++ [happening]) ⊆ unstopped past)
    (streams : after.streams = watch.streams) (same : after.Streams ↔ watch.Streams)
    (inOrder : ∀ since missed, HoldsOn past watch since missed → ∃ missed,
      producedBy watch.streams (since ++ [happening]) =
        dispatchedIn (since ++ [happening]) ++ (eventsAmong after.queue ++ missed) ∧
      (after.stopped = false → missed = [])) :
    Fits (past ++ [happening]) after := by
  constructor
  · exact fits.admissible.snoc admitted
  · intro stream among
    rw [streams]
    rcases List.mem_append.mp among with earlier | now
    · exact fits.numbered stream earlier
    · exact absurd (List.mem_singleton.mp now).symm (unopened stream)
  · intro away
    have none := fits.away fun within => away (same.mpr within)
    exact List.eq_nil_of_subset_nil (none ▸ fewer)
  · intro within
    obtain ⟨since, missed, holds⟩ := fits.within (same.mp within)
    obtain ⟨missed, split, complete⟩ := inOrder since missed holds
    refine ⟨since ++ [happening], missed, ?_⟩
    constructor
    · rw [streams]
      exact holds.newest.snoc unopened
    · intro stream left
      rw [streams]
      exact holds.alone stream (fewer left)
    · rw [streams, split]
    · exact complete

/-- What a stream produces comes behind the rest, or it is missed. -/
theorem Fits.post (stream : Nat) (item : Item) :
    Fits (past ++ watch.eventOf (.post stream item)) (watch.post stream item) := by
  have streams : (watch.post stream item).streams = watch.streams := by
    rw [post_eq]
    split <;> rfl
  have same : (watch.post stream item).Streams ↔ watch.Streams := by
    rw [post_eq]
    split <;> rfl
  have stopped : (watch.post stream item).stopped = watch.stopped := by
    rw [post_eq]
    split <;> rfl
  have eventless (noEvent : eventsAmong [item.arriving watch.stopped] = [])
      (none : watch.eventOf (.post stream item) = []) :
      Fits (past ++ watch.eventOf (.post stream item)) (watch.post stream item) := by
    rw [none, List.append_nil]
    refine fits.recast streams same ?_ (stopped ▸ id)
    rw [post_eq]
    split
    · rfl
    · rw [eventsAmong_append, noEvent, List.append_nil]
  cases item with
  | event event =>
    refine fits.happens trivial nofun (by simp) streams same ?_
    intro since missed holds
    have undispatched : dispatchedIn [.produced stream event] = [] := rfl
    rw [producedBy_append, dispatchedIn_append, undispatched, List.append_nil, holds.inOrder,
      stopped, post_eq]
    by_cases newest : stream = watch.streams
    · have brought : producedBy watch.streams [.produced stream event] = [event] := by
        simp [producedBy, newest]
      rw [if_neg (not_not_intro newest), brought]
      cases running : watch.stopped with
      | true => exact ⟨missed ++ [event], by simp [Item.arriving, eventsAmong], nofun⟩
      | false =>
        obtain rfl := holds.complete running
        exact ⟨[], by simp [Item.arriving, eventsAmong], fun _ => rfl⟩
    · have nothing : producedBy watch.streams [.produced stream event] = [] := by
        simp [producedBy, newest]
      rw [if_pos newest, nothing]
      exact ⟨missed, by simp, holds.complete⟩
  | failed cause => exact eventless rfl rfl
  | ended => exact eventless rfl rfl
  | stopped => exact eventless rfl rfl

/-- A stop stops the newest stream, if there was one. What it produces from then on is missed. -/
theorem Fits.stop : Fits (past ++ told (watch.stop plan).2) (watch.stop plan).1 := by
  cases stopped : watch.stopped with
  | true =>
    rw [stop_of_stopped plan watch stopped]
    simpa using fits
  | false =>
    have after := stop_of_running plan stopped watch.queue
    have queue : eventsAmong (watch.queue ++ [.stopped]) = eventsAmong watch.queue := by
      simp [eventsAmong]
    by_cases first : watch.streams = 0
    · have silent : told (watch.stop plan).2 = [] := by simp [after, first, told, Effect.happening?]
      rw [silent, List.append_nil, after]
      exact fits.recast rfl Iff.rfl queue nofun
    · have stops : told (watch.stop plan).2 = [.stopped watch.streams] := by
        simp [after, first, told, Effect.happening?]
      rw [stops, after]
      refine fits.happens trivial nofun ?_ rfl Iff.rfl ?_
      · rw [unstopped_stopped]
        exact List.filter_subset_self _
      · intro since missed holds
        refine ⟨missed, ?_, nofun⟩
        have unproduced : producedBy watch.streams [.stopped watch.streams] = [] := rfl
        have undispatched : dispatchedIn [.stopped watch.streams] = [] := rfl
        rw [producedBy_append, dispatchedIn_append, unproduced, undispatched, holds.inOrder, queue]
        simp

/-- The event that is taken from the queue is the first one that its stream has produced and that
    has not been worked off. -/
theorem Fits.take (streaming : watch.phase = .streaming) {item : Item} {later : List Item}
    (queue : watch.queue = item :: later) :
    Fits (past ++ watch.eventOf .take) { watch with queue := later } := by
  have eventless (noEvent : eventsAmong [item] = []) (none : watch.eventOf .take = []) :
      Fits (past ++ watch.eventOf .take) { watch with queue := later } := by
    have events : eventsAmong watch.queue = eventsAmong later := by
      rw [queue, ← List.singleton_append, eventsAmong_append, noEvent, List.nil_append]
    rw [none, List.append_nil]
    exact fits.recast rfl Iff.rfl events.symm id
  cases item with
  | event event =>
    have dispatches : watch.eventOf .take = [.dispatched event] := by
      simp only [eventOf, streaming, queue]
    have events : eventsAmong watch.queue = event :: eventsAmong later := by
      rw [queue]
      rfl
    rw [dispatches]
    refine fits.happens ?_ nofun (by simp) rfl Iff.rfl ?_
    · obtain ⟨since, missed, holds⟩ := fits.within (.inl streaming)
      refine ⟨watch.streams, since, holds.newest, eventsAmong later ++ missed, ?_⟩
      rw [holds.inOrder, events]
      simp
    · intro since missed holds
      refine ⟨missed, ?_, holds.complete⟩
      have unproduced : producedBy watch.streams [.dispatched event] = [] := rfl
      have dispatched : dispatchedIn [.dispatched event] = [event] := rfl
      rw [producedBy_append, dispatchedIn_append, unproduced, dispatched, holds.inOrder, events]
      simp
  | failed cause => exact eventless rfl (by simp only [eventOf, streaming, queue])
  | ended => exact eventless rfl (by simp only [eventOf, streaming, queue])
  | stopped => exact eventless rfl (by simp only [eventOf, streaming, queue])

/-- What has happened fits the watch after every move. -/
theorem Fits.step (move : Move) :
    Fits (past ++ watch.happenings plan move) (watch.step plan move).1 := by
  have onward (kept : Fits (past ++ watch.eventOf move ++ told (watch.step plan move).2)
      (watch.step plan move).1) :
      Fits (past ++ watch.happenings plan move) (watch.step plan move).1 := by
    simpa only [happenings, List.append_assoc] using kept.endOf watch
  have still (none : watch.eventOf move = []) (same : watch.step plan move = (watch, [])) :
      Fits (past ++ watch.eventOf move ++ told (watch.step plan move).2)
        (watch.step plan move).1 := by
    rw [none, same]
    simpa using fits
  apply onward
  by_cases isBlind : move.isBlind = true
  · rcases passes_step plan isBlind with passes | unawaited
    · rw [eventOf_of_isBlind watch isBlind, List.append_nil]
      exact fits.turns passes.turns
    · exact still (eventOf_of_isBlind watch isBlind) unawaited
  cases move with
  | stop =>
    have stopped := fits.stop plan
    rwa [show watch.eventOf .stop = [] from rfl, List.append_nil]
  | post stream item =>
    have posted := fits.post stream item
    rwa [show told (watch.step plan (.post stream item)).2 = [] from rfl, List.append_nil]
  | take =>
    cases phase : watch.phase with
    | streaming =>
      cases queue : watch.queue with
      | nil =>
        exact still (by simp only [eventOf, phase, queue]) (step_take_of_empty plan phase queue)
      | cons item later =>
        rw [step_take plan phase queue]
        have within : ({ watch with queue := later } : Watch).Streams := .inl phase
        exact (fits.take phase queue).turns (passes_takeItem within item).turns
    | _ => exact still (by simp only [eventOf, phase]) (by simp only [Watch.step, phase])
  | _ => exact absurd rfl isBlind

end

/-- Before the first move nothing has happened. -/
theorem fits_start : Fits [] ({} : Watch) := by
  have away : ¬({} : Watch).Streams := Parked.not_streams (.inl rfl)
  constructor
  · intro past happening future split
    simp at split
  · simp
  · exact fun _ => rfl
  · exact fun within => absurd within away

/-- What has happened during a run fits the watch after it. -/
theorem fits_run (moves : List Move) :
    Fits (({} : Watch).chronicle plan moves) (({} : Watch).run plan moves).1 := by
  induction moves using List.reverseRecOn with
  | nil => exact fits_start
  | append_singleton front move inductionHypothesis =>
    rw [run, Machine.run_append, Machine.run_single, chronicle, Machine.trace_append,
      Machine.trace_single]
    exact inductionHypothesis.step plan move

/-- A watch that keeps a queue for every stream, since the streams that it has left may still bring
    something. -/
structure Switchboard where
  watch : Watch := {}
  queues : Nat → List Item := fun _ => []

namespace Switchboard

/-- The watch at the queue of its newest stream. -/
def connected (board : Switchboard) : Watch :=
  { board.watch with queue := board.queues board.watch.streams }

/-- What a stream brings comes into its own queue, whichever stream it is. Everything else is done
    at the queue of the newest stream, and a new stream gets a new queue. -/
def step (board : Switchboard) : Move → Switchboard × List Effect
  | .post stream item =>
    let queue := board.queues stream ++ [item.arriving board.watch.stopped]
    ({ board with queues := Function.update board.queues stream queue }, [])
  | move =>
    let (watch, effects) := board.connected.step plan move
    (⟨watch, Function.update board.queues watch.streams watch.queue⟩, effects)

/-- The switchboard after some moves, and all that its watch has asked for. -/
abbrev run (board : Switchboard) (moves : List Move) : Switchboard × List Effect :=
  Machine.run (step plan) board moves

/-- A queue that has been left makes no difference to any move. -/
theorem step_connected (board : Switchboard) (move : Move) :
    ((board.step plan move).1.connected, (board.step plan move).2) =
      board.connected.step plan move := by
  cases move with
  | post stream item =>
    have posted : board.connected.step plan (.post stream item) =
        (board.connected.post stream item, []) := rfl
    rw [posted, post_eq]
    by_cases newest : stream = board.watch.streams
    · subst newest
      simp [step, connected]
    · simp [step, connected, newest, Function.update_of_ne (Ne.symm newest)]
  | _ => simp [step, connected]

/-- A switchboard and a watch with one queue do the same. -/
theorem run_connected (board : Switchboard) (moves : List Move) :
    ((board.run plan moves).1.connected, (board.run plan moves).2) =
      board.connected.run plan moves := by
  induction moves generalizing board with
  | nil => rfl
  | cons move moves inductionHypothesis =>
    have first := step_connected plan board move
    have later := inductionHypothesis (board.step plan move).1
    rw [Watch.run, Machine.run_cons, ← first, ← Watch.run, ← later, run, Machine.run_cons]

end Switchboard

/-- In every run each stream has been stopped when another one is opened and when the watch ends,
    and what is worked off is what the newest stream has produced, in order and once. Streams that
    have been left may bring what they like into queues of their own: the watch does the same with
    all these queues as with the one of its newest stream. -/
theorem streams_kept_apart (moves : List Move) :
    Admissible (({} : Watch).chronicle plan moves) ∧
      ((({} : Switchboard).run plan moves).1.connected, (({} : Switchboard).run plan moves).2) =
        ({} : Watch).run plan moves :=
  ⟨(fits_run plan moves).admissible, Switchboard.run_connected plan {} moves⟩

/-- A version expires, and the stream that has been left brings one more event before the next one
    is opened and one afterwards. -/
example :
    let plan : Plan := ⟨⟨.gameServer, "default", "gs"⟩, none⟩
    let answer : Json := .object [("metadata", .object [("resourceVersion", .string "1")])]
    let event (type : String) : Json := .object [("type", .string type)]
    ({} : Watch).chronicle plan [.proceed, .listed (.ok answer), .post 1 (.event (event "A")),
        .take, .post 1 (.failed (.api (some 410) none)), .take, .post 1 (.event (event "B")),
        .proceed, .listed (.ok answer), .post 1 (.event (event "C")),
        .post 2 (.event (event "D")), .take, .stop, .take, .proceed] =
      [.opened 1, .produced 1 (event "A"), .dispatched (event "A"), .stopped 1,
        .produced 1 (event "B"), .opened 2, .produced 1 (event "C"), .produced 2 (event "D"),
        .dispatched (event "D"), .stopped 2, .stopped 2, .ended] :=
  rfl

end GameSidecar.Watch
