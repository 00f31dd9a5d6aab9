import GameSidecar.Proofs.Edge
import GameSidecar.Proofs.Queueing

/-!
# Handlers that fail

Whether a handler fails makes no difference to its watch, as long as it stops the watch at the same
updates. Two runs with one server are compared here. The server answers by the calls that it has
got, and its streams bring one item after the other. When they bring them, and when the handlers
come to their ends, is left open and may differ between the two runs, since a handler that fails may
take more time or less.

Such a run has one course. What a watch does next is known from what the server has been asked and
what has been delivered: a queue only holds items that the watch takes later, in the same order. So
of two runs one may be ahead of the other, but they do not part.
-/

namespace GameSidecar.Watch

/-- An API server: how it answers its last call if that is a list call, and what the stream of that
    call brings, item by item, both by all calls that it has got. -/
structure Server where
  answer : List Call → Except Cause Json
  item? : List Call → Nat → Option Item

/-- What a handler does about an update: whether it stops the watch, and what it fails with, if it
    does. -/
structure Conduct (ε : Type) where
  stops : Bool
  failure? : Option ε

/-- A handler: what it does about the last one of all updates so far. -/
abbrev Handler (ε : Type) :=
  List (Json × Json) → Conduct ε

/-- A watch between its server and its handler, with the calls that it has made, the updates that it
    has delivered, and how many items its newest stream has brought. -/
structure Scene where
  watch : Watch := {}
  calls : List Call := []
  updates : List (Json × Json) := []
  brought : Nat := 0

/-- Whose turn it is. -/
inductive Turn
  | watch
  | server
  | handler
  deriving Repr, DecidableEq

namespace Scene

variable (plan : Plan) (server : Server) {ε : Type} (shown : ε → String) (handler : Handler ε)

/-- The move that is made in a turn, if there is one to make. A handler that stops the watch does so
    before it comes to its end. -/
def move? (scene : Scene) (turn : Turn) : Option Move :=
  match turn, scene.watch.phase with
  | .watch, .ready => some .proceed
  | .watch, .streaming => some .take
  | .watch, .sleeping => some .slept
  | .watch, _ => none
  | .server, .listing => some (.listed (server.answer scene.calls))
  | .server, _ => (server.item? scene.calls scene.brought).map (.post scene.watch.streams)
  | .handler, .delivering _ _ _ =>
    let conduct := handler scene.updates
    if conduct.stops && !scene.watch.stopped then some .stop
    else some (.handled (conduct.failure?.map shown))
  | .handler, _ => none

/-- The scene after the watch has come to an outcome, with some more items brought. A new stream has
    brought nothing yet. -/
def after (scene : Scene) (outcome : Watch × List Effect) (more : Nat) : Scene where
  watch := outcome.1
  calls := scene.calls ++ Watch.calls outcome.2
  updates := scene.updates ++ deliveries outcome.2
  brought := if outcome.1.streams = scene.watch.streams then scene.brought + more else 0

/-- How many items a move brings. -/
def brings : Move → Nat
  | .post _ _ => 1
  | _ => 0

/-- A turn of a scene. -/
def step (scene : Scene) (turn : Turn) : Scene × List Effect :=
  match scene.move? server shown handler turn with
  | none => (scene, [])
  | some move =>
    let outcome := scene.watch.step plan move
    (scene.after outcome (brings move), outcome.2)

/-- What a watch has come to and asked for after some turns from its start. -/
def outcome (turns : List Turn) : Watch × List Effect :=
  let reached := Machine.run (step plan server shown handler) {} turns
  (reached.1.watch, reached.2)

/-- What a watch does next, apart from the queue, if it does anything before something else
    happens. It takes the next item from its stream, and no handler fails. -/
def next? (stops : List (Json × Json) → Bool) (scene : Scene) : Option (Watch × List Effect) :=
  match scene.watch.phase with
  | .ready => some (scene.watch.step plan .proceed)
  | .sleeping => some (scene.watch.step plan .slept)
  | .listing => some (scene.watch.step plan (.listed (server.answer scene.calls)))
  | .streaming =>
    (server.item? scene.calls scene.brought).map fun item => scene.watch.takeItem plan item
  | .delivering _ _ _ =>
    if stops scene.updates && !scene.watch.stopped then some (scene.watch.step plan .stop)
    else some (scene.watch.step plan (.handled none))
  | .ended _ => none

/-- How many items are taken with that. -/
def takes (scene : Scene) : Nat :=
  match scene.watch.phase with
  | .streaming => 1
  | _ => 0

/-- The course of a scene goes on with what the watch does next. -/
def advance (stops : List (Json × Json) → Bool) (course : Scene) (_ : Unit) :
    Scene × List Effect :=
  match course.next? plan server stops with
  | none => (course, [])
  | some outcome => (course.after outcome course.takes, outcome.2)

/-- The course after some steps. -/
abbrev advanceBy (stops : List (Json × Json) → Bool) (course : Scene) (count : Nat) :
    Scene × List Effect :=
  Machine.run (advance plan server stops) course (List.replicate count ())

/-- A queue holds what a stream brings from one number on up to another one. -/
def Holds (item? : Nat → Option Item) : (first : Nat) → List Item → (last : Nat) → Prop
  | first, [], last => first = last
  | first, item :: later, last => item? first = some item ∧ Holds item? (first + 1) later last

/-- A scene has come as far as a course: the two watches differ in their queues only, they have made
    the same calls and delivered the same updates, and the queue holds what the stream has brought
    since the last item that was taken. -/
structure Level (scene course : Scene) : Prop where
  same : scene.watch = { course.watch with queue := scene.watch.queue }
  calls : scene.calls = course.calls
  updates : scene.updates = course.updates
  running : course.watch.phase = .streaming → course.watch.stopped = false
  holds : course.watch.Attends →
    Holds (server.item? course.calls) course.brought scene.watch.queue scene.brought

/-- What a scene has come to, and what a course has. They are level, and have asked for the same. -/
structure Follows (outcome course : Scene × List Effect) : Prop where
  level : Level server outcome.1 course.1
  effects : unlogged outcome.2 = unlogged course.2

variable {plan server shown handler} {stops : List (Json × Json) → Bool} {scene course : Scene}

/-- At first a scene and a course are level. -/
theorem level_start : Level server {} {} := by
  refine ⟨rfl, rfl, rfl, nofun, fun attends => ?_⟩
  rcases attends.2 with phase | ⟨_, _, phase⟩ <;> cases phase

/-- One more item comes behind those that a queue holds. -/
theorem Holds.snoc {item? : Nat → Option Item} {first last : Nat} {queue : List Item}
    (holds : Holds item? first queue last) {item : Item} (next : item? last = some item) :
    Holds item? first (queue ++ [item]) (last + 1) := by
  induction queue generalizing first with
  | nil =>
    obtain rfl : first = last := holds
    exact ⟨next, rfl⟩
  | cons earlier queue inductionHypothesis =>
    exact ⟨holds.1, inductionHypothesis holds.2⟩

/-- Level watches wait for the same. -/
theorem Level.phase (level : Level server scene course) :
    scene.watch.phase = course.watch.phase := by
  rw [level.same]

/-- A scene and a course come to outcomes that differ in the queue only. -/
theorem level_after {outcome other : Watch × List Effect} {few more : Nat}
    (calls : scene.calls = course.calls) (updates : scene.updates = course.updates)
    (same : outcome.1 = { other.1 with queue := outcome.1.queue }) (effects : outcome.2 = other.2)
    (running : other.1.phase = .streaming → other.1.stopped = false)
    (holds : other.1.Attends → Holds (server.item? (course.after other more).calls)
      (course.after other more).brought outcome.1.queue (scene.after outcome few).brought) :
    Level server (scene.after outcome few) (course.after other more) := by
  refine ⟨same, ?_, ?_, running, holds⟩
  · rw [after, after, calls, effects]
  · rw [after, after, updates, effects]

/-- What is done without a look at the queue brings a scene and a course to the same. Some items may
    have been taken before. -/
theorem level_act {queue : List Item} {more : Nat}
    (same : scene.watch = { course.watch with queue := queue })
    (calls : scene.calls = course.calls) (updates : scene.updates = course.updates)
    (holds : course.watch.Attends →
      Holds (server.item? course.calls) (course.brought + more) queue scene.brought)
    {act : Watch → Watch × List Effect} (blind : Blind course.watch act) :
    Level server (scene.after (act scene.watch) 0) (course.after (act course.watch) more) ∧
      (act scene.watch).2 = (act course.watch).2 := by
  have streams : scene.watch.streams = course.watch.streams := by rw [same]
  cases blind with
  | parks steady leaves idle =>
    have done := steady.same queue
    rw [← same] at done
    rw [done]
    refine ⟨level_after calls updates rfl rfl (fun streaming => absurd streaming idle) ?_, rfl⟩
    exact fun attends => absurd attends leaves
  | stays steady attends uncalled =>
    have done := steady.same queue
    rw [← same] at done
    rw [done]
    refine ⟨level_after calls updates rfl rfl (fun _ => steady.stopped.trans attends.1) ?_, rfl⟩
    intro _
    simp only [after, steady.streams, streams, if_true, uncalled, List.append_nil, Nat.add_zero]
    exact holds attends
  | opens running unseen empty opened stopped =>
    have done := unseen queue
    rw [← same] at done
    rw [done]
    refine ⟨level_after calls updates rfl rfl (fun _ => stopped) ?_, rfl⟩
    intro _
    -- Both count from zero again, as the new stream has brought nothing yet.
    have another : ¬course.watch.streams + 1 = course.watch.streams := by omega
    simp only [after, opened, streams, if_neg another, empty]
    rfl

/-- An outcome of which nothing but log lines is other leads to the same scene. -/
theorem after_congr {outcome other : Watch × List Effect} (same : outcome.1 = other.1)
    (effects : unlogged outcome.2 = unlogged other.2) (more : Nat) :
    scene.after outcome more = scene.after other more := by
  have called := congrArg Watch.calls effects
  have delivered := congrArg deliveries effects
  rw [calls_unlogged, calls_unlogged] at called
  rw [deliveries_unlogged, deliveries_unlogged] at delivered
  rw [after, after, same, called, delivered]

/-- A move that does nothing leaves the scene as it is. -/
theorem after_still : scene.after (scene.watch, []) 0 = scene := by
  simp [after]

/-- A move that neither looks at the queue nor adds to it. -/
theorem Level.move (level : Level server scene course) {move : Move}
    (isBlind : move.isBlind = true) :
    Level server (scene.after (scene.watch.step plan move) 0)
        (course.after (course.watch.step plan move) 0) ∧
      (scene.watch.step plan move).2 = (course.watch.step plan move).2 := by
  rcases blind_step plan isBlind with blind | still
  · exact level_act level.same level.calls level.updates level.holds blind
  · have own : course.watch.step plan move = (course.watch, []) := still course.watch.queue
    have too : scene.watch.step plan move = (scene.watch, []) := by
      rw [level.same]
      exact still scene.watch.queue
    rw [own, too, after_still, after_still]
    exact ⟨level, rfl⟩

/-- Lines in front of what a watch goes on with make no difference to it. -/
theorem resume_lines (watch : Watch) (lines : List Line) (next : Continuation) :
    (watch.resume plan lines next).1 = (watch.resume plan [] next).1 ∧
      unlogged (watch.resume plan lines next).2 = unlogged (watch.resume plan [] next).2 := by
  cases next with
  | streaming =>
    simp only [resume, stayOrLeave]
    split
    · exact ⟨rfl, by simp [leave]⟩
    · exact ⟨rfl, by simp⟩
  | listing listing => exact ⟨rfl, by simp [resume]⟩

/-- Whatever a handler fails with, its watch goes on in the same way. -/
theorem step_handled (watch : Watch) (failure : Option String) :
    (watch.step plan (.handled failure)).1 = (watch.step plan (.handled none)).1 ∧
      unlogged (watch.step plan (.handled failure)).2 =
        unlogged (watch.step plan (.handled none)).2 := by
  cases phase : watch.phase with
  | delivering old new next =>
    simp only [Watch.step, phase]
    exact resume_lines watch _ next
  | _ =>
    have still (failure : Option String) : watch.step plan (.handled failure) = (watch, []) := by
      simp only [Watch.step, phase]
    rw [still, still]
    exact ⟨rfl, rfl⟩

/-- A handler stops its watch, which takes nothing from its queue after that. -/
theorem Level.stop (level : Level server scene course) (running : course.watch.stopped = false)
    (other : course.watch.phase ≠ .streaming) :
    Level server (scene.after (scene.watch.step plan .stop) 0)
        (course.after (course.watch.step plan .stop) 0) ∧
      (scene.watch.step plan .stop).2 = (course.watch.step plan .stop).2 := by
  have own := stop_of_running plan running course.watch.queue
  have too := stop_of_running plan running scene.watch.queue
  rw [← level.same] at too
  rw [Watch.step, Watch.step, own, too]
  refine ⟨level_after level.calls level.updates rfl rfl ?_ ?_, rfl⟩
  · exact fun streaming => absurd streaming other
  · rintro ⟨unstopped, -⟩
    cases unstopped

/-- As long as the watch is not stopped its stream brings what it is sent. -/
theorem arriving_of_running (item : Item) : item.arriving false = item := by
  cases item <;> rfl

/-- What the newest stream brings does not bring the watch any further. -/
theorem Level.post (level : Level server scene course) {item : Item}
    (next : server.item? scene.calls scene.brought = some item) :
    Level server (scene.after (scene.watch.step plan (.post scene.watch.streams item)) 1)
      course := by
  have posted : scene.watch.step plan (.post scene.watch.streams item) =
      ({ scene.watch with queue := scene.watch.queue ++ [item.arriving scene.watch.stopped] },
        []) := by
    simp only [Watch.step, post_eq, ne_eq, not_true_eq_false, if_false]
  have stopped : scene.watch.stopped = course.watch.stopped := by rw [level.same]
  rw [posted]
  refine ⟨?_, ?_, ?_, level.running, fun attends => ?_⟩
  · simp only [after]
    rw [level.same]
  · simp only [after, calls_nil, List.append_nil, level.calls]
  · simp only [after, deliveries_nil, List.append_nil, level.updates]
  · have arrives : item.arriving scene.watch.stopped = item := by
      rw [stopped, show course.watch.stopped = false from attends.1, arriving_of_running]
    simp only [after, if_true, arrives]
    rw [level.calls] at next
    exact (level.holds attends).snoc next

/-- A turn that is of no use. -/
theorem step_of_none {turn : Turn} (none : scene.move? server shown handler turn = none) :
    scene.step plan server shown handler turn = (scene, []) := by
  rw [step, none]

/-- A turn of a scene is a move of its watch. -/
theorem step_of_some {turn : Turn} {move : Move}
    (some : scene.move? server shown handler turn = some move) :
    scene.step plan server shown handler turn =
      (scene.after (scene.watch.step plan move) (brings move), (scene.watch.step plan move).2) := by
  rw [step, some]

/-- A course advances by what its watch waits for. -/
theorem advance_of_some {outcome : Watch × List Effect}
    (next : course.next? plan server stops = some outcome) :
    course.advance plan server stops () = (course.after outcome course.takes, outcome.2) := by
  rw [advance, next]

/-- The turn that a watch waits for, unless it waits for an item or for nothing. -/
def due? : Phase → Option Turn
  | .ready | .sleeping => some .watch
  | .listing => some .server
  | .delivering _ _ _ => some .handler
  | .streaming | .ended _ => none

/-- What a watch does without a look at its queue, it does on its course as well. -/
theorem Level.follows_move (level : Level server scene course) {turn : Turn} {move : Move}
    (isBlind : move.isBlind = true) (made : scene.move? server shown handler turn = some move)
    (next : course.next? plan server stops = some (course.watch.step plan move))
    (taken : course.takes = 0) :
    Follows server (scene.step plan server shown handler turn)
      (course.advance plan server stops ()) := by
  have brought : brings move = 0 := by
    cases move with
    | post stream item => cases isBlind
    | _ => rfl
  obtain ⟨after, effects⟩ := @Level.move plan _ _ _ level _ isBlind
  rw [step_of_some made, advance_of_some next, brought, taken]
  exact ⟨after, congrArg unlogged effects⟩

/-- A handler stops the watch, or comes to its end. What it fails with makes no difference. -/
theorem Level.follows_handler (level : Level server scene course)
    (conducts : ∀ updates, (handler updates).stops = stops updates) {old new : Json}
    {resumption : Continuation} (delivering : course.watch.phase = .delivering old new resumption) :
    Follows server (scene.step plan server shown handler .handler)
      (course.advance plan server stops ()) := by
  have phase : scene.watch.phase = .delivering old new resumption :=
    level.phase.trans delivering
  have taken : course.takes = 0 := by simp only [takes, delivering]
  have asked : ((handler scene.updates).stops && !scene.watch.stopped) =
      (stops course.updates && !course.watch.stopped) := by
    rw [conducts, level.updates, level.same]
  cases stopping : stops course.updates && !course.watch.stopped with
  | true =>
    have made : scene.move? server shown handler .handler = some .stop := by
      simp only [move?, phase, asked, stopping, if_true]
    have next : course.next? plan server stops = some (course.watch.step plan .stop) := by
      simp only [next?, delivering, stopping, if_true]
    have running : course.watch.stopped = false := by simp_all
    obtain ⟨after, effects⟩ := @Level.stop plan _ _ _ level running (by simp [delivering])
    rw [step_of_some made, advance_of_some next, taken]
    exact ⟨after, congrArg unlogged effects⟩
  | false =>
    obtain ⟨failure, made⟩ : ∃ failure,
        scene.move? server shown handler .handler = some (.handled failure) := by
      simp only [move?, phase, asked, stopping, Bool.false_eq_true, if_false]
      exact ⟨_, rfl⟩
    have next : course.next? plan server stops =
        some (course.watch.step plan (.handled none)) := by
      simp only [next?, delivering, stopping, Bool.false_eq_true, if_false]
    -- The handler may fail here, while on the course no handler does.
    obtain ⟨same, quiet⟩ := @step_handled plan scene.watch failure
    obtain ⟨after, effects⟩ := @Level.move plan _ _ _ level (.handled none) rfl
    rw [step_of_some made, advance_of_some next, taken, after_congr same quiet]
    exact ⟨after, quiet.trans (congrArg unlogged effects)⟩

/-- The turn that is waited for brings a scene on with its course. -/
theorem Level.follows_due (level : Level server scene course)
    (conducts : ∀ updates, (handler updates).stops = stops updates) {turn : Turn}
    (due : due? course.watch.phase = some turn) :
    Follows server (scene.step plan server shown handler turn)
      (course.advance plan server stops ()) := by
  have phase := level.phase
  cases waits : course.watch.phase with
  | ready =>
    rw [waits] at phase due
    obtain rfl := Option.some.inj due
    have made : scene.move? server shown handler .watch = some .proceed := by
      simp only [move?, phase]
    exact level.follows_move rfl made (by simp only [next?, waits]) (by simp only [takes, waits])
  | sleeping =>
    rw [waits] at phase due
    obtain rfl := Option.some.inj due
    have made : scene.move? server shown handler .watch = some .slept := by
      simp only [move?, phase]
    exact level.follows_move rfl made (by simp only [next?, waits]) (by simp only [takes, waits])
  | listing =>
    rw [waits] at phase due
    obtain rfl := Option.some.inj due
    have made : scene.move? server shown handler .server =
        some (.listed (server.answer course.calls)) := by
      simp only [move?, phase, level.calls]
    exact level.follows_move rfl made (by simp only [next?, waits]) (by simp only [takes, waits])
  | delivering old new next =>
    rw [waits] at due
    obtain rfl := Option.some.inj due
    exact level.follows_handler conducts waits
  | streaming =>
    rw [waits] at due
    cases due
  | ended ending =>
    rw [waits] at due
    cases due

/-- A watch takes an item that its stream has brought. -/
theorem Level.follows_take (level : Level server scene course)
    (streaming : course.watch.phase = .streaming) {item : Item} {later : List Item}
    (queue : scene.watch.queue = item :: later) :
    Follows server (scene.step plan server shown handler .watch)
      (course.advance plan server stops ()) := by
  have phase : scene.watch.phase = .streaming := level.phase.trans streaming
  have holds := level.holds ⟨level.running streaming, .inl streaming⟩
  rw [queue] at holds
  have made : scene.move? server shown handler .watch = some .take := by
    simp only [move?, phase]
  have next : course.next? plan server stops = some (course.watch.takeItem plan item) := by
    simp only [next?, streaming, holds.1, Option.map_some]
  have taken : course.takes = 1 := by simp only [takes, streaming]
  let popped : Scene := { scene with watch := { scene.watch with queue := later } }
  have same : popped.watch = { course.watch with queue := later } := by
    simp only [popped]
    rw [level.same]
  have blind := @blind_takeItem plan course.watch streaming item
  obtain ⟨after, effects⟩ :=
    level_act same level.calls level.updates (fun _ => holds.2) blind
  rw [step_of_some made, advance_of_some next, taken, step_take plan phase queue]
  exact ⟨after, congrArg unlogged effects⟩

/-- A turn brings a scene on with its course, or leaves it where it is. -/
theorem Level.follows_turn (level : Level server scene course)
    (conducts : ∀ updates, (handler updates).stops = stops updates) (turn : Turn) :
    Follows server (scene.step plan server shown handler turn) (course, []) ∨
      Follows server (scene.step plan server shown handler turn)
        (course.advance plan server stops ()) := by
  have phase := level.phase
  have useless (none : scene.move? server shown handler turn = none) :
      Follows server (scene.step plan server shown handler turn) (course, []) := by
    rw [step_of_none none]
    exact ⟨level, rfl⟩
  by_cases due : due? course.watch.phase = some turn
  · exact .inr (level.follows_due conducts due)
  -- Nothing else gets the course on but an item that the watch finds in its queue.
  rw [← phase] at due
  cases turn with
  | watch =>
    cases waits : scene.watch.phase with
    | streaming =>
      cases queue : scene.watch.queue with
      | nil =>
        have made : scene.move? server shown handler .watch = some .take := by
          simp only [move?, waits]
        have still := step_take_of_empty plan waits queue
        have brought : brings .take = 0 := rfl
        left
        rw [step_of_some made, still, brought, after_still]
        exact ⟨level, rfl⟩
      | cons item later => exact .inr (level.follows_take (phase.symm.trans waits) queue)
    | ready | sleeping => exact absurd (by rw [waits, due?]) due
    | _ => exact .inl (useless (by simp only [move?, waits]))
  | server =>
    left
    have posts : scene.move? server shown handler .server =
        (server.item? scene.calls scene.brought).map (.post scene.watch.streams) := by
      cases waits : scene.watch.phase with
      | listing => exact absurd (by rw [waits, due?]) due
      | _ => simp only [move?, waits]
    cases next : server.item? scene.calls scene.brought with
    | none =>
      rw [next] at posts
      exact useless posts
    | some item =>
      rw [next] at posts
      rw [step_of_some posts]
      exact ⟨level.post next, rfl⟩
  | handler =>
    cases waits : scene.watch.phase with
    | delivering old new next => exact absurd (by rw [waits, due?]) due
    | _ => exact .inl (useless (by simp only [move?, waits]))

/-- A scene can go on with its course by one step. -/
theorem Level.exists_turns_advance (level : Level server scene course)
    (conducts : ∀ updates, (handler updates).stops = stops updates) :
    ∃ more, Follows server (Machine.run (step plan server shown handler) scene more)
      (course.advance plan server stops ()) := by
  have phase := level.phase
  have still (none : course.next? plan server stops = none) :
      ∃ more, Follows server (Machine.run (step plan server shown handler) scene more)
        (course.advance plan server stops ()) := by
    refine ⟨[], ?_⟩
    rw [advance, none]
    exact ⟨level, rfl⟩
  cases due : due? course.watch.phase with
  | some turn =>
    refine ⟨[turn], ?_⟩
    rw [Machine.run_single]
    exact level.follows_due conducts due
  | none =>
    cases waits : course.watch.phase with
    | streaming =>
      cases queue : scene.watch.queue with
      | cons item later =>
        refine ⟨[.watch], ?_⟩
        rw [Machine.run_single]
        exact level.follows_take waits queue
      | nil =>
        have holds := level.holds ⟨level.running waits, .inl waits⟩
        rw [queue] at holds
        have none : course.brought = scene.brought := holds
        cases next : server.item? course.calls course.brought with
        | none => exact still (by simp only [next?, waits, next, Option.map_none])
        | some item =>
          rw [none, ← level.calls] at next
          have made : scene.move? server shown handler .server =
              some (.post scene.watch.streams item) := by
            simp only [move?, phase, waits, next, Option.map_some]
          -- The queue is empty, but the course goes on with this item, so it has to arrive first.
          have arrived : (scene.after
              (scene.watch.step plan (.post scene.watch.streams item)) 1).watch.queue =
                [item.arriving scene.watch.stopped] := by
            simp only [after, Watch.step, post_eq, queue, ne_eq, not_true_eq_false, if_false]
            rfl
          refine ⟨[.server, .watch], ?_⟩
          rw [Machine.run_cons, Machine.run_single, step_of_some made]
          exact (@Level.post plan _ _ _ level _ next).follows_take waits arrived
    | ended ending => exact still (by simp only [next?, waits])
    | _ =>
      rw [waits] at due
      cases due

/-- What follows may come after what has followed before. -/
theorem Follows.after {first second : Scene × List Effect} {other next : Scene × List Effect}
    (before : Follows server first second) (follows : Follows server other next) :
    Follows server (other.1, first.2 ++ other.2) (next.1, second.2 ++ next.2) := by
  refine ⟨follows.level, ?_⟩
  rw [unlogged_append, unlogged_append, before.effects, follows.effects]

/-- A scene comes as far as some steps of its course. -/
theorem Level.exists_count (level : Level server scene course)
    (conducts : ∀ updates, (handler updates).stops = stops updates) (turns : List Turn) :
    ∃ count, Follows server (Machine.run (step plan server shown handler) scene turns)
      (course.advanceBy plan server stops count) := by
  induction turns generalizing scene course with
  | nil => exact ⟨0, level, rfl⟩
  | cons turn turns inductionHypothesis =>
    rcases @follows_turn plan _ _ shown _ _ _ _ level conducts turn with still | onward
    · obtain ⟨count, follows⟩ := inductionHypothesis still.level
      exact ⟨count, still.after follows⟩
    · obtain ⟨count, follows⟩ := inductionHypothesis onward.level
      exact ⟨count + 1, onward.after follows⟩

/-- A scene can go on with its course by any number of steps. -/
theorem Level.exists_turns (level : Level server scene course)
    (conducts : ∀ updates, (handler updates).stops = stops updates) (count : Nat) :
    ∃ more, Follows server (Machine.run (step plan server shown handler) scene more)
      (course.advanceBy plan server stops count) := by
  induction count generalizing scene course with
  | zero => exact ⟨[], level, rfl⟩
  | succ count inductionHypothesis =>
    obtain ⟨first, onward⟩ :=
      @exists_turns_advance plan _ _ shown _ _ _ _ level conducts
    obtain ⟨later, follows⟩ := inductionHypothesis onward.level
    refine ⟨first ++ later, ?_⟩
    rw [Machine.run_append]
    exact onward.after follows

/-- Two scenes that have come as far as one course match. -/
theorem Follows.matches {left right course : Scene × List Effect}
    (one : Follows server left course) (other : Follows server right course) :
    Matches (left.1.watch, left.2) (right.1.watch, right.2) := by
  refine ⟨?_, one.effects.trans other.effects.symm⟩
  change right.1.watch = { left.1.watch with queue := right.1.watch.queue }
  rw [one.level.same]
  exact other.level.same

/-- A course advances by two numbers of steps one after the other. -/
theorem advanceBy_add (course : Scene) (first later : Nat) :
    course.advanceBy plan server stops (first + later) =
      (((course.advanceBy plan server stops first).1.advanceBy plan server stops later).1,
        (course.advanceBy plan server stops first).2 ++
          ((course.advanceBy plan server stops first).1.advanceBy plan server stops later).2) := by
  rw [advanceBy, List.replicate_add, Machine.run_append]

/-- A course that has ended does not go on. -/
theorem advanceBy_of_ended {ending : Ending} (ended : course.watch.phase = .ended ending)
    (count : Nat) : course.advanceBy plan server stops count = (course, []) := by
  have still : course.advance plan server stops () = (course, []) := by
    simp only [advance, next?, ended]
  induction count with
  | zero => rfl
  | succ count inductionHypothesis =>
    rw [advanceBy, List.replicate_succ, Machine.run_cons, still]
    rw [advanceBy] at inductionHypothesis
    rw [inductionHypothesis]
    rfl

/-- Of two runs the one that is behind can go on until it matches the other one, and it matches it
    already if it has ended. -/
theorem catches_up {one other : Handler ε} {turns others : List Turn} {few many : Nat}
    (conducts : ∀ updates, (one updates).stops = stops updates)
    (behind : Follows server (Machine.run (step plan server shown one) {} turns)
      (advanceBy plan server stops {} few))
    (ahead : Follows server (Machine.run (step plan server shown other) {} others)
      (advanceBy plan server stops {} many)) (fewer : few ≤ many) :
    (∃ more, Matches (outcome plan server shown one (turns ++ more))
      (outcome plan server shown other others)) ∧
    ∀ ending, (outcome plan server shown one turns).1.phase = .ended ending →
      Matches (outcome plan server shown one turns) (outcome plan server shown other others) := by
  obtain ⟨count, rfl⟩ := Nat.exists_eq_add_of_le fewer
  rw [advanceBy_add] at ahead
  constructor
  · obtain ⟨more, onward⟩ := @Level.exists_turns plan _ _ shown _ _ _ _ behind.level conducts count
    refine ⟨more, ?_⟩
    have whole := behind.after onward
    simp only [outcome, Machine.run_append]
    exact whole.matches ahead
  · intro ending ended
    have phase : (advanceBy plan server stops {} few).1.watch.phase = .ended ending := by
      rw [outcome, behind.level.same] at ended
      exact ended
    rw [advanceBy_of_ended phase, List.append_nil] at ahead
    exact behind.matches ahead

end Scene

/-- What two watches have come to matches either way. -/
theorem Matches.symm {left right : Watch × List Effect} (matched : Matches left right) :
    Matches right left := by
  refine ⟨?_, matched.effects.symm⟩
  rw [matched.watch]

/-- Two handlers that stop the watch at the same updates lead to the same, whatever each of them
    fails with and wherever it does. Whichever of two runs is behind can go on until the two match:
    they have made the same calls after the same versions, the same waits and the same deliveries,
    and their watches know the same and wait for the same. Two runs that have both ended match. -/
theorem handler_failures_make_no_difference (plan : Plan) (server : Server) {ε : Type}
    (shown : ε → String) {one other : Handler ε}
    (agree : ∀ updates, (one updates).stops = (other updates).stops) (turns others : List Turn) :
    (∃ more,
      Matches (Scene.outcome plan server shown one (turns ++ more))
          (Scene.outcome plan server shown other others) ∨
        Matches (Scene.outcome plan server shown one turns)
          (Scene.outcome plan server shown other (others ++ more))) ∧
    ∀ ending last, (Scene.outcome plan server shown one turns).1.phase = .ended ending →
      (Scene.outcome plan server shown other others).1.phase = .ended last →
        Matches (Scene.outcome plan server shown one turns)
          (Scene.outcome plan server shown other others) := by
  have conducts : ∀ updates, (other updates).stops = (one updates).stops :=
    fun updates => (agree updates).symm
  obtain ⟨first, follows⟩ :=
    @Scene.Level.exists_count plan server _ shown one _ _ _ Scene.level_start (fun _ => rfl) turns
  obtain ⟨second, followsToo⟩ :=
    @Scene.Level.exists_count plan server _ shown other _ _ _ Scene.level_start conducts others
  rcases Nat.le_total first second with fewer | fewer
  · obtain ⟨⟨more, matched⟩, ended⟩ := Scene.catches_up (fun _ => rfl) follows followsToo fewer
    exact ⟨⟨more, .inl matched⟩, fun ending _ closed _ => ended ending closed⟩
  · obtain ⟨⟨more, matched⟩, ended⟩ := Scene.catches_up conducts followsToo follows fewer
    exact ⟨⟨more, .inr matched.symm⟩, fun _ last _ closed => (ended last closed).symm⟩

/-- One update is delivered from a list, after the version has expired, and one from a stream. A
    handler that fails with errors of the API, the first of them for an expired version, leads to
    the same as one that does not fail. -/
theorem handler_failures_make_no_difference_after_expiry :
    let plan : Plan := ⟨⟨.gameServer, "default", "gs"⟩, none⟩
    let server : Server := {
      answer := fun calls =>
        .ok (Reconciler.sampleAnswer "Active" (if calls.length = 1 then "1" else "2"))
      item? := fun calls index =>
        if calls.length = 2 then some (.failed (.api (some 410) none))
        else [Item.event (.object [("type", .string "MODIFIED"),
          ("object", Reconciler.sampleRecord "Active" "3")])][index]? }
    let failing : Handler StoreError := fun updates =>
      if updates.length = 1 then ⟨false, some ⟨"expired", .int 410, .null, false⟩⟩
      else ⟨true, some ⟨"overloaded", .int 503, .null, true⟩⟩
    let calm : Handler StoreError := fun updates => ⟨updates.length ≠ 1, none⟩
    let turns : List Turn := [.watch, .server, .server, .watch, .watch, .server, .handler, .server,
      .watch, .handler, .handler, .watch]
    let others : List Turn := [.watch, .server, .server, .server, .watch, .watch, .server, .watch,
      .handler, .server, .server, .watch, .server, .handler, .server, .handler, .watch, .watch]
    let failed := Scene.outcome plan server StoreError.message failing turns
    (∀ updates, (failing updates).stops = (calm updates).stops) ∧
      deliveries failed.2 =
        [(Reconciler.sampleRecord "Active" "1", Reconciler.sampleRecord "Active" "2"),
          (Reconciler.sampleRecord "Active" "2", Reconciler.sampleRecord "Active" "3")] ∧
      failed.1.phase = .ended .stopped ∧
      Matches failed (Scene.outcome plan server StoreError.message calm others) := by
  intro plan server failing calm turns others failed
  have agree : ∀ updates, (failing updates).stops = (calm updates).stops := by
    intro updates
    by_cases first : updates.length = 1
    · simp [failing, calm, first]
    · simp [failing, calm, first]
  have ended : failed.1.phase = .ended .stopped := by decide +kernel
  have endedToo : (Scene.outcome plan server StoreError.message calm others).1.phase =
      .ended .stopped := by decide +kernel
  refine ⟨agree, by decide +kernel, ended, ?_⟩
  exact (handler_failures_make_no_difference plan server StoreError.message agree turns others).2
    .stopped .stopped ended endedToo

end GameSidecar.Watch
