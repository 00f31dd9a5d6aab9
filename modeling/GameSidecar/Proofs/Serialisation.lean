import GameSidecar.Proofs.Tracking
import Mathlib.Data.List.Nodup

/-!
# Heartbeats that overlap

Each call waits for a lock, compares, sends the patches that are wanted, and gives the lock back
when it ends, well or not. A call is suspended only while it waits for the lock or for the answer to
a patch; what it does in between, nobody disturbs. Which of the calls that wait gets the lock, and
which of the patches that are under way is answered next, is left open.

The lock is looked at in one place only, where a call enters. That no second patch is ever under
way, and that remembering happens under the lock as well, is an invariant of all moves. With it,
every interleaving is the run of a service to which the same heartbeats come one after the other,
in the order in which they got the lock. The service that queues those who wait makes some of these
interleavings.
-/

namespace GameSidecar.Heartbeat

namespace Service

/-- What can happen to the service: a heartbeat arrives, or the patch under way is answered. -/
inductive Move
  | arrive (turn : Turn)
  | complete (outcome : Except StoreError Unit)

/-- Whether a move brings a certain report, or accepts a patch. -/
def Move.Agrees (report : Report) : Move → Prop
  | .arrive turn => turn.report = report
  | .complete outcome => outcome = .ok ()

/-- The service makes a move. -/
def step (service : Service) : Move → Service × List Action
  | .arrive turn => service.arrive turn
  | .complete outcome => service.complete outcome

/-- Whether nothing overlaps in some moves: each heartbeat arrives at a service that nobody holds,
    and each answer is for a patch that is under way. -/
def Serial (service : Service) : List Move → Prop
  | [] => True
  | .arrive turn :: moves => service.holder = none ∧ Serial (service.arrive turn).1 moves
  | .complete outcome :: moves =>
    service.holder.isSome = true ∧ Serial (service.complete outcome).1 moves

/-- The heartbeat that a move brings, if it brings one. -/
def Move.arrival? : Move → Option Turn
  | .arrive turn => some turn
  | .complete _ => none

/-- The heartbeats that arrive in some moves, in order. -/
def arrivals (moves : List Move) : List Turn :=
  moves.filterMap Move.arrival?

/-- After what was done first, some moves are heartbeats that are handled to their ends, in the
    order in which they arrive. -/
def Whole (first : Service × List Action) (moves : List Move)
    (outcome : Service × List Action) : Prop :=
  ∃ beats : List Beat, beats.map Beat.turn = arrivals moves ∧
    outcome = ((Machine.run handle first.1 beats).1,
      first.2 ++ (Machine.run handle first.1 beats).2)

/-- Actions that were taken before make no difference to the heartbeats. -/
theorem Whole.prepend {start : Service × List Action} {moves : List Move}
    {outcome : Service × List Action} (whole : Whole start moves outcome) (first : List Action) :
    Whole (start.1, first ++ start.2) moves (outcome.1, first ++ outcome.2) := by
  obtain ⟨beats, turns, reached⟩ := whole
  exact ⟨beats, turns, by rw [reached, List.append_assoc]⟩

/-- A heartbeat that has arrived is handled before those that follow it. -/
theorem Whole.heartbeat {memory : Memory} {moves : List Move} (beat : Beat)
    {outcome : Service × List Action} (whole : Whole ((idle memory).handle beat) moves outcome) :
    Whole (idle memory, []) (.arrive beat.turn :: moves) outcome := by
  obtain ⟨beats, turns, reached⟩ := whole
  exact ⟨beat :: beats, congrArg (beat.turn :: ·) turns, reached⟩

/-- Moves that do not overlap and leave the service idle are whole heartbeats, if the service is
    idle before them. -/
def WholeFromIdle (moves : List Move) : Prop :=
  ∀ memory, (idle memory).Serial moves →
    (Machine.run step (idle memory) moves).1.holder = none →
      Whole (idle memory, []) moves (Machine.run step (idle memory) moves)

/-- Such moves are whole heartbeats in the middle of one as well, for some answers to its patches:
    those of the moves. -/
def WholeFromHeld (moves : List Move) : Prop :=
  ∀ memory turn aspect rest, memory.wanted turn.report = aspect :: rest →
    (held memory turn aspect).Serial moves →
    (Machine.run step (held memory turn aspect) moves).1.holder = none →
      ∃ answer, Whole ((held memory turn aspect).conclude ⟨turn, answer⟩) moves
        (Machine.run step (held memory turn aspect) moves)

section Whole

variable {moves : List Move} (fromIdle : WholeFromIdle moves) (fromHeld : WholeFromHeld moves)

include fromIdle fromHeld in
/-- A heartbeat arrives at an idle service. It ends at once, or its first patch is sent. -/
theorem whole_arrive (turn : Turn) : WholeFromIdle (.arrive turn :: moves) := by
  intro memory serial free
  have arrives : (idle memory).step (.arrive turn) =
      sendFirst memory turn (memory.wanted turn.report) := arrive_idle
  replace serial : (sendFirst memory turn (memory.wanted turn.report)).1.Serial moves :=
    arrives ▸ serial.2
  rw [Machine.run_cons, arrives] at free ⊢
  cases wanted : memory.wanted turn.report with
  | nil =>
    rw [wanted] at serial free
    apply Whole.heartbeat ⟨turn, fun _ => .ok ()⟩
    rw [handle_nothing _ wanted]
    exact (fromIdle memory serial free).prepend [.finish turn (.ok ())]
  | cons aspect rest =>
    rw [wanted] at serial free
    obtain ⟨answer, whole⟩ := fromHeld memory turn aspect rest wanted serial free
    apply Whole.heartbeat ⟨turn, answer⟩
    rw [handle_wanted _ wanted]
    exact whole.prepend (sending memory turn aspect)

include fromIdle in
/-- A patch is refused, so its heartbeat ends. -/
theorem whole_refused (error : StoreError) : WholeFromHeld (.complete (.error error) :: moves) := by
  intro memory turn aspect rest _ serial free
  have refuses : (held memory turn aspect).complete (.error error) =
      (idle memory, [.finish turn (.error ⟨aspect, error⟩)]) := complete_refused error
  replace serial := refuses ▸ serial.2
  rw [Machine.run_cons, step, refuses] at free ⊢
  refine ⟨fun _ => .error error, ?_⟩
  rw [conclude_refused ⟨turn, fun _ => .error error⟩ rfl]
  exact (fromIdle memory serial free).prepend _

include fromIdle fromHeld in
/-- A patch is accepted. Its heartbeat ends, or the next patch is sent. -/
theorem whole_accepted : WholeFromHeld (.complete (.ok ()) :: moves) := by
  intro memory turn aspect rest first serial free
  have accepts := complete_accepted first
  replace serial := accepts ▸ serial.2
  rw [Machine.run_cons, step, accepts] at free ⊢
  have left := Memory.wanted_accept first
  cases rest with
  | nil =>
    refine ⟨fun _ => .ok (), ?_⟩
    rw [conclude_last ⟨turn, fun _ => .ok ()⟩ first rfl]
    exact (fromIdle _ serial free).prepend [.finish turn (.ok ())]
  | cons next others =>
    obtain ⟨answer, whole⟩ := fromHeld _ turn next others left serial free
    -- the answer to this patch is added to those of the rest
    let answers (other : Aspect) := if other = aspect then .ok () else answer other
    have same : ∀ other ∈ next :: others, answers other = answer other := by
      intro other member
      have distinct : other ≠ aspect := by
        rintro rfl
        exact (List.nodup_cons.mp (first ▸ Memory.nodup_wanted)).1 member
      exact if_neg distinct
    refine ⟨answers, ?_⟩
    rw [conclude_next ⟨turn, answers⟩ first (if_pos rfl), conclude_congr left same]
    exact whole.prepend (sending _ turn next)

end Whole

/-- Moves that do not overlap and leave the service idle are heartbeats that are handled one after
    the other. -/
theorem serial_whole (moves : List Move) : WholeFromIdle moves ∧ WholeFromHeld moves := by
  induction moves with
  | nil =>
    refine ⟨fun memory _ _ => ⟨[], rfl, rfl⟩, ?_⟩
    intro memory turn aspect rest _ _ free
    cases free
  | cons move moves inductionHypothesis =>
    obtain ⟨fromIdle, fromHeld⟩ := inductionHypothesis
    -- An idle service is not answered, and nothing arrives in the middle of a heartbeat.
    match move with
    | .arrive turn =>
      exact ⟨whole_arrive fromIdle fromHeld turn, fun _ _ _ _ _ serial => nomatch serial.1⟩
    | .complete (.error error) =>
      exact ⟨fun _ serial => (nomatch serial.1), whole_refused fromIdle error⟩
    | .complete (.ok ()) =>
      exact ⟨fun _ serial => (nomatch serial.1), whole_accepted fromIdle fromHeld⟩

/-- While all heartbeats report the same, the aspects that are still to be sent. -/
inductive Steady (report : Report) : Service → List Aspect → Prop
  | idle {memory : Memory} : Steady report (idle memory) (memory.wanted report)
  | held {memory : Memory} {turn : Turn} {aspect : Aspect} {rest : List Aspect}
    (same : turn.report = report) (first : memory.wanted report = aspect :: rest) :
    Steady report (held memory turn aspect) rest

/-- An idle service goes on to the first aspect that is wanted, and the rest is left. -/
theorem steady_sendFirst {memory : Memory} {turn : Turn} {wanted : List Aspect}
    (same : memory.wanted turn.report = wanted) :
    ∃ rest, Steady turn.report (sendFirst memory turn wanted).1 rest ∧
      (sent (sendFirst memory turn wanted).2).map Prod.snd ++ rest = wanted := by
  cases wanted with
  | nil =>
    have settled : Steady turn.report (Service.idle memory) [] := same ▸ .idle
    exact ⟨[], settled, rfl⟩
  | cons aspect rest => exact ⟨rest, .held rfl same, rfl⟩

/-- A patch that is sent is the first of those that are still to be sent, if all are accepted. -/
theorem Steady.step {report : Report} {service : Service} {left : List Aspect} {move : Move}
    (steady : Steady report service left) (serial : service.Serial [move])
    (agrees : move.Agrees report) :
    ∃ rest, Steady report (service.step move).1 rest ∧
      (sent (service.step move).2).map Prod.snd ++ rest = left := by
  cases steady with
  | @idle memory =>
    cases move with
    | complete outcome => exact nomatch serial.1
    | arrive turn =>
      obtain rfl : turn.report = report := agrees
      rw [Service.step, arrive_idle]
      exact steady_sendFirst rfl
  | @held memory turn aspect rest same first =>
    cases move with
    | arrive turn => exact nomatch serial.1
    | complete outcome =>
      obtain rfl : outcome = .ok () := agrees
      subst same
      rw [Service.step, complete_accepted first]
      exact steady_sendFirst (Memory.wanted_accept first)

/-- So the patches of a whole run are the first of those that were wanted before it. -/
theorem Steady.run {report : Report} {service : Service} {left : List Aspect} {moves : List Move}
    (steady : Steady report service left) (serial : service.Serial moves)
    (agree : ∀ move ∈ moves, move.Agrees report) :
    (sent (Machine.run Service.step service moves).2).map Prod.snd <+: left := by
  induction moves generalizing service left with
  | nil => simp
  | cons move moves inductionHypothesis =>
    have now : service.Serial [move] ∧ (service.step move).1.Serial moves := by
      cases move <;> exact ⟨⟨serial.1, trivial⟩, serial.2⟩
    obtain ⟨rest, next, first⟩ := steady.step now.1 (agree move List.mem_cons_self)
    have later := inductionHypothesis next now.2 fun later member => agree later (.tail _ member)
    rw [Machine.run_cons, sent_append, List.map_append, ← first]
    exact (List.prefix_append_right_inj _).mpr later

/-- Two runs without overlap are one, if the second goes on from the first. -/
theorem serial_append {service : Service} {front back : List Move} (first : Serial service front)
    (second : Serial (Machine.run step service front).1 back) : Serial service (front ++ back) := by
  induction front generalizing service with
  | nil => exact second
  | cons move front inductionHypothesis =>
    cases move with
    | arrive turn => exact ⟨first.1, inductionHypothesis first.2 second⟩
    | complete outcome => exact ⟨first.1, inductionHypothesis first.2 second⟩

end Service

/-- Calls that overlap: what is remembered, whether the lock is taken, the calls that wait for it,
    and the patches that are under way, each with the call that sent it. -/
structure Calls where
  memory : Memory
  locked : Bool := false
  waiting : List Turn := []
  underway : List (Turn × Aspect) := []

namespace Calls

/-- What can happen: a call comes, one of those that wait gets the lock, or one of the patches that
    are under way is answered. -/
inductive Move
  | call (turn : Turn)
  | enter (place : Nat)
  | answer (place : Nat) (outcome : Except StoreError Unit)

/-- A call goes on: it sends its next patch, or it ends and gives the lock back. -/
def proceed (calls : Calls) (turn : Turn) : Progress → Calls × List Action
  | .sending aspect =>
    ({ calls with underway := calls.underway ++ [(turn, aspect)] },
      Service.sending calls.memory turn aspect)
  | .ended result => ({ calls with locked := false }, [.finish turn result])

/-- A move of the calls. The lock is looked at by a call that enters, and by no other one. What
    cannot happen does nothing. -/
def step (calls : Calls) : Move → Calls × List Action
  | .call turn => ({ calls with waiting := calls.waiting ++ [turn] }, [])
  | .enter place =>
    match calls.locked, calls.waiting[place]? with
    | false, some turn =>
      proceed { calls with locked := true, waiting := calls.waiting.eraseIdx place } turn
        (Progress.start calls.memory turn.report)
    | _, _ => (calls, [])
  | .answer place outcome =>
    match calls.underway[place]? with
    | none => (calls, [])
    | some (turn, aspect) =>
      let (memory, progress) := Progress.resume calls.memory turn.report aspect outcome
      proceed { calls with memory, underway := calls.underway.eraseIdx place } turn progress

/-- What a move is for a service to which heartbeats come one after the other: a heartbeat comes
    when its call gets the lock, and the answers are the same. -/
def counterpart (calls : Calls) : Move → List Service.Move
  | .call _ => []
  | .enter place =>
    if calls.locked then [] else (calls.waiting[place]?.map Service.Move.arrive).toList
  | .answer place outcome =>
    (calls.underway[place]?.map fun _ => Service.Move.complete outcome).toList

/-- The calls around one that may have the lock, and then has a patch under way. -/
def around (memory : Memory) (holder : Option (Turn × Aspect)) (waiting : List Turn) : Calls :=
  ⟨memory, holder.isSome, waiting, holder.toList⟩

/-- What some calls have come to is what a service comes to that makes certain moves, of which none
    overlap. -/
def Alike (memory : Memory) (holder : Option (Turn × Aspect)) (order : List Service.Move)
    (reached : Calls × List Action) : Prop :=
  ∃ after next left, reached.1 = around after next left ∧
    Machine.run Service.step ⟨memory, holder, []⟩ order = (⟨after, next, []⟩, reached.2) ∧
    Service.Serial ⟨memory, holder, []⟩ order

section Alone

variable (memory : Memory) (holder : Option (Turn × Aspect)) (waiting : List Turn)

/-- A call that has the lock goes on as a heartbeat does that is handled alone. -/
theorem proceed_alone (turn : Turn) (progress : Progress) :
    ∃ next actions,
      (⟨memory, true, waiting, []⟩ : Calls).proceed turn progress =
        (around memory next waiting, actions) ∧
      Service.proceed memory turn [] progress = (⟨memory, next, []⟩, actions) := by
  cases progress with
  | sending aspect => exact ⟨some (turn, aspect), _, rfl, rfl⟩
  | ended result => exact ⟨none, _, rfl, rfl⟩

/-- A move of the calls is what its counterpart is for a service that handles one heartbeat after
    the other: a call finds the lock free exactly where that service is idle. -/
theorem step_alone (move : Move) :
    Alike memory holder ((around memory holder waiting).counterpart move)
      ((around memory holder waiting).step move) := by
  -- what cannot happen is no move of the service either
  have nothing : Alike memory holder [] (around memory holder waiting, []) :=
    ⟨memory, holder, waiting, rfl, rfl, trivial⟩
  cases move with
  | call turn => exact ⟨memory, holder, waiting ++ [turn], rfl, rfl, trivial⟩
  | enter place =>
    match holder with
    | some (turn, aspect) => exact nothing
    | none =>
      match found : waiting[place]? with
      | none => simpa [step, counterpart, around, found] using nothing
      | some turn =>
        obtain ⟨next, actions, proceeds, alone⟩ := proceed_alone memory
          (waiting.eraseIdx place) turn (Progress.start memory turn.report)
        have arrives : Service.arrive ⟨memory, none, []⟩ turn = (⟨memory, next, []⟩, actions) :=
          (Service.serve_cons memory turn []).trans alone
        have enters : (around memory none waiting).step (.enter place) =
            (around memory next (waiting.eraseIdx place), actions) := by
          simpa [step, around, found] using proceeds
        have counterpart_eq : (around memory none waiting).counterpart (.enter place) =
            [.arrive turn] := by
          simp [counterpart, around, found]
        rw [enters, counterpart_eq]
        exact ⟨memory, next, waiting.eraseIdx place, rfl, by simpa [Service.step] using arrives,
          rfl, trivial⟩
  | answer place outcome =>
    match holder, place with
    | none, _ => simpa [step, counterpart, around] using nothing
    | some (turn, aspect), place + 1 => simpa [step, counterpart, around] using nothing
    | some (turn, aspect), 0 =>
      obtain ⟨next, actions, proceeds, alone⟩ := proceed_alone
        (Progress.resume memory turn.report aspect outcome).1 waiting turn
        (Progress.resume memory turn.report aspect outcome).2
      have completes := (Service.complete_held memory turn aspect [] outcome).trans alone
      have answers : (around memory (some (turn, aspect)) waiting).step (.answer 0 outcome) =
          (around (Progress.resume memory turn.report aspect outcome).1 next waiting, actions) :=
        proceeds
      have counterpart_eq : (around memory (some (turn, aspect)) waiting).counterpart
          (.answer 0 outcome) = [.complete outcome] := rfl
      rw [answers, counterpart_eq]
      exact ⟨_, next, waiting, rfl, by simpa [Service.step] using completes, rfl, trivial⟩

/-- So is every run: it is that of a service to which the same heartbeats come one after the
    other. -/
theorem run_alone (moves : List Move) :
    Alike memory holder (Machine.trace step counterpart (around memory holder waiting) moves)
      (Machine.run step (around memory holder waiting) moves) := by
  induction moves generalizing memory holder waiting with
  | nil => exact ⟨memory, holder, waiting, rfl, rfl, trivial⟩
  | cons move moves inductionHypothesis =>
    obtain ⟨midway, between, rest, steps, alone, serial⟩ := step_alone memory holder waiting move
    obtain ⟨after, next, left, runs, later, serially⟩ := inductionHypothesis midway between rest
    rw [← steps] at runs later serially
    refine ⟨after, next, left, runs, ?_, ?_⟩
    · rw [Machine.trace, Machine.run_append, alone, later]
      rfl
    · exact Service.serial_append serial (by rw [alone]; exact serially)

end Alone

/-- Whether a move brings a certain report, or accepts a patch, if it does either. -/
def Move.Agrees (report : Report) : Move → Prop
  | .call turn => turn.report = report
  | .enter _ => True
  | .answer _ outcome => outcome = .ok ()

/-- The calls around a service that queues those who wait. -/
def behind (service : Service) : Calls :=
  around service.memory service.holder service.waiting

/-- Those who wait enter one after the other, in the order of the queue, until one needs a patch. -/
theorem queue_enters (memory : Memory) (waiting : List Turn) (turn : Turn) (progress : Progress) :
    ∃ count actions,
      Machine.run step ((⟨memory, true, waiting, []⟩ : Calls).proceed turn progress).1
        (List.replicate count (.enter 0)) =
          (behind (Service.proceed memory turn waiting progress).1, actions) ∧
      ((⟨memory, true, waiting, []⟩ : Calls).proceed turn progress).2 ++ actions =
        (Service.proceed memory turn waiting progress).2 := by
  induction waiting generalizing turn progress with
  | nil => cases progress <;> exact ⟨0, [], rfl, rfl⟩
  | cons first rest inductionHypothesis =>
    cases progress with
    | sending aspect => exact ⟨0, [], rfl, rfl⟩
    | ended result =>
      obtain ⟨count, actions, enters, same⟩ :=
        inductionHypothesis first (Progress.start memory first.report)
      have entered : step ⟨memory, false, first :: rest, []⟩ (.enter 0) =
          (⟨memory, true, rest, []⟩ : Calls).proceed first
            (Progress.start memory first.report) := rfl
      refine ⟨count + 1, (Service.serve memory (first :: rest)).2, ?_, rfl⟩
      calc Machine.run step ⟨memory, false, first :: rest, []⟩
            (List.replicate (count + 1) (.enter 0))
          = (behind (Service.serve memory (first :: rest)).1,
              (Service.serve memory (first :: rest)).2) := by
            rw [List.replicate_succ, Machine.run_cons, entered, enters, same, Service.serve_cons]

/-- Every move of a service that queues those who wait is some moves of the calls. -/
theorem step_queued {service : Service} (free : service.holder = none → service.waiting = [])
    (move : Service.Move) :
    ((service.step move).1.holder = none → (service.step move).1.waiting = []) ∧
      ∃ moves, Machine.run step (behind service) moves =
        (behind (service.step move).1, (service.step move).2) := by
  obtain ⟨memory, holder, waiting⟩ := service
  match holder, move with
  | none, .arrive turn =>
    obtain rfl : waiting = [] := free rfl
    obtain ⟨count, actions, enters, same⟩ :=
      queue_enters memory [] turn (Progress.start memory turn.report)
    have entered : step ⟨memory, false, [turn], []⟩ (.enter 0) =
        (⟨memory, true, [], []⟩ : Calls).proceed turn (Progress.start memory turn.report) := rfl
    have called : step (behind ⟨memory, none, []⟩) (.call turn) =
        (⟨memory, false, [turn], []⟩, []) := rfl
    refine ⟨Service.waiting_serve memory [turn],
      .call turn :: .enter 0 :: List.replicate count (.enter 0), ?_⟩
    have arrives : (⟨memory, none, []⟩ : Service).step (.arrive turn) =
        Service.proceed memory turn [] (Progress.start memory turn.report) :=
      Service.serve_cons memory turn []
    rw [Machine.run_cons, called, Machine.run_cons, entered, enters, same, arrives]
    rfl
  | some holder, .arrive turn => exact ⟨fun idle => (nomatch idle), [.call turn], rfl⟩
  | none, .complete outcome => exact ⟨free, [], rfl⟩
  | some (turn, aspect), .complete outcome =>
    obtain ⟨count, actions, enters, same⟩ := queue_enters
      (Progress.resume memory turn.report aspect outcome).1 waiting turn
      (Progress.resume memory turn.report aspect outcome).2
    have answered : step (behind ⟨memory, some (turn, aspect), waiting⟩) (.answer 0 outcome) =
        (⟨(Progress.resume memory turn.report aspect outcome).1, true, waiting, []⟩ : Calls).proceed
          turn (Progress.resume memory turn.report aspect outcome).2 := rfl
    have completes := Service.complete_held memory turn aspect waiting outcome
    rw [Service.step, completes]
    refine ⟨Service.waiting_proceed, .answer 0 outcome :: List.replicate count (.enter 0), ?_⟩
    rw [Machine.run_cons, answered, enters, same]

/-- Every run of a service that queues those who wait is a run of the calls. -/
theorem run_queued {service : Service} (free : service.holder = none → service.waiting = [])
    (moves : List Service.Move) :
    ∃ calls, Machine.run step (behind service) calls =
      (behind (Machine.run Service.step service moves).1,
        (Machine.run Service.step service moves).2) := by
  induction moves generalizing service with
  | nil => exact ⟨[], rfl⟩
  | cons move moves inductionHypothesis =>
    obtain ⟨stillFree, first, steps⟩ := step_queued free move
    obtain ⟨rest, runs⟩ := inductionHypothesis stillFree
    exact ⟨first ++ rest, by rw [Machine.run_append, steps, runs, Machine.run_cons]⟩

/-- All that the calls hold comes from certain heartbeats: who waits, whose patches are under way,
    and, of each aspect, what is remembered, unless it is what was remembered before. -/
structure Sourced (came : Turn → Prop) (before : Memory) (calls : Calls) : Prop where
  waiting : ∀ turn ∈ calls.waiting, came turn
  underway : ∀ patch ∈ calls.underway, came patch.1
  remembered : ∀ aspect, calls.memory.value aspect = before.value aspect ∨
    ∃ turn, came turn ∧ calls.memory.value aspect = turn.report.value aspect

/-- A call that goes on brings nothing that has not come. -/
theorem Sourced.proceed {came : Turn → Prop} {before : Memory} {calls : Calls} {turn : Turn}
    (sourced : Sourced came before calls) (known : came turn) (progress : Progress) :
    Sourced came before (calls.proceed turn progress).1 := by
  cases progress with
  | sending aspect =>
    refine ⟨sourced.waiting, fun patch member => ?_, sourced.remembered⟩
    obtain old | new := List.mem_append.mp member
    · exact sourced.underway patch old
    · obtain rfl := List.mem_singleton.mp new
      exact known
  | ended result => exact ⟨sourced.waiting, sourced.underway, sourced.remembered⟩

/-- Moves that bring only such heartbeats keep that. What a call remembers after an answer is of its
    own heartbeat, for one aspect as a whole. -/
theorem Sourced.step {came : Turn → Prop} {before : Memory} {calls : Calls} {move : Move}
    (sourced : Sourced came before calls) (brings : ∀ turn, move = .call turn → came turn) :
    Sourced came before (calls.step move).1 := by
  cases move with
  | call turn =>
    refine ⟨fun other member => ?_, sourced.underway, sourced.remembered⟩
    obtain old | new := List.mem_append.mp member
    · exact sourced.waiting other old
    · obtain rfl := List.mem_singleton.mp new
      exact brings other rfl
  | enter place =>
    match lock : calls.locked, found : calls.waiting[place]? with
    | true, _ => simpa [Calls.step, lock] using sourced
    | false, none => simpa [Calls.step, lock, found] using sourced
    | false, some turn =>
      have known : came turn := sourced.waiting turn (List.mem_of_getElem? found)
      have entering : Sourced came before
          { calls with locked := true, waiting := calls.waiting.eraseIdx place } :=
        ⟨fun other member => sourced.waiting other (List.mem_of_mem_eraseIdx member),
          sourced.underway, sourced.remembered⟩
      simp only [Calls.step, lock, found]
      exact entering.proceed known _
  | answer place outcome =>
    match found : calls.underway[place]? with
    | none => simpa [Calls.step, found] using sourced
    | some (turn, aspect) =>
      have known : came turn := sourced.underway _ (List.mem_of_getElem? found)
      have answered : Sourced came before { calls with
          memory := (Progress.resume calls.memory turn.report aspect outcome).1
          underway := calls.underway.eraseIdx place } := by
        refine ⟨sourced.waiting, fun patch member => ?_, fun other => ?_⟩
        · exact sourced.underway patch (List.mem_of_mem_eraseIdx member)
        · obtain refused | accepted :=
            Progress.resume_memory calls.memory turn.report aspect outcome
          · rw [refused]
            exact sourced.remembered other
          · rw [accepted, Memory.value_accept]
            split
            next same => exact .inr ⟨turn, known, rfl⟩
            next different => exact sourced.remembered other
      simp only [Calls.step, found]
      exact answered.proceed known _

/-- All that the calls hold comes from the heartbeats of a run, and from what was remembered before
    it. -/
theorem Sourced.run {came : Turn → Prop} {before : Memory} {calls : Calls} {moves : List Move}
    (sourced : Sourced came before calls) (bring : ∀ turn, .call turn ∈ moves → came turn) :
    Sourced came before (Machine.run Calls.step calls moves).1 := by
  refine Machine.run_keeps Calls.step (Sourced came before)
    (fun move => ∀ turn, move = .call turn → came turn) ?_ calls moves ?_ sourced
  · exact fun calls move brings sourced => sourced.step brings
  · rintro move member turn rfl
    exact bring turn member

/-- Where all calls report the same and all patches are accepted, so it is for the service. -/
theorem counterpart_agrees {calls : Calls} {report : Report} {move : Move}
    (all : ∀ turn ∈ calls.waiting, turn.report = report) (agrees : move.Agrees report) :
    ∀ counter ∈ calls.counterpart move, counter.Agrees report := by
  intro counter member
  cases move with
  | call turn => simp [counterpart] at member
  | enter place =>
    simp only [counterpart] at member
    split at member
    next taken => simp at member
    next free =>
      obtain ⟨turn, found, rfl⟩ : ∃ turn, calls.waiting[place]? = some turn ∧
          Service.Move.arrive turn = counter := by simpa using member
      exact all turn (List.mem_of_getElem? found)
  | answer place outcome =>
    obtain ⟨patch, -, rfl⟩ : ∃ patch, calls.underway[place]? = some patch ∧
        Service.Move.complete outcome = counter := by simpa [counterpart] using member
    exact agrees

/-- If all calls report the same and all patches are accepted, so it is for the service over a whole
    run. -/
theorem trace_agrees {before : Memory} {calls : Calls} {report : Report} {moves : List Move}
    (sourced : Sourced (·.report = report) before calls)
    (agree : ∀ move ∈ moves, move.Agrees report) :
    ∀ counter ∈ Machine.trace step counterpart calls moves, counter.Agrees report := by
  induction moves generalizing calls with
  | nil => simp
  | cons move moves inductionHypothesis =>
    have agrees : move.Agrees report := agree move List.mem_cons_self
    intro counter member
    obtain now | later := List.mem_append.mp member
    · exact counterpart_agrees sourced.waiting agrees counter now
    · refine inductionHypothesis (sourced.step ?_)
        (fun later member => agree later (.tail _ member)) counter later
      rintro turn rfl
      exact agrees

/-- What calls have come to after some moves, and all that was done for them. -/
def reached (memory : Memory) (moves : List Move) : Calls × List Action :=
  Machine.run step { memory } moves

/-- The heartbeats in the order in which their calls got the lock, and the answers in theirs. -/
def order (memory : Memory) (moves : List Move) : List Service.Move :=
  Machine.trace step counterpart { memory } moves

/-- What is true of every interleaving of calls. -/
structure Serialised (memory : Memory) (moves : List Move) : Prop where
  /-- At most one patch is under way. -/
  one_underway : (reached memory moves).1.underway.length ≤ 1
  /-- The heartbeats, in the order in which they got the lock, do not overlap. -/
  serial : (Service.idle memory).Serial (order memory moves)
  /-- The service that handles them so remembers the same, has the same patch under way, and has
      done the same: the lines, the patches and the ends of heartbeats agree, in their order. -/
  same : Machine.run Service.step (Service.idle memory) (order memory moves) =
    (⟨(reached memory moves).1.memory, (reached memory moves).1.underway.head?, []⟩,
      (reached memory moves).2)
  /-- When nobody has the lock, that is as if each heartbeat had been handled to its end before the
      next one, with some answer to each of its patches. -/
  whole : (reached memory moves).1.locked = false →
    ∃ beats : List Beat, beats.map Beat.turn = Service.arrivals (order memory moves) ∧
      Machine.run Service.handle (Service.idle memory) beats =
        (Service.idle (reached memory moves).1.memory, (reached memory moves).2)
  /-- What is remembered of an aspect comes from one heartbeat, if it is not as it was before. -/
  unmixed : ∀ aspect, (reached memory moves).1.memory.value aspect = memory.value aspect ∨
    ∃ turn, .call turn ∈ moves ∧
      (reached memory moves).1.memory.value aspect = turn.report.value aspect
  /-- Of equal heartbeats whose patches are all accepted, one sends a patch of each kind at most. -/
  identical : ∀ report, (∀ move ∈ moves, move.Agrees report) → ∀ aspect,
    ((sent (reached memory moves).2).map Prod.snd).count aspect ≤ 1

/-- Every interleaving of calls is serialised. -/
theorem serialised (memory : Memory) (moves : List Move) : Serialised memory moves := by
  have alike : Alike memory none (order memory moves) (reached memory moves) :=
    run_alone memory none [] moves
  obtain ⟨after, next, left, reaches, alone, serial⟩ := alike
  change Machine.run Service.step (Service.idle memory) _ = _ at alone
  have fresh (came : Turn → Prop) : Sourced came memory { memory } :=
    ⟨by simp, by simp, fun _ => .inl rfl⟩
  have sourced := (fresh fun turn => .call turn ∈ moves).run fun _ member => member
  refine ⟨?_, serial, ?_, fun free => ?_, sourced.remembered, fun report agree aspect => ?_⟩
  · rw [reaches]
    cases next <;> simp [around]
  · rw [reaches]
    cases next <;> exact alone
  · rw [reaches] at free
    obtain rfl : next = none := by simpa [around] using free
    obtain ⟨beats, turns, handled⟩ := (Service.serial_whole _).1 memory serial (by rw [alone])
    rw [alone] at handled
    rw [reaches]
    exact ⟨beats, turns, handled.symm⟩
  · have first := Service.Steady.run .idle serial (trace_agrees (fresh _) agree)
    rw [alone] at first
    exact List.nodup_iff_count_le_one.mp (Memory.nodup_wanted.sublist first.sublist) aspect

end Calls

/-- Calls that overlap are serialised, whichever of them gets the lock and however long each patch
    is under way. The service that queues its heartbeats does nothing that calls could not do. -/
theorem calls_serialised (memory : Memory) :
    (∀ moves, Calls.Serialised memory moves) ∧
    ∀ moves, ∃ calls, Calls.reached memory calls =
      (Calls.behind (Machine.run Service.step (Service.idle memory) moves).1,
        (Machine.run Service.step (Service.idle memory) moves).2) := by
  have unqueued : (Service.idle memory).holder = none → (Service.idle memory).waiting = [] :=
    fun _ => rfl
  exact ⟨Calls.serialised memory, Calls.run_queued unqueued⟩

/-- Three equal heartbeats of an active game that overlap, the second of which gets the lock first:
    it sends both patches, and nothing is left to be sent for the others. -/
theorem equal_calls_patch_once :
    let report : Report := ⟨.active, "Healthy", ["ann", "bob"]⟩
    let moves : List Calls.Move := [.call ⟨0, report⟩, .call ⟨1, report⟩, .enter 1,
      .call ⟨2, report⟩, .enter 0, .answer 0 (.ok ()), .enter 1, .answer 0 (.ok ()), .enter 0,
      .enter 0]
    (∀ move ∈ moves, Calls.Move.Agrees report move) ∧
      sent (Calls.reached {} moves).2 = [(⟨1, report⟩, .status), (⟨1, report⟩, .players)] ∧
      ∀ aspect, ((sent (Calls.reached {} moves).2).map Prod.snd).count aspect ≤ 1 := by
  intro report moves
  have agree : ∀ move ∈ moves, Calls.Move.Agrees report move := by
    simp [moves, Calls.Move.Agrees]
  exact ⟨agree, by decide, ((calls_serialised {}).1 moves).identical report agree⟩

end GameSidecar.Heartbeat
