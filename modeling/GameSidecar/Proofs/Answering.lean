import GameSidecar.Proofs.Classifying
import GameSidecar.Proofs.Patching

/-!
# The replies to heartbeats

Two things are followed over a run of the sidecar: the patches of one heartbeat with their outcomes,
and the replies to it. Other heartbeats may come and be handled meanwhile, and the reconciler may do
anything. A reply to a heartbeat is found by the number of its turn, and a number is held by no
other turn in the service. So it is enough to count how often a number occurs there.

A heartbeat that is rejected gets no number. The sidecar is as it was before, so that a run could do
without all such heartbeats.
-/

namespace GameSidecar

namespace Heartbeat

namespace Service

/-- The heartbeats in the service, the one whose turn it is before those who wait. -/
def turns (service : Service) : List Turn :=
  (service.holder.map Prod.fst).toList ++ service.waiting

/-- Those whose turn comes end well, up to the first one that needs a patch. -/
theorem serve_turns (memory : Memory) (waiting : List Turn) :
    ∃ done, waiting = done ++ (serve memory waiting).1.turns ∧
      finished (serve memory waiting).2 = done.map fun turn => (turn, .ok ()) := by
  induction waiting with
  | nil => exact ⟨[], rfl, rfl⟩
  | cons turn rest inductionHypothesis =>
    obtain ⟨done, split, ends⟩ := inductionHypothesis
    rw [serve_cons, Progress.start]
    cases memory.due turn.report with
    | some aspect => exact ⟨[], rfl, rfl⟩
    | none =>
      refine ⟨turn :: done, congrArg (turn :: ·) split, ?_⟩
      change (turn, .ok ()) :: finished (serve memory rest).2 = _
      rw [ends]
      rfl

/-- A heartbeat that arrives comes last. If nobody holds the service it may end at once. -/
theorem arrive_turns {service : Service} (unqueued : service.holder = none → service.waiting = [])
    (turn : Turn) :
    ∃ done, service.turns ++ [turn] = done ++ (service.arrive turn).1.turns ∧
      finished (service.arrive turn).2 = done.map fun turn => (turn, .ok ()) := by
  unfold arrive
  cases held : service.holder with
  | some holder => exact ⟨[], by simp [turns, held], rfl⟩
  | none =>
    have alone : service.turns ++ [turn] = [turn] := by simp [turns, held, unqueued held]
    rw [alone]
    exact serve_turns service.memory [turn]

/-- How many outcomes of patches the heartbeat whose turn it is waits for at most. -/
def tries (service : Service) : Nat :=
  match service.holder with
  | some (_, .players) => 1
  | _ => 2

/-- A heartbeat that arrives while another one holds the service does not take its place. -/
theorem holder_arrive {service : Service} (held : service.holder.isSome) (turn : Turn) :
    (service.arrive turn).1.holder = service.holder := by
  obtain ⟨holder, same⟩ := Option.isSome_iff_exists.mp held
  simp [arrive, same]

/-- With the answer to its patch a heartbeat goes on, from its status to its players, if the patch
    was accepted, or it ends as the answer says and those who wait are served. -/
theorem complete_turns {service : Service} {turn : Turn} {aspect : Aspect}
    (held : service.holder = some (turn, aspect)) (outcome : Except StoreError Unit) :
    (outcome = .ok () ∧ aspect = .status ∧
      (service.complete outcome).1.holder = some (turn, .players) ∧
      (service.complete outcome).1.turns = service.turns ∧
      finished (service.complete outcome).2 = []) ∨
    ∃ done, service.waiting = done ++ (service.complete outcome).1.turns ∧
      finished (service.complete outcome).2 =
        (turn, outcome.mapError fun error => ⟨aspect, error⟩) ::
          done.map fun turn => (turn, .ok ()) := by
  obtain ⟨memory, holder, waiting⟩ := service
  subst held
  rw [complete_held]
  have ends (memory : Memory) (result : Except Failure Unit) :
      ∃ done, waiting = done ++ (proceed memory turn waiting (.ended result)).1.turns ∧
        finished (proceed memory turn waiting (.ended result)).2 =
          (turn, result) :: done.map fun turn => (turn, .ok ()) := by
    obtain ⟨done, split, well⟩ := serve_turns memory waiting
    exact ⟨done, split, congrArg ((turn, result) :: ·) well⟩
  cases outcome with
  | error error => exact .inr (ends memory _)
  | ok accepted =>
    cases aspect with
    | players => exact .inr (ends _ _)
    | status =>
      simp only [Progress.resume]
      cases due : (memory.accept turn.report .status).restDue turn.report with
      | some next =>
        obtain ⟨-, rfl⟩ : _ ∧ Aspect.players = next := by simpa [Memory.restDue] using due
        exact .inl ⟨trivial, trivial, rfl, rfl, rfl⟩
      | none => exact .inr (ends _ _)

/-- Nobody waits for a service that a heartbeat has come to and left free. -/
theorem unqueued_arrive {service : Service} (turn : Turn) :
    (service.arrive turn).1.holder = none → (service.arrive turn).1.waiting = [] := by
  unfold arrive
  cases held : service.holder with
  | some holder => simp
  | none => exact waiting_serve service.memory [turn]

/-- Nobody waits for one that is free after the answer to a patch. -/
theorem unqueued_complete {service : Service}
    (unqueued : service.holder = none → service.waiting = []) (outcome : Except StoreError Unit) :
    (service.complete outcome).1.holder = none → (service.complete outcome).1.waiting = [] := by
  obtain ⟨memory, holder, waiting⟩ := service
  cases holder with
  | none => exact unqueued
  | some patch =>
    rw [complete_held]
    exact waiting_proceed

end Service

end Heartbeat

namespace Sidecar

open Endpoint (Attempt Reply replyOf receiveBody)
open Heartbeat (Turn Failure finished)

variable (plan : Watch.Plan) {sidecar : Sidecar}

/-- What the service does in a move. -/
def actions (sidecar : Sidecar) : Move → List Heartbeat.Action
  | .heartbeat host request =>
    match receiveBody host request.body with
    | .replied _ _ => []
    | .admitted _ report => (sidecar.service.arrive ⟨sidecar.requests.length, report⟩).2
  | .patched outcome =>
    match sidecar.service.holder with
    | none => []
    | some (turn, aspect) =>
      (sidecar.service.complete ((sidecar.patch turn aspect).result outcome).1).2
  | _ => []

/-- The heartbeats that end in a move, with the replies to them. -/
def answered (sidecar : Sidecar) (move : Move) : List (Nat × Reply) :=
  (finished (sidecar.actions move)).map fun ended =>
    (ended.1.number, replyOf sidecar.reconciler.session ended.2)

/-- The replies of a move to the heartbeat with a number. -/
def repliesTo (number : Nat) (sidecar : Sidecar) (move : Move) : List Reply :=
  ((sidecar.answered move).filter fun ended => ended.1 = number).map Prod.snd

/-- The patch of the heartbeat with a number that gets its outcome in a move, if one does. -/
def attemptsOf (number : Nat) (sidecar : Sidecar) : Move → List Attempt
  | .patched outcome =>
    match sidecar.service.holder with
    | none => []
    | some (turn, aspect) =>
      if turn.number = number then [⟨aspect, sidecar.patch turn aspect, outcome⟩] else []
  | _ => []

/-- The numbers of the heartbeats in the service. -/
def numbers (sidecar : Sidecar) : List Nat :=
  sidecar.service.turns.map Turn.number

/-- Whether a move is a heartbeat that is rejected for its body. -/
def Move.isRejected : Move → Bool
  | .heartbeat _ request => Heartbeat.Request.isRejected request.body
  | _ => false

/-- How many outcomes of patches a move brings. -/
def Move.outcomes : Move → Nat
  | .patched _ => 1
  | _ => 0

/-- The sidecar may be at any point of its work: its session consists of texts, nobody waits for a
    service that nobody holds, and the next heartbeat gets a number of its own. -/
structure IsReady (sidecar : Sidecar) : Prop where
  texts : sidecar.reconciler.session.HoldsTexts
  unqueued : sidecar.service.holder = none → sidecar.service.waiting = []
  numbered : ∀ number ∈ sidecar.numbers, number < sidecar.requests.length

/-- What the service does is replied to as its heartbeats end. -/
theorem replies_serve (actions : List Heartbeat.Action) :
    replies (actions.flatMap sidecar.serve) =
      (finished actions).map fun ended => replyOf sidecar.reconciler.session ended.2 := by
  induction actions with
  | nil => rfl
  | cons action actions inductionHypothesis =>
    rw [List.flatMap_cons, replies_append, inductionHypothesis]
    cases action with
    | finish turn result => simp [serve, Endpoint.conclude_fst]; rfl
    | _ => rfl

/-- Heartbeats that are rejected apart, the replies of a move are those to the heartbeats that end
    in it. -/
theorem replies_step {move : Move} (admitted : move.isRejected = false) :
    replies (sidecar.step plan move).2 = (sidecar.answered move).map Prod.snd := by
  cases move with
  | heartbeat host request =>
    obtain ⟨report, received⟩ : ∃ report,
        receiveBody host request.body = .admitted host report := by
      rcases Endpoint.receiveBody_cases host request.body with
        ⟨-, rejected, -⟩ | ⟨-, rejected, -⟩ | ⟨-, -, -, report, -, -, received⟩
      · exact nomatch rejected.symm.trans admitted
      · exact nomatch rejected.symm.trans admitted
      · exact ⟨report, received⟩
    simp [step, answered, actions, received, adopt, replies_serve]
  | patched outcome =>
    simp only [step, answered, actions]
    cases sidecar.service.holder with
    | none => rfl
    | some patch => simp [adopt, replies_serve]
  | _ => simp [step, reconcile, answered, actions]

/-- A body that cannot be admitted is replied to at once, and nothing else happens. -/
theorem rejected_step {host : String} {request : Endpoint.Request} {reply : Reply}
    {lines : List Line} (rejected : receiveBody host request.body = .replied reply lines) :
    sidecar.step plan (.heartbeat host request) = (sidecar, lines.map .log ++ [.reply reply]) := by
  simp only [step, rejected]

/-- The number that a heartbeat gets in a move, if one is admitted. -/
def arriving (sidecar : Sidecar) : Move → List Nat
  | .heartbeat host request =>
    match receiveBody host request.body with
    | .replied _ _ => []
    | .admitted _ _ => [sidecar.requests.length]
  | _ => []

/-- What a move does to the heartbeats in the service. -/
structure Serves (sidecar : Sidecar) (move : Move) (next : Sidecar) : Prop where
  /-- The sidecar stays ready, and every heartbeat that is admitted gets the next number. -/
  ready : next.IsReady
  requests : next.requests.length = sidecar.requests.length + (sidecar.arriving move).length
  /-- The heartbeats that end leave the service, the others stay. -/
  numbers : sidecar.numbers ++ sidecar.arriving move =
    (sidecar.answered move).map Prod.fst ++ next.numbers
  /-- A heartbeat ends as its patch asks for, if there is one. -/
  ends : ∀ number reply, (number, reply) ∈ sidecar.answered move →
    (sidecar.numbers ++ sidecar.arriving move).count number = 1 →
    Endpoint.Ends (sidecar.attemptsOf number move) reply
  /-- A heartbeat stays only after a patch that was accepted. -/
  stays : ∀ number, number ∉ (sidecar.answered move).map Prod.fst →
    ∀ attempt ∈ sidecar.attemptsOf number move, attempt.outcome = .ok ()
  /-- If none ends, the one whose turn it is has come further with the outcome of its patch. -/
  advances : sidecar.numbers ≠ [] → sidecar.answered move = [] →
    next.service.tries + move.outcomes ≤ sidecar.service.tries

/-- A session of texts is given in the reply to a heartbeat that ends well. -/
theorem IsReady.ends_well (ready : sidecar.IsReady) :
    Endpoint.Ends [] (replyOf sidecar.reconciler.session (.ok ())) := by
  obtain ⟨answer, given⟩ := ready.texts.answer
  simp only [replyOf, given]
  exact .well (List.forall_mem_nil _)

/-- Somebody holds the service if a heartbeat is in it. -/
theorem IsReady.isSome_holder (ready : sidecar.IsReady) (busy : sidecar.numbers ≠ []) :
    sidecar.service.holder.isSome := by
  rw [Option.isSome_iff_ne_none]
  intro free
  exact busy (by simp [Sidecar.numbers, Heartbeat.Service.turns, free, ready.unqueued free])

/-- A move that the service does not take part in leaves its heartbeats alone. -/
theorem serves_quiet (ready : sidecar.IsReady) {move : Move} {next : Sidecar}
    (texts : next.reconciler.session.HoldsTexts) (service : next.service = sidecar.service)
    (requests : next.requests = sidecar.requests) (silent : sidecar.actions move = [])
    (untried : ∀ number, sidecar.attemptsOf number move = [])
    (unmoved : sidecar.arriving move = []) (idle : sidecar.numbers ≠ [] → move.outcomes = 0) :
    Serves sidecar move next := by
  have nothing : sidecar.answered move = [] := by rw [answered, silent]; rfl
  have numbers : next.numbers = sidecar.numbers := by rw [Sidecar.numbers, service]; rfl
  refine ⟨⟨texts, service ▸ ready.unqueued, ?_⟩, by simp [requests, unmoved],
    by simp [unmoved, nothing, numbers], by simp [nothing], by simp [untried],
    fun busy _ => by rw [idle busy, service]; exact le_rfl⟩
  rw [numbers, requests]
  exact ready.numbered

/-- What the reconciler does is nothing to the heartbeats. -/
theorem serves_reconcile (ready : sidecar.IsReady) {move : Move} (own : Reconciler.Move)
    (silent : sidecar.actions move = []) (untried : ∀ number, sidecar.attemptsOf number move = [])
    (unmoved : sidecar.arriving move = []) (idle : move.outcomes = 0) :
    Serves sidecar move (sidecar.reconcile plan own).1 :=
  serves_quiet ready (Reconciler.holdsTexts_step plan ready.texts own) rfl rfl silent untried
    unmoved fun _ => idle

/-- A heartbeat that comes is put behind the others, or ends at once. -/
theorem serves_heartbeat (ready : sidecar.IsReady) (host : String) (request : Endpoint.Request) :
    Serves sidecar (.heartbeat host request) (sidecar.step plan (.heartbeat host request)).1 := by
  cases received : receiveBody host request.body with
  | replied reply lines =>
    rw [rejected_step plan received]
    exact serves_quiet ready ready.texts rfl rfl (by simp [actions, received]) (fun _ => rfl)
      (by simp [arriving, received]) fun _ => rfl
  | admitted named report =>
    let turn : Turn := ⟨sidecar.requests.length, report⟩
    obtain ⟨done, split, ended⟩ := Heartbeat.Service.arrive_turns ready.unqueued turn
    have moved : (sidecar.step plan (.heartbeat host request)).1 =
        { sidecar with
          service := (sidecar.service.arrive turn).1
          requests := sidecar.requests ++ [request] } := by
      simp [step, received, adopt, turn]
    have answers : sidecar.answered (.heartbeat host request) =
        done.map fun turn => (turn.number, replyOf sidecar.reconciler.session (.ok ())) := by
      have acts : sidecar.actions (.heartbeat host request) = (sidecar.service.arrive turn).2 := by
        simp [actions, received, turn]
      rw [answered, acts, ended, List.map_map]
      rfl
    have arrives : sidecar.arriving (.heartbeat host request) = [turn.number] := by
      simp [arriving, received, turn]
    have numbers : sidecar.numbers ++ [turn.number] =
        done.map Turn.number ++ (sidecar.service.arrive turn).1.turns.map Turn.number := by
      simpa [Sidecar.numbers] using congrArg (List.map Turn.number) split
    rw [moved]
    refine ⟨⟨ready.texts, Heartbeat.Service.unqueued_arrive turn, fun number member => ?_⟩,
      by simp [arrives], ?_, fun number reply member _ => ?_, fun number _ => List.forall_mem_nil _,
      fun busy _ => ?_⟩
    · have earlier : number ∈ sidecar.numbers ++ [turn.number] := by
        rw [numbers]
        exact List.mem_append_right _ member
      rw [List.length_append]
      rcases List.mem_append.mp earlier with old | new
      · exact Nat.lt_succ_of_lt (ready.numbered number old)
      · exact List.mem_singleton.mp new ▸ Nat.lt_succ_self _
    · rw [arrives, numbers, answers, List.map_map]
      rfl
    · rw [answers] at member
      obtain ⟨turn, -, same⟩ := List.mem_map.mp member
      exact (Prod.mk.inj same).2 ▸ ready.ends_well
    · have held := Heartbeat.Service.holder_arrive (ready.isSome_holder busy) turn
      simp [Heartbeat.Service.tries, held, Move.outcomes]

section Patched

variable {plan} {turn : Turn} {aspect : Heartbeat.Aspect} {outcome : Except Cause Unit}
  (held : sidecar.service.holder = some (turn, aspect))

/-- What the service hears of the outcome of a patch. -/
def heard (sidecar : Sidecar) (turn : Turn) (aspect : Heartbeat.Aspect)
    (outcome : Except Cause Unit) : Except StoreError Unit :=
  ((sidecar.patch turn aspect).result outcome).1

/-- How a heartbeat ends, if it does, after its patch. -/
def verdict (sidecar : Sidecar) (turn : Turn) (aspect : Heartbeat.Aspect)
    (outcome : Except Cause Unit) : Except Failure Unit :=
  (sidecar.heard turn aspect outcome).mapError fun error => ⟨aspect, error⟩

/-- A heartbeat ends as the outcome of its last patch asks for. -/
theorem ends_verdict (ready : sidecar.IsReady) :
    Endpoint.Ends [⟨aspect, sidecar.patch turn aspect, outcome⟩]
      (replyOf sidecar.reconciler.session (sidecar.verdict turn aspect outcome)) := by
  cases outcome with
  | ok => exact ready.ends_well.after (List.forall_mem_singleton.mpr rfl)
  | error cause =>
    have heard : sidecar.heard turn aspect (.error cause) =
        .error (cause.toError ("patch " ++ (sidecar.patch turn aspect).describe)) := rfl
    rw [verdict, heard]
    exact Endpoint.Ends.of_failure rfl

/-- A patch that the service takes for accepted was accepted. -/
theorem outcome_of_heard (accepted : sidecar.heard turn aspect outcome = .ok ()) :
    outcome = .ok () := by
  cases outcome with
  | ok => rfl
  | error cause => exact nomatch accepted

include held

/-- The outcome of a patch is told to the service, and changes nothing else. -/
theorem step_patched : (sidecar.step plan (.patched outcome)).1 =
    { sidecar with
      service := (sidecar.service.complete (sidecar.heard turn aspect outcome)).1 } := by
  simp [step, held, adopt, heard]

/-- With the outcome of a patch those heartbeats are replied to that the service ends with it. -/
theorem answered_patched : sidecar.answered (.patched outcome) =
    (finished (sidecar.service.complete (sidecar.heard turn aspect outcome)).2).map fun ended =>
      (ended.1.number, replyOf sidecar.reconciler.session ended.2) := by
  simp [answered, actions, held, heard]

/-- The outcome of a patch makes an attempt of the heartbeat that holds the service, and of no
    other. -/
theorem attemptsOf_patched (number : Nat) : sidecar.attemptsOf number (.patched outcome) =
    if turn.number = number then [⟨aspect, sidecar.patch turn aspect, outcome⟩] else [] := by
  simp [attemptsOf, held]

/-- The heartbeat that holds the service comes before those who wait. -/
theorem numbers_held :
    sidecar.numbers = turn.number :: sidecar.service.waiting.map Turn.number := by
  simp [Sidecar.numbers, Heartbeat.Service.turns, held]

/-- A heartbeat that goes on after its patch was accepted leaves all others where they are. -/
theorem serves_going (ready : sidecar.IsReady)
    (accepted : sidecar.heard turn aspect outcome = .ok ()) (first : aspect = .status)
    (onward : (sidecar.service.complete (sidecar.heard turn aspect outcome)).1.holder =
      some (turn, .players))
    (same : (sidecar.service.complete (sidecar.heard turn aspect outcome)).1.turns =
      sidecar.service.turns)
    (silent : finished (sidecar.service.complete (sidecar.heard turn aspect outcome)).2 = []) :
    Serves sidecar (.patched outcome) (sidecar.step plan (.patched outcome)).1 := by
  have nothing : sidecar.answered (.patched outcome) = [] := by
    rw [answered_patched held, silent]
    rfl
  have numbers : (sidecar.step plan (.patched outcome)).1.numbers = sidecar.numbers := by
    rw [step_patched held]
    exact congrArg (List.map Turn.number) same
  refine ⟨⟨?_, ?_, ?_⟩, ?_, ?_, by simp [nothing], fun number _ tried member => ?_, fun _ _ => ?_⟩
  · rw [step_patched held]
    exact ready.texts
  · rw [step_patched held]
    exact Heartbeat.Service.unqueued_complete ready.unqueued _
  · rw [numbers, step_patched held]
    exact ready.numbered
  · rw [step_patched held]
    rfl
  · rw [nothing, numbers]
    exact List.append_nil _
  · rw [attemptsOf_patched held] at member
    split at member
    · exact List.mem_singleton.mp member ▸ outcome_of_heard accepted
    · cases member
  · subst first
    rw [step_patched held]
    simp [Heartbeat.Service.tries, held, onward, Move.outcomes]

/-- A heartbeat that ends with its patch gets its reply, and some that wait end well after it. -/
theorem serves_ending (ready : sidecar.IsReady) {done : List Turn}
    (split : sidecar.service.waiting =
      done ++ (sidecar.service.complete (sidecar.heard turn aspect outcome)).1.turns)
    (ended : finished (sidecar.service.complete (sidecar.heard turn aspect outcome)).2 =
      (turn, sidecar.verdict turn aspect outcome) :: done.map fun turn => (turn, .ok ())) :
    Serves sidecar (.patched outcome) (sidecar.step plan (.patched outcome)).1 := by
  have answers : sidecar.answered (.patched outcome) =
      (turn.number, replyOf sidecar.reconciler.session (sidecar.verdict turn aspect outcome)) ::
        done.map fun turn => (turn.number, replyOf sidecar.reconciler.session (.ok ())) := by
    rw [answered_patched held, ended, List.map_cons, List.map_map]
    rfl
  have numbers : sidecar.numbers = turn.number :: (done.map Turn.number ++
      (sidecar.step plan (.patched outcome)).1.numbers) := by
    rw [numbers_held held, split, List.map_append, step_patched held]
    rfl
  refine ⟨⟨?_, ?_, fun number member => ?_⟩, ?_, ?_, fun number reply member once => ?_,
    fun number other tried member => ?_, fun _ none => nomatch answers.symm.trans none⟩
  · rw [step_patched held]
    exact ready.texts
  · rw [step_patched held]
    exact Heartbeat.Service.unqueued_complete ready.unqueued _
  · rw [step_patched held]
    refine ready.numbered number ?_
    rw [numbers]
    exact .tail _ (List.mem_append_right _ member)
  · rw [step_patched held]
    rfl
  · rw [answers, numbers, List.map_cons, List.map_map]
    exact List.append_nil _
  · rw [answers] at member
    rw [attemptsOf_patched held]
    rcases List.mem_cons.mp member with first | later
    · obtain ⟨rfl, rfl⟩ := Prod.mk.inj first
      rw [if_pos rfl]
      exact ends_verdict ready
    · obtain ⟨other, among, same⟩ := List.mem_map.mp later
      obtain ⟨rfl, rfl⟩ := Prod.mk.inj same
      -- The number stands once in the service, so it is not also that of the one who waits.
      have different : turn.number ≠ other.number := by
        intro same
        have among : 0 < (done.map Turn.number).count other.number :=
          List.count_pos_iff.mpr (List.mem_map_of_mem among)
        rw [numbers, same, List.cons_append, List.count_cons_self, List.count_append,
          List.count_append] at once
        omega
      rw [if_neg different]
      exact ready.ends_well
  · have different : turn.number ≠ number := by
      rintro rfl
      exact other (by simp [answers])
    rw [attemptsOf_patched held, if_neg different] at member
    cases member

end Patched

/-- The outcome of a patch takes its heartbeat further or ends it. -/
theorem serves_patched (ready : sidecar.IsReady) (outcome : Except Cause Unit) :
    Serves sidecar (.patched outcome) (sidecar.step plan (.patched outcome)).1 := by
  cases held : sidecar.service.holder with
  | none =>
    have moved : sidecar.step plan (.patched outcome) = (sidecar, []) := by simp [step, held]
    rw [moved]
    exact serves_quiet ready ready.texts rfl rfl (by simp [actions, held])
      (fun _ => by simp [attemptsOf, held]) rfl fun busy =>
        absurd held (Option.isSome_iff_ne_none.mp (ready.isSome_holder busy))
  | some patch =>
    obtain ⟨turn, aspect⟩ := patch
    rcases Heartbeat.Service.complete_turns held (sidecar.heard turn aspect outcome) with
      ⟨accepted, first, onward, same, silent⟩ | ⟨done, split, ended⟩
    · exact serves_going held ready accepted first onward same silent
    · exact serves_ending held ready split ended

/-- Every move serves the heartbeats as it should. -/
theorem serves_step (ready : sidecar.IsReady) (move : Move) :
    Serves sidecar move (sidecar.step plan move).1 := by
  cases move with
  | watch move => exact serves_reconcile plan ready (.watch move) rfl (fun _ => rfl) rfl rfl
  | review => exact serves_reconcile plan ready .review rfl (fun _ => rfl) rfl rfl
  | read outcome => exact serves_reconcile plan ready (.read outcome) rfl (fun _ => rfl) rfl rfl
  | heartbeat host request => exact serves_heartbeat plan ready host request
  | patched outcome => exact serves_patched plan ready outcome

/-- What becomes of one heartbeat over some moves: its patches that were tried, the replies to it,
    and how often its number is left in the service. -/
structure Handled (attempts : List Attempt) (replies : List Reply) (left : Nat) : Prop where
  /-- It is replied to, or it is still in the service. -/
  once : replies.length + left = 1
  /-- Before the reply its patches are accepted. -/
  going : replies = [] → ∀ attempt ∈ attempts, attempt.outcome = .ok ()
  /-- The reply is as its patches ask for. -/
  ending : ∀ reply ∈ replies, Endpoint.Ends attempts reply

/-- A heartbeat that is still in the service is handled on. -/
theorem Handled.append {attempts later : List Attempt} {replies more : List Reply} {left : Nat}
    (first : Handled attempts replies 1) (rest : Handled later more left) :
    Handled (attempts ++ later) (replies ++ more) left := by
  obtain rfl : replies = [] := List.eq_nil_of_length_eq_zero (by have := first.once; omega)
  have accepted := first.going rfl
  exact ⟨rest.once,
    fun none => List.forall_mem_append.mpr ⟨accepted, rest.going none⟩,
    fun reply member => (rest.ending reply member).after accepted⟩

variable {move : Move} {number : Nat}

/-- A heartbeat is replied to as often as its number ends. -/
theorem length_repliesTo :
    (sidecar.repliesTo number move).length =
      ((sidecar.answered move).map Prod.fst).count number := by
  rw [repliesTo, List.length_map, ← List.countP_eq_length_filter, List.count, List.countP_map]
  rfl

/-- A heartbeat that is not in the service has no patch. -/
theorem attemptsOf_absent (absent : number ∉ sidecar.numbers) :
    sidecar.attemptsOf number move = [] := by
  cases move with
  | patched outcome =>
    cases held : sidecar.service.holder with
    | none => simp [attemptsOf, held]
    | some patch =>
      have present : patch.1.number ∈ sidecar.numbers := by
        simp [Sidecar.numbers, Heartbeat.Service.turns, held]
      have different : patch.1.number ≠ number := fun same => absent (same ▸ present)
      simp [attemptsOf, held, different]
  | _ => rfl

/-- In one move a heartbeat that is in the service, or comes to it, goes on or ends. -/
theorem handled_step (ready : sidecar.IsReady)
    (once : (sidecar.numbers ++ sidecar.arriving move).count number = 1) :
    Handled (sidecar.attemptsOf number move) (sidecar.repliesTo number move)
      ((sidecar.step plan move).1.numbers.count number) := by
  have serves := serves_step plan ready move
  refine ⟨?_, fun none => ?_, fun reply member => ?_⟩
  · rw [length_repliesTo, ← List.count_append, ← serves.numbers, once]
  · refine serves.stays number (List.count_eq_zero.mp ?_)
    rw [← length_repliesTo, none]
    rfl
  · obtain ⟨⟨other, same⟩, among, rfl⟩ := List.mem_map.mp member
    obtain ⟨ended, equal⟩ := List.mem_filter.mp among
    obtain rfl : other = number := by simpa using equal
    exact serves.ends _ _ ended once

/-- A heartbeat that is not in the service, and does not come to it, is not concerned. -/
theorem absent_step (ready : sidecar.IsReady) (absent : number ∉ sidecar.numbers)
    (other : number ∉ sidecar.arriving move) :
    sidecar.attemptsOf number move = [] ∧ sidecar.repliesTo number move = [] ∧
      number ∉ (sidecar.step plan move).1.numbers := by
  have nowhere : (sidecar.numbers ++ sidecar.arriving move).count number = 0 := by
    rw [List.count_append, List.count_eq_zero.mpr absent, List.count_eq_zero.mpr other]
  rw [(serves_step plan ready move).numbers, List.count_append, Nat.add_eq_zero_iff] at nowhere
  refine ⟨attemptsOf_absent absent, ?_, List.count_eq_zero.mp nowhere.2⟩
  exact List.eq_nil_of_length_eq_zero (length_repliesTo.trans nowhere.1)

/-- A number that has been given is not given again. -/
theorem not_mem_arriving (known : number < sidecar.requests.length) :
    number ∉ sidecar.arriving move := by
  cases move with
  | heartbeat host request =>
    unfold arriving
    dsimp only
    split
    · simp
    · simpa using Nat.ne_of_lt known
  | _ => simp [arriving]

/-- A number that has been given stays so. -/
theorem known_step (ready : sidecar.IsReady) (known : number < sidecar.requests.length) :
    number < (sidecar.step plan move).1.requests.length := by
  have requests := (serves_step plan ready move).requests
  omega

/-- The patches of the heartbeat with a number that get their outcomes in some moves. -/
abbrev attempts (number : Nat) (sidecar : Sidecar) (moves : List Move) : List Attempt :=
  Machine.trace (step plan) (attemptsOf number) sidecar moves

/-- The replies to the heartbeat with a number in some moves. -/
abbrev repliesIn (number : Nat) (sidecar : Sidecar) (moves : List Move) : List Reply :=
  Machine.trace (step plan) (repliesTo number) sidecar moves

/-- Nothing more happens to a heartbeat that has left the service. -/
theorem absent_run (ready : sidecar.IsReady) (known : number < sidecar.requests.length)
    (absent : number ∉ sidecar.numbers) (moves : List Move) :
    sidecar.attempts plan number moves = [] ∧ sidecar.repliesIn plan number moves = [] ∧
      number ∉ (sidecar.run plan moves).1.numbers := by
  induction moves generalizing sidecar with
  | nil => exact ⟨rfl, rfl, absent⟩
  | cons move moves inductionHypothesis =>
    obtain ⟨untried, silent, away⟩ := absent_step plan ready absent (not_mem_arriving known)
    have next := (serves_step plan ready move).ready
    obtain ⟨noAttempts, noReplies, stays⟩ :=
      inductionHypothesis next (known_step plan ready known) away
    refine ⟨?_, ?_, stays⟩
    · rw [attempts, Machine.trace, untried]
      exact noAttempts
    · rw [repliesIn, Machine.trace, silent]
      exact noReplies

/-- A heartbeat that has been handled so far is handled to the end, if it is handled on while it is
    in the service. -/
theorem Handled.and_then {tried : List Attempt} {replied : List Reply} {moves : List Move}
    (first : Handled tried replied (sidecar.numbers.count number)) (ready : sidecar.IsReady)
    (known : number < sidecar.requests.length)
    (later : sidecar.numbers.count number = 1 → Handled (sidecar.attempts plan number moves)
      (sidecar.repliesIn plan number moves) ((sidecar.run plan moves).1.numbers.count number)) :
    Handled (tried ++ sidecar.attempts plan number moves)
      (replied ++ sidecar.repliesIn plan number moves)
      ((sidecar.run plan moves).1.numbers.count number) := by
  by_cases present : number ∈ sidecar.numbers
  · have once : sidecar.numbers.count number = 1 := by
      have some := List.count_pos_iff.mpr present
      have one := first.once
      omega
    rw [once] at first
    exact first.append (later once)
  · obtain ⟨noAttempts, noReplies, stays⟩ := absent_run plan ready known present moves
    rw [noAttempts, noReplies, List.append_nil, List.append_nil, List.count_eq_zero.mpr stays,
      ← List.count_eq_zero.mpr present]
    exact first

/-- A heartbeat that is in the service once is handled over a whole run. -/
theorem handled_run (ready : sidecar.IsReady) (known : number < sidecar.requests.length)
    (once : sidecar.numbers.count number = 1) (moves : List Move) :
    Handled (sidecar.attempts plan number moves) (sidecar.repliesIn plan number moves)
      ((sidecar.run plan moves).1.numbers.count number) := by
  induction moves generalizing sidecar with
  | nil =>
    change Handled [] [] (sidecar.numbers.count number)
    rw [once]
    exact ⟨rfl, fun _ => List.forall_mem_nil _, List.forall_mem_nil _⟩
  | cons move moves inductionHypothesis =>
    have alone : (sidecar.numbers ++ sidecar.arriving move).count number = 1 := by
      rw [List.count_append, once, List.count_eq_zero.mpr (not_mem_arriving known)]
    have next := (serves_step plan ready move).ready
    have stillKnown : number < (sidecar.step plan move).1.requests.length :=
      known_step plan ready known
    exact (handled_step plan ready alone).and_then plan next stillKnown
      fun present => inductionHypothesis next stillKnown present

/-- The number of a heartbeat that comes is in no other turn. -/
theorem count_arriving (ready : sidecar.IsReady) {move : Move}
    (arrives : sidecar.arriving move = [sidecar.requests.length]) :
    (sidecar.numbers ++ sidecar.arriving move).count sidecar.requests.length = 1 := by
  have fresh : sidecar.requests.length ∉ sidecar.numbers :=
    fun present => Nat.lt_irrefl _ (ready.numbered _ present)
  rw [arrives, List.count_append, List.count_eq_zero.mpr fresh]
  simp

/-- A heartbeat that comes with the first move of a run is handled over the whole run. -/
theorem handled_arrival (ready : sidecar.IsReady) {move : Move}
    (arrives : sidecar.arriving move = [sidecar.requests.length]) (moves : List Move) :
    let number := sidecar.requests.length
    Handled (sidecar.attempts plan number (move :: moves))
      (sidecar.repliesIn plan number (move :: moves))
      ((sidecar.run plan (move :: moves)).1.numbers.count number) := by
  intro number
  have serves := serves_step plan ready move
  have known : number < (sidecar.step plan move).1.requests.length := by
    rw [serves.requests, arrives]
    exact Nat.lt_succ_self _
  exact (handled_step plan ready (count_arriving ready arrives)).and_then plan serves.ready known
    fun present => handled_run plan serves.ready known present moves

end Sidecar

end GameSidecar
