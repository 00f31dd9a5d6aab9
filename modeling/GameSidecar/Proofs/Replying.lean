import GameSidecar.Proofs.Answering

/-!
# Every heartbeat is replied to

A heartbeat that is rejected for its body gets its reply at once. Any other one waits for those that
came before it, and for its own patches. Each outcome of a patch ends a heartbeat or takes it from
its status to its players, so that two outcomes for every heartbeat in the service are enough: then
the last one that has come is replied to, whatever the outcomes are and whatever else has happened
meanwhile.
-/

namespace GameSidecar

namespace Sidecar

open Endpoint (Attempt Reply replyOf receiveBody)
open Heartbeat (Turn Failure finished)

variable (plan : Watch.Plan) {sidecar : Sidecar}

/-- Some moves with the effects of each. -/
abbrev story (sidecar : Sidecar) (moves : List Move) : List (Move × List Effect) :=
  Machine.trace (step plan) (fun sidecar move => [(move, (sidecar.step plan move).2)]) sidecar moves

/-- A heartbeat that is rejected is answered at once, and the sidecar is as it was. -/
theorem rejected_alone (sidecar : Sidecar) (host : String) {request : Endpoint.Request}
    (rejected : Heartbeat.Request.isRejected request.body = true) :
    ∃ (reply : Reply) (lines : List Line), sidecar.step plan (.heartbeat host request) =
        (sidecar, lines.map .log ++ [.reply reply]) ∧
      reply.status = 400 ∧ reply.Classified request.body [] := by
  rcases Endpoint.receiveBody_cases host request.body with
    ⟨unread, -, reply, undecodable, received⟩ |
    ⟨read, -, other, lines, decoded, lacks, received⟩ | ⟨-, admitted, -⟩
  · exact ⟨reply, [], rejected_step plan received, Reply.status_of_isUndecodable undecodable,
      .of_unread unread undecodable⟩
  · exact ⟨_, lines, rejected_step plan received, rfl, .of_lacking read decoded lacks⟩
  · exact nomatch rejected.symm.trans admitted

/-- A heartbeat that is rejected leaves the sidecar as it is. -/
theorem step_rejected {move : Move} (rejected : move.isRejected = true) :
    (sidecar.step plan move).1 = sidecar := by
  cases move with
  | heartbeat host request =>
    obtain ⟨reply, lines, same, -⟩ := rejected_alone plan sidecar host rejected
    rw [same]
  | _ => cases rejected

/-- Without the heartbeats that are rejected a run ends the same, and every other move has the same
    effects. -/
theorem run_without_rejected (moves : List Move) :
    (sidecar.run plan (moves.filter fun move => !move.isRejected)).1 = (sidecar.run plan moves).1 ∧
      sidecar.story plan (moves.filter fun move => !move.isRejected) =
        (sidecar.story plan moves).filter fun entry => !entry.1.isRejected := by
  induction moves generalizing sidecar with
  | nil => exact ⟨rfl, rfl⟩
  | cons move moves inductionHypothesis =>
    cases rejected : move.isRejected with
    | true =>
      obtain ⟨same, told⟩ := @inductionHypothesis sidecar
      have stays : (sidecar.step plan move).1 = sidecar := step_rejected plan rejected
      rw [List.filter_cons_of_neg (by simp [rejected])]
      refine ⟨?_, ?_⟩
      · rw [same, run, run, Machine.run_cons, stays]
      · rw [told, story, story, Machine.trace, stays, List.filter_append]
        simp [rejected]
    | false =>
      obtain ⟨same, told⟩ := @inductionHypothesis (sidecar.step plan move).1
      rw [List.filter_cons_of_pos (by simp [rejected])]
      refine ⟨same, ?_⟩
      rw [story, story, Machine.trace, Machine.trace, List.filter_append, ← told]
      simp [rejected]

/-- No run breaks off in a reply. -/
theorem unbroken_run (ready : sidecar.IsReady) (moves : List Move) :
    ∀ reply ∈ replies (sidecar.run plan moves).2, reply ≠ .broken := by
  induction moves generalizing sidecar with
  | nil => exact List.forall_mem_nil _
  | cons move moves inductionHypothesis =>
    obtain ⟨answer, given⟩ := ready.texts.answer
    rw [run, Machine.run_cons, replies_append]
    refine List.forall_mem_append.mpr ⟨fun reply member => ?_, ?_⟩
    · exact (gives_step plan given move reply member).1
    · exact inductionHypothesis (serves_step plan ready move).ready

section Awaiting

/-- How many outcomes of patches some moves bring. -/
def outcomes : List Move → Nat
  | [] => 0
  | move :: moves => move.outcomes + outcomes moves

/-- A heartbeat in the service waits for some outcomes of patches at most: for two of each heartbeat
    before it, and for its own. While the first one has its players patched it is one less. -/
def Awaits (sidecar : Sidecar) (number most : Nat) : Prop :=
  ∃ front back, sidecar.numbers = front ++ number :: back ∧
    2 * front.length + sidecar.service.tries ≤ most

variable {number most : Nat}

/-- What holds the service waits for an outcome, and for two at most. -/
theorem tries_bounds (service : Heartbeat.Service) : 1 ≤ service.tries ∧ service.tries ≤ 2 := by
  unfold Heartbeat.Service.tries
  split <;> decide

/-- What has not ended among some heartbeats one after the other is at the end of them. -/
theorem exists_rest {ended left front back : List Nat}
    (split : ended ++ left = front ++ number :: back) (goesOn : number ∉ ended) :
    ∃ rest, front = ended ++ rest ∧ left = rest ++ number :: back := by
  rcases List.append_eq_append_iff.mp split with ⟨rest, before, after⟩ | ⟨rest, before, after⟩
  · exact ⟨rest, before, after⟩
  · cases rest with
    | nil => exact ⟨[], by simpa using before.symm, by simpa using after.symm⟩
    | cons first rest =>
      obtain ⟨rfl, -⟩ := List.cons.inj after
      exact absurd (by simp [before]) goesOn

/-- A bound on what a heartbeat waits for may be raised. -/
theorem Awaits.mono {more : Nat} (awaits : sidecar.Awaits number most) (le : most ≤ more) :
    sidecar.Awaits number more := by
  obtain ⟨front, back, found, within⟩ := awaits
  exact ⟨front, back, found, within.trans le⟩

/-- With each outcome a heartbeat has one less to wait for, or it has ended. -/
theorem Awaits.step (ready : sidecar.IsReady) {move : Move}
    (awaits : sidecar.Awaits number (most + move.outcomes))
    (goesOn : number ∉ (sidecar.answered move).map Prod.fst) :
    (sidecar.step plan move).1.Awaits number most := by
  obtain ⟨front, back, found, within⟩ := awaits
  have serves := serves_step plan ready move
  have all : (sidecar.answered move).map Prod.fst ++ (sidecar.step plan move).1.numbers =
      front ++ number :: (back ++ sidecar.arriving move) := by
    rw [← serves.numbers, found, List.append_assoc, List.cons_append]
  obtain ⟨rest, before, after⟩ := exists_rest all goesOn
  refine ⟨rest, back ++ sidecar.arriving move, after, ?_⟩
  have tried := tries_bounds sidecar.service
  have triesNext := tries_bounds (sidecar.step plan move).1.service
  have single : move.outcomes ≤ 1 := by cases move <;> simp [Move.outcomes]
  have length : front.length = (sidecar.answered move).length + rest.length := by
    simp [before]
  -- If none has ended, the first one has one outcome less to wait for. Otherwise one that may have
  -- had two is gone.
  cases none : sidecar.answered move with
  | nil =>
    have busy : sidecar.numbers ≠ [] := by simp [found]
    have advances := serves.advances busy none
    rw [none] at length
    simp only [List.length_nil] at length
    omega
  | cons ended others =>
    rw [none, List.length_cons] at length
    omega

/-- A heartbeat that is in the service after a move has not ended in it. -/
theorem goesOn_of_mem (ready : sidecar.IsReady) {move : Move}
    (once : (sidecar.numbers ++ sidecar.arriving move).count number = 1)
    (stays : number ∈ (sidecar.step plan move).1.numbers) :
    number ∉ (sidecar.answered move).map Prod.fst ∧
      (sidecar.step plan move).1.numbers.count number = 1 := by
  have total := (handled_step plan ready once).once
  have left := List.count_pos_iff.mpr stays
  rw [length_repliesTo] at total
  exact ⟨List.count_eq_zero.mp (by omega), by omega⟩

/-- A heartbeat leaves the service with the outcomes that it waits for, whatever happens between
    them. -/
theorem gone_run (ready : sidecar.IsReady) (known : number < sidecar.requests.length)
    (moves : List Move)
    (awaits : number ∈ sidecar.numbers →
      sidecar.numbers.count number = 1 ∧ sidecar.Awaits number (outcomes moves)) :
    number ∉ (sidecar.run plan moves).1.numbers := by
  induction moves generalizing sidecar with
  | nil =>
    intro present
    obtain ⟨-, front, back, -, within⟩ := awaits present
    have tried := tries_bounds sidecar.service
    simp only [outcomes] at within
    omega
  | cons move moves inductionHypothesis =>
    by_cases present : number ∈ sidecar.numbers
    · obtain ⟨once, waits⟩ := awaits present
      rw [outcomes, Nat.add_comm] at waits
      have alone : (sidecar.numbers ++ sidecar.arriving move).count number = 1 := by
        rw [List.count_append, once, List.count_eq_zero.mpr (not_mem_arriving known)]
      refine inductionHypothesis (serves_step plan ready move).ready (known_step plan ready known)
        fun stays => ?_
      obtain ⟨goesOn, still⟩ := goesOn_of_mem plan ready alone stays
      exact ⟨still, waits.step plan ready goesOn⟩
    · exact (absent_run plan ready known present _).2.2

/-- A heartbeat that comes to the service has those before it to wait for, if it is not answered at
    once. -/
theorem awaits_arrival (ready : sidecar.IsReady) {move : Move}
    (arrives : sidecar.arriving move = [sidecar.requests.length])
    (goesOn : sidecar.requests.length ∉ (sidecar.answered move).map Prod.fst) :
    (sidecar.step plan move).1.Awaits sidecar.requests.length
      (2 * (sidecar.numbers.length + 1)) := by
  have split := (serves_step plan ready move).numbers
  rw [arrives] at split
  obtain ⟨rest, before, after⟩ := exists_rest split.symm goesOn
  refine ⟨rest, [], after, ?_⟩
  have tried := tries_bounds (sidecar.step plan move).1.service
  have length := congrArg List.length before
  rw [List.length_append] at length
  omega

/-- Two outcomes of patches for every heartbeat in the service, and two for the one that comes, are
    enough for it to leave the service. -/
theorem gone_arrival (ready : sidecar.IsReady) {move : Move}
    (arrives : sidecar.arriving move = [sidecar.requests.length])
    {moves : List Move} (enough : 2 * (sidecar.numbers.length + 1) ≤ outcomes moves) :
    sidecar.requests.length ∉ (sidecar.run plan (move :: moves)).1.numbers := by
  have serves := serves_step plan ready move
  refine gone_run plan serves.ready ?_ moves fun stays => ?_
  · rw [serves.requests, arrives]
    exact Nat.lt_succ_self _
  · obtain ⟨goesOn, still⟩ := goesOn_of_mem plan ready (count_arriving ready arrives) stays
    exact ⟨still, (awaits_arrival plan ready arrives goesOn).mono enough⟩

end Awaiting

/-- The outcome of a patch ends its heartbeat, or an accepted status takes it to its players. -/
theorem advances_patched {turn : Turn} {aspect : Heartbeat.Aspect}
    (held : sidecar.service.holder = some (turn, aspect)) (outcome : Except Cause Unit) :
    (∃ reply, (turn.number, reply) ∈ sidecar.answered (.patched outcome)) ∨
      (outcome = .ok () ∧ aspect = .status ∧
        (sidecar.step plan (.patched outcome)).1.service.holder = some (turn, .players)) := by
  rcases Heartbeat.Service.complete_turns held (sidecar.heard turn aspect outcome) with
    ⟨accepted, first, onward, -, -⟩ | ⟨done, -, ended⟩
  · refine .inr ⟨outcome_of_heard accepted, first, ?_⟩
    rw [step_patched held]
    exact onward
  · refine .inl ⟨replyOf sidecar.reconciler.session (sidecar.verdict turn aspect outcome), ?_⟩
    rw [answered_patched held, ended, List.map_cons]
    exact .head _

/-- How heartbeats are answered from some point of the work of a sidecar on. -/
structure Answers (sidecar : Sidecar) : Prop where
  /-- A heartbeat that is rejected for its body gets its reply at once, and nothing else happens. -/
  rejected : ∀ (host : String) (request : Endpoint.Request),
    Heartbeat.Request.isRejected request.body = true →
    ∃ (reply : Reply) (lines : List Line), sidecar.step plan (.heartbeat host request) =
        (sidecar, lines.map .log ++ [.reply reply]) ∧
      reply.status = 400 ∧ reply.Classified request.body []
  /-- Any other heartbeat, whatever happens after it, gets one reply or is still in the service. It
      is there only as long as its patches are accepted. The reply is of the class that its body and
      its patches ask for, and it has come when two patches have had their outcomes for it and for
      every heartbeat before it. -/
  admitted : ∀ (host : String) (request : Endpoint.Request) (moves : List Move),
    Heartbeat.Request.isRejected request.body = false →
    let number := sidecar.requests.length
    let run := Move.heartbeat host request :: moves
    let replies := sidecar.repliesIn plan number run
    let attempts := sidecar.attempts plan number run
    replies.length + (sidecar.run plan run).1.numbers.count number = 1 ∧
      (replies = [] → ∀ attempt ∈ attempts, attempt.outcome = .ok ()) ∧
      (∀ reply ∈ replies, reply.Classified request.body attempts) ∧
      (2 * (sidecar.numbers.length + 1) ≤ outcomes moves → replies.length = 1)
  /-- At every point of a run the outcome of a patch is followed by the reply to its heartbeat, or
      by the patch of the players if it is the status that was accepted. -/
  advances : ∀ (moves : List Move) (turn : Turn) (aspect : Heartbeat.Aspect)
    (outcome : Except Cause Unit),
    let reached := (sidecar.run plan moves).1
    reached.service.holder = some (turn, aspect) →
    (∃ reply, (turn.number, reply) ∈ reached.answered (.patched outcome)) ∨
      (outcome = .ok () ∧ aspect = .status ∧
        (reached.step plan (.patched outcome)).1.service.holder = some (turn, .players))
  /-- There are no other replies to heartbeats, at any point of a run. -/
  only : ∀ (moves : List Move) (move : Move), move.isRejected = false →
    let reached := (sidecar.run plan moves).1
    replies (reached.step plan move).2 = (reached.answered move).map Prod.snd
  /-- No reply of a run breaks off. -/
  unbroken : ∀ moves, ∀ reply ∈ replies (sidecar.run plan moves).2, reply ≠ .broken
  /-- A run without the heartbeats that are rejected ends the same, and every other move of it has
      the same effects: the same patches and the same replies. -/
  unaffected : ∀ moves : List Move,
    (sidecar.run plan (moves.filter fun move => !move.isRejected)).1 = (sidecar.run plan moves).1 ∧
      sidecar.story plan (moves.filter fun move => !move.isRejected) =
        (sidecar.story plan moves).filter fun entry => !entry.1.isRejected

/-- Whatever a sidecar has been doing, if its session consists of texts, all heartbeats from then on
    are classified and replied to, and those that are rejected have no effect. -/
theorem heartbeats_classified (ready : sidecar.IsReady) : sidecar.Answers plan where
  rejected host _ rejected := rejected_alone plan sidecar host rejected
  admitted host request moves admitted := by
    rcases Endpoint.receiveBody_cases host request.body with
      ⟨-, rejected, -⟩ | ⟨-, rejected, -⟩ | ⟨read, -, other, report, decoded, full, received⟩
    · exact nomatch rejected.symm.trans admitted
    · exact nomatch rejected.symm.trans admitted
    · have arrives : sidecar.arriving (.heartbeat host request) = [sidecar.requests.length] := by
        simp [arriving, received]
      have handled := handled_arrival plan ready arrives moves
      refine ⟨handled.once, handled.going, fun reply member =>
        (handled.ending reply member).classified read decoded full, fun enough => ?_⟩
      have gone := gone_arrival plan ready arrives enough
      have total := handled.once
      rw [List.count_eq_zero.mpr gone] at total
      exact total
  advances _ _ _ outcome held := advances_patched plan held outcome
  only _ _ admitted := replies_step plan admitted
  unbroken := unbroken_run plan ready
  unaffected := run_without_rejected plan

/-- A sidecar whose heartbeats have been coming for a while: one has its status patched, and another
    one waits. -/
def amidst : Sidecar where
  reconciler := .started ⟨⟨.gameServer, "default", "gs"⟩, none⟩ "default" "gs" {}
  service := ⟨⟨some .standingBy, "Healthy", 0⟩, some (⟨0, ⟨.active, "Healthy", ["ann"]⟩⟩, .status),
    [⟨1, ⟨.active, "Healthy", []⟩⟩]⟩
  requests := [⟨"POST", "/v1/sessionHosts/gs", "", .empty⟩,
    ⟨"POST", "/v1/sessionHosts/gs", "", .empty⟩]

/-- While one heartbeat waits for its players to be patched, one that cannot be read and one that
    has a new status come. The patches of the players and of the new status fail, and the status is
    sent once more by a heartbeat that comes after that. -/
def troubled : List Move :=
  let beat (body : String) : Move :=
    .heartbeat "gs" ⟨"POST", "/v1/sessionHosts/gs", "", body.toUTF8⟩
  let overdue := beat
    "\x7b\"currentGameState\":\"Terminating\",\"currentGameHealth\":\"Unhealthy\"\x7d"
  [.patched (.ok ()), beat "\x7b", overdue, .patched (.error (.api (some 500) none)),
    .patched (.error (.api (some 503) none)), overdue, .patched (.ok ())]

/-- The heartbeat with the status is told that this could not be patched, the one with the players
    that those could not. The one that comes last is told what the session is. -/
theorem heartbeats_classified_amidst :
    let plan : Watch.Plan := ⟨⟨.gameServer, "default", "gs"⟩, none⟩
    let failed (aspect : Heartbeat.Aspect) (text : String) : Reply :=
      .refusal 500 ("error updating " ++ aspect.label ++ ": patch " ++ text)
    amidst.IsReady ∧ amidst.Answers plan ∧
      (replies (amidst.run plan troubled).2).map Reply.status = [400, 500, 200, 500, 200] ∧
      amidst.repliesIn plan 0 troubled =
        [failed .players "GameServerDetail default/gs failed: 500 None"] ∧
      amidst.repliesIn plan 2 troubled =
        [failed .status "GameServer default/gs/status failed: 503 None"] ∧
      (amidst.repliesIn plan 3 troubled).map Reply.status = [200] := by
  have ready : amidst.IsReady := ⟨Session.holdsTexts_initial, nofun, by decide⟩
  exact ⟨ready, heartbeats_classified _ ready, by decide +kernel, by decide +kernel,
    by decide +kernel, by decide +kernel⟩

end Sidecar

end GameSidecar
