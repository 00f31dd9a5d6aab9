import GameSidecar.Proofs.Passage
import GameSidecar.Proofs.Waiting

/-!
# The sleeps of a watch

Whatever happens during a run, a watch sleeps only after a failed cycle, and as long as its backoff
says for some number of failures in a row. The first sleep of a run follows the first failure: it
takes a second, whatever the cap. A cap of less than a second is therefore exceeded by every watch
that sleeps at all, while a longer one never is.
-/

namespace GameSidecar.Watch

/-- The seconds of the sleeps among some effects, in order. -/
def sleeps (effects : List Effect) : List Rat :=
  effects.filterMap fun effect =>
    match effect with
    | .sleep seconds => some seconds
    | _ => none

/-- Sleeps come in the order of the effects. -/
@[simp] theorem sleeps_append (front back : List Effect) :
    sleeps (front ++ back) = sleeps front ++ sleeps back :=
  List.filterMap_append

@[simp] theorem sleeps_lines (lines : List Line) : sleeps (lines.map .log) = [] := by
  simp [sleeps]

/-- A sleep after the first failure takes a second. -/
theorem Plan.wait_one (plan : Plan) : plan.backoff.wait 1 = 1 := by
  have bounded : plan.atMost 1 ≤ 1 := by
    cases capped : plan.cap with
    | none => simp [atMost, capped]
    | some cap => simp [atMost, capped]
  simpa [bounded] using plan.wait_eq 1

/-- No sleep takes longer than the cap and a second. -/
theorem Plan.wait_le (plan : Plan) {cap : Rat} (capped : plan.cap = some cap) (failures : Nat) :
    plan.backoff.wait failures ≤ max 1 cap := by
  rw [plan.wait_eq]
  refine max_le_max le_rfl ?_
  simp [atMost, capped]

variable (plan : Plan)

/-- What an outcome means for the sleep of a watch. -/
inductive Counts (watch : Watch) (outcome : Watch × List Effect) : Prop
  /-- The watch does not sleep, and has no failures in a row if it had none. -/
  | awake (none : sleeps outcome.2 = []) (fresh : watch.failures = 0 → outcome.1.failures = 0)
  /-- The watch sleeps once, after one more failure. -/
  | asleep (once : sleeps outcome.2 = [plan.backoff.wait (watch.failures + 1)])

variable {plan} {watch : Watch}

/-- A cycle that fails counts one more failure, and any other end starts anew. -/
theorem EndsCycle.counts {act : Watch → Watch × List Effect} (ends : EndsCycle plan act)
    (watch : Watch) : Counts plan watch (act watch) := by
  cases ends with
  | rests => exact .awake rfl fun _ => rfl
  | finishes ending => exact .awake rfl id
  | fails error =>
    simp only [fail]
    split
    · exact .asleep rfl
    · exact .awake rfl id

/-- On each way that a watch can take failures are counted as they should be. -/
theorem Way.counts {outcome : Watch × List Effect} (way : Way plan watch outcome) :
    Counts plan watch outcome := by
  cases way with
  | stays | hands | lists | opens => exact .awake rfl id
  | ends away ends => exact ends.counts watch
  | leaves within ends =>
    cases ends.counts watch with
    | awake none fresh => exact .awake none fresh
    | asleep once => exact .asleep once

/-- What is learned and what is logged makes no difference to that. -/
theorem Passes.counts {outcome : Watch × List Effect} (passes : Passes plan watch outcome) :
    Counts plan watch outcome := by
  obtain ⟨known, lines, way⟩ := passes
  cases way.counts with
  | awake none fresh => exact .awake (by simpa using none) fresh
  | asleep once => exact .asleep (by simpa using once)

variable (plan)

/-- A stop does not count. -/
theorem counts_stop (watch : Watch) : Counts plan watch (watch.stop plan) := by
  unfold stop
  split
  · exact .awake rfl id
  · refine .awake ?_ id
    split <;> rfl

/-- An item of the stream counts if it ends the cycle. -/
theorem counts_take (watch : Watch) : Counts plan watch (watch.step plan .take) := by
  by_cases streaming : watch.phase = .streaming
  · cases queue : watch.queue with
    | nil =>
      rw [step_take_of_empty plan streaming queue]
      exact .awake rfl id
    | cons item later =>
      rw [step_take plan streaming queue]
      let shortened : Watch := { watch with queue := later }
      have within : shortened.Streams := .inl streaming
      have passes : Passes plan shortened (shortened.takeItem plan item) :=
        passes_takeItem within item
      cases passes.counts with
      | awake none fresh => exact .awake none fresh
      | asleep once => exact .asleep once
  · rw [step_take_of_ne plan streaming]
    exact .awake rfl id

/-- Every step counts as it should. -/
theorem counts_step (watch : Watch) (move : Move) :
    Counts plan watch (watch.step plan move) := by
  by_cases isBlind : move.isBlind = true
  · rcases passes_step plan isBlind with passes | unawaited
    · exact passes.counts
    · rw [unawaited]
      exact .awake rfl id
  cases move with
  | stop => exact counts_stop plan watch
  | post stream item =>
    refine .awake rfl fun fresh => ?_
    have same : (watch.post stream item).failures = watch.failures := by
      rw [post_eq]
      split <;> rfl
    exact same.trans fresh
  | take => exact counts_take plan watch
  | _ => exact absurd rfl isBlind

/-- All sleeps so far follow the backoff. The first one has followed the first failure, and before
    it there was none. -/
structure Accounts (slept : List Rat) (watch : Watch) : Prop where
  waits : ∀ seconds ∈ slept, ∃ failures, seconds = plan.backoff.wait failures
  fresh : slept = [] → watch.failures = 0
  first : slept = [] ∨ plan.backoff.wait 1 ∈ slept

/-- Sleeps that follow the backoff do so after one more step. -/
theorem Accounts.step {slept : List Rat} (accounts : Accounts plan slept watch) (move : Move) :
    Accounts plan (slept ++ sleeps (watch.step plan move).2) (watch.step plan move).1 := by
  cases counts_step plan watch move with
  | awake none fresh =>
    rw [none, List.append_nil]
    exact ⟨accounts.waits, fun unslept => fresh (accounts.fresh unslept), accounts.first⟩
  | asleep once =>
    rw [once]
    constructor
    · intro seconds among
      rcases List.mem_append.mp among with earlier | now
      · exact accounts.waits seconds earlier
      · exact ⟨_, List.mem_singleton.mp now⟩
    · simp
    · right
      rcases accounts.first with unslept | earlier
      · simp [unslept, accounts.fresh unslept]
      · exact List.mem_append_left _ earlier

/-- In every run the sleeps follow the backoff. -/
theorem accounts_run (moves : List Move) :
    Accounts plan (sleeps (({} : Watch).run plan moves).2) (({} : Watch).run plan moves).1 := by
  induction moves using List.reverseRecOn with
  | nil =>
    have unslept : sleeps [] = [] := rfl
    exact ⟨nofun, fun _ => rfl, .inl unslept⟩
  | append_singleton front move inductionHypothesis =>
    rw [run, Machine.run_append, Machine.run_single, sleeps_append]
    exact inductionHypothesis.step plan move

/-- In every run no sleep takes longer than a second or the cap, whichever is more. The cap bounds
    all of them exactly if it is a second at least, or if the watch does not sleep. -/
theorem sleeps_within_cap (target : Target) (cap : Rat) (moves : List Move) :
    let slept := sleeps (({} : Watch).run ⟨target, some cap⟩ moves).2
    (∀ seconds ∈ slept, seconds ≤ max 1 cap) ∧
      ((∀ seconds ∈ slept, seconds ≤ cap) ↔ 1 ≤ cap ∨ slept = []) := by
  intro slept
  let plan : Plan := ⟨target, some cap⟩
  have accounts : Accounts plan slept _ := accounts_run plan moves
  have within : ∀ seconds ∈ slept, seconds ≤ max 1 cap := by
    intro seconds among
    obtain ⟨failures, rfl⟩ := accounts.waits seconds among
    exact plan.wait_le rfl failures
  refine ⟨within, fun bounded => ?_, ?_⟩
  · rcases accounts.first with unslept | first
    · exact .inr unslept
    · exact .inl (plan.wait_one ▸ bounded _ first)
  · rintro (long | unslept) seconds among
    · exact max_eq_right long ▸ within seconds among
    · simp [unslept] at among

/-- A watch with a cap of half a second sleeps for a second after its first failure. -/
theorem sleeps_beyond_cap :
    let plan : Plan := ⟨⟨.gameServer, "default", "gs"⟩, some (1 / 2)⟩
    let slept := sleeps
      (({} : Watch).run plan [.proceed, .listed (.error (.api (some 503) none))]).2
    slept = [1] ∧ ¬∀ seconds ∈ slept, seconds ≤ 1 / 2 := by
  intro plan slept
  have once : slept = [plan.backoff.wait 1] := rfl
  rw [once, plan.wait_one]
  exact ⟨rfl, by norm_num⟩

end GameSidecar.Watch
