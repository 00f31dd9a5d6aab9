import GameSidecar.Failure
import GameSidecar.Proofs.Retrying
import Mathlib.Tactic.SplitIfs

/-!
# Causes before and after they are made into errors

A call may be attempted again inside the action that makes a failure into an error, where the bare
cause is classed, or around it, where the error is. The two agree on an error that is there already,
on a failure or a timeout of the connection itself, and on every cause that has nothing to do with
the connection. They part on what the HTTP transport raises, and on answers with a status after
which the same call may succeed: such a cause passes as soon as it has been made into an error, and
not before.

The names of causes do not tell the two kinds of timeout apart, nor a failure of the connection from
one that the transport raises under the same name.
-/

namespace GameSidecar

namespace Cause

/-- A cause that has been made into an error while an action was tried. -/
def wrapped (cause : Cause) (action : String) : Cause :=
  .store (cause.toError action)

/-- A cause that is worth another attempt only once it has been made into an error: the transport
    has failed, or the server has answered with a status that passes. -/
def passesOnceWrapped : Cause → Bool
  | .transport _ _ => true
  | .api status _ => StoreError.passes (statusJson status)
  | _ => false

/-- Whatever was tried, a cause and the error that it is made into are classed alike. -/
def ClassedAlike (cause : Cause) : Prop :=
  ∀ action, cause.isRetryable = (cause.wrapped action).isRetryable

/-- What is made into an error is classed as its cause is, or it passes since then. -/
theorem isRetryable_wrapped (cause : Cause) (action : String) :
    (cause.wrapped action).isRetryable = (cause.isRetryable || cause.passesOnceWrapped) := by
  cases cause with
  | store error => simp [wrapped, toError, isRetryable, passesOnceWrapped]
  | _ => rfl

/-- A cause that passes since then did not pass before. -/
theorem not_isRetryable_of_passesOnceWrapped {cause : Cause}
    (passes : cause.passesOnceWrapped = true) : cause.isRetryable = false := by
  cases cause with
  | transport | api => rfl
  | _ => cases passes

/-- A cause is classed as its error is, unless it passes only once it has been made into one. -/
theorem classedAlike_iff {cause : Cause} :
    cause.ClassedAlike ↔ cause.passesOnceWrapped = false := by
  unfold ClassedAlike
  simp only [isRetryable_wrapped]
  cases passes : cause.passesOnceWrapped with
  | false => simp
  | true => simp [not_isRetryable_of_passesOnceWrapped passes]

/-- An error is not made into another one. -/
theorem toError_wrapped (cause : Cause) (action again : String) :
    (cause.wrapped action).toError again = cause.toError action := rfl

/-- A cause of the connection or of the program never passes only once it is an error. -/
theorem passesOnceWrapped_named (name text : String) :
    (named name text).passesOnceWrapped = false := by
  unfold named
  split_ifs <;> rfl

/-- A cause of the transport always does, unless it is a warning. -/
theorem passesOnceWrapped_transported (name text : String) :
    (transported name text).passesOnceWrapped = !name.endsWith "Warning" := by
  unfold transported
  split_ifs <;> simp_all [passesOnceWrapped]

end Cause

namespace RetryPolicy

variable {α ε ζ : Type}

/-- A course whose result has another cause in the place of its own. -/
def Course.mapCause (change : ε → ζ) (course : Course ε α) : Course ζ α :=
  ⟨course.attempts, course.waits, course.result.map (Except.mapError change)⟩

variable {retryable : ε → Bool} {classed : ζ → Bool} {change : ε → ζ}

/-- An outcome settles a call as it does when its cause is changed to one that is classed alike. -/
theorem settles_mapError {outcome : Except ε α}
    (alike : ∀ cause, outcome = .error cause → classed (change cause) = retryable cause) :
    settles classed (outcome.mapError change) = settles retryable outcome := by
  cases outcome with
  | ok value => rfl
  | error cause => exact congrArg (! ·) (alike cause rfl)

/-- Causes that are changed into others of their class leave the course of a call as it is. -/
theorem courseFrom_mapError (policy : RetryPolicy) (attempts : Nat)
    {outcomes : List (Except ε α)}
    (alike : ∀ cause, .error cause ∈ outcomes → classed (change cause) = retryable cause) :
    policy.courseFrom classed attempts (outcomes.map (Except.mapError change)) =
      (policy.courseFrom retryable attempts outcomes).mapCause change := by
  induction outcomes generalizing attempts with
  | nil => rfl
  | cons outcome outcomes inductionHypothesis =>
    have same : settles classed (outcome.mapError change) = settles retryable outcome :=
      settles_mapError fun cause failed => alike cause (failed ▸ List.mem_cons_self)
    have later := inductionHypothesis (attempts + 1) fun cause member =>
      alike cause (.tail _ member)
    simp only [List.map_cons, courseFrom, next_eq, same, later]
    by_cases final : (settles retryable outcome || policy.isExhausted (attempts + 1)) = true
    · simp only [if_pos final]
      rfl
    · simp only [if_neg final]
      rfl

end RetryPolicy

/-- A cause and its error are classed alike unless it is one that passes only once it is an error.
    Of causes that a program or the connection raises none is, and of those that the transport
    raises each but the warnings. An error stays the same if it is made into one again. Causes that
    are classed alike are attempted again alike, before they are made into errors and after. -/
theorem Cause.classed_alike_unless_passesOnceWrapped (cause : Cause) :
    (cause.ClassedAlike ↔ cause.passesOnceWrapped = false) ∧
    (∀ action, (cause.wrapped action).isRetryable =
      (cause.isRetryable || cause.passesOnceWrapped)) ∧
    (∀ name text, (named name text).ClassedAlike) ∧
    (∀ name text, (transported name text).ClassedAlike ↔ name.endsWith "Warning" = true) ∧
    (∀ action again, (cause.wrapped action).toError again = cause.toError action) ∧
    ∀ {α : Type} (policy : RetryPolicy) (action : String) (outcomes : List (Except Cause α)),
      (∀ failed, .error failed ∈ outcomes → failed.ClassedAlike) →
      policy.course isRetryable (outcomes.map (Except.mapError (wrapped · action))) =
        (policy.course isRetryable outcomes).mapCause (wrapped · action) := by
  refine ⟨classedAlike_iff, isRetryable_wrapped cause, ?_, ?_, toError_wrapped cause, ?_⟩
  · intro name text
    exact classedAlike_iff.mpr (passesOnceWrapped_named name text)
  · intro name text
    rw [classedAlike_iff, passesOnceWrapped_transported, Bool.not_eq_false']
  · intro α policy action outcomes alike
    exact policy.courseFrom_mapError 0 fun failed member => (alike failed member action).symm

/-- A timeout of the connection is worth another attempt in either form, and a timeout of the
    transport only after it has been made into an error. -/
theorem Cause.timeouts_classed_apart :
    let ours := named "TimeoutError" "Read timed out."
    let theirs := transported "TimeoutError" "Read timed out."
    (ours.isRetryable = true ∧ (ours.wrapped "list").isRetryable = true) ∧
      theirs.isRetryable = false ∧ (theirs.wrapped "list").isRetryable = true ∧
        ¬theirs.ClassedAlike := by
  intro ours theirs
  have passes : theirs.passesOnceWrapped = true :=
    (passesOnceWrapped_transported ..).trans (by decide +kernel)
  refine ⟨⟨rfl, rfl⟩, not_isRetryable_of_passesOnceWrapped passes, ?_, ?_⟩
  · rw [isRetryable_wrapped, passes, Bool.or_true]
  · rw [classedAlike_iff, passes]
    exact nofun

end GameSidecar
