import GameSidecar.Log

/-!
# Runs of a machine

The watch, the reconciler and the whole sidecar are machines of one kind: a move changes the state
and asks for effects. A run makes some moves one after the other. What is to be known of every
step beside its effects is collected in a trace.

Laws about runs are stated once, for every such machine. A run can be cut anywhere, and a property
that every step keeps holds after every run.
-/

namespace GameSidecar.Machine

variable {σ μ ε ο : Type} (step : σ → μ → σ × List ε) (seen : σ → μ → List ο)

/-- The state after some moves, and all effects in order. -/
def run (state : σ) : List μ → σ × List ε
  | [] => (state, [])
  | move :: moves =>
    let (next, effects) := step state move
    let (last, more) := run next moves
    (last, effects ++ more)

/-- What is seen of the steps that some moves make, in order. -/
def trace (state : σ) : List μ → List ο
  | [] => []
  | move :: moves => seen state move ++ trace (step state move).1 moves

@[simp] theorem run_nil (state : σ) : run step state [] = (state, []) := rfl

/-- A run goes on from where its first move has led, with what that has brought before the rest. -/
theorem run_cons (state : σ) (move : μ) (moves : List μ) :
    run step state (move :: moves) =
      ((run step (step state move).1 moves).1,
        (step state move).2 ++ (run step (step state move).1 moves).2) := rfl

/-- A run of one move is that move. -/
@[simp] theorem run_single (state : σ) (move : μ) :
    run step state [move] = step state move := by
  simp [run_cons]

@[simp] theorem trace_nil (state : σ) : trace step seen state [] = [] := rfl

/-- What is seen in a run of one move is what is seen in that move. -/
@[simp] theorem trace_single (state : σ) (move : μ) :
    trace step seen state [move] = seen state move := by
  simp [trace]

/-- The second part of a run starts where the first one has ended. -/
theorem run_append (state : σ) (front back : List μ) :
    run step state (front ++ back) =
      ((run step (run step state front).1 back).1,
        (run step state front).2 ++ (run step (run step state front).1 back).2) := by
  induction front generalizing state with
  | nil => simp
  | cons move front inductionHypothesis =>
    simp only [List.cons_append, run_cons, inductionHypothesis, List.append_assoc]

/-- What is seen in a second run comes after what is seen in the first one. -/
theorem trace_append (state : σ) (front back : List μ) :
    trace step seen state (front ++ back) =
      trace step seen state front ++ trace step seen (run step state front).1 back := by
  induction front generalizing state with
  | nil => rfl
  | cons move front inductionHypothesis =>
    simp only [List.cons_append, trace, inductionHypothesis, run_cons, List.append_assoc]

/-- What holds at first and is kept by every step that is made holds after a run. -/
theorem run_keeps (holds : σ → Prop) (allowed : μ → Prop)
    (kept : ∀ state move, allowed move → holds state → holds (step state move).1)
    (state : σ) (moves : List μ) (all : ∀ move ∈ moves, allowed move) (first : holds state) :
    holds (run step state moves).1 := by
  induction moves generalizing state with
  | nil => exact first
  | cons move moves inductionHypothesis =>
    have next : holds (step state move).1 := kept state move (all move (by simp)) first
    exact inductionHypothesis _ (fun later member => all later (by simp [member])) next

end GameSidecar.Machine
