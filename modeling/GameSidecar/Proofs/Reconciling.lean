import GameSidecar.Proofs.Handling
import GameSidecar.Reconciler

/-!
# What the reconciler makes of the deliveries

A run of the reconciler contains a run of its watch: every move of the reconciler is some moves of
the watch, which are told here, and some work of the allocator. So the watch in it observes and
delivers what any watch does.

The updates that come to the allocator are the deliveries of the watch, one at a time and in their
order. The first one that is the edge of the allocation is held until the detail record has been
read. Then its session is published, the watch is stopped, and nothing is delivered after it.
-/

namespace GameSidecar

/-- An update is the edge of the allocation. -/
def Allocates (update : Json × Json) : Prop :=
  update.1.lookupString ["status", "state"] = .found "StandingBy" ∧
    update.2.lookupString ["status", "state"] = .found "Active"

instance (update : Json × Json) : Decidable (Allocates update) :=
  inferInstanceAs (Decidable (_ ∧ _))

/-- The text at the end of a path in a record. It is empty where there is none, and where another
    value stands. -/
def textAt (record : Json) (path : List String) : String :=
  (record.lookupString path).value?.getD ""

/-- The players that the answer to a read of the detail record names: its list of texts, or none
    on any problem. -/
def companionPlayers : Except Cause Json → List String
  | .ok record => (record.lookupStrings ["spec", "initialPlayers"]).value?.getD []
  | .error _ => []

/-- The session of an allocation, by the record that shows it and the answer to the read of the
    detail record. -/
def allocatedSession (record : Json) (answer : Except Cause Json) : Session where
  state := .active
  sessionId := .string (textAt record ["status", "sessionID"])
  sessionCookie := .string (textAt record ["status", "sessionCookie"])
  initialPlayers := some ((companionPlayers answer).map .string)

namespace Allocator

/-- On the edge of the allocation the detail record is read, for the credentials of the record. -/
theorem review_of_allocates {allocator : Allocator} {old new : Json}
    (unallocated : allocator.allocated = false) (edge : Allocates (old, new)) :
    ∃ lines : List Line, allocator.review old new =
      ({ allocator with reading := some (credentials new).1 },
        lines.map .log ++ [.read allocator.companion]) := by
  have before : Record.state old = .found GameState.standingBy.name := edge.1
  have after : Record.state new = .found GameState.active.name := edge.2
  simp only [review, unallocated, Bool.false_eq_true, if_false, before, after, reviewStates,
    isEdge, decide_true, Bool.and_self, if_true]
  exact ⟨_, rfl⟩

/-- On any other update, and on every one after the allocation, at most a line is written. -/
theorem review_of_not_allocates {allocator : Allocator} {old new : Json}
    (noEdge : allocator.allocated = false → ¬Allocates (old, new)) :
    ∃ lines : List Line, allocator.review old new = (allocator, lines.map .log) := by
  unfold review
  split
  · exact ⟨[], rfl⟩
  · rename_i unallocated
    have noEdge := noEdge (by simpa using unallocated)
    split
    · exact ⟨[_], rfl⟩
    · exact ⟨[_], rfl⟩
    · rename_i oldState newState before after
      have other : isEdge oldState newState = false := by
        by_contra isEdge
        obtain ⟨rfl, rfl⟩ : oldState = GameState.standingBy.name ∧
            newState = GameState.active.name := by
          simpa [Allocator.isEdge] using isEdge
        exact noEdge ⟨before, after⟩
      simp only [reviewStates, other, Bool.false_eq_true, if_false]
      exact ⟨[_], rfl⟩
    · exact ⟨[_], rfl⟩

/-- The players of a read are those of its answer. -/
theorem players_readResult (allocator : Allocator) (answer : Except Cause Json) :
    (allocator.players (Api.readResult allocator.companion answer).1).1 =
      companionPlayers answer := by
  unfold Api.readResult
  split
  · rfl
  · rename_i record _
    simp only [players, companionPlayers, Record.initialPlayers]
    cases record.lookupStrings ["spec", "initialPlayers"] <;> rfl
  · rfl
  · rfl

/-- With the answer to the read, the session is published and the watch is stopped. -/
theorem complete_of_reading {allocator : Allocator} {record : Json}
    (reading : allocator.reading = some (credentials record).1) (answer : Except Cause Json) :
    ∃ lines : List Line,
      allocator.complete (Api.readResult allocator.companion answer).1 =
        ({ allocator with allocated := true, reading := none },
          lines.map .log ++ [.publish (allocatedSession record answer), .stop]) := by
  have players := players_readResult allocator answer
  have same : session (credentials record).1 (companionPlayers answer) =
      allocatedSession record answer := rfl
  simp only [complete, reading, players, same]
  exact ⟨_ ++ [_], by rw [List.map_append, List.append_assoc]; rfl⟩

/-- The detail record of the game server is the same after an update. -/
theorem companion_review (allocator : Allocator) (old new : Json) :
    (allocator.review old new).1.companion = allocator.companion := by
  by_cases edge : allocator.allocated = false ∧ Allocates (old, new)
  · obtain ⟨lines, reviewed⟩ := review_of_allocates edge.1 edge.2
    rw [reviewed]
    rfl
  · obtain ⟨lines, reviewed⟩ := review_of_not_allocates (not_and.mp edge)
    rw [reviewed]

/-- The detail record of the game server is the same after the read. -/
theorem companion_complete (allocator : Allocator)
    (outcome : Except StoreError (Option Json)) :
    (allocator.complete outcome).1.companion = allocator.companion := by
  unfold complete
  split <;> rfl

end Allocator

namespace Reconciler

variable (plan : Watch.Plan)

/-- What the watch of the reconciler asks for. -/
def watchEffects (effects : List Effect) : List Watch.Effect :=
  effects.filterMap fun effect =>
    match effect with
    | .watch effect => some effect
    | _ => none

@[simp] theorem watchEffects_nil : watchEffects [] = [] := rfl

/-- What the watch does comes in the order of the effects. -/
@[simp] theorem watchEffects_append (front back : List Effect) :
    watchEffects (front ++ back) = watchEffects front ++ watchEffects back :=
  List.filterMap_append

/-- Log lines are nothing of the watch. -/
@[simp] theorem watchEffects_lines (lines : List Line) : watchEffects (lines.map .log) = [] := by
  simp [watchEffects]

@[simp] theorem watchEffects_watch (effects : List Watch.Effect) :
    watchEffects (effects.map .watch) = effects := by
  simp [watchEffects]

/-- The moves of the watch that one thing is which the allocator asks for. -/
def movesFor : Allocator.Action → List Watch.Move
  | .stop => [.stop]
  | _ => []

/-- The moves of the watch that the allocator brings about: those that it asks for, and the end of
    the handler unless the detail record is to be read. -/
def movesOf (reviewed : Allocator × List Allocator.Action) : List Watch.Move :=
  reviewed.2.flatMap movesFor ++ if reviewed.1.reading.isSome then [] else [.handled none]

/-- The moves of the watch that a move of the reconciler is made of. -/
def watchMoves (reconciler : Reconciler) : Move → List Watch.Move
  | .start => []
  | .watch (.handled _) => []
  | .watch move => [move]
  | .update old new => movesOf (reconciler.allocator.review old new)
  | .review =>
    match reconciler.delivered? with
    | none => []
    | some (old, new) =>
      if reconciler.allocator.reading.isSome then []
      else movesOf (reconciler.allocator.review old new)
  | .read outcome =>
    if reconciler.allocator.reading.isNone then []
    else
      movesOf (reconciler.allocator.complete
        (Api.readResult reconciler.allocator.companion outcome).1)

/-- The watch of a reconciler makes some moves on the way to an outcome. -/
structure Moves (watch : Watch) (moves : List Watch.Move) (outcome : Reconciler × List Effect) :
    Prop where
  moved : outcome.1.watch = some (watch.run plan moves).1
  asked : watchEffects outcome.2 = (watch.run plan moves).2

variable {plan} {reconciler : Reconciler} {watch : Watch}

/-- Moves after moves are all of them, and lines beside them are no moves. -/
theorem Moves.append {front back : List Watch.Move} {first second : Reconciler × List Effect}
    (moved : Moves plan watch front first)
    (more : Moves plan (watch.run plan front).1 back second) :
    Moves plan watch (front ++ back) (second.1, first.2 ++ second.2) where
  moved := by
    rw [more.moved]
    simp only [Watch.run, Machine.run_append]
  asked := by
    rw [watchEffects_append, moved.asked, more.asked]
    simp only [Watch.run, Machine.run_append]

variable (plan)

/-- A reconciler that stands still makes no move of its watch. -/
theorem moves_still (watching : reconciler.watch = some watch) :
    Moves plan watch [] (reconciler, []) :=
  ⟨watching, rfl⟩

/-- A move of the watch is made by the watch. -/
theorem moves_moveWatch (watching : reconciler.watch = some watch) (move : Watch.Move) :
    Moves plan watch [move] (reconciler.moveWatch plan move) := by
  constructor <;> simp [moveWatch, watching]

/-- An action of the allocator is a stop of the watch, or no move of it. -/
theorem moves_perform (watching : reconciler.watch = some watch) (action : Allocator.Action) :
    Moves plan watch (movesFor action) (reconciler.perform plan action) := by
  cases action with
  | stop => exact moves_moveWatch plan watching _
  | _ => exact ⟨watching, rfl⟩

/-- The moves for several actions are made one after the other. -/
theorem moves_performAll (watching : reconciler.watch = some watch)
    (actions : List Allocator.Action) :
    Moves plan watch (actions.flatMap movesFor) (reconciler.performAll plan actions) := by
  induction actions generalizing reconciler watch with
  | nil => exact moves_still plan watching
  | cons action rest inductionHypothesis =>
    have first := moves_perform plan watching action
    exact first.append (inductionHypothesis first.moved)

/-- What is done of all that the allocator asks for leaves the allocator as it is. -/
theorem allocator_performAll (reconciler : Reconciler) (actions : List Allocator.Action) :
    (reconciler.performAll plan actions).1.allocator = reconciler.allocator := by
  induction actions generalizing reconciler with
  | nil => rfl
  | cons action rest inductionHypothesis =>
    refine (inductionHypothesis _).trans ?_
    cases action with
    | stop =>
      simp only [moveWatch]
      split <;> rfl
    | _ => rfl

/-- A handler comes to its end unless a read is waited for. -/
theorem moves_endHandler (watching : reconciler.watch = some watch) :
    Moves plan watch (if reconciler.allocator.reading.isSome then [] else [.handled none])
      (reconciler.endHandler plan) := by
  unfold endHandler
  split
  · exact moves_still plan watching
  · exact moves_moveWatch plan watching _

/-- A review is followed by the moves for its actions and by the end of the handler. -/
theorem moves_adopt (watching : reconciler.watch = some watch)
    (reviewed : Allocator × List Allocator.Action) :
    Moves plan watch (movesOf reviewed) (reconciler.adopt plan reviewed) := by
  let reviewing : Reconciler := { reconciler with allocator := reviewed.1 }
  have watches : reviewing.watch = some watch := watching
  have acted := moves_performAll plan watches reviewed.2
  have ended := moves_endHandler plan acted.moved
  rw [allocator_performAll] at ended
  exact acted.append ended

/-- Every move of the reconciler is some moves of its watch. -/
theorem moves_step (watching : reconciler.watch = some watch) (move : Move) :
    Moves plan watch (reconciler.watchMoves move) (reconciler.step plan move) := by
  have still : Moves plan watch [] (reconciler, []) := moves_still plan watching
  cases move with
  | start => simpa only [watchMoves, step, watching] using still
  | watch move =>
    cases move with
    | handled failure => exact still
    | _ => exact moves_moveWatch plan watching _
  | update old new => exact moves_adopt plan watching _
  | review =>
    cases delivered : reconciler.delivered? with
    | none => simpa only [watchMoves, step, delivered] using still
    | some update =>
      by_cases reading : reconciler.allocator.reading.isSome
      · simpa only [watchMoves, step, delivered, reading, if_true] using still
      · simp only [watchMoves, step, delivered, reading]
        exact moves_adopt plan watching _
  | read outcome =>
    by_cases idle : reconciler.allocator.reading.isNone
    · simpa only [watchMoves, step, idle, if_true] using still
    · simp only [watchMoves, step, idle]
      have adopted := moves_adopt plan watching (reconciler.allocator.complete
        (Api.readResult reconciler.allocator.companion outcome).1)
      exact ⟨adopted.moved, by simpa using adopted.asked⟩

end Reconciler

end GameSidecar
