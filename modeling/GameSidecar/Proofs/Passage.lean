import GameSidecar.Proofs.Queueing

/-!
# What a move can do

A stop and what a stream brings aside, a move that is waited for takes a watch along one of six
ways. The watch goes on with its stream, hands over an update, asks for a list, opens a stream, or
comes to the end of its cycle; if it has a stream then, it leaves it. On its way it learns something
and writes lines.

What holds on each of these ways holds for all the moves.
-/

namespace GameSidecar.Watch

variable (plan : Plan)

/-- How a cycle comes to its end: well, together with the watch, or by a failure. -/
inductive EndsCycle : (Watch → Watch × List Effect) → Prop
  | rests : EndsCycle rest
  | finishes (ending : Ending) : EndsCycle (·.finish plan ending)
  | fails (error : StoreError) : EndsCycle (·.fail plan error)

/-- A way that a watch takes to an outcome. -/
inductive Way (watch : Watch) : Watch × List Effect → Prop
  /-- It goes on with its stream. -/
  | stays (within : watch.Streams) : Way watch ({ watch with phase := .streaming }, [])
  /-- It hands over an update of its stream, or of a list. -/
  | hands (old new : Json) (next : Continuation) (source : next = .streaming ↔ watch.Streams) :
      Way watch ({ watch with phase := .delivering old new next }, [.deliver old new])
  /-- It asks for a list. -/
  | lists (away : ¬watch.Streams) : Way watch ({ watch with phase := .listing }, [.list])
  /-- It opens a stream. -/
  | opens (away : ¬watch.Streams) (running : watch.stopped = false) :
      Way watch ({ watch with streams := watch.streams + 1, queue := [], phase := .streaming },
        [.openStream (watch.streams + 1) watch.known.version])
  /-- It comes to the end of a cycle without a stream. -/
  | ends (away : ¬watch.Streams) {act : Watch → Watch × List Effect} (ends : EndsCycle plan act) :
      Way watch (act watch)
  /-- It leaves its stream and comes to the end of the cycle. -/
  | leaves (within : watch.Streams) {act : Watch → Watch × List Effect}
      (ends : EndsCycle plan act) : Way watch (watch.leave [] act)

/-- A watch passes to an outcome: it learns something, writes lines, and takes one of its ways. -/
inductive Passes (watch : Watch) : Watch × List Effect → Prop
  | along (known : Known) (lines : List Line) {outcome : Watch × List Effect}
      (way : Way plan { watch with known } outcome) :
      Passes watch (outcome.1, lines.map .log ++ outcome.2)

variable {plan} {watch : Watch}

/-- The end of a cycle makes no difference to the queue. -/
theorem EndsCycle.steady {act : Watch → Watch × List Effect} (ends : EndsCycle plan act)
    (watch : Watch) : Steady watch act := by
  cases ends with
  | rests => exact steady_rest watch
  | finishes ending => exact steady_finish plan watch ending
  | fails error => exact steady_fail plan watch error

/-- At the end of a cycle the watch takes nothing from its queue. -/
theorem EndsCycle.parked {act : Watch → Watch × List Effect} (ends : EndsCycle plan act)
    (watch : Watch) : (act watch).1.Parked := by
  cases ends with
  | rests => exact .inl rfl
  | finishes ending => exact .inr (.inr ⟨ending, rfl⟩)
  | fails error => exact parked_fail plan watch error

/-- What is done in one way passes, with nothing learned and no lines before it. -/
theorem Way.passes {outcome : Watch × List Effect} (way : Way plan watch outcome) :
    Passes plan watch outcome :=
  .along watch.known [] way

/-- What a watch has learned before makes no difference to where it can pass. -/
theorem Passes.of_known {known : Known} {outcome : Watch × List Effect}
    (passes : Passes plan { watch with known } outcome) : Passes plan watch outcome := by
  obtain ⟨later, lines, way⟩ := passes
  exact .along later lines way

/-- Lines that are written first make no difference either. -/
theorem Passes.after_lines {outcome : Watch × List Effect} (passes : Passes plan watch outcome)
    (lines : List Line) : Passes plan watch (outcome.1, lines.map .log ++ outcome.2) := by
  obtain ⟨known, later, way⟩ := passes
  rw [← List.append_assoc, ← List.map_append]
  exact .along known (lines ++ later) way

/-- A watch that comes to the end of its cycle leaves its stream, with some lines. -/
theorem EndsCycle.leaves {act : Watch → Watch × List Effect} (ends : EndsCycle plan act)
    (within : watch.Streams) (lines : List Line) : Passes plan watch (watch.leave lines act) :=
  (Way.leaves within ends).passes.after_lines lines

section

variable (away : ¬watch.Streams)
include away

/-- The end of a cycle is passed to with nothing learned and no lines before it. -/
theorem EndsCycle.passes {act : Watch → Watch × List Effect} (ends : EndsCycle plan act) :
    Passes plan watch (act watch) :=
  (Way.ends away ends).passes

/-- A stream is opened, or the cycle ends because the watch is stopped. -/
theorem passes_openStream : Passes plan watch watch.openStream := by
  unfold openStream
  split
  · exact EndsCycle.rests.passes away
  · rename_i running
    exact (Way.opens away (by simpa using running)).passes

/-- A cycle starts with a list or with a stream. -/
theorem passes_startCycle : Passes plan watch watch.startCycle := by
  unfold startCycle
  split
  · exact (Way.lists away).passes
  · exact passes_openStream away

/-- A list that has been worked through is followed by its stream, or breaks the watch off. -/
theorem passes_concludeListing (listing : Listing) :
    Passes plan watch (watch.concludeListing plan listing) := by
  unfold concludeListing
  split
  · rename_i known defect concluded
    have breaks : EndsCycle plan (·.finish plan (.broken defect)) := .finishes _
    have broken := @EndsCycle.passes plan { watch with known } away _ breaks
    exact broken.of_known
  · rename_i known concluded
    have opened := @passes_openStream plan { watch with known } away
    exact opened.of_known.after_lines [_]

/-- A list is worked off without a stream. One is opened when it has come to its end. -/
theorem passes_workOff (listing : Listing) (pending : List Json) :
    Passes plan watch (watch.workOff plan listing pending) := by
  induction pending generalizing watch listing with
  | nil => exact passes_concludeListing away _
  | cons item pending inductionHypothesis =>
    unfold workOff
    have observed : ¬({ watch with known := watch.known.observe item } : Watch).Streams := away
    split
    · rename_i old replaced
      have ofList : Continuation.listing (listing.advance item pending) = .streaming ↔
          ({ watch with known := watch.known.observe item } : Watch).Streams :=
        iff_of_false nofun observed
      exact (Way.hands old item _ ofList).passes.of_known
    · split
      · exact (EndsCycle.rests.passes observed).of_known
      · exact (inductionHypothesis observed _).of_known

/-- An answer is worked off up to a delivery, or to its end, or it is a failure. -/
theorem passes_takeAnswer (outcome : Except Cause Json) :
    Passes plan watch (watch.takeAnswer plan outcome) := by
  unfold takeAnswer
  split
  · exact (EndsCycle.fails _).passes away
  · split
    · exact (EndsCycle.finishes _).passes away
    · exact passes_workOff away _ _

end

section

variable (within : watch.Streams)
include within

/-- A version that has expired ends the cycle. -/
theorem passes_expire : Passes plan watch (watch.expire plan) := by
  let forgetful : Watch := { watch with known := { watch.known with version := .null } }
  have still : forgetful.Streams := within
  exact (EndsCycle.rests.leaves still [expiryLine plan.target]).of_known

/-- An event that brings nothing is followed by the next one, unless the watch is stopped. -/
theorem passes_stayOrLeave (lines : List Line) : Passes plan watch (watch.stayOrLeave lines) := by
  unfold stayOrLeave
  split
  · exact EndsCycle.rests.leaves within lines
  · rw [← List.append_nil (lines.map _)]
    exact (Way.stays within).passes.after_lines lines

/-- An event is learned, delivered, or ends the cycle. -/
theorem passes_takeEvent (event : Json) : Passes plan watch (watch.takeEvent plan event) := by
  unfold takeEvent
  split
  · rename_i known lines meant
    have stayed := @passes_stayOrLeave plan { watch with known } within lines
    exact stayed.of_known
  · rename_i known old new meant
    have learned : ({ watch with known } : Watch).Streams := within
    exact (Way.hands old new .streaming (iff_of_true rfl learned)).passes.of_known
  · exact passes_expire within
  · exact (EndsCycle.fails _).leaves within []
  · exact (EndsCycle.finishes _).leaves within []

/-- An item of the stream is learned, delivered, or ends the cycle. -/
theorem passes_takeItem (item : Item) : Passes plan watch (watch.takeItem plan item) := by
  cases item with
  | event event => exact passes_takeEvent within event
  | failed cause =>
    simp only [takeItem]
    split
    · exact passes_expire within
    · exact (EndsCycle.fails _).leaves within []
  | ended => exact EndsCycle.rests.leaves within _
  | stopped => exact EndsCycle.rests.leaves within _

end

/-- After a handler the watch goes on with the stream or with the list. -/
theorem passes_resume {old new : Json} {next : Continuation}
    (delivering : watch.phase = .delivering old new next) (lines : List Line) :
    Passes plan watch (watch.resume plan lines next) := by
  cases next with
  | streaming => exact passes_stayOrLeave (.inr ⟨old, new, delivering⟩) lines
  | listing listing =>
    have away : ¬watch.Streams := fun streams => streams.ne_delivering _ _ _ delivering
    have onward : Passes plan watch (if watch.stopped then watch.rest
        else watch.workOff plan listing listing.pending) := by
      split
      · exact EndsCycle.rests.passes away
      · exact passes_workOff away _ _
    exact onward.after_lines lines

variable (plan)

/-- A move that neither adds to the queue nor takes from it takes a watch along one of its ways, or
    is not waited for. -/
theorem passes_step {move : Move} (isBlind : move.isBlind = true) :
    Passes plan watch (watch.step plan move) ∨ watch.step plan move = (watch, []) := by
  cases move with
  | proceed =>
    cases phase : watch.phase with
    | ready =>
      left
      have away : ¬watch.Streams := Parked.not_streams (.inl phase)
      simp only [step, phase]
      split
      · exact (EndsCycle.finishes _).passes away
      · exact passes_startCycle away
    | _ => exact .inr (by simp only [step, phase])
  | listed outcome =>
    cases phase : watch.phase with
    | listing =>
      left
      simp only [step, phase]
      exact passes_takeAnswer (fun streams => streams.ne_listing phase) outcome
    | _ => exact .inr (by simp only [step, phase])
  | handled failure =>
    cases phase : watch.phase with
    | delivering old new next =>
      left
      simp only [step, phase]
      exact passes_resume phase _
    | _ => exact .inr (by simp only [step, phase])
  | slept =>
    cases phase : watch.phase with
    | sleeping =>
      left
      simp only [step, phase]
      exact passes_startCycle (Parked.not_streams (.inr (.inl phase)))
    | _ => exact .inr (by simp only [step, phase])
  | _ => cases isBlind

end GameSidecar.Watch
