import GameSidecar.Proofs.Edge

/-!
# Updates after the stop

A watch that is stopped looks at its flag where it would go on: after an item of a list, after an
event of a stream, and before it opens a stream or starts another cycle. It does not look between
the answer to a list call and the first item, nor between the end of its wait for an event and that
event. So one more update may be delivered after the stop, and never a second one.

What may still be delivered is counted from what the watch waits for. Nothing is left to a watch
that is between two cycles, whose handler is at work, or whose queue is empty: these are the moments
at which the stop takes effect at once.
-/

namespace GameSidecar.Watch

variable (plan : Plan) {watch : Watch}

/-- How many updates a stopped watch may still deliver. A list brings one at most, and so does an
    item of the queue that is no end. -/
def outstanding (watch : Watch) : Nat :=
  match watch.phase with
  | .listing => 1
  | .sleeping => if watch.known.version.isNull then 1 else 0
  | .streaming =>
    match watch.queue with
    | .ended :: _ | .stopped :: _ => 0
    | _ => 1
  | .ready | .delivering _ _ _ | .ended _ => 0

/-- An outcome of a stopped watch stays within a number of updates: those that were delivered on the
    way, and those that may follow. -/
structure Within (most : Nat) (outcome : Watch × List Effect) : Prop where
  stopped : outcome.1.stopped = true
  enough : (deliveries outcome.2).length + outcome.1.outstanding ≤ most

/-- A stopped watch may deliver one more update at most. -/
theorem outstanding_le_one (watch : Watch) : watch.outstanding ≤ 1 := by
  unfold outstanding
  split
  · exact le_rfl
  · split
    · exact le_rfl
    · exact Nat.zero_le 1
  · split
    · exact Nat.zero_le 1
    · exact Nat.zero_le 1
    · exact le_rfl
  · exact Nat.zero_le 1
  · exact Nat.zero_le 1
  · exact Nat.zero_le 1

/-- A bound on the updates may be raised. -/
theorem Within.mono {few most : Nat} {outcome : Watch × List Effect} (within : Within few outcome)
    (fewer : few ≤ most) : Within most outcome :=
  ⟨within.stopped, within.enough.trans fewer⟩

/-- How many updates may follow if the watch does no more than to start another cycle. -/
def outstandingCycle (watch : Watch) : Nat :=
  if watch.known.version.isNull then 1 else 0

/-- A cycle that starts after the stop brings one update at most. -/
theorem outstandingCycle_le_one (watch : Watch) : watch.outstandingCycle ≤ 1 := by
  unfold outstandingCycle
  split
  · exact le_rfl
  · exact Nat.zero_le 1

section

variable (stopped : watch.stopped = true)
include stopped

/-- A cycle that ends well brings no update. -/
theorem within_rest : Within 0 watch.rest :=
  ⟨stopped, le_rfl⟩

/-- The end of the watch brings no update. -/
theorem within_finish (ending : Ending) : Within 0 (watch.finish plan ending) :=
  ⟨stopped, le_rfl⟩

/-- A stopped watch opens no stream. -/
theorem within_openStream : Within 0 watch.openStream := by
  simp only [openStream, stopped, if_true]
  exact within_rest stopped

/-- A stopped watch that starts a cycle may still ask for a list. -/
theorem within_startCycle : Within watch.outstandingCycle watch.startCycle := by
  unfold startCycle outstandingCycle
  split
  · exact ⟨stopped, le_rfl⟩
  · exact within_openStream stopped

/-- After a failure it may do so in the cycle that follows the wait. -/
theorem within_fail (error : StoreError) :
    Within watch.outstandingCycle (watch.fail plan error) := by
  unfold fail
  split
  · exact ⟨stopped, (Nat.zero_add _).le⟩
  · exact ⟨stopped, Nat.zero_le _⟩

omit stopped in
/-- A stream that is left brings no more updates. -/
theorem within_leave {most : Nat} (lines : List Line) {conclusion : Watch → Watch × List Effect}
    (concluded : Within most (conclusion watch)) : Within most (watch.leave lines conclusion) := by
  refine ⟨concluded.stopped, ?_⟩
  have same : deliveries (watch.leave lines conclusion).2 = deliveries (conclusion watch).2 := by
    simp only [leave, deliveries_append, deliveries_lines, List.nil_append]
    rfl
  rw [same]
  exact concluded.enough

/-- After an event the stop takes effect. -/
theorem within_stayOrLeave (lines : List Line) : Within 0 (watch.stayOrLeave lines) := by
  simp only [stayOrLeave, stopped, if_true]
  exact within_leave lines (within_rest stopped)

/-- The stop takes effect when a version has expired. -/
theorem within_expire : Within 0 (watch.expire plan) :=
  within_leave [expiryLine plan.target] (within_rest (by exact stopped))

/-- The stop takes effect when a list has been worked through. -/
theorem within_concludeListing (listing : Listing) :
    Within 0 (watch.concludeListing plan listing) := by
  unfold concludeListing
  split
  · exact within_finish plan (by exact stopped) _
  · rename_i known concluded
    have opened : Within 0 { watch with known }.openStream := within_openStream stopped
    exact ⟨opened.stopped, opened.enough⟩

/-- Of a list only the first item may be delivered: after it the watch looks at its flag. -/
theorem within_workOff (listing : Listing) (pending : List Json) :
    Within 1 (watch.workOff plan listing pending) := by
  cases pending with
  | nil => exact (within_concludeListing plan stopped _).mono (Nat.zero_le 1)
  | cons item pending =>
    unfold workOff
    split
    · exact ⟨stopped, le_rfl⟩
    · rw [if_pos stopped]
      exact (within_rest (by exact stopped)).mono (Nat.zero_le 1)

/-- An answer may bring the one update that is left. -/
theorem within_takeAnswer (outcome : Except Cause Json) :
    Within 1 (watch.takeAnswer plan outcome) := by
  unfold takeAnswer
  split
  · exact (within_fail plan stopped _).mono (outstandingCycle_le_one watch)
  · split
    · exact (within_finish plan stopped _).mono (Nat.zero_le 1)
    · exact within_workOff plan stopped _ _

/-- An item of the stream may bring the one update that is left. -/
theorem within_takeItem (item : Item) : Within 1 (watch.takeItem plan item) := by
  have fails (error : StoreError) : Within 1 (watch.leave [] (·.fail plan error)) :=
    within_leave [] ((within_fail plan stopped error).mono (outstandingCycle_le_one watch))
  cases item with
  | event event =>
    simp only [takeItem, takeEvent]
    split
    · exact (within_stayOrLeave (by exact stopped) _).mono (Nat.zero_le 1)
    · exact ⟨stopped, le_rfl⟩
    · exact (within_expire plan stopped).mono (Nat.zero_le 1)
    · exact fails _
    · exact within_leave [] ((within_finish plan stopped _).mono (Nat.zero_le 1))
  | failed cause =>
    simp only [takeItem]
    split
    · exact (within_expire plan stopped).mono (Nat.zero_le 1)
    · exact fails _
  | ended => exact within_leave _ ((within_rest stopped).mono (Nat.zero_le 1))
  | stopped => exact within_leave _ ((within_rest stopped).mono (Nat.zero_le 1))

/-- After a handler nothing more is delivered. -/
theorem within_resume (lines : List Line) (next : Continuation) :
    Within 0 (watch.resume plan lines next) := by
  cases next with
  | streaming => exact within_stayOrLeave stopped lines
  | listing listing =>
    simp only [resume, stopped, if_true]
    exact ⟨stopped, by simp [rest, outstanding]⟩

/-- What a stream still brings comes after what is in the queue. -/
theorem within_post (stream : Nat) (item : Item) :
    Within watch.outstanding (watch.post stream item, []) := by
  unfold post
  split
  · exact ⟨stopped, (Nat.zero_add _).le⟩
  · refine ⟨stopped, (Nat.zero_add _).le.trans ?_⟩
    cases phase : watch.phase with
    | streaming =>
      cases queue : watch.queue with
      | nil =>
        have most : watch.outstanding = 1 := by simp only [outstanding, phase, queue]
        rw [most]
        exact outstanding_le_one _
      | cons first rest => cases first <;> simp [outstanding, phase, queue]
    | _ => simp [outstanding, phase]

/-- A step of a stopped watch stays within what was outstanding before it. -/
theorem within_step (move : Move) : Within watch.outstanding (watch.step plan move) := by
  have still : Within watch.outstanding (watch, []) := ⟨stopped, (Nat.zero_add _).le⟩
  unfold step
  split
  · rw [stop_of_stopped plan watch stopped]
    exact still
  · exact within_post stopped _ _
  · rw [if_pos stopped]
    exact (within_finish plan stopped _).mono (Nat.zero_le _)
  · rename_i phase
    have most : watch.outstanding = 1 := by simp only [outstanding, phase]
    exact most ▸ within_takeAnswer plan stopped _
  · rename_i phase
    split
    · exact still
    · rename_i item queue items
      cases item with
      | ended => exact (within_leave _ (within_rest (by exact stopped))).mono (Nat.zero_le _)
      | stopped => exact (within_leave _ (within_rest (by exact stopped))).mono (Nat.zero_le _)
      | _ =>
        have most : watch.outstanding = 1 := by simp only [outstanding, phase, items]
        exact most ▸ within_takeItem plan (by exact stopped) _
  · exact (within_resume plan stopped _ _).mono (Nat.zero_le _)
  · rename_i phase
    have most : watch.outstanding = watch.outstandingCycle := by
      simp only [outstanding, outstandingCycle, phase]
    exact most ▸ within_startCycle stopped
  · exact still

/-- A run of a stopped watch stays within what was outstanding at its start. -/
theorem within_run (moves : List Move) : Within watch.outstanding (watch.run plan moves) := by
  induction moves generalizing watch with
  | nil => exact ⟨stopped, (Nat.zero_add _).le⟩
  | cons move moves inductionHypothesis =>
    have first := within_step plan stopped move
    have later := inductionHypothesis first.stopped
    refine ⟨later.stopped, ?_⟩
    have delivered : (deliveries (watch.run plan (move :: moves)).2).length =
        (deliveries (watch.step plan move).2).length +
          (deliveries ((watch.step plan move).1.run plan moves).2).length := by
      rw [run, Machine.run_cons, deliveries_append, List.length_append]
    have before := first.enough
    have after := later.enough
    have last : (watch.run plan (move :: moves)).1 = ((watch.step plan move).1.run plan moves).1 :=
      rfl
    rw [delivered, last]
    omega

end

/-- A stop takes effect at once: the watch is between two cycles, its handler is at work, it waits
    for an item of its stream, it waits to go on with its stream, or it has ended. -/
def StopsAtOnce (watch : Watch) : Prop :=
  match watch.phase with
  | .listing => False
  | .sleeping => watch.known.version.isNull = false
  | .streaming => watch.queue = []
  | .ready | .delivering _ _ _ | .ended _ => True

/-- After the stop of a watch at most one update is delivered, whatever happens. And none is if the
    stop takes effect at once. -/
theorem deliveries_after_stop (running : watch.stopped = false) (moves : List Move) :
    (deliveries (watch.run plan (.stop :: moves)).2).length ≤ 1 ∧
      (watch.StopsAtOnce → deliveries (watch.run plan (.stop :: moves)).2 = []) := by
  have later := within_run plan (stopped_stop plan watch) moves
  have delivered : deliveries (watch.run plan (.stop :: moves)).2 =
      deliveries ((watch.stop plan).1.run plan moves).2 := by
    rw [run, Machine.run_cons, deliveries_append]
    exact congrArg (· ++ _) (deliveries_stop plan watch)
  have few := (Nat.le_add_right _ _).trans later.enough
  rw [delivered]
  refine ⟨few.trans (outstanding_le_one _), fun atOnce => ?_⟩
  have nothing : (watch.stop plan).1.outstanding = 0 := by
    cases phase : watch.phase <;> simp_all [StopsAtOnce, stop, outstanding]
  exact List.length_eq_zero_iff.mp (Nat.le_zero.mp (nothing ▸ few))

/-- One more update is delivered indeed if a list is asked for again when the watch is stopped: the
    record that was known before is delivered with the one of the list. -/
theorem delivery_after_stop :
    let plan : Plan := ⟨⟨.gameServer, "default", "gs"⟩, none⟩
    let listing := (({} : Watch).run plan [.proceed,
      .listed (.ok (Reconciler.sampleAnswer "StandingBy" "1")),
      .post 1 (.failed (.api (some 410) none)), .take, .proceed]).1
    listing.phase = .listing ∧ listing.stopped = false ∧
      deliveries (listing.run plan
        [.stop, .listed (.ok (Reconciler.sampleAnswer "Active" "2"))]).2 =
        [(Reconciler.sampleRecord "StandingBy" "1", Reconciler.sampleRecord "Active" "2")] :=
  ⟨rfl, rfl, rfl⟩

end GameSidecar.Watch
