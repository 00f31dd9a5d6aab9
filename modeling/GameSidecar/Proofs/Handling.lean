import GameSidecar.Proofs.Deliveries

/-!
# One update at a time

A watch hands one update to its handler and waits for the end of it. What a step delivers is
therefore what the watch waits for after it, and while the handler is at work nothing else is
delivered. A watch that has been stopped and waits for no handler delivers nothing any more.

More than updates is told of a watch by what it undertakes: its calls, its waits, its updates and the
errors that it reports. A watch that is over undertakes nothing.
-/

namespace GameSidecar.Watch

variable (plan : Plan) {watch : Watch}

/-- A watch arrives at an outcome: nothing has been delivered and no handler is waited for, or the
    last thing that was done is a delivery, whose handler is waited for. -/
inductive Arrives (outcome : Watch × List Effect) : Prop
  | silently (silent : deliveries outcome.2 = []) (idle : outcome.1.handed? = none)
  | delivering (old new : Json) (lines : List Line)
      (effects : outcome.2 = lines.map .log ++ [.deliver old new])
      (handed : outcome.1.handed? = some (old, new))

/-- What is delivered on the way to an outcome is what the watch then waits for. -/
def Hands (outcome : Watch × List Effect) : Prop :=
  deliveries outcome.2 = outcome.1.handed?.toList

/-- What delivers nothing arrives without a handler. -/
theorem Quiet.arrives {outcome : Watch × List Effect} (quiet : Quiet watch outcome) :
    Arrives outcome :=
  .silently quiet.silent quiet.idle

/-- What is delivered last is with the handler. -/
theorem Arrives.hands {outcome : Watch × List Effect} (arrives : Arrives outcome) :
    Hands outcome := by
  cases arrives with
  | silently silent idle =>
    rw [Hands, silent, idle]
    rfl
  | delivering old new lines effects handed =>
    rw [Hands, effects, handed, deliveries_append, deliveries_lines]
    rfl

/-- Lines that are written first change nothing about where a watch arrives. -/
theorem Arrives.after_lines {outcome : Watch × List Effect} (arrives : Arrives outcome)
    (lines : List Line) : Arrives (outcome.1, lines.map .log ++ outcome.2) := by
  cases arrives with
  | silently silent idle =>
    exact .silently (by rw [deliveries_append, deliveries_lines, silent, List.append_nil]) idle
  | delivering old new more effects handed =>
    exact .delivering old new (lines ++ more)
      (by rw [effects, List.map_append, List.append_assoc]) handed

/-- A list that has been worked through leaves nothing with a handler. -/
theorem arrives_concludeListing (watch : Watch) (listing : Listing) :
    Arrives (watch.concludeListing plan listing) := by
  unfold concludeListing
  split
  · exact (quiet_finish plan _ _).arrives
  · exact (quiet_openStream _).arrives.after_lines [_]

/-- Working off a list goes as far as the next delivery. -/
theorem arrives_workOff (watch : Watch) (listing : Listing) (pending : List Json) :
    Arrives (watch.workOff plan listing pending) := by
  induction pending generalizing watch listing with
  | nil => exact arrives_concludeListing plan watch _
  | cons item pending inductionHypothesis =>
    simp only [workOff]
    split
    · exact .delivering _ _ [] rfl rfl
    · split
      · exact (quiet_rest _).arrives
      · exact inductionHypothesis ..

/-- An answer to a list call is worked off as far as its first delivery. -/
theorem arrives_takeAnswer (watch : Watch) (outcome : Except Cause Json) :
    Arrives (watch.takeAnswer plan outcome) := by
  unfold takeAnswer
  split
  · exact (quiet_fail plan watch _).arrives
  · split
    · exact (quiet_finish plan watch _).arrives
    · exact arrives_workOff plan watch _ _

/-- An item of a stream brings one delivery at most. -/
theorem arrives_takeItem (watch : Watch) (item : Item) : Arrives (watch.takeItem plan item) := by
  cases item with
  | event event =>
    simp only [takeItem, takeEvent]
    split
    · exact (quiet_stayOrLeave _ _).arrives
    · exact .delivering _ _ [] rfl rfl
    · exact (quiet_expire plan watch).arrives
    · exact (quiet_leave [] (quiet_fail plan watch _)).arrives
    · exact (quiet_leave [] (quiet_finish plan watch _)).arrives
  | _ => exact (quiet_takeItem plan (by simp)).arrives

/-- After a handler the watch goes on to the next delivery, or to none. -/
theorem arrives_resume (watch : Watch) (lines : List Line) (next : Continuation) :
    Arrives (watch.resume plan lines next) := by
  cases next with
  | streaming => exact (quiet_stayOrLeave watch lines).arrives
  | listing listing =>
    have onward : Arrives (if watch.stopped then watch.rest
        else watch.workOff plan listing listing.pending) := by
      split
      · exact (quiet_rest watch).arrives
      · exact arrives_workOff plan watch _ _
    exact onward.after_lines lines

/-- A stop takes nothing from a handler. -/
@[simp] theorem handed?_stop (watch : Watch) : (watch.stop plan).1.handed? = watch.handed? := by
  unfold stop
  split <;> rfl

/-- A stop delivers nothing. -/
@[simp] theorem deliveries_stop (watch : Watch) : deliveries (watch.stop plan).2 = [] := by
  unfold stop
  split
  · rfl
  · split <;> rfl

/-- What a stream posts changes nothing for the handler. -/
@[simp] theorem handed?_post (watch : Watch) (stream : Nat) (item : Item) :
    (watch.post stream item).handed? = watch.handed? := by
  unfold post
  split <;> rfl

/-- A step of a watch that waits for no handler arrives somewhere. -/
theorem arrives_step (free : watch.handed? = none) (move : Move) :
    Arrives (watch.step plan move) := by
  have still : Arrives (watch, []) := .silently rfl free
  unfold step
  split
  · exact .silently (deliveries_stop plan watch) ((handed?_stop plan watch).trans free)
  · exact .silently rfl ((handed?_post watch _ _).trans free)
  · split
    · exact (quiet_finish plan watch _).arrives
    · exact (quiet_startCycle watch).arrives
  · exact arrives_takeAnswer plan watch _
  · split
    · exact still
    · exact arrives_takeItem plan _ _
  · exact arrives_resume plan watch _ _
  · exact (quiet_startCycle watch).arrives
  · exact still

/-- The end of a handler lets a watch arrive at its next delivery, or somewhere else. -/
theorem arrives_handled {old new : Json} (handed : watch.handed? = some (old, new))
    (failure : Option String) : Arrives (watch.step plan (.handled failure)) := by
  unfold handed? at handed
  split at handed
  · rename_i phase
    simp only [step, phase]
    exact arrives_resume plan watch _ _
  · cases handed

/-- A step of a watch that waits for no handler hands over what the watch then waits for. -/
theorem hands_step (free : watch.handed? = none) (move : Move) :
    Hands (watch.step plan move) :=
  (arrives_step plan free move).hands

/-- The end of a handler lets a watch go on to its next delivery. -/
theorem hands_handled {old new : Json} (handed : watch.handed? = some (old, new))
    (failure : Option String) : Hands (watch.step plan (.handled failure)) :=
  (arrives_handled plan handed failure).hands

/-- What a watch takes upon itself: a call of the API server, a wait, a delivery, or the report of
    an error. -/
def Effect.undertakes : Effect → Bool
  | .log line => Level.error.rank ≤ line.level.rank
  | .closeStream _ => false
  | .list | .openStream _ _ | .sleep _ | .deliver _ _ => true

/-- All that a watch takes upon itself, in order. -/
def undertakings (effects : List Effect) : List Effect :=
  effects.filter Effect.undertakes

@[simp] theorem undertakings_nil : undertakings [] = [] := rfl

/-- What a watch takes upon itself comes in the order of the effects. -/
@[simp] theorem undertakings_append (front back : List Effect) :
    undertakings (front ++ back) = undertakings front ++ undertakings back :=
  List.filter_append ..

/-- Every delivery is something that it takes upon itself. -/
@[simp] theorem deliveries_undertakings (effects : List Effect) :
    deliveries (undertakings effects) = deliveries effects := by
  simp only [deliveries, undertakings, List.filterMap_filter]
  congr 1
  funext effect
  cases effect <;> simp [Effect.undertakes]

/-- A stop is nothing that it takes upon itself. -/
@[simp] theorem undertakings_stop (watch : Watch) : undertakings (watch.stop plan).2 = [] := by
  unfold stop
  split
  · rfl
  · split <;> rfl

/-- While its handler is at work, a watch waits for it and takes nothing upon itself. -/
theorem waits_of_handed {pair : Json × Json} (handed : watch.handed? = some pair) {move : Move}
    (unhandled : ∀ failure, move ≠ .handled failure) :
    (watch.step plan move).1.handed? = some pair ∧
      undertakings (watch.step plan move).2 = [] := by
  unfold step
  split
  · simp [handed]
  · simp [handed]
  · rename_i phase
    simp [handed?, phase] at handed
  · rename_i phase
    simp [handed?, phase] at handed
  · rename_i phase
    simp [handed?, phase] at handed
  · exact absurd rfl (unhandled _)
  · rename_i phase
    simp [handed?, phase] at handed
  · exact ⟨handed, rfl⟩

/-- While its handler is at work, a watch waits for it and delivers nothing. -/
theorem step_of_handed {pair : Json × Json} (handed : watch.handed? = some pair) {move : Move}
    (unhandled : ∀ failure, move ≠ .handled failure) :
    (watch.step plan move).1.handed? = some pair ∧ deliveries (watch.step plan move).2 = [] := by
  obtain ⟨waits, nothing⟩ := waits_of_handed plan handed unhandled
  exact ⟨waits, by rw [← deliveries_undertakings, nothing]; rfl⟩

/-- A watch is over: it has been stopped, and waits for nothing that could bring an update. -/
structure Over (watch : Watch) : Prop where
  stopped : watch.stopped = true
  phase : watch.phase = .ready ∨ ∃ ending, watch.phase = .ended ending

/-- A watch that is over waits for no handler. -/
theorem Over.handed? (isOver : watch.Over) : watch.handed? = none := by
  rcases isOver.phase with phase | ⟨ending, phase⟩ <;> simp [Watch.handed?, phase]

/-- A watch that is over ends when it goes on, and does nothing else. -/
theorem Over.step_cases (isOver : watch.Over) (move : Move) :
    let outcome := watch.step plan move
    outcome.1.stopped = true ∧
      ((outcome.1.phase = watch.phase ∧ outcome.2 = []) ∨
        outcome = watch.finish plan .stopped) := by
  have unmoved (still : watch.step plan move = (watch, [])) :
      (watch.step plan move).1.stopped = true ∧
        (((watch.step plan move).1.phase = watch.phase ∧ (watch.step plan move).2 = []) ∨
          watch.step plan move = watch.finish plan .stopped) := by
    rw [still]
    exact ⟨isOver.stopped, .inl ⟨rfl, rfl⟩⟩
  cases move with
  | stop => exact unmoved (stop_of_stopped plan watch isOver.stopped)
  | post stream item =>
    refine ⟨?_, .inl ⟨?_, rfl⟩⟩ <;> simp only [step, post] <;> split
    · exact isOver.stopped
    · exact isOver.stopped
    · rfl
    · rfl
  | proceed =>
    rcases isOver.phase with phase | ⟨ending, phase⟩
    · have finished : watch.step plan .proceed = watch.finish plan .stopped := by
        simp only [step, phase, isOver.stopped, if_true]
      rw [finished]
      exact ⟨isOver.stopped, .inr rfl⟩
    · exact unmoved (by simp only [step, phase])
  | _ =>
    rcases isOver.phase with phase | ⟨ending, phase⟩
    · exact unmoved (by simp only [step, phase])
    · exact unmoved (by simp only [step, phase])

/-- A watch that is over stays so, and delivers nothing. -/
theorem Over.step (isOver : watch.Over) (move : Move) :
    (watch.step plan move).1.Over ∧ deliveries (watch.step plan move).2 = [] := by
  obtain ⟨stopped, ⟨phase, nothing⟩ | finished⟩ := isOver.step_cases plan move
  · exact ⟨⟨stopped, phase ▸ isOver.phase⟩, by rw [nothing]; rfl⟩
  · rw [finished] at stopped ⊢
    exact ⟨⟨stopped, .inr ⟨.stopped, rfl⟩⟩, rfl⟩

/-- A watch that is stopped by its own handler rests when the handler comes to its end, and reports
    at most that the handler has failed. -/
theorem rests_of_stopped {old new : Json} (handed : watch.handed? = some (old, new))
    (failure : Option String) :
    let outcome := watch.run plan [.stop, .handled failure]
    outcome.1.stopped = true ∧ outcome.1.phase = .ready ∧
      undertakings outcome.2 = failure.toList.map (.log ∘ handlerLine plan.target) := by
  have stopped := stopped_stop plan watch
  have silent := undertakings_stop plan watch
  have handed := (handed?_stop plan watch).trans handed
  have reports : undertakings ((failure.toList.map (handlerLine plan.target)).map .log) =
      failure.toList.map (.log ∘ handlerLine plan.target) := by
    cases failure <;> rfl
  unfold handed? at handed
  split at handed
  · rename_i next phase
    simp only [run, Machine.run_cons, Machine.run_nil, step, phase, undertakings_append, silent,
      List.nil_append, List.append_nil]
    cases next with
    | streaming =>
      have closes : undertakings [.closeStream (watch.stop plan).1.streams] = [] := rfl
      simp only [resume, stayOrLeave, stopped, if_true, leave, rest, undertakings_append, closes,
        reports, List.append_nil, and_self]
    | listing listing =>
      simp only [resume, stopped, if_true, rest, reports, List.append_nil, and_self]
  · cases handed

/-- A watch that is stopped by its own handler is over when the handler comes to its end. -/
theorem over_of_stopped {old new : Json} (handed : watch.handed? = some (old, new))
    (failure : Option String) :
    (watch.run plan [.stop, .handled failure]).1.Over ∧
      deliveries (watch.run plan [.stop, .handled failure]).2 = [] := by
  obtain ⟨stopped, ready, undertaken⟩ := rests_of_stopped plan handed failure
  refine ⟨⟨stopped, .inl ready⟩, ?_⟩
  rw [← deliveries_undertakings, undertaken]
  cases failure <;> rfl

end GameSidecar.Watch
