import GameSidecar.Proofs.Edge

/-!
# The allocation closes the watch

An allocation is handled once. At the first update that is the edge of the allocation the detail
record is read, with whatever answer the session is published, and the watch is stopped. No other
update has a consequence, whatever its two states are.

What is done for an update is told by the account of a run, which names the update that the handler
was at work on. The watch takes nothing upon itself after the delivery of the edge: it makes no
call, does not wait, delivers nothing and reports no error. All that is left to it is to end.
-/

namespace GameSidecar

namespace Watch

variable (plan : Plan) {watch : Watch}

/-- A watch is closed: it has been stopped, and ends for that reason or has ended for it. -/
structure Closed (watch : Watch) : Prop where
  stopped : watch.stopped = true
  phase : watch.phase = .ready ∨ watch.phase = .ended .stopped

/-- A watch that is closed is over. -/
theorem Closed.over (closed : watch.Closed) : watch.Over :=
  ⟨closed.stopped, closed.phase.imp_right fun phase => ⟨.stopped, phase⟩⟩

/-- A closed watch stays closed and takes nothing upon itself. -/
theorem Closed.step (closed : watch.Closed) (move : Move) :
    (watch.step plan move).1.Closed ∧ undertakings (watch.step plan move).2 = [] := by
  obtain ⟨stopped, ⟨phase, nothing⟩ | finished⟩ := closed.over.step_cases plan move
  · exact ⟨⟨stopped, phase ▸ closed.phase⟩, by rw [nothing]; rfl⟩
  · rw [finished] at stopped ⊢
    exact ⟨⟨stopped, .inr rfl⟩, rfl⟩

/-- A closed watch that goes on has ended. -/
theorem Closed.ended (closed : watch.Closed) :
    (watch.step plan .proceed).1.phase = .ended .stopped := by
  rcases closed.phase with phase | phase
  · simp only [Watch.step, phase, closed.stopped, if_true, finish]
  · simp only [Watch.step, phase]

/-- An update is the last thing that a watch has taken upon itself. -/
def EndsIn (effects : List Effect) (update : Json × Json) : Prop :=
  ∃ earlier, undertakings effects = earlier ++ [.deliver update.1 update.2]

/-- An update stays the last thing that was undertaken, as long as nothing is. -/
theorem EndsIn.append_of_nothing {effects more : List Effect} {update : Json × Json}
    (ends : EndsIn effects update) (nothing : undertakings more = []) :
    EndsIn (effects ++ more) update := by
  obtain ⟨earlier, split⟩ := ends
  exact ⟨earlier, by rw [undertakings_append, split, nothing, List.append_nil]⟩

/-- What a watch has taken upon itself last is the last of its deliveries. -/
theorem EndsIn.deliveries_eq {effects : List Effect} {update : Json × Json}
    (ends : EndsIn effects update) :
    ∃ earlier, undertakings effects = earlier ++ [.deliver update.1 update.2] ∧
      deliveries effects = deliveries earlier ++ [update] := by
  obtain ⟨earlier, split⟩ := ends
  refine ⟨earlier, split, ?_⟩
  rw [← deliveries_undertakings, split, deliveries_append]
  rfl

/-- A watch that arrives at a delivery has taken nothing upon itself after it. -/
theorem Arrives.endsIn {outcome : Watch × List Effect} (arrives : Arrives outcome)
    {update : Json × Json} (handed : outcome.1.handed? = some update) (before : List Effect) :
    EndsIn (before ++ outcome.2) update := by
  cases arrives with
  | silently silent idle => rw [idle] at handed; cases handed
  | delivering old new lines effects waits =>
    obtain rfl : (old, new) = update := Option.some.inj (waits.symm.trans handed)
    refine ⟨undertakings before ++ undertakings (lines.map .log), ?_⟩
    rw [effects, undertakings_append, undertakings_append, List.append_assoc]
    rfl

end Watch

/-- Allocators for one detail record differ by how far they are only. -/
theorem Allocator.eq_of_companion {left right : Allocator} (same : left.companion = right.companion)
    (allocated : left.allocated = right.allocated) (reading : left.reading = right.reading) :
    left = right := by
  cases left
  cases right
  simp_all [Allocator.companion]

namespace Reconciler

variable (plan : Watch.Plan) {reconciler : Reconciler} {watch : Watch}

/-- Whether more is asked for than a line. -/
def isDeed : Allocator.Action → Bool
  | .log _ => false
  | _ => true

/-- What the allocator asks for on a move. -/
def actionsOn (reconciler : Reconciler) : Move → List Allocator.Action
  | .review =>
    if reconciler.allocator.reading.isSome then []
    else reconciler.delivered?.elim [] fun update =>
      (reconciler.allocator.review update.1 update.2).2
  | .read outcome =>
    if reconciler.allocator.reading.isNone then []
    else
      (reconciler.allocator.complete
        (Api.readResult reconciler.allocator.companion outcome).1).2
  | .update old new => (reconciler.allocator.review old new).2
  | _ => []

/-- What is done on a move beside writing lines, with the update that the handler is at work on. -/
def deeds (reconciler : Reconciler) (move : Move) :
    List (Option (Json × Json) × Allocator.Action) :=
  ((reconciler.actionsOn move).filter isDeed).map fun action => (reconciler.delivered?, action)

/-- All that is done during some moves beside writing lines, in order. -/
abbrev allDeeds (plan : Watch.Plan) (reconciler : Reconciler) (moves : List Move) :
    List (Option (Json × Json) × Allocator.Action) :=
  Machine.trace (step plan) deeds reconciler moves

/-- The handling of an edge from its begin to its end, with the answer to the read. -/
def course (companion : Target) (edge : Json × Json) (answer : Except Cause Json) :
    List (Option (Json × Json) × Allocator.Action) :=
  [(some edge, .read companion), (some edge, .publish (allocatedSession edge.2 answer)),
    (some edge, .stop)]

/-- Lines are written, and are no deeds. -/
theorem deeds_of_actionsOn {move : Move} {lines : List Line} {actions : List Allocator.Action}
    (asked : reconciler.actionsOn move = lines.map .log ++ actions) :
    reconciler.deeds move =
      (actions.filter isDeed).map fun action => (reconciler.delivered?, action) := by
  have written : (lines.map Allocator.Action.log).filter isDeed = [] := by
    simp [isDeed]
  rw [deeds, asked, List.filter_append, written, List.nil_append]

/-- On the edge the detail record is read. -/
theorem deeds_review_of_edge {edge : Json × Json}
    (unallocated : reconciler.allocator.allocated = false)
    (idle : reconciler.allocator.reading = none) (held : reconciler.delivered? = some edge)
    (allocates : Allocates edge) :
    reconciler.deeds .review = [(some edge, .read reconciler.allocator.companion)] := by
  obtain ⟨lines, reviewed⟩ := Allocator.review_of_allocates unallocated allocates
  have asked : reconciler.actionsOn .review =
      lines.map .log ++ [.read reconciler.allocator.companion] := by
    simp [actionsOn, idle, held, reviewed]
  rw [deeds_of_actionsOn asked, held]
  rfl

/-- On any other update nothing is done. -/
theorem deeds_review_of_other {other : Json × Json}
    (idle : reconciler.allocator.reading = none) (held : reconciler.delivered? = some other)
    (noEdge : ¬Allocates other) : reconciler.deeds .review = [] := by
  obtain ⟨lines, reviewed⟩ : ∃ lines : List Line,
      reconciler.allocator.review other.1 other.2 = (reconciler.allocator, lines.map .log) :=
    Allocator.review_of_not_allocates fun _ => noEdge
  have asked : reconciler.actionsOn .review = lines.map .log ++ [] := by
    simp [actionsOn, idle, held, reviewed]
  exact deeds_of_actionsOn asked

/-- With the answer to the read the session is published and the watch is stopped. -/
theorem deeds_read_of_reading {edge : Json × Json}
    (reading : reconciler.allocator.reading = some (Allocator.credentials edge.2).1)
    (held : reconciler.delivered? = some edge) (answer : Except Cause Json) :
    reconciler.deeds (.read answer) =
      [(some edge, .publish (allocatedSession edge.2 answer)), (some edge, .stop)] := by
  obtain ⟨lines, completed⟩ := Allocator.complete_of_reading reading answer
  have asked : reconciler.actionsOn (.read answer) =
      lines.map .log ++ [.publish (allocatedSession edge.2 answer), .stop] := by
    simp [actionsOn, reading, completed]
  rw [deeds_of_actionsOn asked, held]
  rfl

/-- What a run has done, by what the reconciler has asked for and the answers with which a handler
    has gone on. -/
inductive Account (effects : List Effect) (answered : List (Except Cause Json))
    (done : List (Option (Json × Json) × Allocator.Action)) (reconciler : Reconciler) : Prop
  /-- Nothing has been done. An update may be waiting for its review. -/
  | waiting (unallocated : reconciler.allocator.allocated = false)
      (idle : reconciler.allocator.reading = none) (unanswered : answered = [])
      (nothing : done = [])
      (lately : ∀ update, reconciler.delivered? = some update →
        Watch.EndsIn (watchEffects effects) update)
  /-- The detail record is read for an edge. -/
  | reading (edge : Json × Json)
      (reads : reconciler.allocator.reading = some (Allocator.credentials edge.2).1)
      (unanswered : answered = []) (held : reconciler.delivered? = some edge)
      (allocates : Allocates edge)
      (asked : done = [(some edge, .read reconciler.allocator.companion)])
      (lately : Watch.EndsIn (watchEffects effects) edge)
  /-- An edge has been handled, and the watch is closed. -/
  | handled (edge : Json × Json) (answer : Except Cause Json)
      (idle : reconciler.allocator.reading = none) (answeredOnce : answered = [answer])
      (allocates : Allocates edge)
      (all : done = course reconciler.allocator.companion edge answer)
      (closed : ∃ watch, reconciler.watch = some watch ∧ watch.Closed)
      (lately : Watch.EndsIn (watchEffects effects) edge)

variable {effects : List Effect} {answered : List (Except Cause Json)}
  {done : List (Option (Json × Json) × Allocator.Action)}

/-- What a watch is asked for by the reconciler, and what it delivers, is that of the watch. -/
theorem watchEffects_moveWatch (watching : reconciler.watch = some watch) (move : Watch.Move) :
    watchEffects (reconciler.moveWatch plan move).2 = (watch.step plan move).2 := by
  rw [(moves_moveWatch plan watching move).asked, Watch.run, Machine.run_single]

/-- The reconciler has the update that its watch has handed to the handler. -/
theorem delivered?_moveWatch (watching : reconciler.watch = some watch) (move : Watch.Move) :
    (reconciler.moveWatch plan move).1.delivered? = (watch.step plan move).1.handed? := by
  rw [delivered?_of_watching (moves_moveWatch plan watching move).moved, Watch.run,
    Machine.run_single]

/-- A move of the watch does nothing for an update. -/
theorem Account.moveWatch (account : Account effects answered done reconciler)
    (watching : reconciler.watch = some watch) {move : Watch.Move}
    (unhandled : ∀ failure, move ≠ .handled failure) :
    let outcome := reconciler.moveWatch plan move
    Account (effects ++ outcome.2) answered done outcome.1 := by
  have asked := watchEffects_moveWatch plan watching move
  have delivered := delivered?_moveWatch plan watching move
  have before := delivered?_of_watching watching
  cases account with
  | waiting unallocated idle unanswered nothing lately =>
    refine .waiting (by simpa using unallocated) (by simpa using idle) unanswered nothing ?_
    intro update held
    rw [watchEffects_append, asked]
    rw [delivered] at held
    cases waited : watch.handed? with
    | none => exact (Watch.arrives_step plan waited move).endsIn held _
    | some other =>
      obtain ⟨waits, none⟩ := Watch.waits_of_handed plan waited unhandled
      obtain rfl : other = update := Option.some.inj (waits.symm.trans held)
      exact (lately other (before.trans waited)).append_of_nothing none
  | reading edge reads unanswered held allocates read lately =>
    obtain ⟨waits, none⟩ := Watch.waits_of_handed plan (before ▸ held) unhandled
    refine .reading edge (by simpa using reads) unanswered (delivered.trans waits) allocates
      (by simpa using read) ?_
    rw [watchEffects_append, asked]
    exact lately.append_of_nothing none
  | handled edge answer idle answeredOnce allocates all closed lately =>
    obtain ⟨other, same, closed⟩ := closed
    obtain rfl : watch = other := Option.some.inj (watching.symm.trans same)
    obtain ⟨stillClosed, none⟩ := closed.step plan move
    refine .handled edge answer (by simpa using idle) answeredOnce allocates
      (by simpa using all) ⟨_, (moves_moveWatch plan watching move).moved, ?_⟩ ?_
    · simpa using stillClosed
    · rw [watchEffects_append, asked]
      exact lately.append_of_nothing none

/-- A review of an edge has the detail record read, and one of another update does nothing. -/
theorem Account.review (account : Account effects answered done reconciler)
    (watching : reconciler.watch = some watch) :
    let outcome := reconciler.step plan .review
    Account (effects ++ outcome.2) answered (done ++ reconciler.deeds .review) outcome.1 := by
  have unmoved (still : reconciler.step plan .review = (reconciler, []))
      (none : reconciler.deeds .review = []) :
      Account (effects ++ (reconciler.step plan .review).2) answered
        (done ++ reconciler.deeds .review) (reconciler.step plan .review).1 := by
    simpa [still, none] using account
  cases account with
  | waiting unallocated idle unanswered nothing lately =>
    cases held : reconciler.delivered? with
    | none =>
      exact unmoved (by simp [step, held]) (by simp [deeds, actionsOn, held])
    | some update =>
      have before := lately update held
      by_cases allocates : Allocates update
      · obtain ⟨next, -, moved⟩ :=
          step_review_of_edge plan watching unallocated idle held allocates
        refine .reading update (by simp [next]) unanswered ?_ allocates ?_ ?_
        · rw [next]
          exact held
        · rw [nothing, deeds_review_of_edge unallocated idle held allocates, next]
          rfl
        · rw [watchEffects_append, moved.asked]
          exact before.append_of_nothing rfl
      · obtain ⟨sameAllocator, -, -, moved⟩ :=
          step_review_of_other plan watching idle held allocates
        have handed := (delivered?_of_watching watching).symm.trans held
        have arrives := Watch.arrives_handled plan handed none
        refine .waiting (by rw [sameAllocator]; exact unallocated)
          (by rw [sameAllocator]; exact idle) unanswered ?_ ?_
        · rw [nothing, deeds_review_of_other idle held allocates]
          rfl
        · intro next waits
          rw [delivered?_of_watching moved.moved, Watch.run, Machine.run_single] at waits
          rw [watchEffects_append, moved.asked, Watch.run, Machine.run_single]
          exact arrives.endsIn waits _
  | reading edge reads unanswered held allocates read lately =>
    exact unmoved (by simp [step, held, reads]) (by simp [deeds, actionsOn, reads])
  | handled edge answer idle answeredOnce allocates all closed lately =>
    obtain ⟨other, same, closed⟩ := closed
    have held : reconciler.delivered? = none :=
      (delivered?_of_watching same).trans closed.over.handed?
    exact unmoved (by simp [step, held]) (by simp [deeds, actionsOn, held])

/-- The answer to the read brings the handling of the edge to its end, and closes the watch. -/
theorem Account.read (account : Account effects answered done reconciler)
    (watching : reconciler.watch = some watch) (answer : Except Cause Json) :
    let outcome := reconciler.step plan (.read answer)
    Account (effects ++ outcome.2) (answered ++ reconciler.answers (.read answer))
      (done ++ reconciler.deeds (.read answer)) outcome.1 := by
  have unmoved (idle : reconciler.allocator.reading = none) :
      Account (effects ++ (reconciler.step plan (.read answer)).2)
        (answered ++ reconciler.answers (.read answer))
        (done ++ reconciler.deeds (.read answer)) (reconciler.step plan (.read answer)).1 := by
    have still : reconciler.step plan (.read answer) = (reconciler, []) := by simp [step, idle]
    simpa [still, answers, idle, deeds, actionsOn] using account
  cases account with
  | waiting _ idle => exact unmoved idle
  | handled _ _ idle => exact unmoved idle
  | reading edge reads unanswered held allocates read lately =>
    obtain ⟨next, -, -, moved⟩ := step_read_of_reading plan watching reads answer
    have handed := (delivered?_of_watching watching).symm.trans held
    obtain ⟨stopped, ready, none⟩ := Watch.rests_of_stopped plan handed none
    refine .handled edge answer (by rw [next]) (by simp [unanswered, answers, reads]) allocates ?_
      ⟨_, moved.moved, stopped, .inl ready⟩ ?_
    · rw [read, deeds_read_of_reading reads held answer, next]
      rfl
    · rw [watchEffects_append, moved.asked]
      exact lately.append_of_nothing none

/-- Every own move is told by the account. -/
theorem Account.step (account : Account effects answered done reconciler)
    (watching : reconciler.watch = some watch) {move : Move} (own : move.isOwn) :
    let outcome := reconciler.step plan move
    Account (effects ++ outcome.2) (answered ++ reconciler.answers move)
      (done ++ reconciler.deeds move) outcome.1 := by
  cases move with
  | start => simpa [Reconciler.step, watching, answers, deeds, actionsOn] using account
  | watch move =>
    cases move with
    | handled failure => simpa [Reconciler.step, answers, deeds, actionsOn] using account
    | _ =>
      simpa [Reconciler.step, answers, deeds, actionsOn] using
        account.moveWatch plan watching (by simp)
  | update old new => cases own
  | review => simpa [answers] using account.review plan watching
  | read answer => exact account.read plan watching answer

/-- A run of own moves is told by the account. -/
theorem Account.run (account : Account effects answered done reconciler)
    (watching : reconciler.watch = some watch) (moves : List Move)
    (own : ∀ move ∈ moves, move.isOwn) :
    let outcome := reconciler.run plan moves
    Account (effects ++ outcome.2) (answered ++ reconciler.allAnswers plan moves)
      (done ++ reconciler.allDeeds plan moves) outcome.1 := by
  induction moves generalizing reconciler watch effects answered done with
  | nil => simpa using account
  | cons move moves inductionHypothesis =>
    have next := account.step plan watching (own move (by simp))
    have watches := (moves_step plan watching move).moved
    have later := inductionHypothesis next watches fun later member => own later (by simp [member])
    simpa only [Machine.run_cons, Machine.trace, List.append_assoc] using later

/-- The first edge of the allocation among the updates that were delivered. -/
def firstEdge? (effects : List Effect) : Option (Json × Json) :=
  (updatesOf effects).find? fun update => decide (Allocates update)

/-- A stage in which an edge has been delivered is one in which it was delivered last, and before
    any answer the handler is at work on it. -/
theorem Stage.endsInEdge {initial : Session}
    (stage : Stage initial effects answered reconciler) {edge : Json × Json}
    (found : firstEdge? effects = some edge) :
    EndsInEdge (updatesOf effects) edge ∧
      (answered = [] → reconciler.delivered? = some edge) := by
  have same {first : Json × Json} (ends : EndsInEdge (updatesOf effects) first) : first = edge := by
    have whole := ends.find?_append []
    rw [List.append_nil] at whole
    exact Option.some.inj (whole.symm.trans found)
  cases stage with
  | waiting unallocated idle kept unanswered unasked early =>
    obtain ⟨others, split, noEdge⟩ := early
    have none : others.find? (fun update => decide (Allocates update)) = none := by
      simpa using noEdge
    rw [firstEdge?, split, List.find?_append, none, Option.none_or] at found
    have held : reconciler.delivered? = some edge :=
      Option.mem_toList.mp (List.mem_of_find?_eq_some found)
    have allocates : Allocates edge := by simpa using List.find?_some found
    exact ⟨⟨allocates, others, by rw [split, held, Option.toList_some], noEdge⟩, fun _ => held⟩
  | reading first reads kept unanswered asked held ends =>
    obtain rfl := same ends
    exact ⟨ends, fun _ => held⟩
  | allocated first answer idle published answeredOnce asked isOver ends =>
    obtain rfl := same ends
    refine ⟨ends, fun unanswered => ?_⟩
    rw [answeredOnce] at unanswered
    cases unanswered

/-- A run has handled an edge, with an answer to the read: it has done what belongs to it and
    nothing else, the session is published, the handler is at its end, and the watch ends as soon as
    it goes on. -/
structure Handled (start : Reconciler) (moves : List Move) (edge : Json × Json)
    (answer : Except Cause Json) : Prop where
  all : start.allDeeds plan moves = course start.allocator.companion edge answer
  asked : readsOf (start.run plan moves).2 = [start.allocator.companion]
  session : (start.run plan moves).1.session =
    start.session.publish (allocatedSession edge.2 answer)
  idle : (start.run plan moves).1.delivered? = none
  ends : (start.run plan (moves ++ [.watch .proceed])).1.watch.map Watch.phase =
    some (.ended .stopped)

/-- Before the first edge, which is the last of some updates, there is no other one. -/
theorem EndsInEdge.noEdge_before {earlier : List (Json × Json)} {edge : Json × Json}
    (ends : EndsInEdge (earlier ++ [edge]) edge) : ∀ other ∈ earlier, ¬Allocates other := by
  obtain ⟨-, others, split, noEdge⟩ := ends
  obtain rfl : earlier = others := (List.append_left_inj _).mp split
  exact noEdge

/-- A closed watch ends when it goes on. -/
theorem phase_proceed (watching : reconciler.watch = some watch) (closed : watch.Closed) :
    (reconciler.step plan (.watch .proceed)).1.watch.map Watch.phase = some (.ended .stopped) := by
  simp [Reconciler.step, moveWatch, watching, closed.ended]

section

variable {plan} {namespaceName name : String} {initial : Session} {moves : List Move}
  {edge : Json × Json}

variable (plan namespaceName name initial) in
/-- Every run is accounted for. -/
theorem account_run (own : ∀ move ∈ moves, move.isOwn) :
    let start := started plan namespaceName name initial
    Account (start.run plan moves).2 (start.allAnswers plan moves) (start.allDeeds plan moves)
      (start.run plan moves).1 := by
  have first : Account [] [] [] (started plan namespaceName name initial) :=
    .waiting rfl rfl rfl rfl (by intro update held; cases held)
  exact first.run plan (watch_started plan namespaceName name initial) moves own

/-- A run in which an edge was delivered and an answer was gone on with has handled the edge. -/
theorem handled_of_answered (own : ∀ move ∈ moves, move.isOwn)
    (found : firstEdge? ((started plan namespaceName name initial).run plan moves).2 = some edge)
    {earlier : List (Except Cause Json)} {answer : Except Cause Json}
    (answered : (started plan namespaceName name initial).allAnswers plan moves =
      earlier ++ [answer]) :
    Handled plan (started plan namespaceName name initial) moves edge answer := by
  have stage := stage_run plan namespaceName name initial own
  have account := account_run plan namespaceName name initial own
  have companion := companion_run plan (started plan namespaceName name initial) moves
  obtain ⟨ends, -⟩ := stage.endsInEdge found
  cases account with
  | waiting _ _ unanswered => simp [answered] at unanswered
  | reading _ _ unanswered => simp [answered] at unanswered
  | handled other only idle answeredOnce allocates all closed lately =>
    cases stage with
    | waiting _ _ _ unanswered => simp [answered] at unanswered
    | reading _ _ _ unanswered => simp [answered] at unanswered
    | allocated first second _ published answeredTwice asked isOver firstEnds =>
      obtain rfl : edge = other := by
        obtain ⟨before, -, delivered⟩ := lately.deliveries_eq
        refine ends.eq_of_mem ?_ allocates
        rw [updatesOf, delivered]
        exact List.mem_append_right _ (List.mem_singleton_self _)
      obtain rfl : edge = first := ends.eq_of_mem firstEnds.mem firstEnds.1
      obtain ⟨-, rfl⟩ : earlier = [] ∧ answer = only := by
        simpa [answered, List.append_eq_singleton_iff] using answeredOnce
      obtain ⟨-, rfl⟩ : earlier = [] ∧ answer = second := by
        simpa [answered, List.append_eq_singleton_iff] using answeredTwice
      obtain ⟨watch, watching, closed⟩ := closed
      refine ⟨all.trans (by rw [companion]), asked.trans (by rw [companion]), published,
        (delivered?_of_watching watching).trans closed.over.handed?, ?_⟩
      rw [run, Machine.run_append, Machine.run_single]
      exact phase_proceed plan watching closed

/-- An edge that the handler is at work on is handled when it has been reviewed and the read has
    been answered. -/
theorem handled_of_held (own : ∀ move ∈ moves, move.isOwn)
    (found : firstEdge? ((started plan namespaceName name initial).run plan moves).2 = some edge)
    (held : ((started plan namespaceName name initial).run plan moves).1.delivered? = some edge)
    (answer : Except Cause Json) :
    Handled plan (started plan namespaceName name initial) (moves ++ [.review, .read answer]) edge
      answer := by
  let start := started plan namespaceName name initial
  have stage := stage_run plan namespaceName name initial own
  obtain ⟨ends, -⟩ := stage.endsInEdge found
  have watching := (moves_run plan (watch_started plan namespaceName name initial) moves).moved
  have reading : ((start.run plan moves).1.step plan .review).1.allocator.reading.isSome :=
    stage.reading_of_review plan watching held ends.1
  have answered : start.allAnswers plan (moves ++ [.review, .read answer]) =
      start.allAnswers plan moves ++ [answer] := by
    have last : ((start.run plan moves).1.step plan .review).1.answers (.read answer) =
        [answer] := by
      simpa [answers] using Option.isSome_iff_ne_none.mp reading
    rw [allAnswers, Machine.trace_append]
    simp only [Machine.trace, List.append_nil, answers, List.nil_append] at last ⊢
    rw [last]
  refine handled_of_answered ?_ ?_ answered
  · intro move member
    rcases List.mem_append.mp member with earlier | last
    · exact own move earlier
    · rcases List.mem_pair.mp last with rfl | rfl <;> rfl
  · rw [run, Machine.run_append, firstEdge?, updatesOf_append]
    exact ends.find?_append _

end

/-- As long as no edge has been delivered nothing is done. -/
theorem untouched_of_noEdge {start reached : Reconciler} {initial : Session}
    (stage : Stage initial effects answered reached)
    (account : Account effects answered done reached)
    (noEdge : firstEdge? effects = none)
    (companion : reached.allocator.companion = start.allocator.companion)
    (unallocated : start.allocator.allocated = false) (idle : start.allocator.reading = none) :
    done = [] ∧ readsOf effects = [] ∧ reached.allocator = start.allocator ∧
      reached.session = initial := by
  have contradicted {first : Json × Json} (ends : EndsInEdge (updatesOf effects) first) :
      False := by
    have found := ends.find?_append []
    rw [List.append_nil] at found
    exact absurd (found.symm.trans noEdge) (by simp)
  cases stage with
  | reading _ _ _ _ _ _ ends => exact (contradicted ends).elim
  | allocated _ _ _ _ _ _ _ ends => exact (contradicted ends).elim
  | waiting stillUnallocated stillIdle kept unanswered unasked early =>
    cases account with
    | reading _ reads => rw [stillIdle] at reads; cases reads
    | handled _ _ _ answeredOnce => rw [unanswered] at answeredOnce; cases answeredOnce
    | waiting _ _ _ nothing =>
      exact ⟨nothing, unasked, Allocator.eq_of_companion companion
        (stillUnallocated.trans unallocated.symm) (stillIdle.trans idle.symm), kept⟩

/-- The allocation is handled once and closes the watch. In any run of a reconciler, as long as no
    edge has been delivered nothing is done at all: the allocator and the session are those of the
    start. Once one has been delivered, its delivery is the last thing that the watch has taken upon
    itself. Then the handler is at work on it, has done nothing but ask for the detail record, and
    handles the edge with whatever answer it is given; or it has handled the edge. -/
theorem allocation_closes_watch (namespaceName name : String) (initial : Session)
    (moves : List Move) (own : ∀ move ∈ moves, move.isOwn) :
    let start := started plan namespaceName name initial
    let reached := start.run plan moves
    (firstEdge? reached.2 = none →
      start.allDeeds plan moves = [] ∧ readsOf reached.2 = [] ∧
        reached.1.allocator = start.allocator ∧ reached.1.session = initial) ∧
    ∀ edge, firstEdge? reached.2 = some edge →
      (∃ earlier,
        Watch.undertakings (watchEffects reached.2) = earlier ++ [.deliver edge.1 edge.2] ∧
          ∀ update ∈ Watch.deliveries earlier, ¬Allocates update) ∧
      ((reached.1.delivered? = some edge ∧
          start.allDeeds plan moves <+: [(some edge, .read start.allocator.companion)] ∧
          reached.1.session = initial ∧
          ∀ answer, Handled plan start (moves ++ [.review, .read answer]) edge answer) ∨
        ∃ answer, Handled plan start moves edge answer) := by
  intro start reached
  have stage := stage_run plan namespaceName name initial own
  have account : Account reached.2 (start.allAnswers plan moves) (start.allDeeds plan moves)
      reached.1 := account_run plan namespaceName name initial own
  have companion : reached.1.allocator.companion = start.allocator.companion :=
    companion_run plan start moves
  constructor
  · exact fun noEdge => untouched_of_noEdge stage account noEdge companion rfl rfl
  · intro edge found
    obtain ⟨ends, held⟩ := stage.endsInEdge found
    have atWork (unanswered : start.allAnswers plan moves = []) :
        reached.1.delivered? = some edge ∧
          ∀ answer, Handled plan start (moves ++ [.review, .read answer]) edge answer :=
      ⟨held unanswered, handled_of_held own found (held unanswered)⟩
    have before (lately : Watch.EndsIn (watchEffects reached.2) edge) : ∃ earlier,
        Watch.undertakings (watchEffects reached.2) = earlier ++ [.deliver edge.1 edge.2] ∧
          ∀ update ∈ Watch.deliveries earlier, ¬Allocates update := by
      obtain ⟨earlier, split, delivered⟩ := lately.deliveries_eq
      exact ⟨earlier, split, (show updatesOf reached.2 = _ from delivered) ▸ ends |>.noEdge_before⟩
    cases account with
    | waiting unallocated idle unanswered nothing lately =>
      obtain ⟨waits, handles⟩ := atWork unanswered
      have kept : reached.1.session = initial := (unanswered ▸ stage).session_of_unanswered
      exact ⟨before (lately edge waits), .inl ⟨waits, by rw [nothing]; exact List.nil_prefix, kept,
        handles⟩⟩
    | reading first reads unanswered delivered allocates asked lately =>
      obtain ⟨waits, handles⟩ := atWork unanswered
      obtain rfl : edge = first := Option.some.inj (waits.symm.trans delivered)
      have kept : reached.1.session = initial := (unanswered ▸ stage).session_of_unanswered
      have whole : start.allDeeds plan moves = [(some edge, .read start.allocator.companion)] :=
        asked.trans (by rw [companion])
      exact ⟨before lately, .inl ⟨waits, whole ▸ List.prefix_rfl, kept, handles⟩⟩
    | handled first answer idle answeredOnce allocates all closed lately =>
      have handled : Handled plan start moves edge answer :=
        handled_of_answered own found (answeredOnce.trans (List.nil_append _).symm)
      obtain ⟨rfl, -⟩ : edge = first ∧
          start.allocator.companion = reached.1.allocator.companion := by
        simpa [course] using congrArg List.head? (handled.all.symm.trans all)
      exact ⟨before lately, .inr ⟨answer, handled⟩⟩

/-- The edge is handled in the middle of a list, of which the rest is left, and although the detail
    record cannot be read. -/
theorem list_left_after_edge :
    let plan : Watch.Plan := ⟨⟨.gameServer, "default", "gs"⟩, none⟩
    let edge := (sampleRecord "StandingBy" "1", sampleRecord "Active" "2")
    let moves : List Move := [.watch .proceed,
      .watch (.listed (.ok (sampleAnswer "StandingBy" "1"))),
      .watch (.post 1 (.failed (.api (some 410) none))), .watch .take, .watch .proceed,
      .watch (.listed (.ok (.object [
        ("items", .array [edge.2, sampleRecord "Active" "3"])]))),
      .review, .read (.error (.connection "TimeoutError" ""))]
    (∀ move ∈ moves, move.isOwn) ∧
      ∃ answer, Handled plan (started plan "default" "gs" {}) moves edge answer := by
  intro plan edge moves
  have own : ∀ move ∈ moves, move.isOwn := by decide
  have closes := (allocation_closes_watch plan "default" "gs" {} moves own).2 edge rfl
  rcases closes.2 with ⟨held, -⟩ | handled
  · cases held
  · exact ⟨own, handled⟩

end Reconciler

end GameSidecar
