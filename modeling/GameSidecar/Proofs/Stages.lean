import GameSidecar.Proofs.Reconciling

/-!
# The stages of an allocation

The reconciler goes through three stages. At first it waits, and no update that it has looked at
was the edge of the allocation. Then the first edge is held while the detail record is read; the
watch waits all the time. At last the session is published, and the watch is over.

Every move of its own keeps the reconciler in its stage or takes it to the next one. The stage
also tells what the session is: the one of the start, or the one of the first edge.
-/

namespace GameSidecar.Reconciler

/-- A move that the reconciler makes for its own watch. Updates do not come from elsewhere. -/
def Move.isOwn : Move → Bool
  | .update _ _ => false
  | _ => true

/-- The answers to reads of the detail record with which a handler goes on. -/
def answers (reconciler : Reconciler) : Move → List (Except Cause Json)
  | .read outcome => if reconciler.allocator.reading.isNone then [] else [outcome]
  | _ => []

/-- A reconciler after some moves, and all that it has asked for, in order. -/
abbrev run (plan : Watch.Plan) (reconciler : Reconciler) (moves : List Move) :
    Reconciler × List Effect :=
  Machine.run (step plan) reconciler moves

/-- All answers with which a handler goes on during some moves, in order. -/
abbrev allAnswers (plan : Watch.Plan) (reconciler : Reconciler) (moves : List Move) :
    List (Except Cause Json) :=
  Machine.trace (step plan) answers reconciler moves

/-- The updates that the watch of the reconciler has delivered. -/
def updatesOf (effects : List Effect) : List (Json × Json) :=
  Watch.deliveries (watchEffects effects)

/-- The records that the reconciler has asked for. -/
def readsOf (effects : List Effect) : List Target :=
  effects.filterMap fun effect =>
    match effect with
    | .read target => some target
    | _ => none

@[simp] theorem updatesOf_nil : updatesOf [] = [] := rfl

/-- The updates that were delivered come in the order of the effects. -/
@[simp] theorem updatesOf_append (front back : List Effect) :
    updatesOf (front ++ back) = updatesOf front ++ updatesOf back := by
  simp [updatesOf]

@[simp] theorem readsOf_nil : readsOf [] = [] := rfl

/-- The reads of the detail record come in the order of the effects. -/
@[simp] theorem readsOf_append (front back : List Effect) :
    readsOf (front ++ back) = readsOf front ++ readsOf back :=
  List.filterMap_append

@[simp] theorem readsOf_log (line : Line) (effects : List Effect) :
    readsOf (.log line :: effects) = readsOf effects := rfl

@[simp] theorem readsOf_read (target : Target) (effects : List Effect) :
    readsOf (.read target :: effects) = target :: readsOf effects := rfl

/-- Log lines ask for no read. -/
@[simp] theorem readsOf_lines (lines : List Line) : readsOf (lines.map .log) = [] := by
  simp [readsOf]

/-- The watch asks for no read. -/
@[simp] theorem readsOf_watch (effects : List Watch.Effect) :
    readsOf (effects.map .watch) = [] := by
  simp [readsOf]

/-- The first edge of the allocation among some updates is the last of them. -/
def EndsInEdge (updates : List (Json × Json)) (edge : Json × Json) : Prop :=
  Allocates edge ∧ ∃ others, updates = others ++ [edge] ∧ ∀ other ∈ others, ¬Allocates other

/-- The first edge among updates that end in it is the last of them. -/
theorem EndsInEdge.eq_of_mem {updates : List (Json × Json)} {edge other : Json × Json}
    (ends : EndsInEdge updates edge) (member : other ∈ updates) (allocates : Allocates other) :
    edge = other := by
  obtain ⟨-, others, rfl, noEdge⟩ := ends
  rcases List.mem_append.mp member with earlier | last
  · exact absurd allocates (noEdge other earlier)
  · exact (List.mem_singleton.mp last).symm

/-- The edge that some updates end in is one of them. -/
theorem EndsInEdge.mem {updates : List (Json × Json)} {edge : Json × Json}
    (ends : EndsInEdge updates edge) : edge ∈ updates := by
  obtain ⟨-, others, rfl, -⟩ := ends
  simp

/-- The first edge among updates that end in it is found there, whatever comes after them. -/
theorem EndsInEdge.find?_append {updates : List (Json × Json)} {edge : Json × Json}
    (ends : EndsInEdge updates edge) (later : List (Json × Json)) :
    (updates ++ later).find? (fun update => decide (Allocates update)) = some edge := by
  obtain ⟨allocates, others, rfl, noEdge⟩ := ends
  have early : others.find? (fun update => decide (Allocates update)) = none := by
    simpa using noEdge
  simp [early, allocates]

/-- A cell that is not shut down takes every session of an allocation. -/
theorem publish_allocatedSession {initial : Session} (isOpen : initial.state.isShutdown = false)
    (record : Json) (answer : Except Cause Json) :
    initial.publish (allocatedSession record answer) = allocatedSession record answer := by
  have rank : initial.state.rank ≤ GameState.active.rank := by
    unfold GameState.rank
    split
    · exact le_rfl
    · simp [isOpen]
  rw [Session.publish_eq]
  exact if_pos rank

/-- How far the allocation is, by what the reconciler has asked for and the answers with which a
    handler has gone on. -/
inductive Stage (initial : Session) (effects : List Effect)
    (answered : List (Except Cause Json)) (reconciler : Reconciler) : Prop
  /-- No edge has been seen. The last update may not have been looked at. -/
  | waiting (unallocated : reconciler.allocator.allocated = false)
      (idle : reconciler.allocator.reading = none)
      (kept : reconciler.session = initial) (unanswered : answered = [])
      (unasked : readsOf effects = [])
      (early : ∃ others, updatesOf effects = others ++ reconciler.delivered?.toList ∧
        ∀ other ∈ others, ¬Allocates other)
  /-- The detail record is read for the first edge. -/
  | reading (edge : Json × Json)
      (reads : reconciler.allocator.reading = some (Allocator.credentials edge.2).1)
      (kept : reconciler.session = initial) (unanswered : answered = [])
      (asked : readsOf effects = [reconciler.allocator.companion])
      (held : reconciler.delivered? = some edge) (ends : EndsInEdge (updatesOf effects) edge)
  /-- The session of the first edge has been published. -/
  | allocated (edge : Json × Json) (answer : Except Cause Json)
      (idle : reconciler.allocator.reading = none)
      (published : reconciler.session = initial.publish (allocatedSession edge.2 answer))
      (answeredOnce : answered = [answer])
      (asked : readsOf effects = [reconciler.allocator.companion])
      (isOver : ∃ watch, reconciler.watch = some watch ∧ watch.Over)
      (ends : EndsInEdge (updatesOf effects) edge)

variable (plan : Watch.Plan) {reconciler : Reconciler} {watch : Watch}

/-- A move of the watch leaves the allocator as it is. -/
@[simp] theorem allocator_moveWatch (reconciler : Reconciler) (move : Watch.Move) :
    (reconciler.moveWatch plan move).1.allocator = reconciler.allocator := by
  unfold moveWatch
  split <;> rfl

/-- A move of the watch leaves the session as it is. -/
@[simp] theorem session_moveWatch (reconciler : Reconciler) (move : Watch.Move) :
    (reconciler.moveWatch plan move).1.session = reconciler.session := by
  unfold moveWatch
  split <;> rfl

/-- A handler that comes to its end leaves the allocator as it is. -/
@[simp] theorem allocator_endHandler (reconciler : Reconciler) :
    (reconciler.endHandler plan).1.allocator = reconciler.allocator := by
  unfold endHandler
  split
  · rfl
  · exact allocator_moveWatch plan reconciler _

/-- A handler that comes to its end leaves the session as it is. -/
@[simp] theorem session_endHandler (reconciler : Reconciler) :
    (reconciler.endHandler plan).1.session = reconciler.session := by
  unfold endHandler
  split
  · rfl
  · exact session_moveWatch plan reconciler _

/-- The allocator is what its review has made of it, whatever is done for that. -/
@[simp] theorem allocator_adopt (reconciler : Reconciler)
    (reviewed : Allocator × List Allocator.Action) :
    (reconciler.adopt plan reviewed).1.allocator = reviewed.1 := by
  simp [adopt, allocator_performAll]

/-- A move of the watch asks for no read. -/
@[simp] theorem readsOf_moveWatch (reconciler : Reconciler) (move : Watch.Move) :
    readsOf (reconciler.moveWatch plan move).2 = [] := by
  unfold moveWatch
  split
  · rfl
  · exact readsOf_watch _

/-- A handler that comes to its end asks for no read. -/
@[simp] theorem readsOf_endHandler (reconciler : Reconciler) :
    readsOf (reconciler.endHandler plan).2 = [] := by
  unfold endHandler
  split
  · rfl
  · exact readsOf_moveWatch plan reconciler _

/-- Lines are written, and have no part in what else is done. -/
theorem performAll_lines (reconciler : Reconciler) (lines : List Line)
    (actions : List Allocator.Action) :
    reconciler.performAll plan (lines.map .log ++ actions) =
      ((reconciler.performAll plan actions).1,
        lines.map .log ++ (reconciler.performAll plan actions).2) := by
  induction lines with
  | nil => rfl
  | cons line lines inductionHypothesis =>
    simp only [List.map_cons, List.cons_append, performAll, perform, inductionHypothesis,
      List.nil_append]

/-- The update that has been delivered is the one that the watch has handed over. -/
theorem delivered?_of_watching (watching : reconciler.watch = some watch) :
    reconciler.delivered? = watch.handed? := by
  simp only [delivered?, Watch.handed?, watching, Option.map_some]
  cases watch.phase <;> rfl

/-- A review of the edge has the detail record read, and the handler is not at its end. -/
theorem step_review_of_edge {edge : Json × Json} (watching : reconciler.watch = some watch)
    (unallocated : reconciler.allocator.allocated = false)
    (idle : reconciler.allocator.reading = none) (held : reconciler.delivered? = some edge)
    (allocates : Allocates edge) :
    let outcome := reconciler.step plan .review
    outcome.1 = { reconciler with
      allocator := { reconciler.allocator with
        reading := some (Allocator.credentials edge.2).1 } } ∧
      readsOf outcome.2 = [reconciler.allocator.companion] ∧ Moves plan watch [] outcome := by
  obtain ⟨lines, reviewed⟩ := Allocator.review_of_allocates unallocated allocates
  have moved := moves_step plan watching .review
  have noMoves : reconciler.watchMoves .review = [] := by
    simp [watchMoves, held, idle, reviewed, movesOf, movesFor, List.flatMap_map]
  rw [noMoves] at moved
  refine ⟨?_, ?_, moved⟩
  · simp [step, held, idle, adopt, reviewed, performAll_lines, endHandler, performAll, perform]
  · simp [step, held, idle, adopt, reviewed, performAll_lines, endHandler, performAll, perform]

/-- A review of another update ends the handler. -/
theorem step_review_of_other {other : Json × Json} (watching : reconciler.watch = some watch)
    (idle : reconciler.allocator.reading = none) (held : reconciler.delivered? = some other)
    (noEdge : ¬Allocates other) :
    let outcome := reconciler.step plan .review
    outcome.1.allocator = reconciler.allocator ∧ outcome.1.session = reconciler.session ∧
      readsOf outcome.2 = [] ∧ Moves plan watch [.handled none] outcome := by
  obtain ⟨lines, reviewed⟩ : ∃ lines : List Line,
      reconciler.allocator.review other.1 other.2 = (reconciler.allocator, lines.map .log) :=
    Allocator.review_of_not_allocates fun _ => noEdge
  have moved := moves_step plan watching .review
  have ends : reconciler.watchMoves .review = [.handled none] := by
    simp [watchMoves, held, idle, reviewed, movesOf, movesFor, List.flatMap_map]
  rw [ends] at moved
  have still := performAll_lines plan reconciler lines []
  rw [List.append_nil] at still
  refine ⟨?_, ?_, ?_, moved⟩
  · simp [step, held, idle, reviewed]
  · simp [step, held, idle, reviewed, adopt, still, performAll]
  · simp [step, held, idle, reviewed, adopt, still, performAll]

/-- The answer to the read publishes the session and stops the watch. -/
theorem step_read_of_reading {record : Json} (watching : reconciler.watch = some watch)
    (reading : reconciler.allocator.reading = some (Allocator.credentials record).1)
    (answer : Except Cause Json) :
    let outcome := reconciler.step plan (.read answer)
    outcome.1.allocator = { reconciler.allocator with allocated := true, reading := none } ∧
      outcome.1.session = reconciler.session.publish (allocatedSession record answer) ∧
      readsOf outcome.2 = [] ∧ Moves plan watch [.stop, .handled none] outcome := by
  obtain ⟨lines, completed⟩ := Allocator.complete_of_reading reading answer
  have moved := moves_step plan watching (.read answer)
  have ends : reconciler.watchMoves (.read answer) = [.stop, .handled none] := by
    simp [watchMoves, reading, completed, movesOf, movesFor, List.flatMap_map]
  rw [ends] at moved
  refine ⟨?_, ?_, ?_, moved⟩
  · simp [step, reading, completed]
  · simp [step, reading, completed, adopt, performAll_lines, performAll, perform]
  · simp [step, reading, completed, adopt, performAll_lines, performAll, perform]

variable {initial : Session} {effects : List Effect} {answered : List (Except Cause Json)}

/-- A step that does nothing keeps every stage. -/
theorem Stage.still (stage : Stage initial effects answered reconciler) :
    Stage initial (effects ++ []) (answered ++ []) reconciler := by
  simpa using stage

/-- A move of the watch keeps every stage. While no update is looked at the watch may deliver one;
    else it waits, or it is over. -/
theorem Stage.moveWatch (stage : Stage initial effects answered reconciler)
    (watching : reconciler.watch = some watch) {move : Watch.Move}
    (unhandled : ∀ failure, move ≠ .handled failure) :
    let outcome := reconciler.moveWatch plan move
    Stage initial (effects ++ outcome.2) answered outcome.1 := by
  have moved := moves_moveWatch plan watching move
  have delivers : updatesOf (reconciler.moveWatch plan move).2 =
      Watch.deliveries (watch.step plan move).2 := by
    rw [updatesOf, moved.asked, Watch.run, Machine.run_single]
  have handed : (reconciler.moveWatch plan move).1.delivered? =
      (watch.step plan move).1.handed? := by
    rw [delivered?_of_watching moved.moved, Watch.run, Machine.run_single]
  have before := delivered?_of_watching watching
  cases stage with
  | waiting unallocated idle kept unanswered unasked early =>
    obtain ⟨others, split, noEdge⟩ := early
    refine .waiting (by simpa using unallocated) (by simpa using idle) (by simpa using kept)
      unanswered (by simpa using unasked) ⟨others, ?_, noEdge⟩
    rw [updatesOf_append, split, before, delivers, handed]
    cases held : watch.handed? with
    | none =>
      have hands : _ = _ := Watch.hands_step plan held move
      simp [hands]
    | some update =>
      obtain ⟨waits, silent⟩ := Watch.step_of_handed plan held unhandled
      simp [silent, waits]
  | reading edge reads kept unanswered asked held ends =>
    obtain ⟨waits, silent⟩ := Watch.step_of_handed plan (before ▸ held) unhandled
    refine .reading edge (by simpa using reads) (by simpa using kept) unanswered
      (by simpa using asked) (handed.trans waits) ?_
    rw [updatesOf_append, delivers, silent, List.append_nil]
    exact ends
  | allocated edge answer idle published answeredOnce asked isOver ends =>
    obtain ⟨other, same, isOver⟩ := isOver
    obtain rfl : watch = other := Option.some.inj (watching.symm.trans same)
    obtain ⟨stillOver, silent⟩ := isOver.step plan move
    refine .allocated edge answer (by simpa using idle) (by simpa using published) answeredOnce
      (by simpa using asked) ⟨_, moved.moved, by simpa using stillOver⟩ ?_
    rw [updatesOf_append, delivers, silent, List.append_nil]
    exact ends

/-- An update that is looked at is the edge, and is held, or lets the watch go on. -/
theorem Stage.review (stage : Stage initial effects answered reconciler)
    (watching : reconciler.watch = some watch) :
    let outcome := reconciler.step plan .review
    Stage initial (effects ++ outcome.2) answered outcome.1 := by
  have unmoved (still : reconciler.step plan .review = (reconciler, [])) :
      Stage initial (effects ++ (reconciler.step plan .review).2) answered
        (reconciler.step plan .review).1 := by
    simpa [still] using stage
  cases stage with
  | waiting unallocated idle kept unanswered unasked early =>
    cases held : reconciler.delivered? with
    | none => exact unmoved (by simp [step, held])
    | some update =>
      obtain ⟨others, split, noEdge⟩ := early
      rw [held, Option.toList_some] at split
      by_cases allocates : Allocates update
      · obtain ⟨next, reads, moved⟩ :=
          step_review_of_edge plan watching unallocated idle held allocates
        have silent : updatesOf (reconciler.step plan .review).2 = [] := by
          rw [updatesOf, moved.asked]
          rfl
        have waits : (reconciler.step plan .review).1.delivered? = some update := by
          rw [next]
          exact held
        refine .reading update (by simp [next]) (by simpa [next] using kept) unanswered ?_ waits ?_
        · rw [readsOf_append, unasked, reads, next]
          rfl
        · rw [updatesOf_append, silent, List.append_nil]
          exact ⟨allocates, others, split, noEdge⟩
      · obtain ⟨sameAllocator, sameSession, reads, moved⟩ :=
          step_review_of_other plan watching idle held allocates
        have handed := (delivered?_of_watching watching).symm.trans held
        have hands : _ = _ := Watch.hands_handled plan handed none
        have delivers : updatesOf (reconciler.step plan .review).2 =
            (reconciler.step plan .review).1.delivered?.toList := by
          rw [updatesOf, moved.asked, delivered?_of_watching moved.moved]
          simpa using hands
        refine .waiting (by rw [sameAllocator]; exact unallocated)
          (by rw [sameAllocator]; exact idle) (by rw [sameSession]; exact kept) unanswered
          (by rw [readsOf_append, unasked, reads, List.append_nil])
          ⟨others ++ [update], by rw [updatesOf_append, split, delivers], ?_⟩
        intro other member
        rcases List.mem_append.mp member with earlier | last
        · exact noEdge other earlier
        · obtain rfl := List.mem_singleton.mp last
          exact allocates
  | reading edge reads kept unanswered asked held ends =>
    exact unmoved (by simp [step, held, reads])
  | allocated edge answer idle published answeredOnce asked isOver ends =>
    obtain ⟨other, same, isOver⟩ := isOver
    have held : reconciler.delivered? = none :=
      (delivered?_of_watching same).trans isOver.handed?
    exact unmoved (by simp [step, held])

/-- The answer to the read of the detail record brings the last stage. -/
theorem Stage.read (stage : Stage initial effects answered reconciler)
    (watching : reconciler.watch = some watch) (answer : Except Cause Json) :
    let outcome := reconciler.step plan (.read answer)
    Stage initial (effects ++ outcome.2) (answered ++ reconciler.answers (.read answer))
      outcome.1 := by
  have unmoved (idle : reconciler.allocator.reading = none) :
      Stage initial (effects ++ (reconciler.step plan (.read answer)).2)
        (answered ++ reconciler.answers (.read answer))
        (reconciler.step plan (.read answer)).1 := by
    have still : reconciler.step plan (.read answer) = (reconciler, []) := by simp [step, idle]
    simpa [still, answers, idle] using stage
  cases stage with
  | waiting _ idle => exact unmoved idle
  | allocated _ _ idle => exact unmoved idle
  | reading edge reads kept unanswered asked held ends =>
    obtain ⟨next, published, silent, moved⟩ :=
      step_read_of_reading plan watching reads answer
    have handed := (delivered?_of_watching watching).symm.trans held
    obtain ⟨isOver, noUpdate⟩ := Watch.over_of_stopped plan handed none
    refine .allocated edge answer (by rw [next]) (kept ▸ published)
      (by simp [unanswered, answers, reads]) ?_ ⟨_, moved.moved, isOver⟩ ?_
    · rw [readsOf_append, silent, asked, next]
      rfl
    · rw [updatesOf_append, updatesOf, updatesOf, moved.asked, noUpdate, List.append_nil]
      exact ends

/-- Every own move of a reconciler whose watch has been started keeps the stage or brings the next
    one. -/
theorem Stage.step (stage : Stage initial effects answered reconciler)
    (watching : reconciler.watch = some watch) {move : Move} (own : move.isOwn) :
    let outcome := reconciler.step plan move
    Stage initial (effects ++ outcome.2) (answered ++ reconciler.answers move) outcome.1 := by
  cases move with
  | start => simpa [Reconciler.step, watching, answers] using stage
  | watch move =>
    cases move with
    | handled failure => exact stage.still
    | _ => simpa [Reconciler.step, answers] using stage.moveWatch plan watching (by simp)
  | update old new => cases own
  | review => simpa [answers] using stage.review plan watching
  | read answer => exact stage.read plan watching answer

/-- A run of own moves goes on through the stages. -/
theorem Stage.run (stage : Stage initial effects answered reconciler)
    (watching : reconciler.watch = some watch) (moves : List Move)
    (own : ∀ move ∈ moves, move.isOwn) :
    let outcome := reconciler.run plan moves
    Stage initial (effects ++ outcome.2) (answered ++ reconciler.allAnswers plan moves)
      outcome.1 := by
  induction moves generalizing reconciler watch effects answered with
  | nil => exact stage.still
  | cons move moves inductionHypothesis =>
    have next := stage.step plan watching (own move (by simp))
    have watches := (moves_step plan watching move).moved
    have later := inductionHypothesis next watches fun later member => own later (by simp [member])
    simpa only [Machine.run_cons, Machine.trace, List.append_assoc] using later

/-- As long as no handler has gone on with an answer the session is that of the start. -/
theorem Stage.session_of_unanswered (stage : Stage initial effects [] reconciler) :
    reconciler.session = initial := by
  cases stage with
  | waiting _ _ kept => exact kept
  | reading _ _ kept => exact kept
  | allocated _ _ _ _ answeredOnce => cases answeredOnce

/-- As long as no handler has gone on with an answer, an edge that was delivered is with its
    handler. -/
theorem Stage.held_of_unanswered (stage : Stage initial effects [] reconciler)
    {edge : Json × Json} (delivered : edge ∈ updatesOf effects) (allocates : Allocates edge) :
    reconciler.delivered? = some edge := by
  cases stage with
  | waiting _ _ _ _ _ early =>
    obtain ⟨others, split, noEdge⟩ := early
    rw [split] at delivered
    rcases List.mem_append.mp delivered with other | last
    · exact absurd allocates (noEdge edge other)
    · exact Option.mem_toList.mp last
  | reading current _ _ _ _ held ends => exact ends.eq_of_mem delivered allocates ▸ held
  | allocated _ _ _ _ answeredOnce => cases answeredOnce

/-- A handler goes on with an answer for the first edge only. -/
theorem Stage.edge_of_answered {answer : Except Cause Json}
    (stage : Stage initial effects (answer :: answered) reconciler) :
    ∃ edge, EndsInEdge (updatesOf effects) edge := by
  cases stage with
  | waiting _ _ _ unanswered => cases unanswered
  | reading _ _ _ unanswered => cases unanswered
  | allocated edge _ _ _ _ _ _ ends => exact ⟨edge, ends⟩

/-- The first answer with which a handler goes on gives the session of the edge. -/
theorem Stage.session_of_answered {edge : Json × Json} {answer : Except Cause Json}
    (stage : Stage initial effects (answer :: answered) reconciler)
    (delivered : edge ∈ updatesOf effects) (allocates : Allocates edge) :
    reconciler.session = initial.publish (allocatedSession edge.2 answer) := by
  cases stage with
  | waiting _ _ _ unanswered => cases unanswered
  | reading _ _ _ unanswered => cases unanswered
  | allocated first only _ published answeredOnce _ _ ends =>
    obtain rfl := ends.eq_of_mem delivered allocates
    obtain ⟨rfl, -⟩ := List.cons.inj answeredOnce
    exact published

variable (namespaceName name : String)

/-- A reconciler whose watch has just been started. -/
def started (session : Session) : Reconciler :=
  (({ allocator := { namespaceName, name }, session } : Reconciler).step plan .start).1

/-- A reconciler starts with a watch that has done nothing. -/
theorem watch_started (session : Session) :
    (started plan namespaceName name session).watch = some {} := rfl

/-- A reconciler that has been started is in the first stage. -/
theorem stage_started (initial : Session) :
    Stage initial [] [] (started plan namespaceName name initial) :=
  .waiting rfl rfl rfl rfl rfl ⟨[], rfl, by simp⟩

/-- A reconciler that has been started goes through the stages. -/
theorem stage_run (initial : Session) {moves : List Move} (own : ∀ move ∈ moves, move.isOwn) :
    Stage initial ((started plan namespaceName name initial).run plan moves).2
      ((started plan namespaceName name initial).allAnswers plan moves)
      ((started plan namespaceName name initial).run plan moves).1 :=
  (stage_started plan namespaceName name initial).run plan
    (watch_started plan namespaceName name initial) moves own

end GameSidecar.Reconciler
