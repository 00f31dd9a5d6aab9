import GameSidecar.Proofs.Stages

/-!
# No edge of an allocation is lost

The allocator writes the edge of an allocation once. The record before it and the record after it
may be observed in any way: in one stream, in two of them, in a list and a stream, or in two lists
with failures and expiries between them. What matters is only that the first record is the one
that was seen last when the second is seen, and that the second is seen as a renewal of it.

Then the watch delivers the two together, since its deliveries are those of the reference cache.
The reconciler cannot have passed an edge before, because a watch observes nothing more after one.
So its handler reads the detail record once, and the session that is held in the end is the one of
the second record, with the players of the answer.
-/

namespace GameSidecar

namespace Watch

/-- An observation shows a record as the renewal of another one: an event says that the record was
    modified, or a list holds it with another version. -/
def Observation.Renews (observation : Observation) (first second : Json) : Prop :=
  (∃ sent, observation = .event sent ∧
    Notice.ofEvent? sent = some ⟨.string "MODIFIED", second⟩) ∨
  (observation = .item second ∧ Record.version? first ≠ Record.version? second)

/-- A renewal of the record that was seen last is delivered. -/
theorem Reference.update?_of_renews {history : List Observation} {observation : Observation}
    {first second : Json} (renews : observation.Renews first second)
    (seen : lastSeen history (Record.name second) = some first) :
    Reference.update? history observation = some (first, second) := by
  rcases renews with ⟨sent, rfl, given⟩ | ⟨rfl, differ⟩
  · simp [Reference.update?, given, seen]
  · simp [Reference.update?, seen, differ]

/-- What is delivered on one of some observations is among the deliveries on all of them. -/
theorem Reference.mem_deliveries {earlier later : List Observation} {observation : Observation}
    {update : Json × Json} (delivered : Reference.update? earlier observation = some update) :
    update ∈ Reference.deliveries (earlier ++ observation :: later) := by
  simp [Reference.deliveries, Reference.deliveriesAfter_append, Reference.deliveriesAfter_cons,
    delivered]

end Watch

namespace Reconciler

variable (plan : Watch.Plan)

/-- All that the watch of a reconciler observes during some moves of the reconciler. -/
def observations (reconciler : Reconciler) (moves : List Move) : List Watch.Observation :=
  reconciler.watch.elim [] fun watch =>
    watch.observations plan (Machine.trace (step plan) watchMoves reconciler moves)

/-- A run has handled the edge with a record: the detail record was asked for once, one answer was
    gone on with, the handler is at its end, and the session is that of the record and the
    answer. -/
structure Published (start : Reconciler) (moves : List Move) (record : Json)
    (answer : Except Cause Json) : Prop where
  asked : readsOf (start.run plan moves).2 = [start.allocator.companion]
  answered : start.allAnswers plan moves = [answer]
  handled : (start.run plan moves).1.delivered? = none
  session : (start.run plan moves).1.session = allocatedSession record answer

variable {reconciler : Reconciler} {watch : Watch}

/-- The moves of the watch during a run are a run of the watch. -/
theorem moves_run (watching : reconciler.watch = some watch) (moves : List Move) :
    Moves plan watch (Machine.trace (step plan) watchMoves reconciler moves)
      (reconciler.run plan moves) := by
  induction moves generalizing reconciler watch with
  | nil => exact moves_still plan watching
  | cons move moves inductionHypothesis =>
    have first := moves_step plan watching move
    exact first.append (inductionHypothesis first.moved)

/-- The updates that come to a reconciler are those of the reference cache. -/
theorem updatesOf_run (watching : reconciler.watch = some {}) (moves : List Move) :
    updatesOf (reconciler.run plan moves).2 =
      Watch.Reference.deliveries (reconciler.observations plan moves) := by
  have moved := moves_run plan watching moves
  have follows := Watch.follows_start plan
    (Machine.trace (step plan) watchMoves reconciler moves)
  rw [updatesOf, moved.asked, follows.delivers, observations, watching]
  rfl

/-- No move changes the detail record that is read. -/
theorem companion_step (reconciler : Reconciler) (move : Move) :
    (reconciler.step plan move).1.allocator.companion = reconciler.allocator.companion := by
  unfold step
  split
  · split <;> rfl
  · rfl
  · simp
  · simp [Allocator.companion_review]
  · split
    · rfl
    · split
      · rfl
      · simp [Allocator.companion_review]
  · split
    · rfl
    · simp [Allocator.companion_complete]

/-- The detail record of the game server stays the same. -/
theorem companion_run (reconciler : Reconciler) (moves : List Move) :
    (reconciler.run plan moves).1.allocator.companion = reconciler.allocator.companion :=
  Machine.run_keeps (step plan)
    (fun later => later.allocator.companion = reconciler.allocator.companion) (fun _ => True)
    (fun later move _ same => (companion_step plan later move).trans same)
    reconciler moves (fun _ _ => trivial) rfl

/-- A review of the edge leads to the read of the detail record, if it has not been asked for. -/
theorem Stage.reading_of_review {initial : Session} {effects : List Effect}
    {answered : List (Except Cause Json)} {edge : Json × Json}
    (stage : Stage initial effects answered reconciler)
    (watching : reconciler.watch = some watch) (held : reconciler.delivered? = some edge)
    (allocates : Allocates edge) :
    (reconciler.step plan .review).1.allocator.reading.isSome := by
  cases stage with
  | waiting unallocated idle =>
    obtain ⟨next, -⟩ := step_review_of_edge plan watching unallocated idle held allocates
    simp [next]
  | reading edge reads => simp [Reconciler.step, held, reads]
  | allocated _ _ _ _ _ _ isOver =>
    obtain ⟨other, same, isOver⟩ := isOver
    simp [delivered?_of_watching same, isOver.handed?] at held

section

variable {plan} {namespaceName name : String} {initial : Session} {moves : List Move}
  {edge : Json × Json}

/-- A run in which an edge was delivered and an answer was gone on with has handled the edge. -/
theorem published_of_answered (isOpen : initial.state.isShutdown = false)
    (own : ∀ move ∈ moves, move.isOwn) (allocates : Allocates edge)
    (delivered : edge ∈ updatesOf ((started plan namespaceName name initial).run plan moves).2)
    (answered : List (Except Cause Json)) {answer : Except Cause Json}
    (all : (started plan namespaceName name initial).allAnswers plan moves =
      answered ++ [answer]) :
    Published plan (started plan namespaceName name initial) moves edge.2 answer := by
  have stage := stage_run plan namespaceName name initial own
  have companion := companion_run plan (started plan namespaceName name initial) moves
  cases stage with
  | waiting _ _ _ unanswered => simp [all] at unanswered
  | reading _ _ _ unanswered => simp [all] at unanswered
  | allocated first only idle published answeredOnce asked isOver ends =>
    obtain rfl := ends.eq_of_mem delivered allocates
    obtain ⟨-, rfl⟩ : answered = [] ∧ answer = only := by
      simpa [all, List.append_eq_singleton_iff] using answeredOnce
    obtain ⟨watch, watching, isOver⟩ := isOver
    exact ⟨asked.trans (by rw [companion]), answeredOnce,
      (delivered?_of_watching watching).trans isOver.handed?,
      published.trans (publish_allocatedSession isOpen _ _)⟩

end

/-- No edge of the allocation is lost. In any run of a reconciler whose session is not shut down,
    let a record be observed as active that renews the last record of its name, and let that one
    have been standing by. Then the handler is at work on the two, and whatever answer it is given
    to its read it publishes their session; or it has done so. -/
theorem edge_published (namespaceName name : String) (initial : Session)
    (isOpen : initial.state.isShutdown = false) (moves : List Move)
    (own : ∀ move ∈ moves, move.isOwn) (earlier later : List Watch.Observation)
    (observation : Watch.Observation) (first second : Json)
    (observed : (started plan namespaceName name initial).observations plan moves =
      earlier ++ observation :: later)
    (seen : Watch.lastSeen earlier (Record.name second) = some first)
    (renews : observation.Renews first second) (edge : Allocates (first, second)) :
    let start := started plan namespaceName name initial
    ((start.run plan moves).1.delivered? = some (first, second) ∧
      ∀ answer, Published plan start (moves ++ [.review, .read answer]) second answer) ∨
      ∃ answer, Published plan start moves second answer := by
  intro start
  have watching : start.watch = some {} := watch_started plan namespaceName name initial
  have delivered : (first, second) ∈ updatesOf (start.run plan moves).2 := by
    rw [updatesOf_run plan watching, observed]
    exact Watch.Reference.mem_deliveries (Watch.Reference.update?_of_renews renews seen)
  have stage := stage_run plan namespaceName name initial own
  -- While the handler is at work, a review and an answer take it to its end.
  have atWork (held : (start.run plan moves).1.delivered? = some (first, second)) :
      ∀ answer, Published plan start (moves ++ [.review, .read answer]) second answer := by
    intro answer
    have reading := stage.reading_of_review plan (moves_run plan watching moves).moved held edge
    have all : start.allAnswers plan (moves ++ [.review, .read answer]) =
        start.allAnswers plan moves ++ [answer] := by
      have last : ((start.run plan moves).1.step plan .review).1.answers (.read answer) =
          [answer] := by
        simpa [answers] using Option.isSome_iff_ne_none.mp reading
      rw [allAnswers, Machine.trace_append]
      simp only [Machine.trace, List.append_nil, answers, List.nil_append] at last ⊢
      rw [last]
    refine published_of_answered isOpen ?_ edge ?_ (start.allAnswers plan moves) all
    · intro move member
      rcases List.mem_append.mp member with earlier | last
      · exact own move earlier
      · rcases List.mem_pair.mp last with rfl | rfl <;> rfl
    · rw [run, Machine.run_append, updatesOf_append]
      exact List.mem_append_left _ delivered
  by_cases unanswered : start.allAnswers plan moves = []
  · rw [unanswered] at stage
    have held := stage.held_of_unanswered delivered edge
    exact .inl ⟨held, atWork held⟩
  · cases stage with
    | waiting _ _ _ none => exact absurd none unanswered
    | reading _ _ _ none => exact absurd none unanswered
    | allocated _ answer _ _ answeredOnce =>
      exact .inr ⟨answer, published_of_answered isOpen own edge delivered [] answeredOnce⟩

/-- A game server in a state, with a version. -/
def sampleRecord (state version : String) : Json :=
  .object [
    ("metadata", .object [("name", .string "gs"), ("resourceVersion", .string version)]),
    ("status", .object [("state", .string state), ("sessionID", .string "s")])]

/-- The answer to a list call that holds a game server in a state, with the version of both. -/
def sampleAnswer (state version : String) : Json :=
  .object [
    ("metadata", .object [("resourceVersion", .string version)]),
    ("items", .array [sampleRecord state version])]

/-- The edge is kept over a stream whose version has expired: it lies between two lists, and another
    game server is listed in between. What is published is what the record and the answer hold. A
    text that is missing, or is none, is empty, and after a failed read there are no players. -/
theorem edge_published_after_expiry :
    let plan : Watch.Plan := ⟨⟨.gameServer, "default", "gs"⟩, none⟩
    let other : Json := .object [("metadata", .object [("name", .string "other")])]
    let active (session : List (String × Json)) : Json := .object [
      ("metadata", .object [("name", .string "gs"), ("resourceVersion", .string "2")]),
      ("status", .object (("state", .string "Active") :: session))]
    let list (items : List Json) : Move := .watch (.listed (.ok (.object [
      ("metadata", .object [("resourceVersion", .string "9")]), ("items", .array items)])))
    let published (session : List (String × Json)) (answer : Except Cause Json) : Session :=
      ((started plan "default" "gs" {}).run plan [.watch .proceed,
        list [sampleRecord "StandingBy" "1", other],
        .watch (.post 1 (.failed (.api (some 410) none))), .watch .take, .watch .proceed,
        list [active session], .review, .read answer]).1.session
    published [("sessionID", .string "s"), ("sessionCookie", .string "c")]
        (.ok (.object [("spec", .object [
          ("initialPlayers", .array [.string "ann", .string "ben"])])])) =
      ⟨.active, .string "s", .string "c", some [.string "ann", .string "ben"]⟩ ∧
    published [("sessionID", .int 5)] (.error (.api (some 404) none)) =
      ⟨.active, .string "", .string "", some []⟩ := by
  intro plan other active list published
  have kept (session : List (String × Json)) (answer : Except Cause Json) :
      published session answer = allocatedSession (active session) answer := by
    have shown : Watch.Observation.Renews (.item (active session)) (sampleRecord "StandingBy" "1")
        (active session) := by
      have first : Record.version? (sampleRecord "StandingBy" "1") = some "1" := rfl
      have second : Record.version? (active session) = some "2" := rfl
      exact .inr ⟨rfl, by rw [first, second]; decide⟩
    rcases edge_published plan "default" "gs" {} rfl
      [.watch .proceed, list [sampleRecord "StandingBy" "1", other],
        .watch (.post 1 (.failed (.api (some 410) none))), .watch .take, .watch .proceed,
        list [active session]] (by simp [Move.isOwn, list])
      [.item (sampleRecord "StandingBy" "1"), .item other,
        .listed [sampleRecord "StandingBy" "1", other]] []
      (.item (active session)) (sampleRecord "StandingBy" "1") (active session) rfl rfl shown
      ⟨rfl, rfl⟩ with ⟨-, handled⟩ | ⟨early, handled⟩
    · exact (handled answer).session
    · cases handled.answered
  exact ⟨(kept _ _).trans rfl, (kept _ _).trans rfl⟩

end Reconciler

end GameSidecar
