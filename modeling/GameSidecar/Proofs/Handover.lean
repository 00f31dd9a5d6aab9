import GameSidecar.Endpoint
import GameSidecar.Proofs.Stages

/-!
# The hand-over of the session to the game

The sidecar at work is one machine. The reconciler watches the game server, heartbeats come and
are handled one after the other, and each is answered with the session that is held when it ends.
The two activities may be interleaved in any way.

The answers before the publication are all alike, and so are those after it. The reconciler is the
only one who writes the session, and it does so once, so that one move divides every run: a read
of the detail record that a handler goes on with. Whatever values the records hold, the session
that is published consists of texts, so that an answer can always be given.
-/

namespace GameSidecar

/-- The sidecar at work, with the requests whose heartbeats have been admitted. The number of a
    heartbeat is the place of its request. -/
structure Sidecar where
  reconciler : Reconciler
  service : Heartbeat.Service := {}
  requests : List Endpoint.Request := []

namespace Sidecar

/-- What happens around the sidecar. -/
inductive Move
  /-- A move of the watch. -/
  | watch (move : Watch.Move)
  /-- The update that the watch has delivered is looked at. -/
  | review
  /-- The answer to the read of the detail record. -/
  | read (outcome : Except Cause Json)
  /-- A heartbeat comes for a session host. -/
  | heartbeat (host : String) (request : Endpoint.Request)
  /-- The answer to the patch that is under way. -/
  | patched (outcome : Except Cause Unit)

/-- What the sidecar asks for. -/
inductive Effect
  | reconciler (effect : Reconciler.Effect)
  | log (line : Line)
  | send (patch : Api.Patch)
  | reply (reply : Endpoint.Reply)

variable (plan : Watch.Plan)

/-- A patch of the aspect that a heartbeat brings up to date. -/
def patch (sidecar : Sidecar) (turn : Heartbeat.Turn) (aspect : Heartbeat.Aspect) : Api.Patch :=
  let allocator := sidecar.reconciler.allocator
  turn.report.patch allocator.namespaceName allocator.name aspect

/-- One thing that the heartbeat service does. A heartbeat that ends is answered with the session
    at that moment. -/
def serve (sidecar : Sidecar) : Heartbeat.Action → List Effect
  | .log line => [.log line]
  | .send turn aspect => [.send (sidecar.patch turn aspect)]
  | .finish turn result =>
    let request := (sidecar.requests[turn.number]?).getD ⟨"", "", "", .empty⟩
    let (reply, lines) := Endpoint.conclude request sidecar.reconciler.session result
    lines.map .log ++ [.reply reply]

/-- The service goes on to a new state, with some actions. -/
def adopt (sidecar : Sidecar) (served : Heartbeat.Service × List Heartbeat.Action) :
    Sidecar × List Effect :=
  ({ sidecar with service := served.1 }, served.2.flatMap sidecar.serve)

/-- A move of the reconciler. -/
def reconcile (sidecar : Sidecar) (move : Reconciler.Move) : Sidecar × List Effect :=
  let (reconciler, effects) := sidecar.reconciler.step plan move
  ({ sidecar with reconciler }, effects.map .reconciler)

/-- What a move does. The answer to a patch is one to the heartbeat that holds the service. -/
def step (sidecar : Sidecar) : Move → Sidecar × List Effect
  | .watch move => sidecar.reconcile plan (.watch move)
  | .review => sidecar.reconcile plan .review
  | .read outcome => sidecar.reconcile plan (.read outcome)
  | .heartbeat host request =>
    match Endpoint.receiveBody host request.body with
    | .replied reply lines => (sidecar, lines.map .log ++ [.reply reply])
    | .admitted _ report =>
      let number := sidecar.requests.length
      { sidecar with requests := sidecar.requests ++ [request] }.adopt
        (sidecar.service.arrive ⟨number, report⟩)
  | .patched outcome =>
    match sidecar.service.holder with
    | none => (sidecar, [])
    | some (turn, aspect) =>
      let (result, lines) := (sidecar.patch turn aspect).result outcome
      let (adopted, effects) := sidecar.adopt (sidecar.service.complete result)
      (adopted, lines.map .log ++ effects)

/-- The sidecar after some moves, and all that it has asked for, in order. -/
abbrev run (sidecar : Sidecar) (moves : List Move) : Sidecar × List Effect :=
  Machine.run (step plan) sidecar moves

/-- The replies to heartbeats, in order. -/
def replies (effects : List Effect) : List Endpoint.Reply :=
  effects.filterMap fun effect =>
    match effect with
    | .reply reply => some reply
    | _ => none

/-- What the reconciler asks for. -/
def reconcilerEffects (effects : List Effect) : List Reconciler.Effect :=
  effects.filterMap fun effect =>
    match effect with
    | .reconciler effect => some effect
    | _ => none

/-- The updates that the watch of the sidecar delivers. -/
def updatesOf (effects : List Effect) : List (Json × Json) :=
  Reconciler.updatesOf (reconcilerEffects effects)

/-- The answers to reads of the detail record with which a handler goes on. -/
def answers (sidecar : Sidecar) : Move → List (Except Cause Json)
  | .read outcome => sidecar.reconciler.answers (.read outcome)
  | _ => []

/-- All answers with which a handler goes on during some moves, in order. -/
abbrev allAnswers (sidecar : Sidecar) (moves : List Move) : List (Except Cause Json) :=
  Machine.trace (step plan) answers sidecar moves

/-- The sidecar when its watch has just been started. -/
def started (namespaceName name : String) : Sidecar :=
  { reconciler := .started plan namespaceName name {} }

@[simp] theorem replies_nil : replies [] = [] := rfl

/-- Replies come in the order of the effects. -/
@[simp] theorem replies_append (front back : List Effect) :
    replies (front ++ back) = replies front ++ replies back :=
  List.filterMap_append

/-- Log lines are no replies. -/
@[simp] theorem replies_lines (lines : List Line) : replies (lines.map .log) = [] := by
  simp [replies]

/-- What the reconciler does is no reply. -/
@[simp] theorem replies_reconciler (effects : List Reconciler.Effect) :
    replies (effects.map .reconciler) = [] := by
  simp [replies]

/-- What the reconciler does comes in the order of the effects. -/
@[simp] theorem reconcilerEffects_append (front back : List Effect) :
    reconcilerEffects (front ++ back) = reconcilerEffects front ++ reconcilerEffects back :=
  List.filterMap_append

/-- Log lines are nothing of the reconciler. -/
@[simp] theorem reconcilerEffects_lines (lines : List Line) :
    reconcilerEffects (lines.map .log) = [] := by
  simp [reconcilerEffects]

@[simp] theorem reconcilerEffects_reconciler (effects : List Reconciler.Effect) :
    reconcilerEffects (effects.map .reconciler) = effects := by
  simp [reconcilerEffects]

/-- A reply is nothing of the reconciler. -/
@[simp] theorem reconcilerEffects_reply (reply : Endpoint.Reply) :
    reconcilerEffects [.reply reply] = [] := rfl

/-- What the service does is nothing of the reconciler. -/
@[simp] theorem reconcilerEffects_serve (sidecar : Sidecar) (actions : List Heartbeat.Action) :
    reconcilerEffects (actions.flatMap sidecar.serve) = [] := by
  induction actions with
  | nil => rfl
  | cons action actions inductionHypothesis =>
    rw [List.flatMap_cons, reconcilerEffects_append, inductionHypothesis, List.append_nil]
    cases action with
    | finish turn result => simp [serve]
    | _ => rfl

end Sidecar

/-- The answer before an allocation: to go on waiting, without a session. -/
def waitingAnswer : Answer :=
  ⟨.proceed, "", "", none⟩

/-- The answer after an allocation, by the record that shows it and the answer to the read of the
    detail record. It always names players, if only none of them. -/
def sessionAnswer (record : Json) (answer : Except Cause Json) : Answer :=
  ⟨.activate, textAt record ["status", "sessionID"], textAt record ["status", "sessionCookie"],
    some (companionPlayers answer)⟩

namespace Answer

/-- The session at first gives the answer to wait. -/
theorem ofSession_initial : ofSession {} = .ok waitingAnswer := rfl

/-- Players that are texts are given as they are. -/
theorem playersFrom_texts (index : Nat) (players : List String) :
    playersFrom index (players.map .string) = players.map .ok := by
  induction players generalizing index with
  | nil => rfl
  | cons player rest inductionHypothesis =>
    simp only [List.map_cons, playersFrom, inductionHypothesis]

/-- Values without a fault are all taken. -/
theorem all_ok {α : Type} (values : List α) : Fault.all (values.map .ok) = .ok values := by
  induction values with
  | nil => rfl
  | cons value rest inductionHypothesis =>
    simp only [List.map_cons, Fault.all, inductionHypothesis, Fault.both]
    rfl

/-- The session of an allocation can always be given in an answer. -/
theorem ofSession_allocatedSession (record : Json) (answer : Except Cause Json) :
    ofSession (allocatedSession record answer) = .ok (sessionAnswer record answer) := by
  have players : playersField (allocatedSession record answer).initialPlayers =
      .ok (some (companionPlayers answer)) := by
    simp only [allocatedSession, playersField, playersFrom_texts, all_ok]
    rfl
  simp only [ofSession, players]
  rfl

end Answer

namespace Endpoint.Reply

/-- A reply gives an answer if it is a success at all, and does not break off in any case. -/
def Gives (answer : Answer) (reply : Reply) : Prop :=
  reply ≠ .broken ∧ (reply.status = 200 → reply = .ofValue 200 answer.toJson)

/-- A failed patch is reported as such. -/
theorem failed_ne_broken (failure : Heartbeat.Failure) : Reply.failed failure ≠ .broken := by
  intro same
  have message : failure.message = "internal server error" := by
    simpa [failed, broken, refusal, ofValue] using same
  have texts : "error updating " ++ failure.aspect.label ++ ": " ++ failure.error.message =
      "internal server error" := message
  have first := congrArg (fun text : String => text.toList.head?) texts
  simp at first

/-- The reply after a heartbeat was handled says the answer that the session gives. -/
theorem gives_conclude {session : Session} {answer : Answer}
    (given : Answer.ofSession session = .ok answer) (request : Request)
    (result : Except Heartbeat.Failure Unit) :
    (conclude request session result).1.Gives answer := by
  cases result with
  | error failure =>
    exact ⟨failed_ne_broken failure, fun success => (by decide : 500 ≠ 200) |>.elim success⟩
  | ok =>
    simp only [conclude, given]
    exact ⟨fun same => (by decide : 200 ≠ 500) |>.elim (congrArg status same), fun _ => rfl⟩

/-- A heartbeat that is refused at once is a bad request. -/
theorem status_receiveBody {host : String} {body : ByteArray} {reply : Reply} {lines : List Line}
    (refused : receiveBody host body = .replied reply lines) : reply.status = 400 := by
  unfold receiveBody at refused
  split at refused
  · obtain ⟨rfl, -⟩ := Admission.replied.inj refused
    rfl
  · split at refused
    · obtain ⟨rfl, -⟩ := Admission.replied.inj refused
      rfl
    · split at refused
      · obtain ⟨rfl, -⟩ := Admission.replied.inj refused
        rfl
      · cases refused

/-- A heartbeat that is refused at once is no success. -/
theorem gives_receiveBody {host : String} {body : ByteArray} {reply : Reply} {lines : List Line}
    (refused : receiveBody host body = .replied reply lines) (answer : Answer) :
    reply.Gives answer := by
  have status := status_receiveBody refused
  refine ⟨?_, fun success => absurd (status.symm.trans success) (by decide)⟩
  rintro rfl
  exact absurd status (by decide)

end Endpoint.Reply

namespace Sidecar

variable (plan : Watch.Plan) {sidecar : Sidecar} {answer : Answer}

/-- What all replies of a step give, and all replies after it, is given by all of them. -/
theorem gives_run_cons {move : Move} {moves : List Move}
    (first : ∀ reply ∈ replies (sidecar.step plan move).2, reply.Gives answer)
    (rest : ∀ reply ∈ replies ((sidecar.step plan move).1.run plan moves).2, reply.Gives answer) :
    ∀ reply ∈ replies (sidecar.run plan (move :: moves)).2, reply.Gives answer := by
  rw [run, Machine.run_cons, replies_append]
  exact List.forall_mem_append.mpr ⟨first, rest⟩

/-- What the service replies are conclusions of heartbeats, with the session that is held. -/
theorem mem_replies_serve {actions : List Heartbeat.Action} {reply : Endpoint.Reply}
    (member : reply ∈ replies (actions.flatMap sidecar.serve)) :
    ∃ request result,
      reply = (Endpoint.conclude request sidecar.reconciler.session result).1 := by
  induction actions with
  | nil => simp at member
  | cons action actions inductionHypothesis =>
    rw [List.flatMap_cons, replies_append] at member
    rcases List.mem_append.mp member with first | later
    · cases action with
      | finish turn result => exact ⟨_, result, by simpa [serve, replies] using first⟩
      | _ => simp [serve, replies] at first
    · exact inductionHypothesis later

/-- All replies of the service give the answer of the session. -/
theorem gives_serve (given : Answer.ofSession sidecar.reconciler.session = .ok answer)
    (actions : List Heartbeat.Action) :
    ∀ reply ∈ replies (actions.flatMap sidecar.serve), reply.Gives answer := by
  intro reply member
  obtain ⟨request, result, rfl⟩ := mem_replies_serve member
  exact Endpoint.Reply.gives_conclude given request result

/-- All replies of a step say the answer that the session gives before the step. -/
theorem gives_step (given : Answer.ofSession sidecar.reconciler.session = .ok answer)
    (move : Move) : ∀ reply ∈ replies (sidecar.step plan move).2, reply.Gives answer := by
  cases move with
  | heartbeat host request =>
    simp only [step]
    cases received : Endpoint.receiveBody host request.body with
    | replied reply lines =>
      intro only member
      obtain rfl : only = reply := by simpa [replies] using member
      exact Endpoint.Reply.gives_receiveBody received answer
    | admitted host report =>
      have held : Answer.ofSession ({ sidecar with
          requests := sidecar.requests ++ [request] } : Sidecar).reconciler.session = .ok answer :=
        given
      exact gives_serve held _
  | patched outcome =>
    simp only [step]
    split
    · simp
    · simpa [adopt] using gives_serve given _
  | _ => simp [step, reconcile]

/-- Every move of the sidecar keeps the stage of its reconciler or brings the next one. -/
theorem stage_step {initial : Session} {effects : List Effect}
    {answered : List (Except Cause Json)} {watch : Watch}
    (stage : Reconciler.Stage initial (reconcilerEffects effects) answered sidecar.reconciler)
    (watching : sidecar.reconciler.watch = some watch) (move : Move) :
    let outcome := sidecar.step plan move
    Reconciler.Stage initial (reconcilerEffects (effects ++ outcome.2))
      (answered ++ sidecar.answers move) outcome.1.reconciler ∧
      ∃ next, outcome.1.reconciler.watch = some next := by
  have reconciled (move : Reconciler.Move) (own : move.isOwn) :
      let outcome := sidecar.reconcile plan move
      Reconciler.Stage initial (reconcilerEffects (effects ++ outcome.2))
        (answered ++ sidecar.reconciler.answers move) outcome.1.reconciler ∧
        ∃ next, outcome.1.reconciler.watch = some next := by
    have next := stage.step plan watching own
    have moved := Reconciler.moves_step plan watching move
    exact ⟨by simpa [reconcile] using next, _, moved.moved⟩
  cases move with
  | watch move => exact reconciled (.watch move) rfl
  | review => exact reconciled .review rfl
  | read outcome => exact reconciled (.read outcome) rfl
  | heartbeat host request =>
    simp only [step]
    split
    · exact ⟨by simpa [answers] using stage, watch, watching⟩
    · exact ⟨by simpa [answers, adopt] using stage, watch, watching⟩
  | patched outcome =>
    simp only [step]
    split
    · exact ⟨by simpa [answers] using stage, watch, watching⟩
    · exact ⟨by simpa [answers, adopt] using stage, watch, watching⟩

/-- A move that goes on with an answer is a read. -/
theorem move_of_answers {move : Move} {read : Except Cause Json}
    {rest : List (Except Cause Json)} (went : sidecar.answers move = read :: rest) :
    move = .read read := by
  cases move with
  | read outcome =>
    simp only [answers, Reconciler.answers] at went
    split at went
    · cases went
    · rw [(List.cons.inj went).1]
  | _ => cases went

/-- Once the session of an edge has been published, all replies give it. -/
theorem gives_run_of_allocated {effects : List Effect} {answered : List (Except Cause Json)}
    {watch : Watch} {read : Except Cause Json} {edge : Json × Json}
    (stage : Reconciler.Stage {} (reconcilerEffects effects) (read :: answered) sidecar.reconciler)
    (watching : sidecar.reconciler.watch = some watch) (delivered : edge ∈ updatesOf effects)
    (allocates : Allocates edge) (moves : List Move) :
    ∀ reply ∈ replies (sidecar.run plan moves).2, reply.Gives (sessionAnswer edge.2 read) := by
  induction moves generalizing sidecar effects answered watch with
  | nil => simp
  | cons move moves inductionHypothesis =>
    have session : sidecar.reconciler.session = allocatedSession edge.2 read :=
      stage.session_of_answered delivered allocates
    have given := session ▸ Answer.ofSession_allocatedSession edge.2 read
    obtain ⟨next, later, watches⟩ := stage_step plan stage watching move
    have stillDelivered : edge ∈ updatesOf (effects ++ (sidecar.step plan move).2) := by
      simp [updatesOf, show edge ∈ Reconciler.updatesOf _ from delivered]
    apply gives_run_cons
    · exact gives_step plan given move
    · exact inductionHypothesis next watches stillDelivered

/-- A run has not come to a publication: no handler has gone on with an answer, every edge that was
    delivered is still with its handler, and all answers are waiting. -/
structure Waits (start : Sidecar) (moves : List Move) : Prop where
  unanswered : start.allAnswers plan moves = []
  held : ∀ edge ∈ updatesOf (start.run plan moves).2, Allocates edge →
    (start.run plan moves).1.reconciler.delivered? = some edge
  unpublished : (start.run plan moves).1.reconciler.session = {}
  waiting : ∀ reply ∈ replies (start.run plan moves).2, reply.Gives waitingAnswer

/-- A read of the detail record divides a run. It is the first one that a handler goes on with.
    Before it nothing has been published and all answers are waiting, with it the session of an edge
    is published and all answers give that. -/
structure Divides (start : Sidecar) (front back : List Move)
    (edge : Json × Json) (read : Except Cause Json) : Prop where
  unanswered : start.allAnswers plan front = []
  answered : (start.run plan front).1.answers (.read read) = [read]
  unpublished : (start.run plan front).1.reconciler.session = {}
  published : ((start.run plan front).1.step plan (.read read)).1.reconciler.session =
    allocatedSession edge.2 read
  waiting : ∀ reply ∈ replies (start.run plan front).2, reply.Gives waitingAnswer
  active : ∀ reply ∈ replies ((start.run plan front).1.run plan (.read read :: back)).2,
    reply.Gives (sessionAnswer edge.2 read)

/-- A move without an answer before a run that is divided makes it a longer one. -/
theorem Divides.after {move : Move} {front back : List Move} {edge : Json × Json}
    {read : Except Cause Json}
    (divides : Divides plan (sidecar.step plan move).1 front back edge read)
    (went : sidecar.answers move = [])
    (replied : ∀ reply ∈ replies (sidecar.step plan move).2, reply.Gives waitingAnswer) :
    Divides plan sidecar (move :: front) back edge read where
  unanswered := by
    rw [allAnswers, Machine.trace, went, List.nil_append]
    exact divides.unanswered
  answered := divides.answered
  unpublished := divides.unpublished
  published := divides.published
  waiting := gives_run_cons plan replied divides.waiting
  active := divides.active

section Handover

variable (sidecar : Sidecar) (effects : List Effect) {watch : Watch}
  (stage : Reconciler.Stage {} (reconcilerEffects effects) [] sidecar.reconciler)
  (watching : sidecar.reconciler.watch = some watch)
include stage watching

/-- The first read that a handler goes on with divides the run. -/
theorem divides_at {read : Except Cause Json} {rest : List (Except Cause Json)}
    (went : sidecar.answers (.read read) = read :: rest) (moves : List Move) :
    ∃ edge, (updatesOf (effects ++ (sidecar.run plan (.read read :: moves)).2)).find?
        (fun update => decide (Allocates update)) = some edge ∧
      Divides plan sidecar [] moves edge read := by
  obtain ⟨next, later, watches⟩ := stage_step plan stage watching (.read read)
  rw [went, List.nil_append] at next
  obtain ⟨edge, ends⟩ := next.edge_of_answered
  have delivered : edge ∈ updatesOf (effects ++ (sidecar.step plan (.read read)).2) := ends.mem
  have only : sidecar.answers (.read read) = [read] := by
    simp only [answers, Reconciler.answers] at went ⊢
    split at went
    · cases went
    · rw [if_neg ‹_›]
  refine ⟨edge, ?_, rfl, only, stage.session_of_unanswered, ?_, by simp, ?_⟩
  · rw [run, Machine.run_cons, ← List.append_assoc, updatesOf, reconcilerEffects_append,
      Reconciler.updatesOf_append]
    exact ends.find?_append _
  · exact next.session_of_answered delivered ends.1
  · have silent : replies (sidecar.step plan (.read read)).2 = [] := by
      simp [step, reconcile]
    rw [run, run, Machine.run_nil, Machine.run_cons, replies_append, silent, List.nil_append]
    exact gives_run_of_allocated plan next watches delivered ends.1 moves

/-- A run from a sidecar that has published nothing, with all that it has asked for before, goes on
    so, or is divided. -/
theorem handover_from (moves : List Move) :
    let reached := sidecar.run plan moves
    (sidecar.allAnswers plan moves = [] ∧
      (∀ edge ∈ updatesOf (effects ++ reached.2), Allocates edge →
        reached.1.reconciler.delivered? = some edge) ∧
      reached.1.reconciler.session = {} ∧
      ∀ reply ∈ replies reached.2, reply.Gives waitingAnswer) ∨
    ∃ front back edge read, moves = front ++ .read read :: back ∧
      (updatesOf (effects ++ reached.2)).find? (fun update => decide (Allocates update)) =
        some edge ∧
      Divides plan sidecar front back edge read := by
  induction moves generalizing sidecar effects watch with
  | nil =>
    refine .inl ⟨rfl, fun edge delivered allocates => ?_, stage.session_of_unanswered, by simp⟩
    rw [run, Machine.run_nil, List.append_nil] at delivered
    exact stage.held_of_unanswered delivered allocates
  | cons move moves inductionHypothesis =>
    cases went : sidecar.answers move with
    | nil =>
      have given := stage.session_of_unanswered ▸ Answer.ofSession_initial
      have replied := gives_step plan given move
      obtain ⟨next, later, watches⟩ := stage_step plan stage watching move
      have onward : effects ++ (sidecar.run plan (move :: moves)).2 =
          effects ++ (sidecar.step plan move).2 ++
            ((sidecar.step plan move).1.run plan moves).2 := by
        rw [run, Machine.run_cons, List.append_assoc]
      rw [went] at next
      rcases inductionHypothesis _ _ next watches with
        ⟨unanswered, held, unpublished, waiting⟩ | ⟨front, back, edge, read, rfl, found, divides⟩
      · refine .inl ⟨?_, ?_, unpublished, gives_run_cons plan replied waiting⟩
        · rw [allAnswers, Machine.trace, went, List.nil_append]
          exact unanswered
        · rw [onward]
          exact held
      · refine .inr ⟨move :: front, back, edge, read, rfl, ?_, divides.after plan went replied⟩
        rw [onward]
        exact found
    | cons read rest =>
      obtain rfl := move_of_answers went
      obtain ⟨edge, found, divides⟩ := divides_at plan sidecar effects stage watching went moves
      exact .inr ⟨[], moves, edge, read, rfl, found, divides⟩

end Handover

/-- The session is handed over to the game consistently and once. In every run of the sidecar,
    however the moves of its watch and heartbeats are interleaved, no answer breaks off. Either no
    handler has gone on with an answer to its read of the detail record, an edge that was delivered
    is with its handler, and every success is the waiting answer; or the first such read divides the
    run: with it the session of the first edge that was delivered is published, and every success is
    the waiting answer before it and the answer of that session after it. -/
theorem handover (namespaceName name : String) (moves : List Move) :
    let start := started plan namespaceName name
    Waits plan start moves ∨
    ∃ front back edge read, moves = front ++ .read read :: back ∧
      (updatesOf (start.run plan moves).2).find? (fun update => decide (Allocates update)) =
        some edge ∧
      Divides plan start front back edge read := by
  intro start
  have stage := Reconciler.stage_started plan namespaceName name {}
  have watching := Reconciler.watch_started plan namespaceName name {}
  rcases handover_from plan start [] stage watching moves with
    ⟨unanswered, held, unpublished, waiting⟩ | divided
  · exact .inl ⟨unanswered, held, unpublished, waiting⟩
  · exact .inr divided

/-- Four heartbeats around a publication. The first three are told to wait: before the edge is
    delivered, before it is looked at, and while the detail record is read for it. The last one is
    told the session. -/
theorem handover_across_publication :
    let plan : Watch.Plan := ⟨⟨.gameServer, "default", "gs"⟩, none⟩
    let record (state : String) (session : List (String × Json)) : Json := .object [
      ("metadata", .object [("name", .string "gs")]),
      ("status", .object (("state", .string state) :: session))]
    let active := record "Active" [("sessionID", .string "s"), ("sessionCookie", .string "c")]
    let detail : Json := .object [("spec", .object [("initialPlayers", .array [.string "ann"])])]
    let beat : Move := .heartbeat "gs" ⟨"POST", "/v1/sessionHosts/gs", "",
      "\x7b\"currentGameState\":\"StandingBy\",\"currentGameHealth\":\"Healthy\"\x7d".toUTF8⟩
    let told (operation sessionId cookie : String) (players : Json) : Endpoint.Reply :=
      .ofValue 200 (.object [("operation", .string operation), ("sessionConfig", .object [
        ("sessionId", .string sessionId), ("sessionCookie", .string cookie),
        ("initialPlayers", players)])])
    let moves : List Move := [.watch .proceed,
      .watch (.listed (.ok (.object [("items", .array [record "StandingBy" []])]))),
      beat, .patched (.ok ()),
      .watch (.post 1 (.event (.object [("type", .string "MODIFIED"), ("object", active)]))),
      .watch .take, beat, .review, beat, .read (.ok detail), beat]
    let start := started plan "default" "gs"
    (∃ front back edge read, moves = front ++ .read read :: back ∧
      Divides plan start front back edge read) ∧
    replies (start.run plan moves).2 = [told "continue" "" "" .null, told "continue" "" "" .null,
      told "continue" "" "" .null, told "active" "s" "c" (.array [.string "ann"])] := by
  intro plan record active detail beat told moves start
  have answered : (start.allAnswers plan moves).length = 1 := by decide +kernel
  rcases handover plan "default" "gs" moves with
    waits | ⟨front, back, edge, read, split, -, divides⟩
  · simp [waits.unanswered, start] at answered
  · exact ⟨⟨front, back, edge, read, split, divides⟩, by decide +kernel⟩

end Sidecar

end GameSidecar
