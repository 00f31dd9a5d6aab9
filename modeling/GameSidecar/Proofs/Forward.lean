import GameSidecar.Proofs.Handover

/-!
# The session moves forward only

The session is held in a cell with two calls: a publication, which is accepted or not, and a
snapshot, which gives what is held. What the calls are answered says all that is to be known of the
cell. The session in it is the one that was accepted last, and a publication is accepted unless its
state ranks below that session.

A game is told an operation with every heartbeat that succeeds. States and operations are ranked
apart from each other, and the two rankings agree. So whoever publishes, and whenever heartbeats end
in between, a game that has been told to become active is not told to wait again, and one that has
been told to terminate is told nothing else.
-/

namespace GameSidecar

namespace Session

/-- A call of the cell in which the session is held. -/
inductive Call
  | publish (session : Session)
  | snapshot

/-- A call of the cell and what it was answered. -/
inductive Exchange
  | published (session : Session) (accepted : Bool)
  | shown (session : Session)

/-- The call that was answered. -/
def Exchange.call : Exchange → Call
  | .published session _ => .publish session
  | .shown _ => .snapshot

/-- What the cell holds after a call, and its answer. -/
def serve (held : Session) : Call → Session × List Exchange
  | .publish session => (held.publish session, [.published session (held.accepts session)])
  | .snapshot => (held, [.shown held])

/-- What some calls are answered, in order. -/
def exchanges (initial : Session) (calls : List Call) : List Exchange :=
  (Machine.run serve initial calls).2

/-- The session that was accepted last according to some answers, or the one at first. -/
def lastAccepted (initial : Session) : List Exchange → Session
  | [] => initial
  | .published session true :: rest => lastAccepted session rest
  | _ :: rest => lastAccepted initial rest

/-- The sessions that snapshots showed, in order. -/
def shownSessions (exchanges : List Exchange) : List Session :=
  exchanges.filterMap fun exchange =>
    match exchange with
    | .shown session => some session
    | .published _ _ => none

/-- A cell gives these answers to some calls, and its session moves forward only. -/
structure MovesForward (initial : Session) (calls : List Call) (exchanges : List Exchange) :
    Prop where
  /-- Every call is answered, in order. -/
  answered : exchanges.map Exchange.call = calls
  /-- A publication is accepted if its state does not rank below that of the session which was
      accepted last, and in no other case. -/
  accepted_iff : ∀ front session accepted back,
    exchanges = front ++ .published session accepted :: back →
      (accepted = true ↔ (lastAccepted initial front).state.rank ≤ session.state.rank)
  /-- A snapshot is the whole session that was accepted last, or the one at first. -/
  shown_eq : ∀ front session back, exchanges = front ++ .shown session :: back →
    session = lastAccepted initial front
  /-- The rank falls neither from the start to a snapshot nor from one snapshot to another. -/
  ascending : (initial :: shownSessions exchanges).Pairwise fun earlier later =>
    earlier.state.rank ≤ later.state.rank

/-- Calls are answered one after the other. -/
theorem exchanges_cons (initial : Session) (call : Call) (calls : List Call) :
    exchanges initial (call :: calls) =
      (initial.serve call).2 ++ exchanges (initial.serve call).1 calls := rfl

/-- A publication leaves in the cell what was accepted last. -/
theorem serve_publish (initial session : Session) :
    initial.serve (.publish session) =
      (lastAccepted initial [.published session (initial.accepts session)],
        [.published session (initial.accepts session)]) := by
  cases accepts : initial.accepts session <;> simp [serve, publish, lastAccepted, accepts]

/-- What was accepted last before an exchange is where the answers after it go on from. -/
theorem lastAccepted_cons (initial : Session) (exchange : Exchange) (rest : List Exchange) :
    lastAccepted initial (exchange :: rest) = lastAccepted (lastAccepted initial [exchange]) rest := by
  cases exchange with
  | shown session => rfl
  | published session accepted => cases accepted <;> rfl

/-- One call is answered by one exchange, and the cell then holds what was accepted last. -/
theorem serve_eq (initial : Session) (call : Call) :
    ∃ exchange, initial.serve call = (lastAccepted initial [exchange], [exchange]) ∧
      exchange.call = call := by
  cases call with
  | snapshot => exact ⟨.shown initial, rfl, rfl⟩
  | publish session => exact ⟨_, serve_publish initial session, rfl⟩

/-- An exchange is right for the session that is held before it. -/
def Exchange.Right (held : Session) : Exchange → Prop
  | .published session accepted => accepted = true ↔ held.state.rank ≤ session.state.rank
  | .shown session => session = held

/-- A call is answered rightly for the session that is held. -/
theorem right_of_serve {initial next : Session} {call : Call} {exchange : Exchange}
    (served : initial.serve call = (next, [exchange])) : exchange.Right initial := by
  cases call with
  | snapshot =>
    obtain ⟨-, same⟩ := Prod.mk.inj served
    obtain rfl := List.head_eq_of_cons_eq same
    exact rfl
  | publish session =>
    obtain ⟨-, same⟩ := Prod.mk.inj served
    obtain rfl := List.head_eq_of_cons_eq same
    simp [Exchange.Right, accepts]

/-- Every exchange is right for the session that was accepted last before it. -/
theorem right_of_exchanges {initial : Session} {calls : List Call} {front back : List Exchange}
    {exchange : Exchange} (split : exchanges initial calls = front ++ exchange :: back) :
    exchange.Right (lastAccepted initial front) := by
  induction calls generalizing initial front with
  | nil =>
    have length := congrArg List.length split
    simp [exchanges] at length
  | cons call calls inductionHypothesis =>
    obtain ⟨first, served, -⟩ := serve_eq initial call
    rw [exchanges_cons, served, List.singleton_append] at split
    cases front with
    | nil =>
      obtain ⟨rfl, -⟩ := List.cons.inj split
      exact right_of_serve served
    | cons before front =>
      obtain ⟨rfl, later⟩ := List.cons.inj split
      rw [lastAccepted_cons]
      exact inductionHypothesis later

/-- Every call is answered, in order. -/
theorem call_exchanges (initial : Session) (calls : List Call) :
    (exchanges initial calls).map Exchange.call = calls := by
  induction calls generalizing initial with
  | nil => rfl
  | cons call calls inductionHypothesis =>
    obtain ⟨exchange, served, same⟩ := serve_eq initial call
    rw [exchanges_cons, served, List.singleton_append, List.map_cons, same, inductionHypothesis]

/-- A call does not lower the rank of the session that is held. -/
theorem rank_le_serve (initial : Session) (call : Call) :
    initial.state.rank ≤ (initial.serve call).1.state.rank := by
  cases call with
  | snapshot => exact le_rfl
  | publish session => exact rank_le_publish initial session

/-- All snapshots rank at least as high as the session at first, and so does each snapshot after
    another one. -/
theorem ascending_exchanges (initial : Session) (calls : List Call) :
    (initial :: shownSessions (exchanges initial calls)).Pairwise fun earlier later =>
      earlier.state.rank ≤ later.state.rank := by
  induction calls generalizing initial with
  | nil => simp [exchanges, shownSessions]
  | cons call calls inductionHypothesis =>
    have rising := rank_le_serve initial call
    obtain ⟨first, later⟩ := List.pairwise_cons.mp (inductionHypothesis (initial.serve call).1)
    have above : ∀ session ∈ shownSessions (exchanges (initial.serve call).1 calls),
        initial.state.rank ≤ session.state.rank :=
      fun session member => rising.trans (first session member)
    cases call with
    | publish session => exact List.pairwise_cons.mpr ⟨above, later⟩
    | snapshot =>
      refine List.pairwise_cons.mpr ⟨?_, List.pairwise_cons.mpr ⟨above, later⟩⟩
      intro session member
      rcases List.mem_cons.mp member with rfl | afterwards
      · exact le_rfl
      · exact above session afterwards

/-- The session of a cell moves forward only, whatever the calls are. -/
theorem movesForward (initial : Session) (calls : List Call) :
    MovesForward initial calls (exchanges initial calls) where
  answered := call_exchanges initial calls
  accepted_iff _ _ _ _ split := right_of_exchanges split
  shown_eq _ _ _ split := right_of_exchanges split
  ascending := ascending_exchanges initial calls

/-- A session that has become active is kept when one that stands by is published. -/
example :
    let active : Session := { state := .active, sessionId := .string "s" }
    let waiting : Session := { state := .standingBy }
    exchanges {} [.publish active, .publish waiting, .snapshot] =
      [.published active true, .published waiting false, .shown active] := rfl

end Session

/-- The operation of a name on the wire. -/
def Operation.ofName? (text : String) : Option Operation :=
  [Operation.proceed, .activate, .terminate].find? fun operation => operation.name == text

/-- An operation is told apart by its name. -/
theorem Operation.ofName?_name (operation : Operation) :
    ofName? operation.name = some operation := by
  cases operation <;> decide

/-- The answer that a session gives tells the operation for its state. -/
theorem Answer.operation_of_ofSession {session : Session} {answer : Answer}
    (given : ofSession session = .ok answer) : answer.operation = session.state.operation := by
  unfold ofSession at given
  cases fields : Fault.both (textField "session_id" session.sessionId)
      (Fault.both (textField "session_cookie" session.sessionCookie)
        (playersField session.initialPlayers)) with
  | error faults => simp [fields, Except.map] at given
  | ok texts =>
    rw [fields] at given
    obtain rfl := Except.ok.inj given
    rfl

/-- The operation that a reply tells a game. Only a success tells one. -/
def Endpoint.Reply.operation? (reply : Reply) : Option Operation :=
  match reply.status, reply.content with
  | 200, .value body =>
    (body.member? "operation").bind fun value => value.string?.bind Operation.ofName?
  | _, _ => none

/-- A success tells the operation of its answer. -/
theorem Endpoint.Reply.operation?_ofValue (answer : Answer) :
    (ofValue 200 answer.toJson).operation? = some answer.operation :=
  Operation.ofName?_name answer.operation

namespace Reconciler

variable (plan : Watch.Plan)

/-- No action of the allocator lowers the rank of the session. -/
theorem rank_le_performAll (reconciler : Reconciler) (actions : List Allocator.Action) :
    reconciler.session.state.rank ≤
      (reconciler.performAll plan actions).1.session.state.rank := by
  induction actions generalizing reconciler with
  | nil => exact le_rfl
  | cons action actions inductionHypothesis =>
    refine le_trans ?_ (inductionHypothesis (reconciler.perform plan action).1)
    cases action with
    | publish session => exact Session.rank_le_publish reconciler.session session
    | stop => exact (congrArg (·.state.rank) (session_moveWatch plan reconciler .stop)).ge
    | _ => exact le_rfl

/-- The end of a handler does not lower the rank of the session. -/
theorem rank_le_adopt (reconciler : Reconciler)
    (reviewed : Allocator × List Allocator.Action) :
    reconciler.session.state.rank ≤ (reconciler.adopt plan reviewed).1.session.state.rank := by
  have acted := rank_le_performAll plan { reconciler with allocator := reviewed.1 } reviewed.2
  exact acted.trans (congrArg (·.state.rank) (session_endHandler plan _)).ge

/-- The reconciler does not lower the rank of the session. -/
theorem rank_le_step (reconciler : Reconciler) (move : Move) :
    reconciler.session.state.rank ≤ (reconciler.step plan move).1.session.state.rank := by
  cases move with
  | start =>
    simp only [step]
    split <;> exact le_rfl
  | watch move =>
    cases move with
    | handled failure => exact le_rfl
    | _ => exact (congrArg (·.state.rank) (session_moveWatch plan reconciler _)).ge
  | update old new => exact rank_le_adopt plan reconciler _
  | review =>
    simp only [step]
    split
    · exact le_rfl
    · split
      · exact le_rfl
      · exact rank_le_adopt plan reconciler _
  | read outcome =>
    simp only [step]
    split
    · exact le_rfl
    · exact rank_le_adopt plan reconciler _

end Reconciler

namespace Sidecar

/-- What happens to a sidecar whose session others may publish as well. -/
inductive Shared
  | own (move : Move)
  | publish (session : Session)

variable (plan : Watch.Plan)

/-- A move of the sidecar, or a publication from elsewhere. -/
def share (sidecar : Sidecar) : Shared → Sidecar × List Effect
  | .own move => sidecar.step plan move
  | .publish session =>
    let held := sidecar.reconciler.session
    ({ sidecar with reconciler := { sidecar.reconciler with session := held.publish session } },
      [.log (held.publishLine session)])

/-- The sidecar after some moves and publications, and all that it has asked for, in order. -/
abbrev shareAll (sidecar : Sidecar) (moves : List Shared) : Sidecar × List Effect :=
  Machine.run (share plan) sidecar moves

/-- The operations that the game is told, in order. -/
def told (effects : List Effect) : List Operation :=
  (replies effects).filterMap Endpoint.Reply.operation?

/-- Operations are told in the order of the effects. -/
@[simp] theorem told_append (front back : List Effect) :
    told (front ++ back) = told front ++ told back := by
  simp [told]

/-- A success gives the answer of a session. -/
def Succeeds (session : Session) (reply : Endpoint.Reply) : Prop :=
  ∃ answer, Answer.ofSession session = .ok answer ∧ reply = .ofValue 200 answer.toJson

/-- A heartbeat that is replied to with status 200 is given the answer of the session. -/
theorem succeeds_conclude {session : Session} {request : Endpoint.Request}
    {result : Except Heartbeat.Failure Unit}
    (success : (Endpoint.conclude request session result).1.status = 200) :
    Succeeds session (Endpoint.conclude request session result).1 := by
  cases result with
  | error failure => exact absurd success (by decide : (500 : Nat) ≠ 200)
  | ok =>
    cases given : Answer.ofSession session with
    | ok answer => exact ⟨answer, given, by simp only [Endpoint.conclude, given]⟩
    | error faults =>
      simp only [Endpoint.conclude, given] at success
      exact absurd success (by decide : (500 : Nat) ≠ 200)

/-- A success gives the answer of the session that is held when its heartbeat ends. -/
theorem succeeds_share {sidecar : Sidecar} {move : Shared} {reply : Endpoint.Reply}
    (member : reply ∈ replies (sidecar.share plan move).2) (success : reply.status = 200) :
    Succeeds sidecar.reconciler.session reply := by
  have served (sidecar : Sidecar) {actions : List Heartbeat.Action}
      (member : reply ∈ replies (actions.flatMap sidecar.serve)) :
      Succeeds sidecar.reconciler.session reply := by
    obtain ⟨request, result, rfl⟩ := mem_replies_serve member
    exact succeeds_conclude success
  cases move with
  | publish session => simp [share, replies] at member
  | own move =>
    cases move with
    | heartbeat host request =>
      simp only [share, step] at member
      split at member
      · rename_i received
        obtain rfl : reply = _ := by simpa [replies] using member
        have refused := Endpoint.Reply.status_receiveBody received
        exact absurd (refused.symm.trans success) (by decide)
      · exact served { sidecar with requests := sidecar.requests ++ [request] } member
    | patched outcome =>
      simp only [share, step] at member
      split at member
      · simp at member
      · exact served sidecar (by simpa [adopt] using member)
    | _ => simp [share, step, reconcile] at member

/-- What a success tells is the operation of the state that is held. -/
theorem operation?_of_succeeds {session : Session} {reply : Endpoint.Reply}
    (succeeds : Succeeds session reply) : reply.operation? = some session.state.operation := by
  obtain ⟨answer, given, rfl⟩ := succeeds
  rw [Endpoint.Reply.operation?_ofValue, Answer.operation_of_ofSession given]

/-- A reply that tells an operation is a success. -/
theorem status_of_operation? {reply : Endpoint.Reply} {operation : Operation}
    (tells : reply.operation? = some operation) : reply.status = 200 := by
  unfold Endpoint.Reply.operation? at tells
  split at tells
  · assumption
  · cases tells

/-- What is told during a move is the operation of the state that is held. -/
theorem mem_told {sidecar : Sidecar} {move : Shared} {operation : Operation}
    (member : operation ∈ told (sidecar.share plan move).2) :
    operation = sidecar.reconciler.session.state.operation := by
  obtain ⟨reply, among, tells⟩ := List.mem_filterMap.mp member
  have succeeds := succeeds_share plan among (status_of_operation? tells)
  exact Option.some.inj (tells.symm.trans (operation?_of_succeeds succeeds))

/-- No move and no publication lowers the rank of the session. -/
theorem rank_le_share (sidecar : Sidecar) (move : Shared) :
    sidecar.reconciler.session.state.rank ≤
      (sidecar.share plan move).1.reconciler.session.state.rank := by
  cases move with
  | publish session => exact Session.rank_le_publish _ session
  | own move =>
    cases move with
    | heartbeat host request =>
      simp only [share, step]
      split <;> exact le_rfl
    | patched outcome =>
      simp only [share, step]
      split <;> exact le_rfl
    | watch move => exact Reconciler.rank_le_step plan sidecar.reconciler (.watch move)
    | review => exact Reconciler.rank_le_step plan sidecar.reconciler .review
    | read outcome => exact Reconciler.rank_le_step plan sidecar.reconciler (.read outcome)

/-- The game is told nothing that ranks below the state of the session at first, and nothing that
    ranks below what it has been told. -/
theorem told_ascending (sidecar : Sidecar) (moves : List Shared) :
    (∀ operation ∈ told (sidecar.shareAll plan moves).2,
      sidecar.reconciler.session.state.rank ≤ operation.rank) ∧
    (told (sidecar.shareAll plan moves).2).Pairwise fun earlier later =>
      earlier.rank ≤ later.rank := by
  induction moves generalizing sidecar with
  | nil => simp [told]
  | cons move moves inductionHypothesis =>
    obtain ⟨above, ascending⟩ := inductionHypothesis (sidecar.share plan move).1
    have rising := rank_le_share plan sidecar move
    have now : ∀ operation ∈ told (sidecar.share plan move).2,
        operation.rank = sidecar.reconciler.session.state.rank := by
      intro operation member
      rw [mem_told plan member, GameState.rank_operation]
    have later : ∀ operation ∈ told ((sidecar.share plan move).1.shareAll plan moves).2,
        sidecar.reconciler.session.state.rank ≤ operation.rank :=
      fun operation member => rising.trans (above operation member)
    rw [shareAll, Machine.run_cons, told_append]
    constructor
    · exact List.forall_mem_append.mpr ⟨fun operation member => (now operation member).ge, later⟩
    · refine List.pairwise_append.mpr ⟨?_, ascending, ?_⟩
      · apply List.pairwise_of_forall_mem_list
        intro earlier first other second
        rw [now earlier first, now other second]
      · intro earlier first other second
        rw [now earlier first]
        exact later other second

/-- What a game is told during a run moves forward only. -/
structure TellsForward (start : Sidecar) (moves : List Shared) : Prop where
  /-- Every success tells the operation of the session that is held when its heartbeat ends. -/
  operation_eq : ∀ front move back, moves = front ++ move :: back →
    let sidecar := (start.shareAll plan front).1
    ∀ reply ∈ replies (sidecar.share plan move).2, reply.status = 200 →
      reply.operation? = some sidecar.reconciler.session.state.operation
  /-- No operation ranks below one that was told before it. -/
  ascending : (told (start.shareAll plan moves).2).Pairwise fun earlier later =>
    earlier.rank ≤ later.rank

/-- The session moves forward only, whatever it is at first and whoever publishes. All answers of
    its cell are those of the session that was accepted last, and the game is told operations that
    never step back. The ranking of states by which publications are accepted and that of the
    operations for them are the same. -/
theorem moves_forward (initial : Session) (calls : List Session.Call) (start : Sidecar)
    (moves : List Shared) :
    Session.MovesForward initial calls (Session.exchanges initial calls) ∧
      TellsForward plan start moves ∧
      ∀ earlier later : GameState,
        earlier.rank ≤ later.rank ↔ earlier.operation.rank ≤ later.operation.rank := by
  refine ⟨Session.movesForward initial calls, ⟨?_, (told_ascending plan start moves).2⟩, ?_⟩
  · intro front move back split sidecar reply member success
    exact operation?_of_succeeds (succeeds_share plan member success)
  · intro earlier later
    rw [GameState.rank_operation, GameState.rank_operation]

/-- Heartbeats are answered before the session is active, while it is, and when it terminates. After
    that a session that stands by makes no difference. -/
example :
    let beat : Shared := .own (.heartbeat "gs" ⟨"POST", "/v1/sessionHosts/gs", "",
      "\x7b\"currentGameState\":\"StandingBy\",\"currentGameHealth\":\"Healthy\"\x7d".toUTF8⟩)
    let publish (state : GameState) : Shared := .publish { state, sessionId := .string "s" }
    told ((started ⟨⟨.gameServer, "default", "gs"⟩, none⟩ "default" "gs").shareAll
        ⟨⟨.gameServer, "default", "gs"⟩, none⟩ [beat, .own (.patched (.ok ())), publish .active,
        beat, publish .terminating, beat, publish .standingBy, beat]).2 =
      [.proceed, .activate, .terminate, .terminate] := by
  decide +kernel

end Sidecar

end GameSidecar
