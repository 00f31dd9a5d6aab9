import GameSidecar.Heartbeat.Service

/-!
# The patches that a heartbeat wants

A report wants a patch for each aspect in which it differs from what is remembered, the status
first. An accepted patch takes its aspect out of that list and leaves the other one, so the patch
that is sent is always the first of the list, and a heartbeat whose patch was accepted goes on as
if it had just begun. This is all that the laws on heartbeats have to know of the comparisons.
-/

namespace GameSidecar.Heartbeat

/-- The aspects in the order in which they are patched. -/
def Aspect.all : List Aspect :=
  [.status, .players]

namespace Memory

/-- Whether a report differs in an aspect from what is remembered. -/
def wants (memory : Memory) (report : Report) : Aspect → Bool
  | .status => memory.statusDue report
  | .players => memory.playersDue report

/-- The aspects in which a report differs from what is remembered, in order. -/
def wanted (memory : Memory) (report : Report) : List Aspect :=
  Aspect.all.filter (memory.wants report)

variable {memory : Memory} {report : Report} {aspect : Aspect} {rest : List Aspect}

/-- The status is wanted if the health or the state is not what is remembered. -/
theorem wants_status :
    memory.wants report .status = true ↔
      memory.health ≠ report.health ∨ memory.state ≠ some report.state := by
  simp [wants, statusDue]

/-- The players are wanted if the game is active and their number is not what is remembered. -/
theorem wants_players :
    memory.wants report .players = true ↔
      report.state = .active ∧ report.players.length ≠ memory.players := by
  simp [wants, playersDue]

/-- An aspect is among those that are wanted if the report wants it. -/
theorem mem_wanted : aspect ∈ memory.wanted report ↔ memory.wants report aspect = true := by
  cases aspect <;> simp [wanted, Aspect.all]

/-- No aspect is wanted twice. -/
theorem nodup_wanted : (memory.wanted report).Nodup :=
  List.Pairwise.filter _ (by decide : Aspect.all.Nodup)

/-- The first aspect that is wanted is due. -/
theorem due_eq_head : memory.due report = (memory.wanted report).head? := by
  cases status : memory.statusDue report <;> cases players : memory.playersDue report <;>
    simp [due, restDue, wanted, wants, Aspect.all, status, players]

/-- The players come first only where the status is as remembered. -/
theorem status_settled (first : memory.wanted report = .players :: rest) :
    memory.wants report .status = false := by
  cases status : memory.wants report .status with
  | false => rfl
  | true => simp [wanted, Aspect.all, List.filter_cons, status] at first

/-- The first aspect that is wanted is wanted by the report. -/
theorem wants_first (first : memory.wanted report = aspect :: rest) :
    memory.wants report aspect = true :=
  mem_wanted.mp (first ▸ List.mem_cons_self)

/-- The status comes first if it is wanted at all. -/
theorem first_eq_status (first : memory.wanted report = aspect :: rest) :
    aspect = .status ↔ memory.wants report .status = true := by
  cases aspect with
  | status => simp [wants_first first]
  | players => simp [status_settled first]

/-- An accepted patch settles its aspect and leaves the other one as it was. -/
theorem wants_accept (other : Aspect) :
    (memory.accept report aspect).wants report other =
      (memory.wants report other && decide (other ≠ aspect)) := by
  rw [Bool.eq_iff_iff]
  cases aspect <;> cases other <;> simp [wants_status, wants_players] <;> simp [accept]

/-- What is wanted after the first patch was accepted is what was wanted beside it. -/
theorem wanted_accept (first : memory.wanted report = aspect :: rest) :
    (memory.accept report aspect).wanted report = rest := by
  have filtered : (memory.accept report aspect).wanted report =
      (memory.wanted report).filter (fun other => decide (other ≠ aspect)) := by
    simp only [wanted, List.filter_filter]
    exact List.filter_congr fun other _ => (wants_accept other).trans (Bool.and_comm ..)
  have once : aspect ∉ rest := (List.nodup_cons.mp (first ▸ nodup_wanted)).1
  rw [filtered, first, List.filter_cons_of_neg (by simp), List.filter_eq_self]
  intro other member
  have different : other ≠ aspect := fun same => once (same ▸ member)
  simpa using different

end Memory

/-- What is remembered, or reported, of one aspect. -/
inductive Value
  | status (state : Option GameState) (health : String)
  | players (count : Nat)
  deriving DecidableEq

/-- What is remembered of an aspect. -/
def Memory.value (memory : Memory) : Aspect → Value
  | .status => .status memory.state memory.health
  | .players => .players memory.players

/-- What is remembered of an aspect before any patch was accepted: nothing. -/
def Value.start : Aspect → Value
  | .status => .status none ""
  | .players => .players 0

/-- What a report says of an aspect. -/
def Report.value (report : Report) : Aspect → Value
  | .status => .status (some report.state) report.health
  | .players => .players report.players.length

/-- An accepted patch is remembered for its aspect, and for no other one. -/
theorem Memory.value_accept (memory : Memory) (report : Report) (aspect other : Aspect) :
    (memory.accept report aspect).value other =
      if other = aspect then report.value other else memory.value other := by
  cases aspect <;> cases other <;> simp [accept, value, Report.value]

/-- A patch is wanted only where it would change what is remembered. -/
theorem Memory.value_ne_of_wants {memory : Memory} {report : Report} {aspect : Aspect}
    (wants : memory.wants report aspect = true) : memory.value aspect ≠ report.value aspect := by
  intro same
  cases aspect with
  | status =>
    simp only [value, Report.value, Value.status.injEq] at same
    exact (wants_status.mp wants).elim (· same.2) (· same.1)
  | players =>
    simp only [value, Report.value, Value.players.injEq] at same
    exact (wants_players.mp wants).2 same.symm

namespace Progress

variable {memory : Memory} {report : Report} {aspect : Aspect} {rest : List Aspect}

/-- A heartbeat starts with the first aspect that it wants, or ends at once. -/
theorem start_eq : start memory report = ofDue (memory.wanted report).head? := by
  rw [start, Memory.due_eq_head]

/-- Nothing is remembered but an accepted patch. -/
theorem resume_memory (memory : Memory) (report : Report) (aspect : Aspect)
    (outcome : Except StoreError Unit) :
    (resume memory report aspect outcome).1 = memory ∨
      (resume memory report aspect outcome).1 = memory.accept report aspect := by
  cases outcome with
  | error error => exact .inl rfl
  | ok accepted => cases aspect <;> exact .inr rfl

/-- After an accepted patch the heartbeat goes on with the next one that is wanted. -/
theorem resume_ok (first : memory.wanted report = aspect :: rest) :
    resume memory report aspect (.ok ()) =
      (memory.accept report aspect, ofDue rest.head?) := by
  have after := Memory.wanted_accept first
  cases aspect with
  | status =>
    have settled : (memory.accept report .status).statusDue report = false := by
      simp [Memory.statusDue, Memory.accept]
    have next : (memory.accept report .status).restDue report = rest.head? := by
      rw [← after, ← Memory.due_eq_head, Memory.due, settled]
      rfl
    rw [← next]
    rfl
  | players =>
    -- the players come last, so nothing can be wanted after them
    have settled : (memory.accept report .players).wanted report = [] := by
      rw [List.eq_nil_iff_forall_not_mem]
      intro other
      rw [Memory.mem_wanted, Memory.wants_accept]
      cases other with
      | status => simp [Memory.status_settled first]
      | players => simp
    rw [← after, settled]
    rfl

end Progress

/-- The patch that an action sends, if it does. -/
def Action.sent? : Action → Option (Turn × Aspect)
  | .send turn aspect => some (turn, aspect)
  | _ => none

/-- The end of a heartbeat that an action is, if it is one. -/
def Action.finished? : Action → Option (Turn × Except Failure Unit)
  | .finish turn result => some (turn, result)
  | _ => none

/-- The patches that some actions send, in order. -/
def sent (actions : List Action) : List (Turn × Aspect) :=
  actions.filterMap Action.sent?

/-- The heartbeats that some actions end, in order, with their results. -/
def finished (actions : List Action) : List (Turn × Except Failure Unit) :=
  actions.filterMap Action.finished?

section Projections

variable (memory : Memory) (turn : Turn) (aspect : Aspect) (result : Except Failure Unit)
  (actions more : List Action)

@[simp] theorem sent_nil : sent [] = [] := rfl

/-- Patches are sent in the order of the actions. -/
@[simp] theorem sent_append : sent (actions ++ more) = sent actions ++ sent more :=
  List.filterMap_append

@[simp] theorem sent_sending : sent (Service.sending memory turn aspect) = [(turn, aspect)] := rfl

@[simp] theorem sent_finish : sent (.finish turn result :: actions) = sent actions := rfl

@[simp] theorem finished_nil : finished [] = [] := rfl

/-- Heartbeats end in the order of the actions. -/
@[simp] theorem finished_append : finished (actions ++ more) = finished actions ++ finished more :=
  List.filterMap_append

@[simp] theorem finished_sending : finished (Service.sending memory turn aspect) = [] := rfl

@[simp] theorem finished_finish :
    finished (.finish turn result :: actions) = (turn, result) :: finished actions := rfl

end Projections

namespace Service

/-- A heartbeat goes on: it sends its next patch, or it ends and those who wait are served. -/
def proceed (memory : Memory) (turn : Turn) (waiting : List Turn) : Progress → Service × List Action
  | .sending aspect => (⟨memory, some (turn, aspect), waiting⟩, sending memory turn aspect)
  | .ended result =>
    ((serve memory waiting).1, .finish turn result :: (serve memory waiting).2)

/-- Serving goes on with the first who waits, as that heartbeat starts. -/
theorem serve_cons (memory : Memory) (turn : Turn) (rest : List Turn) :
    serve memory (turn :: rest) =
      proceed memory turn rest (Progress.start memory turn.report) := by
  cases started : Progress.start memory turn.report <;> simp [serve, started, proceed]

/-- Nobody waits for the service when it becomes idle. -/
theorem waiting_proceed {memory : Memory} {turn : Turn} {waiting : List Turn} {progress : Progress}
    (free : (proceed memory turn waiting progress).1.holder = none) :
    (proceed memory turn waiting progress).1.waiting = [] := by
  cases progress with
  | sending aspect => cases free
  | ended result => exact waiting_serve memory waiting free

/-- The answer to a patch is followed by what its heartbeat does next. -/
theorem complete_held (memory : Memory) (turn : Turn) (aspect : Aspect) (waiting : List Turn)
    (outcome : Except StoreError Unit) :
    (⟨memory, some (turn, aspect), waiting⟩ : Service).complete outcome =
      proceed (Progress.resume memory turn.report aspect outcome).1 turn waiting
        (Progress.resume memory turn.report aspect outcome).2 := by
  cases resumed : Progress.resume memory turn.report aspect outcome with
  | mk after progress => cases progress <;> simp [complete, resumed, proceed]

/-- The service while it handles no heartbeat. -/
def idle (memory : Memory) : Service :=
  ⟨memory, none, []⟩

/-- The service while it waits for the answer to a patch, and nobody else waits for it. -/
def held (memory : Memory) (turn : Turn) (aspect : Aspect) : Service :=
  ⟨memory, some (turn, aspect), []⟩

/-- A heartbeat that nobody waits for sends the first patch that is still wanted, or ends. -/
def sendFirst (memory : Memory) (turn : Turn) : (wanted : List Aspect) → Service × List Action
  | [] => (idle memory, [.finish turn (.ok ())])
  | aspect :: _ => (held memory turn aspect, sending memory turn aspect)

variable {memory : Memory} {turn : Turn} {aspect : Aspect} {rest : List Aspect}

/-- A heartbeat that is alone sends the first patch that it wants, or ends. -/
theorem proceed_ofDue (wanted : List Aspect) :
    proceed memory turn [] (Progress.ofDue wanted.head?) = sendFirst memory turn wanted := by
  cases wanted <;> rfl

/-- A heartbeat that comes to an idle service sends the first patch that it wants, or ends. -/
theorem arrive_idle :
    (idle memory).arrive turn = sendFirst memory turn (memory.wanted turn.report) := by
  rw [← proceed_ofDue, ← Progress.start_eq, ← serve_cons]
  rfl

/-- A refused patch ends the heartbeat, and nothing is remembered of it. -/
theorem complete_refused (error : StoreError) :
    (held memory turn aspect).complete (.error error) =
      (idle memory, [.finish turn (.error ⟨aspect, error⟩)]) := rfl

/-- After an accepted patch the next one that is wanted is sent, or the heartbeat ends. -/
theorem complete_accepted (first : memory.wanted turn.report = aspect :: rest) :
    (held memory turn aspect).complete (.ok ()) =
      sendFirst (memory.accept turn.report aspect) turn rest := by
  rw [held, complete_held, Progress.resume_ok first, proceed_ofDue]

end Service

end GameSidecar.Heartbeat
