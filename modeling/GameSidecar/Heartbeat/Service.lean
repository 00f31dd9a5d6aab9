import GameSidecar.Heartbeat.Tracker

/-!
# Heartbeats at the same time

Heartbeats may arrive while others are being handled. They are handled one after the other, in the
order in which they came: one holds the service from its first patch to its end, and the others
wait. A heartbeat that needs no patch ends as soon as its turn comes.
-/

namespace GameSidecar.Heartbeat

/-- A heartbeat that is handled, under a number of its own. -/
structure Turn where
  number : Nat
  report : Report
  deriving Repr, DecidableEq

/-- The service: what is remembered, whose turn it is and with which patch, and who waits. -/
structure Service where
  memory : Memory := {}
  holder : Option (Turn × Aspect) := none
  waiting : List Turn := []
  deriving Repr, DecidableEq, Inhabited

/-- What the service does: it writes a line, sends a patch, or ends a heartbeat. -/
inductive Action
  | log (line : Line)
  | send (turn : Turn) (aspect : Aspect)
  | finish (turn : Turn) (result : Except Failure Unit)
  deriving Repr

namespace Service

/-- What is done to send a patch. -/
def sending (memory : Memory) (turn : Turn) (aspect : Aspect) : List Action :=
  [.log (memory.announcement turn.report aspect), .send turn aspect]

/-- The turn goes to the first who waits, and on until one needs a patch. -/
def serve (memory : Memory) : List Turn → Service × List Action
  | [] => ({ memory }, [])
  | turn :: rest =>
    match Progress.start memory turn.report with
    | .sending aspect =>
      (⟨memory, some (turn, aspect), rest⟩, sending memory turn aspect)
    | .ended result =>
      let (service, actions) := serve memory rest
      (service, .finish turn result :: actions)

/-- A heartbeat arrives. -/
def arrive (service : Service) (turn : Turn) : Service × List Action :=
  match service.holder with
  | some _ => ({ service with waiting := service.waiting ++ [turn] }, [])
  | none => serve service.memory [turn]

/-- The patch that is under way ends. -/
def complete (service : Service) (outcome : Except StoreError Unit) : Service × List Action :=
  match service.holder with
  | none => (service, [])
  | some (turn, aspect) =>
    match Progress.resume service.memory turn.report aspect outcome with
    | (memory, .sending next) =>
      (⟨memory, some (turn, next), service.waiting⟩, sending memory turn next)
    | (memory, .ended result) =>
      let (served, actions) := serve memory service.waiting
      (served, .finish turn result :: actions)

/-- Nobody waits for a service that nobody holds. -/
theorem waiting_serve (memory : Memory) (turns : List Turn)
    (free : (serve memory turns).1.holder = none) : (serve memory turns).1.waiting = [] := by
  induction turns with
  | nil => rfl
  | cons turn rest inductionHypothesis =>
    simp only [serve] at free ⊢
    split at free
    · simp at free
    · exact inductionHypothesis free

end Service

end GameSidecar.Heartbeat
