import GameSidecar.Allocation
import GameSidecar.Watch

/-!
# The allocation watch

The reconciler watches the game server, looks at every update for the edge of the allocation, and
publishes the session. It is a machine like the watch: while an update is looked at, and while the
detail record is read for it, the watch waits for the end of its handler.
-/

namespace GameSidecar

/-- The reconciler: its watch once it has been started, the allocator, and the session. -/
structure Reconciler where
  allocator : Allocator
  session : Session := {}
  watch : Option Watch := none
  deriving Repr, DecidableEq

namespace Reconciler

/-- What the reconciler asks for. What its watch asks for is among it, deliveries apart. -/
inductive Effect
  | watch (effect : Watch.Effect)
  | log (line : Line)
  | read (target : Target)
  deriving Repr

/-- What happens around the reconciler. -/
inductive Move
  /-- The watch is started, or it is asked for again. -/
  | start
  /-- A move of the watch. -/
  | watch (move : Watch.Move)
  /-- An update that comes from elsewhere. -/
  | update (old new : Json)
  /-- The update that the watch has delivered is looked at. -/
  | review
  /-- The answer to the read of the detail record. -/
  | read (outcome : Except Cause Json)
  deriving Repr

variable (plan : Watch.Plan)

/-- A move of the watch, if there is one. -/
def moveWatch (reconciler : Reconciler) (move : Watch.Move) : Reconciler × List Effect :=
  match reconciler.watch with
  | none => (reconciler, [])
  | some watch =>
    let (watch, effects) := watch.step plan move
    ({ reconciler with watch := some watch }, effects.map .watch)

/-- One thing that the allocator asks for. -/
def perform (reconciler : Reconciler) : Allocator.Action → Reconciler × List Effect
  | .log line => (reconciler, [.log line])
  | .read target => (reconciler, [.read target])
  | .publish session =>
    ({ reconciler with session := reconciler.session.publish session },
      [.log (reconciler.session.publishLine session)])
  | .stop => reconciler.moveWatch plan .stop

/-- All that the allocator asks for, in order. -/
def performAll (reconciler : Reconciler) : List Allocator.Action → Reconciler × List Effect
  | [] => (reconciler, [])
  | action :: rest =>
    let (next, effects) := reconciler.perform plan action
    let (last, more) := next.performAll rest
    (last, effects ++ more)

/-- The handler comes to its end, unless the detail record is still being read. -/
def endHandler (reconciler : Reconciler) : Reconciler × List Effect :=
  if reconciler.allocator.reading.isSome then (reconciler, [])
  else reconciler.moveWatch plan (.handled none)

/-- What the allocator has become and asks for is taken over, and the handler goes on. -/
def adopt (reconciler : Reconciler) (reviewed : Allocator × List Allocator.Action) :
    Reconciler × List Effect :=
  let (acted, effects) := { reconciler with allocator := reviewed.1 }.performAll plan reviewed.2
  let (ended, more) := acted.endHandler plan
  (ended, effects ++ more)

/-- The update that the watch has delivered. -/
def delivered? (reconciler : Reconciler) : Option (Json × Json) :=
  match reconciler.watch.map Watch.phase with
  | some (.delivering old new _) => some (old, new)
  | _ => none

/-- What a move does. The handler of an update goes on with an answer only if it waits for one. -/
def step (reconciler : Reconciler) (move : Move) : Reconciler × List Effect :=
  match move with
  | .start =>
    match reconciler.watch with
    | some _ => (reconciler, [])
    | none =>
      ({ reconciler with watch := some {} }, [.log (Watch.startLine plan.target)])
  | .watch (.handled _) => (reconciler, [])
  | .watch move => reconciler.moveWatch plan move
  | .update old new => reconciler.adopt plan (reconciler.allocator.review old new)
  | .review =>
    match reconciler.delivered? with
    | none => (reconciler, [])
    | some (old, new) =>
      if reconciler.allocator.reading.isSome then (reconciler, [])
      else reconciler.adopt plan (reconciler.allocator.review old new)
  | .read outcome =>
    if reconciler.allocator.reading.isNone then (reconciler, [])
    else
      let (result, lines) := Api.readResult reconciler.allocator.companion outcome
      let (adopted, effects) := reconciler.adopt plan (reconciler.allocator.complete result)
      (adopted, lines.map .log ++ effects)

end Reconciler

end GameSidecar
