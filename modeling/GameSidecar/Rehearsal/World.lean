import GameSidecar.Rehearsal.Script

/-!
# The world of a rehearsal

The world carries out what the machines ask for: calls go to the API server in memory, waits pass
at once, and streams bring what the script feeds. What a watch waits for is read off its phase, so
the world is settled by moving every watch as long as one can be moved.
-/

namespace GameSidecar.Rehearsal

/-- A watch of the script: its handler counts the deliveries, stops the watch at one of them, and
    fails at some. -/
structure Probe where
  plan : Watch.Plan
  failOn : List Nat
  stopOn : Option Nat
  delivered : Nat := 0
  watch : Watch := {}
  deriving Repr, DecidableEq

/-- Whose watch it is: that of the allocation, or one of the script. -/
inductive Owner
  | allocation
  | probe (index : Nat)
  deriving Repr, DecidableEq

/-- The world. `installed` says whether the endpoint has the service, `assembled` whether the
    application has put its parts together, and `stream` is the newest stream while it is open. -/
structure World where
  script : Script
  settings : Settings
  cluster : Cluster
  reconciler : Reconciler
  service : Option Heartbeat.Service
  installed : Bool
  assembled : Bool := false
  probes : List Probe := []
  newest : Option Owner := none
  stream : Option (Owner × Nat) := none
  traces : List Trace := []
  lines : List Line := []

namespace World

/-- The profile of all calls. -/
def profile (world : World) : Api.Profile :=
  .ofSettings world.settings

/-- The plan of the allocation watch. -/
def plan (world : World) : Watch.Plan :=
  .ofSettings world.settings world.reconciler.allocator.target

/-- Lines are written. -/
def write (world : World) (lines : List Line) : World :=
  { world with lines := world.lines ++ Line.visible world.script.level lines }

/-- Something has happened. -/
def trace (world : World) (trace : Trace) : World :=
  { world with traces := world.traces ++ [trace] }

/-- A call of the API server. -/
def call (world : World) (call : Api.Call) : World × Except Cause Json :=
  let (cluster, outcome) := world.cluster.call call
  ({ world.trace (.call call.name (call.arguments world.profile)) with cluster }, outcome)

/-- A watch with an item of one of its streams. -/
def post (world : World) (owner : Owner) (stream : Nat) (item : Watch.Item) : World :=
  match owner with
  | .allocation =>
    let posted := world.reconciler.watch.map (·.post stream item)
    { world with reconciler := { world.reconciler with watch := posted } }
  | .probe index =>
    let posted := world.probes.modify index fun probe =>
      { probe with watch := probe.watch.post stream item }
    { world with probes := posted }

/-- A stream is opened. It becomes the newest one, or fails. -/
def openStream (world : World) (owner : Owner) (target : Target) (number : Nat) (since : Json) :
    World :=
  match world.call (.stream target since) with
  | (world, .ok _) => { world with stream := some (owner, number) }
  | (world, .error cause) => { world with stream := none }.post owner number (.failed cause)

/-- A stream is closed. -/
def closeStream (world : World) (owner : Owner) (number : Nat) : World :=
  if world.stream = some (owner, number) then { world with stream := none } else world

/-- What a watch asks for. Lists and deliveries are read off its phase. -/
def carryOut (owner : Owner) (target : Target) (world : World) : Watch.Effect → World
  | .log line => world.write [line]
  | .openStream number since => world.openStream owner target number since
  | .closeStream number => world.closeStream owner number
  | .sleep seconds => world.trace (.sleep (milliseconds seconds))
  | .list | .deliver _ _ => world

/-- What the reconciler asks for. A read is seen from the allocator. -/
def carryOutReconciler (world : World) : Reconciler.Effect → World
  | .watch effect => world.carryOut .allocation world.reconciler.allocator.target effect
  | .log line => world.write [line]
  | .read _ => world

/-- A move of the reconciler. -/
def moveReconciler (world : World) (move : Reconciler.Move) : World :=
  let (reconciler, effects) := world.reconciler.step world.plan move
  effects.foldl carryOutReconciler { world with reconciler }

/-- A move of a watch of the script. -/
def moveProbe (world : World) (index : Nat) (probe : Probe) (move : Watch.Move) : World :=
  let (watch, effects) := probe.watch.step probe.plan move
  effects.foldl (carryOut (.probe index) probe.plan.target)
    { world with probes := world.probes.set index { probe with watch } }

/-- The move that a watch waits for and that is no delivery, once the world has done its part. -/
def nextMove? (world : World) (target : Target) (watch : Watch) :
    Option (World × Watch.Move) :=
  match watch.phase with
  | .ready => some (world, .proceed)
  | .listing =>
    let (world, outcome) := world.call (.list target)
    some (world, .listed outcome)
  | .streaming => if watch.queue.isEmpty then none else some (world, .take)
  | .sleeping => some (world, .slept)
  | .delivering _ _ _ | .ended _ => none

/-- The world after the next thing that happens to the reconciler, if there is any. -/
def advanceReconciler? (world : World) : Option World :=
  let allocator := world.reconciler.allocator
  if allocator.reading.isSome then
    let (world, outcome) := world.call (.get allocator.companion)
    some (world.moveReconciler (.read outcome))
  else if world.reconciler.delivered?.isSome then some (world.moveReconciler .review)
  else
    (world.reconciler.watch.bind (world.nextMove? allocator.target)).map fun next =>
      next.1.moveReconciler (.watch next.2)

/-- A delivery to the handler of a watch of the script. -/
def deliver (world : World) (index : Nat) (probe : Probe) (old new : Json) : World :=
  let number := probe.delivered + 1
  let counted := { probe with delivered := number }
  let world := world.trace (.delivered number old new)
  let world :=
    if probe.stopOn = some number then world.moveProbe index counted .stop
    else { world with probes := world.probes.set index counted }
  let failure :=
    if probe.failOn.contains number then some s!"handler failed on {number}" else none
  match world.probes[index]? with
  | none => world
  | some probe => world.moveProbe index probe (.handled failure)

/-- The world after the next thing that happens to a watch of the script, if there is any. -/
def advanceProbe? (world : World) (index : Nat) (probe : Probe) : Option World :=
  match probe.watch.phase with
  | .delivering old new _ => some (world.deliver index probe old new)
  | _ =>
    (world.nextMove? probe.plan.target probe.watch).map fun next =>
      next.1.moveProbe index probe next.2

/-- The world after the next thing that happens to one of the watches, if there is any. -/
def advance? (world : World) : Option World :=
  world.advanceReconciler?.or
    (world.probes.zipIdx.findSome? fun entry => world.advanceProbe? entry.2 entry.1)

/-- The world after at most some moves. -/
def settleWithin : (moves : Nat) → World → World
  | 0, world => world
  | moves + 1, world =>
    match world.advance? with
    | none => world
    | some next => settleWithin moves next

/-- A number of moves after which no watch can be moved. Every cycle of a watch but its last uses
    up an item of its queue or something that was prepared, and a cycle has a few moves beside one
    for each item of a list. -/
def movesLeft (world : World) : Nat :=
  let watches := world.reconciler.watch.toList ++ world.probes.map Probe.watch
  let queued := watches.foldl (fun total watch => total + watch.queue.length + 4) 0
  8 * (world.cluster.load + queued + 4)

/-- The world once all watches have worked off everything. -/
def settle (world : World) : World :=
  settleWithin world.movesLeft world

/-- The watch that was started last. -/
def newestWatch? (world : World) : Option Watch :=
  match world.newest with
  | none => none
  | some .allocation => world.reconciler.watch
  | some (.probe index) => world.probes[index]?.map Probe.watch

/-- Whether there is an allocator: an application has none before it has put its parts together. -/
def hasAllocator (world : World) : Bool :=
  match world.script.wiring with
  | .parts _ => true
  | .application _ => world.assembled

/-- The state of all parts. -/
def state (world : World) : State where
  service := world.service.map Heartbeat.Service.memory
  session := world.reconciler.session
  allocated := if world.hasAllocator then some world.reconciler.allocator.allocated else none
  watch := world.newestWatch?.map .ofWatch

end World

end GameSidecar.Rehearsal
