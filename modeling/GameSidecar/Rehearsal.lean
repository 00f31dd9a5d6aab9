import GameSidecar.Rehearsal.World

/-!
# Rehearsals

A rehearsal plays a script in a world of its own and reports on every step. Heartbeats that come
at the same time are all admitted before the first patch of any of them is answered.
-/

namespace GameSidecar.Rehearsal

/-- Where requests of a rehearsal go. -/
def origin : String :=
  "http://test"

namespace World

/-- The patch of a heartbeat on the API server, with the lines about it. -/
def sendPatch (world : World) (patch : Api.Patch) : World × Except StoreError Unit :=
  let (world, outcome) := world.call (.patch patch)
  let (result, lines) := patch.result (outcome.map fun _ => ())
  (world.write lines, result)

/-- What the heartbeat service does, and the replies to the heartbeats that end. -/
def serviceActions (request : Endpoint.Request) (world : World) :
    List Heartbeat.Action → World × List Endpoint.Reply
  | [] => (world, [])
  | action :: rest =>
    let (next, replies) : World × List Endpoint.Reply :=
      match action with
      | .log line => (world.write [line], [])
      | .send _ _ => (world, [])
      | .finish _ result =>
        let (reply, lines) := Endpoint.conclude request world.reconciler.session result
        (world.write lines, [reply])
    let (last, more) := serviceActions request next rest
    (last, replies ++ more)

/-- The service after a step of it, and the replies to the heartbeats that end. -/
def stepService (world : World) (request : Endpoint.Request)
    (stepped : Heartbeat.Service × List Heartbeat.Action) : World × List Endpoint.Reply :=
  serviceActions request { world with service := some stepped.1 } stepped.2

/-- A request arrives. It is replied to at once, unless it is a heartbeat that has to wait. -/
def arrive (world : World) (request : Endpoint.Request) (number : Nat) :
    World × List Endpoint.Reply :=
  match Endpoint.receive world.installed origin request with
  | .replied reply lines => (world.write lines, [reply])
  | .admitted host report =>
    let world :=
      if world.settings.showsHeartbeats then world.write [Endpoint.heartbeatLine host report]
      else world
    match world.service with
    | none => (world, [.notReady])
    | some service => world.stepService request (service.arrive ⟨number, report⟩)

/-- The patches that are under way are answered, one after the other, at most some of them. -/
def answerPatches (request : Endpoint.Request) : (most : Nat) → World →
    World × List Endpoint.Reply
  | 0, world => (world, [])
  | most + 1, world =>
    match world.service with
    | none => (world, [])
    | some service =>
      match service.holder with
      | none => (world, [])
      | some (turn, aspect) =>
        let allocator := world.reconciler.allocator
        let patch := turn.report.patch allocator.namespaceName allocator.name aspect
        let (world, result) := world.sendPatch patch
        let (world, replies) := world.stepService request (service.complete result)
        let (world, more) := answerPatches request most world
        (world, replies ++ more)

/-- Equal requests at the same time: all of them arrive, then their patches are answered, of
    which each request has at most two. -/
def requests (world : World) (request : Endpoint.Request) (count : Nat) :
    World × List Endpoint.Reply :=
  let arrivals := (List.range count).foldl
    (fun (arrived : World × List Endpoint.Reply) number =>
      let (world, replies) := arrived.1.arrive request number
      (world, arrived.2 ++ replies)) (world, [])
  let (world, replies) := answerPatches request (2 * count) arrivals.1
  (world, arrivals.2 ++ replies)

/-- The settings with which the application starts. -/
def startSettings (world : World) : Checked Settings :=
  match world.script.wiring with
  | .application true => Settings.read ⟨[], world.script.environment⟩
  | _ => .fixed world.settings

/-- The allocation watch is asked for; it becomes the newest watch if it was not there. -/
def startAllocation (world : World) : World :=
  let newest := if world.reconciler.watch.isNone then some .allocation else world.newest
  { world.moveReconciler .start with newest }

/-- The application puts its parts together. -/
def assemble (world : World) (settings : Settings) : World :=
  let allocator : Allocator := ⟨settings.serverNamespace, settings.serverName, false, none⟩
  let world := { world with
    settings, reconciler := { world.reconciler with allocator, watch := none } }
  { (world.write [world.profile.readyLine]).startAllocation with
    service := some {}, installed := true, assembled := true }

/-- The application does not start: no service is there. -/
def failStart (world : World) (failure : StartFailure) : World × Result :=
  ({ world with service := none }, .started (some failure))

/-- The start of the application. Nothing is left to do where the endpoint has a service. -/
def startup (world : World) : World × Result :=
  if world.installed then (world, .started none)
  else
    match world.startSettings with
    | Except.error faults => world.failStart (.settings faults)
    | Except.ok settings =>
      let world := world.write [Launch.startLine settings]
      match world.script.access with
      | none => (world.write [Access.failureLine "no kubeconfig"]).failStart .access
      | some access => ((world.write [access.line]).assemble settings, .started none)

/-- The end of the application, which stops the watch that it has started. -/
def shutdown (world : World) : World × Result :=
  if world.assembled then
    ((world.moveReconciler (.watch .stop)).write [Launch.stopLine], .ended)
  else (world, .ended)

/-- A record is read. -/
def read (world : World) (target : Target) : World × Result :=
  let (world, outcome) := world.call (.get target)
  let (result, lines) := Api.readResult target outcome
  (world.write lines,
    match result with
    | .ok record => .record (record.getD .null)
    | .error error => .problem (.store error))

/-- A record is patched. -/
def patch (world : World) (target : Target) (body : Json) (subresource : Option String) :
    World × Result :=
  match Api.Patch.of target body subresource with
  | .error message => (world, .problem (.value message))
  | .ok patch =>
    match world.sendPatch patch with
    | (world, .ok ()) => (world, .nothing)
    | (world, .error error) => (world, .problem (.store error))

/-- The newest watch is stopped. It tells whether it was the first call. -/
def stop (world : World) : World × Result :=
  match world.newest, world.newestWatch? with
  | some .allocation, some watch =>
    (world.moveReconciler (.watch .stop), .truth !watch.stopped)
  | some (.probe index), some watch =>
    match world.probes[index]? with
    | none => (world, .problem .noWatch)
    | some probe => (world.moveProbe index probe .stop, .truth !watch.stopped)
  | _, _ => (world, .problem .noWatch)

/-- A watch of the script is started, and stopped at once if that is asked for. -/
def watch (world : World) (target : Target) (failOn : List Nat) (stopOn : Option Nat)
    (stopNow : Bool) : World × Result :=
  let probe : Probe :=
    { plan := .ofSettings world.settings target, failOn, stopOn }
  let index := world.probes.length
  let world := { world.write [Watch.startLine target] with
    probes := world.probes ++ [probe], newest := some (.probe index) }
  if stopNow then (world.moveProbe index probe .stop, .watching target.describe (some true))
  else (world, .watching target.describe none)

/-- The newest stream brings an item, if it is still open. -/
def feed (world : World) (item : Watch.Item) (last : Bool) : World :=
  match world.stream with
  | none => world
  | some (owner, number) =>
    let fed := world.post owner number item
    if last then { fed with stream := none } else fed

/-- A step that is about a record of a kind, if there is such a kind. -/
def withTarget (world : World) (kind : Json) (namespaceName name : String)
    (go : Target → World × Result) : World × Result :=
  match Kind.read kind with
  | .ok kind => go ⟨kind, namespaceName, name⟩
  | .error message => (world, .problem (.value message))

/-- What a step does before the watches go on. -/
def perform (world : World) : Step → World × Result
  | .request request =>
    let (world, replies) := world.requests request 1
    (world, replies.head?.elim .nothing .reply)
  | .requests request count =>
    let (world, replies) := world.requests request count
    (world, .replies replies)
  | .startup => world.startup
  | .shutdown => world.shutdown
  | .put slot record => ({ world with cluster := world.cluster.put slot record }, .nothing)
  | .delete slot => ({ world with cluster := world.cluster.remove slot }, .nothing)
  | .record slot => (world, .record ((world.cluster.record? slot).getD .null))
  | .fail call cause =>
    let failures := world.cluster.failures ++ [(call, cause)]
    ({ world with cluster := { world.cluster with failures } }, .nothing)
  | .answer answer =>
    let answers := world.cluster.answers ++ [answer]
    ({ world with cluster := { world.cluster with answers } }, .nothing)
  | .get kind namespaceName name => world.withTarget kind namespaceName name world.read
  | .patch kind namespaceName name body subresource =>
    world.withTarget kind namespaceName name (world.patch · body subresource)
  | .publish details =>
    match Session.ofJson details with
    | .error message => (world, .problem (.value message))
    | .ok session =>
      let current := world.reconciler.session
      ({ world.write [current.publishLine session] with
          reconciler := { world.reconciler with session := current.publish session } },
        .truth (current.accepts session))
  | .update old new => (world.moveReconciler (.update old new), .nothing)
  | .startAllocation => (world.startAllocation, .allocation)
  | .stopAllocation => (world.moveReconciler (.watch .stop), .nothing)
  | .watch kind namespaceName name failOn stopOn stopNow =>
    world.withTarget kind namespaceName name (world.watch · failOn stopOn stopNow)
  | .stop => world.stop
  | .event event => (world.feed (.event event) false, .nothing)
  | .streamError cause => (world.feed (.failed cause) true, .nothing)
  | .streamEnd => (world.feed .ended true, .nothing)

/-- A step and the report on it. -/
def step (world : World) (step : Step) : World × Report :=
  let (performed, result) := { world with traces := [], lines := [] }.perform step
  let settled := performed.settle
  (settled, ⟨result, settled.traces, settled.lines, settled.state⟩)

/-- The reports on some steps. -/
def play (world : World) : List Step → List Report
  | [] => []
  | first :: rest =>
    let (next, report) := world.step first
    report :: next.play rest

/-- The world at the start of a script. -/
def ofScript (script : Script) (settings : Settings) : World where
  script
  settings
  cluster := script.records.foldl (fun cluster entry => cluster.put entry.1 entry.2) {}
  reconciler := { allocator := ⟨settings.serverNamespace, settings.serverName, false, none⟩ }
  service :=
    match script.wiring with
    | .parts _ => some {}
    | .application _ => none
  installed :=
    match script.wiring with
    | .parts installed => installed
    | .application _ => false

end World

namespace Script

/-- The settings of a script. Those of an application that takes them from the environment are not
    known before it starts. -/
def readSettings (script : Script) : Checked Settings :=
  match script.wiring with
  | .application true => .fixed .usual
  | _ => Settings.read ⟨script.settings, script.environment⟩

/-- The reports on all steps of a script, or the faults of its settings. -/
def run (script : Script) : Except (List Fault) (List Report) :=
  (script.readSettings : Except (List Fault) Settings).map fun settings =>
    (World.ofScript script settings).play script.steps

end Script

end GameSidecar.Rehearsal
