import GameSidecar.Endpoint
import GameSidecar.Launch
import GameSidecar.Reconciler
import GameSidecar.Rehearsal.Cluster

/-!
# Scripts

A script says how the parts of the sidecar are put together, what the API server holds at first,
and what happens then, step by step. After each step a report tells its result, the calls that
were made, the lines that were written and the state of the parts.
-/

namespace GameSidecar.Rehearsal

/-- How the parts are put together. -/
inductive Wiring
  /-- All parts are there, and the endpoint has the service or not. -/
  | parts (installed : Bool)
  /-- The application puts them together when it starts, with the settings of the script or with
      those of the environment alone. -/
  | application (fromEnvironment : Bool)
  deriving Repr, DecidableEq

/-- A step of a script. -/
inductive Step
  | request (request : Endpoint.Request)
  | requests (request : Endpoint.Request) (count : Nat)
  | startup
  | shutdown
  | put (slot : Slot) (record : Json)
  | delete (slot : Slot)
  | record (slot : Slot)
  | fail (call : String) (cause : Cause)
  | answer (answer : Json)
  | get (kind : Json) (namespaceName name : String)
  | patch (kind : Json) (namespaceName name : String) (body : Json) (subresource : Option String)
  | publish (details : Json)
  | update (old new : Json)
  | startAllocation
  | stopAllocation
  | watch (kind : Json) (namespaceName name : String) (failOn : List Nat) (stopOn : Option Nat)
      (stopNow : Bool)
  | stop
  | event (event : Json)
  | streamError (cause : Cause)
  | streamEnd

/-- A script. `access` is the way to the API server that an application finds when it starts. -/
structure Script where
  settings : List (String × Json)
  environment : List (String × String)
  level : Level
  wiring : Wiring
  access : Option Access
  records : List (Slot × Json)
  steps : List Step

/-- What went wrong in a step. -/
inductive Problem
  /-- A call of the API server failed. -/
  | store (error : StoreError)
  /-- A value cannot be used. -/
  | value (message : String)
  /-- There is no watch. -/
  | noWatch
  deriving Repr, DecidableEq

/-- Why the application did not start. -/
inductive StartFailure
  | settings (faults : List Fault)
  | access
  deriving Repr, DecidableEq

/-- The result of a step. -/
inductive Result
  | nothing
  /-- A record, or null. -/
  | record (record : Json)
  /-- Whether something was accepted, or happened for the first time. -/
  | truth (truth : Bool)
  | reply (reply : Endpoint.Reply)
  | replies (replies : List Endpoint.Reply)
  /-- The start of the application, with what failed. -/
  | started (failure : Option StartFailure)
  /-- The end of the application. -/
  | ended
  /-- The allocation watch, which is the same however often it is asked for. -/
  | allocation
  /-- A watch that was started, by its description, and whether stopping it at once was the first
      call for that. -/
  | watching (description : String) (stopped : Option Bool)
  | problem (problem : Problem)
  deriving Repr, DecidableEq

/-- What happened during a step: a call with its arguments, a wait in milliseconds, or a delivery
    to a handler, with its number. -/
inductive Trace
  | call (name : String) (arguments : Json)
  | sleep (milliseconds : Int)
  | delivered (number : Nat) (old new : Json)
  deriving Repr, DecidableEq

/-- The state of a watch: the version to resume from, whether it was stopped, how it ended if it
    has, and the versions of the known records by name. -/
structure WatchState where
  version : Json
  stopped : Bool
  ending : Option Watch.Ending
  versions : List (String × Option String)
  deriving Repr, DecidableEq

/-- The state of all parts. -/
structure State where
  service : Option Heartbeat.Memory
  session : Session
  allocated : Option Bool
  watch : Option WatchState
  deriving Repr, DecidableEq

/-- What is told about a step. -/
structure Report where
  result : Result
  traces : List Trace
  lines : List Line
  state : State
  deriving Repr, DecidableEq

/-- The state of a watch. -/
def WatchState.ofWatch (watch : Watch) : WatchState where
  version := watch.known.version
  stopped := watch.stopped
  ending :=
    match watch.phase with
    | .ended ending => some ending
    | _ => none
  versions :=
    (watch.known.records.map fun entry => (entry.1, Record.version? entry.2)).mergeSort
      fun left right => left.1 ≤ right.1

end GameSidecar.Rehearsal
