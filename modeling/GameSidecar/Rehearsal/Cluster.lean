import GameSidecar.Api
import GameSidecar.Json.MergePatch
import GameSidecar.Watch.Known

/-!
# An API server in memory

The server of a rehearsal holds records by kind, namespace and name. A call fails with the next
failure that was prepared for it; otherwise reads and patches work on the records, patches being
merge patches of whole records, and a list gives the next answer that was prepared, or the one
record that it asks for.
-/

namespace GameSidecar.Rehearsal

/-- Where a record is kept. -/
structure Slot where
  plural : String
  namespaceName : String
  name : String
  deriving Repr, DecidableEq

namespace Slot

/-- The slot of a record. -/
def ofTarget (target : Target) : Slot :=
  ⟨target.kind.plural, target.namespaceName, target.name⟩

/-- The slot that the metadata of a record name. -/
def ofRecord (plural : String) (record : Json) : Slot :=
  ⟨plural, Record.namespaceName record, Record.name record⟩

end Slot

/-- The server: its records, the failures prepared for calls, and the answers prepared for
    lists. -/
structure Cluster where
  records : OrderedMap Slot Json := []
  failures : List (String × Cause) := []
  answers : List Json := []
  deriving Repr, DecidableEq, Inhabited

namespace Cluster

/-- The record in a slot. -/
def record? (cluster : Cluster) (slot : Slot) : Option Json :=
  cluster.records.get? slot

/-- The server without a record in a slot. -/
def remove (cluster : Cluster) (slot : Slot) : Cluster :=
  { cluster with records := cluster.records.erase slot }

/-- The server with a record in a slot. -/
def put (cluster : Cluster) (slot : Slot) (record : Json) : Cluster :=
  { cluster with records := cluster.records.insert slot record }

/-- The next failure that was prepared for a call, and the server without it. -/
def nextFailure? (cluster : Cluster) (call : String) : Option (Cause × Cluster) :=
  (cluster.failures.lookup call).map fun cause =>
    (cause, { cluster with
      failures := cluster.failures.eraseP fun entry => entry.1 == call })

/-- The cause of a failure where no record is. -/
def missing : Cause :=
  .api (some 404) (some "Not Found")

/-- The answer to a list call for which none was prepared. -/
def answer (cluster : Cluster) (target : Target) : Json :=
  .object [
    ("metadata", .object [("resourceVersion", .string "1")]),
    ("items", .array (cluster.record? (.ofTarget target)).toList)]

/-- What a call does for which no failure was prepared. -/
def serve (cluster : Cluster) : Api.Call → Cluster × Except Cause Json
  | .get target =>
    match cluster.record? (.ofTarget target) with
    | some record => (cluster, .ok record)
    | none => (cluster, .error missing)
  | .patch change =>
    let slot := Slot.ofTarget change.target
    match cluster.record? slot with
    | some record =>
      let changed := record.merge change.body
      (cluster.put slot changed, .ok changed)
    | none => (cluster, .error missing)
  | .list target =>
    match cluster.answers with
    | [] => (cluster, .ok (cluster.answer target))
    | answer :: rest => ({ cluster with answers := rest }, .ok answer)
  | .stream _ _ => (cluster, .ok .null)

/-- What a call does. -/
def call (cluster : Cluster) (call : Api.Call) : Cluster × Except Cause Json :=
  match cluster.nextFailure? call.name with
  | some (cause, rest) => (rest, .error cause)
  | none => cluster.serve call

/-- How much a watch can be kept busy by what was prepared. -/
def load (cluster : Cluster) : Nat :=
  cluster.failures.length + cluster.answers.length +
    cluster.answers.foldl (fun total answer =>
      match Watch.Listing.ofAnswer answer with
      | .ok listing => total + listing.count
      | .error _ => total) 0

end Cluster

end GameSidecar.Rehearsal
