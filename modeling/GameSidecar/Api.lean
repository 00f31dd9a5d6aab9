import GameSidecar.Failure
import GameSidecar.Log
import GameSidecar.Record
import GameSidecar.Settings

/-!
# Calls of the API server

The sidecar reads, patches, lists and streams records of one group and version. A call is a value
with a name and arguments; who carries it out gives back what the server answered or the cause of
a failure. This module says what a call looks like and what its outcome means.
-/

namespace GameSidecar.Api

/-- What all calls have in common. -/
structure Profile where
  group : String
  version : String
  requestTimeout : Double
  streamLifetime : Int
  deriving Repr, DecidableEq

/-- The profile that settings give. -/
def Profile.ofSettings (settings : Settings) : Profile :=
  ⟨settings.group, settings.version, settings.requestTimeout, settings.streamLifetime⟩

/-- The line on a profile that is ready for use. -/
def Profile.readyLine (profile : Profile) : Line :=
  .info s!"[K8S] Store client initialized - {profile.group}/{profile.version}"

/-- A merge patch for a record, or for its status only. -/
structure Patch where
  target : Target
  status : Bool
  body : Json
  deriving Repr, DecidableEq

/-- A call of the API server. A stream starts after a version. -/
inductive Call
  | get (target : Target)
  | list (target : Target)
  | patch (patch : Patch)
  | stream (target : Target) (since : Json)
  deriving Repr, DecidableEq

namespace Call

/-- The name of a call. -/
def name : Call → String
  | .get _ => "get"
  | .list _ => "list"
  | .patch change => if change.status then "patch_status" else "patch"
  | .stream _ _ => "stream"

/-- The record that a call is about. -/
def target : Call → Target
  | .get target | .list target | .stream target _ => target
  | .patch change => change.target

/-- The content type of merge patches. -/
def mergePatch : String :=
  "application/merge-patch+json"

/-- The selector of one record among those of a namespace. -/
def selector (target : Target) : String :=
  s!"metadata.name={target.name}"

/-- The arguments that all calls have. -/
def place (profile : Profile) (target : Target) : List (String × Json) :=
  [("group", .string profile.group), ("version", .string profile.version),
    ("namespace", .string target.namespaceName), ("plural", .string target.kind.plural)]

/-- The arguments that the kinds of call have beside those. -/
def particulars (profile : Profile) : Call → List (String × Json)
  | .get target =>
    [("name", .string target.name), ("_request_timeout", .real profile.requestTimeout)]
  | .list target =>
    [("field_selector", .string (selector target)),
      ("_request_timeout", .real profile.requestTimeout)]
  | .patch change =>
    [("name", .string change.target.name), ("body", change.body),
      ("_request_timeout", .real profile.requestTimeout), ("_content_type", .string mergePatch)]
  | .stream target since =>
    [("field_selector", .string (selector target)), ("resource_version", since),
      ("timeout_seconds", .int profile.streamLifetime)]

/-- All arguments of a call. -/
def arguments (profile : Profile) (call : Call) : Json :=
  .object (place profile call.target ++ particulars profile call)

end Call

/-- What the result of a read means: a record, or none where the server finds none. Null is no
    record. -/
def readResult (target : Target) (outcome : Except Cause Json) :
    Except StoreError (Option Json) × List Line :=
  match outcome with
  | .ok .null => (.ok none, [])
  | .ok record => (.ok (some record), [])
  | .error (.api (some 404) _) =>
    (.ok none, [.debug s!"[K8S] {target.describe} not found"])
  | .error cause => (.error (cause.toError s!"get {target.describe}"), [])

namespace Patch

/-- The patch with a body for a record or for a part of it. The status is the only such part. -/
def of (target : Target) (body : Json) (subresource : Option String) : Except String Patch :=
  match subresource with
  | none => .ok ⟨target, false, body⟩
  | some part =>
    if part = "status" then .ok ⟨target, true, body⟩
    else .error s!"Unsupported subresource: {part}"

/-- A patch as messages name what it is applied to. -/
def describe (patch : Patch) : String :=
  if patch.status then s!"{patch.target.describe}/status" else patch.target.describe

/-- What the outcome of a patch means. -/
def result (patch : Patch) (outcome : Except Cause Unit) : Except StoreError Unit × List Line :=
  match outcome with
  | .ok () => (.ok (), [.debug s!"[K8S] Patched {patch.describe}: {patch.body.plain}"])
  | .error cause => (.error (cause.toError s!"patch {patch.describe}"), [])

end Patch

end GameSidecar.Api
