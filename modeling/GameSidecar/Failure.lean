import GameSidecar.Json

/-!
# Failures of API calls

A call can fail because the server answers with a status, because the connection breaks, or for
any other cause. Every cause is made into one kind of error, which says whether repeating the call
may succeed: a status that asks for it, and every broken connection.

Two notions of a passing failure exist. A cause that has not been made into an error passes only
if it is an error of the connection proper or a timeout; the causes that an HTTP transport raises
pass once they have been made into errors.
-/

namespace GameSidecar

/-- An error of the API. The status is null if the server gave none. Status and reason may be any
    value, since an event of the watch can bring them. -/
structure StoreError where
  message : String
  status : Json
  reason : Json
  retryable : Bool
  deriving Repr, DecidableEq

namespace StoreError

/-- The statuses after which the same call may succeed. -/
def retryableStatuses : List Int :=
  [408, 425, 429, 500, 502, 503, 504]

/-- Whether a status lets the same call be repeated: none at all, or one of the list. -/
def passes (status : Json) : Bool :=
  status.isNull || retryableStatuses.any status.equalsInt

/-- The error with a status, classified by it. -/
def ofStatus (message : String) (status reason : Json) : StoreError :=
  ⟨message, status, reason, passes status⟩

/-- Whether the error says that a resume version has expired. -/
def isExpired (error : StoreError) : Bool :=
  error.status.equalsInt 410

end StoreError

/-- Why a call failed. -/
inductive Cause
  /-- The server answered with a status, or with none, and a reason. -/
  | api (status : Option Int) (reason : Option String)
  /-- The cause is an error of the API already. -/
  | store (error : StoreError)
  /-- The HTTP transport failed. -/
  | transport (name text : String)
  /-- The connection failed or timed out. -/
  | connection (name text : String)
  /-- Anything else. -/
  | other (name text : String)
  deriving Repr, DecidableEq

namespace Cause

/-- The causes of the connection itself, and the timeout. -/
def connectionNames : List String :=
  ["ConnectionError", "ConnectionResetError", "ConnectionRefusedError", "ConnectionAbortedError",
    "BrokenPipeError", "TimeoutError"]

/-- Other names of the failure of the operating system. -/
def systemNames : List String :=
  ["IOError", "EnvironmentError"]

/-- A cause of the connection or of the program, by its name. A missing key is shown quoted. -/
def named (name text : String) : Cause :=
  if connectionNames.contains name then .connection name text
  else if systemNames.contains name then .other "OSError" text
  else if name = "KeyError" then .other name (Text.quoted text)
  else .other name text

/-- A cause of the HTTP transport, by its name. Warnings are no failures of the transport, an
    unreadable location is introduced as such, and a failed protocol has a second name. -/
def transported (name text : String) : Cause :=
  if name.endsWith "Warning" then .other name text
  else if name = "ConnectionError" then .transport "ProtocolError" text
  else if name = "LocationParseError" then .transport name s!"Failed to parse: {text}"
  else .transport name text

/-- The name of a cause. -/
def name : Cause → String
  | .api _ _ => "ApiException"
  | .store _ => "StoreError"
  | .transport name _ | .connection name _ | .other name _ => name

/-- A status of zero counts as none. -/
def statusJson : Option Int → Json
  | none | some 0 => .null
  | some status => .int status

/-- A reason as a value. -/
def reasonJson : Option String → Json
  | none => .null
  | some reason => .string reason

/-- The error that a cause is made into while an action is tried. -/
def toError (action : String) : Cause → StoreError
  | .store error => error
  | .api status reason =>
    let status := statusJson status
    let reason := reasonJson reason
    .ofStatus s!"{action} failed: {status.plain} {reason.plain}" status reason
  | .transport name text | .connection name text =>
    ⟨s!"{action} failed: {name}: {text}", .null, .string name, true⟩
  | .other name text => ⟨s!"{action} failed: {name}: {text}", .null, .string name, false⟩

/-- Whether a cause that has not been made into an error is worth another attempt. -/
def isRetryable : Cause → Bool
  | .store error => error.retryable
  | .connection _ _ => true
  | _ => false

end Cause

end GameSidecar
