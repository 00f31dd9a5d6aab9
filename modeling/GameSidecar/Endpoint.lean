import GameSidecar.Heartbeat.Service
import GameSidecar.Session
import GameSidecar.Text.Split

/-!
# The endpoint

Games post their heartbeats under the name of their session host; whether the sidecar is alive
can be asked for as well. What a request comes to is decided in two steps: before the heartbeat is
handled, where the route, the body and its fields can be refused, and after it, where a patch
that failed is reported, or the session is given.
-/

namespace GameSidecar.Endpoint

/-- A request. The method counts in its case; the query is not looked at. -/
structure Request where
  method : String
  path : String
  query : String
  body : ByteArray

/-- What a reply holds. A body that does not decode is answered with its faults. -/
inductive Content
  | empty
  | value (value : Json)
  | undecodable (faults : List Fault)
  deriving Repr, DecidableEq

/-- A reply, with the method that a path allows or the location of what was meant. -/
structure Reply where
  status : Nat
  content : Content
  allow : Option String := none
  location : Option String := none
  deriving Repr, DecidableEq

namespace Reply

/-- A reply that is a value. -/
def ofValue (status : Nat) (value : Json) : Reply :=
  { status, content := .value value }

/-- A reply that says in a text why a request is refused. -/
def refusal (status : Nat) (text : String) : Reply :=
  .ofValue status (.object [("detail", .string text)])

/-- No service takes heartbeats yet. -/
def notReady : Reply :=
  .refusal 503 "sidecar is not initialized"

/-- The body is empty. -/
def emptyBody : Reply :=
  .refusal 400 "cannot deserialize json: empty body"

/-- The body does not decode. -/
def undecodable (faults : List Fault) : Reply :=
  { status := 400, content := .undecodable faults }

/-- A field of the heartbeat is empty. -/
def invalid (objection : String) : Reply :=
  .refusal 400 s!"invalid heartbeat request: {objection}"

/-- A patch failed. -/
def failed (failure : Heartbeat.Failure) : Reply :=
  .refusal 500 failure.message

/-- Anything that nobody handles. -/
def broken : Reply :=
  .refusal 500 "internal server error"

/-- Nothing is there. -/
def notFound : Reply :=
  .refusal 404 "Not Found"

/-- Something is there, for another method. -/
def notAllowed (allowed : String) : Reply :=
  { refusal 405 "Method Not Allowed" with allow := some allowed }

/-- The same without slashes at the end is there. -/
def redirected (location : String) : Reply :=
  { status := 307, content := .empty, location := some location }

/-- The sidecar is alive. -/
def healthy : Reply :=
  .ofValue 200 (.object [
    ("status", .string "healthy"), ("service", .string "gameserver-sidecar")])

end Reply

/-- What is found under a path. -/
inductive Route
  | heartbeat (host : String)
  | health
  deriving Repr, DecidableEq

namespace Route

/-- Whether the last part of a path is a word. One line feed after it does not count. -/
def isWord (part : List Char) (word : String) : Bool :=
  part = word.toList || part = word.toList ++ ['\n']

/-- What is found under a path. The name of a session host is any part that is not empty. -/
def ofPath? (path : List Char) : Option Route :=
  match Text.split '/' path with
  | [[], last] => if isWord last "health" then some .health else none
  | [[], version, collection, host] =>
    if version = "v1".toList && collection = "sessionHosts".toList && !host.isEmpty then
      some (.heartbeat (String.ofList host))
    else none
  | [[], version, collection, host, last] =>
    if version = "v1".toList && collection = "sessionHosts".toList && !host.isEmpty &&
        isWord last "heartbeats" then
      some (.heartbeat (String.ofList host))
    else none
  | _ => none

/-- The one method that a route is for. -/
def method : Route → String
  | .heartbeat _ => "POST"
  | .health => "GET"

end Route

/-- The bytes that stand for themselves in a location. -/
def isPlainByte (byte : UInt8) : Bool :=
  let character := Char.ofNat byte.toNat
  byte < 0x80 && (character.isAlphanum || "_.-~:/%#?=@[]!$&'()*+,;".toList.contains character)

/-- A byte in a location. -/
def locationByte (byte : UInt8) : List Char :=
  if isPlainByte byte then [Char.ofNat byte.toNat]
  else '%' :: (Text.hexadecimal 2 byte.toNat).map Char.toUpper

/-- A text as a location. -/
def location (text : String) : String :=
  String.ofList (text.toUTF8.toList.flatMap locationByte)

/-- A character of a path in which a query or a fragment must not seem to start. -/
def pathCharacter (character : Char) : List Char :=
  if character = '?' then "%3F".toList
  else if character = '#' then "%23".toList
  else [character]

/-- A path without slashes at its end, if it has any and something is left. -/
def withoutSlashes? (path : List Char) : Option (List Char) :=
  if path.getLast? = some '/' && path ≠ ['/'] then
    some (path.reverse.dropWhile (· = '/')).reverse
  else none

/-- The reply to a path under which nothing is found. -/
def missing (origin : String) (request : Request) : Reply :=
  match withoutSlashes? request.path.toList with
  | none => .notFound
  | some path =>
    match Route.ofPath? path with
    | none => .notFound
    | some _ =>
      let query := if request.query.isEmpty then "" else s!"?{request.query}"
      .redirected (location s!"{origin}{String.ofList (path.flatMap pathCharacter)}{query}")

/-- What a request comes to before a heartbeat is handled. -/
inductive Admission
  | replied (reply : Reply) (lines : List Line)
  | admitted (host : String) (report : Heartbeat.Report)
  deriving Repr

/-- Whether a body is a heartbeat that can be handled. -/
def receiveBody (host : String) (body : ByteArray) : Admission :=
  if Heartbeat.Request.isBlank body then .replied .emptyBody []
  else
    match Heartbeat.Request.decode body with
    | Except.error faults => .replied (.undecodable faults) []
    | Except.ok request =>
      match Heartbeat.Report.ofRequest request with
      | .error objection =>
        .replied (.invalid objection)
          [.warning s!"[HEARTBEAT] Error validating heartbeat request {objection}"]
      | .ok report => .admitted host report

/-- Whether a request is a heartbeat that can be handled, by whether a service is ready. -/
def receive (ready : Bool) (origin : String) (request : Request) : Admission :=
  match Route.ofPath? request.path.toList with
  | none => .replied (missing origin request) []
  | some route =>
    if request.method ≠ route.method then .replied (.notAllowed route.method) []
    else
      match route with
      | .health => .replied .healthy []
      | .heartbeat host => if ready then receiveBody host request.body else .replied .notReady []

/-- The line that shows a heartbeat before it is handled. -/
def heartbeatLine (host : String) (report : Heartbeat.Report) : Line :=
  .debug s!"[HEARTBEAT] Heartbeat received from sessionHostId {host}, data {report.shown}"

/-- What is said about a session that cannot be given in an answer. -/
def sessionObjection (faults : List Fault) : String :=
  ", ".intercalate (faults.map fun fault => fault.rule.message)

/-- The reply after a heartbeat was handled, by the session at that moment. -/
def conclude (request : Request) (session : Session) :
    Except Heartbeat.Failure Unit → Reply × List Line
  | .error failure => (.failed failure, [.error s!"[HEARTBEAT] {failure.message}"])
  | .ok () =>
    match Answer.ofSession session with
    | .ok answer => (.ofValue 200 answer.toJson, [])
    | .error faults =>
      (.broken,
        [.error s!"Request {request.method} {request.path} failed: {sessionObjection faults}"])

end GameSidecar.Endpoint
