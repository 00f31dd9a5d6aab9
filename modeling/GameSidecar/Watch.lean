import GameSidecar.Api
import GameSidecar.Retry
import GameSidecar.Watch.Known

/-!
# The watch of a record

A watch goes through cycles. A cycle lists the record if there is no version to resume from, then
opens a stream after that version and works off what the stream brings, until the stream ends,
fails, expires, or the watch is stopped. A cycle that fails for a passing reason is repeated after
a wait that grows with the failures in a row; any other failure ends the watch.

The watch is a machine. It is moved by what happens around it, one thing at a time, and answers
each move with the effects that it asks for. Updates are delivered one at a time: the watch does
not go on before the handler has come to its end, and a handler that fails changes nothing.
-/

namespace GameSidecar

namespace Watch

/-- What a watch is set up with: the record, and the longest wait after a failure. -/
structure Plan where
  target : Target
  cap : Option Rat
  deriving Repr, DecidableEq

/-- The plan for a record that settings give. -/
def Plan.ofSettings (settings : Settings) (target : Target) : Plan :=
  ⟨target, Backoff.capOf settings.longestWait⟩

/-- The waits after failures: one second at least, doubled each time. Doubles hold the powers of two
    as they are. -/
def Plan.backoff (plan : Plan) : Backoff :=
  ⟨1, plan.cap, 2, .exact⟩

/-- What a stream hands to the watch. -/
inductive Item
  | event (event : Json)
  | failed (cause : Cause)
  | ended
  | stopped
  deriving Repr, DecidableEq

/-- What a watch goes on with after a delivery. -/
inductive Continuation
  | listing (listing : Listing)
  | streaming
  deriving Repr, DecidableEq

/-- How a watch ended. -/
inductive Ending
  | stopped
  | gaveUp
  | broken (defect : Defect)
  deriving Repr, DecidableEq

/-- What a watch waits for. -/
inductive Phase
  /-- The next cycle. -/
  | ready
  /-- The answer to a list call. -/
  | listing
  /-- The next item of its stream. -/
  | streaming
  /-- The end of a handler. -/
  | delivering (old new : Json) (next : Continuation)
  /-- The end of a wait. -/
  | sleeping
  /-- Nothing any more. -/
  | ended (ending : Ending)
  deriving Repr, DecidableEq

end Watch

open Watch in
/-- A watch. Streams are numbered from one on, and the queue holds what the last one brought. -/
structure Watch where
  known : Known := {}
  stopped : Bool := false
  failures : Nat := 0
  streams : Nat := 0
  queue : List Item := []
  phase : Phase := .ready
  deriving Repr, DecidableEq, Inhabited

namespace Watch

/-- What a watch asks for. -/
inductive Effect
  | log (line : Line)
  | list
  | openStream (number : Nat) (since : Json)
  | closeStream (number : Nat)
  | sleep (seconds : Rat)
  | deliver (old new : Json)
  deriving Repr, DecidableEq

/-- What happens around a watch. -/
inductive Move
  | proceed
  | listed (outcome : Except Cause Json)
  | post (stream : Nat) (item : Item)
  | take
  | handled (failure : Option String)
  | slept
  | stop
  deriving Repr

/-- The line on the start of a watch. -/
def startLine (target : Target) : Line :=
  .info s!"[WATCH] Watching {target.describe}"

/-- The line on the end of a watch. -/
def endLine (target : Target) : Line :=
  .info s!"[WATCH] Watch on {target.describe} ended"

/-- The line on the first call for an end. -/
def stopLine (target : Target) : Line :=
  .info s!"[WATCH] Stop requested for {target.describe}"

/-- The line on a failure that ends a watch. -/
def giveUpLine (target : Target) (error : StoreError) : Line :=
  .error s!"[WATCH] Giving up on {target.describe}: {error.message}"

/-- The line on a stream that has come to its end. -/
def streamEndLine (target : Target) : Line :=
  .debug s!"[WATCH] Stream for {target.describe} ended, resuming"

/-- The line on a version that has expired. -/
def expiryLine (target : Target) : Line :=
  .info s!"[WATCH] Resource version expired for {target.describe}, re-listing"

/-- The line on a list that has been worked through. -/
def listLine (target : Target) (count : Nat) (version : Json) : Line :=
  .debug s!"[WATCH] Listed {count} item(s) for {target.describe} at {version.plain}"

/-- The line on a handler that failed. -/
def handlerLine (target : Target) (failure : String) : Line :=
  .error s!"[WATCH] Update handler failed for {target.describe}: {failure}"

variable (plan : Plan)

/-- The watch ends. -/
def finish (watch : Watch) (ending : Ending) : Watch × List Effect :=
  ({ watch with phase := .ended ending }, [.log (endLine plan.target)])

/-- The cycle ends well. -/
def rest (watch : Watch) : Watch × List Effect :=
  ({ watch with failures := 0, phase := .ready }, [])

/-- The cycle fails: it is repeated after a wait, or the watch gives up. -/
def fail (watch : Watch) (error : StoreError) : Watch × List Effect :=
  if error.retryable then
    let failures := watch.failures + 1
    ({ watch with failures, phase := .sleeping }, [.sleep (plan.backoff.wait failures)])
  else
    let (ended, effects) := watch.finish plan .gaveUp
    (ended, .log (giveUpLine plan.target error) :: effects)

/-- The cycle goes on to a new stream, unless the watch is stopped. -/
def openStream (watch : Watch) : Watch × List Effect :=
  if watch.stopped then watch.rest
  else
    let number := watch.streams + 1
    ({ watch with streams := number, queue := [], phase := .streaming },
      [.openStream number watch.known.version])

/-- The cycle starts, with a list if there is no version to resume from. -/
def startCycle (watch : Watch) : Watch × List Effect :=
  if watch.known.version.isNull then ({ watch with phase := .listing }, [.list])
  else watch.openStream

/-- The list has been worked through. -/
def concludeListing (watch : Watch) (listing : Listing) : Watch × List Effect :=
  match watch.known.conclude listing with
  | (known, some defect) => { watch with known }.finish plan (.broken defect)
  | (known, none) =>
    let (opened, effects) := { watch with known }.openStream
    (opened, .log (listLine plan.target listing.count known.version) :: effects)

/-- The items of a list that are not done, up to the next delivery. Once the watch is stopped, the
    rest of the list is left. -/
def workOff (watch : Watch) (listing : Listing) : (pending : List Json) → Watch × List Effect
  | [] => watch.concludeListing plan { listing with pending := [] }
  | item :: pending =>
    let listing := listing.advance item pending
    let observed := { watch with known := watch.known.observe item }
    match watch.known.replaced? item with
    | some old =>
      ({ observed with phase := .delivering old item (.listing listing) }, [.deliver old item])
    | none => if watch.stopped then observed.rest else observed.workOff listing pending

/-- The answer to a list call. -/
def takeAnswer (watch : Watch) : Except Cause Json → Watch × List Effect
  | .error cause => watch.fail plan (cause.toError s!"list {plan.target.describe}")
  | .ok answer =>
    match Listing.ofAnswer answer with
    | .error defect => watch.finish plan (.broken defect)
    | .ok listing => watch.workOff plan listing listing.pending

/-- The stream is left, with some lines, and the cycle comes to an end. -/
def leave (watch : Watch) (lines : List Line)
    (conclusion : Watch → Watch × List Effect) : Watch × List Effect :=
  let (after, effects) := conclusion watch
  (after, lines.map .log ++ .closeStream watch.streams :: effects)

/-- The version to resume from has expired: the next cycle starts with a list. -/
def expire (watch : Watch) : Watch × List Effect :=
  { watch with known := { watch.known with version := .null } }.leave
    [expiryLine plan.target] rest

/-- The stream brings nothing to deliver. The next item is waited for, unless the watch is
    stopped. -/
def stayOrLeave (watch : Watch) (lines : List Line) : Watch × List Effect :=
  if watch.stopped then watch.leave lines rest
  else ({ watch with phase := .streaming }, lines.map .log)

/-- An event of the stream. -/
def takeEvent (watch : Watch) (event : Json) : Watch × List Effect :=
  match watch.known.meaning plan.target event with
  | .learned known lines => { watch with known }.stayOrLeave lines
  | .updated known old new =>
    ({ watch with known, phase := .delivering old new .streaming }, [.deliver old new])
  | .expired => watch.expire plan
  | .failed error => watch.leave [] (·.fail plan error)
  | .defective defect => watch.leave [] (·.finish plan (.broken defect))

/-- An item of the stream. -/
def takeItem (watch : Watch) : Item → Watch × List Effect
  | .event event => watch.takeEvent plan event
  | .failed cause =>
    let error := cause.toError s!"watch {plan.target.describe}"
    if error.isExpired then watch.expire plan else watch.leave [] (·.fail plan error)
  | .ended => watch.leave [streamEndLine plan.target] rest
  | .stopped => watch.leave [] rest

/-- The cycle goes on after a delivery. While a list is worked off no stream is open. -/
def resume (watch : Watch) (lines : List Line) : Continuation → Watch × List Effect
  | .streaming => watch.stayOrLeave lines
  | .listing listing =>
    let (after, effects) :=
      if watch.stopped then watch.rest else watch.workOff plan listing listing.pending
    (after, lines.map .log ++ effects)

/-- The watch is to end. Only the first call has an effect; what is in the queue stays there. -/
def stop (watch : Watch) : Watch × List Effect :=
  if watch.stopped then (watch, [])
  else
    ({ watch with stopped := true, queue := watch.queue ++ [.stopped] },
      (if watch.streams = 0 then [] else [.closeStream watch.streams]) ++
        [.log (stopLine plan.target)])

/-- An item of a stream. One that has been left is not listened to, and once the watch is stopped
    its last stream brings no more events. -/
def post (watch : Watch) (stream : Nat) (item : Item) : Watch :=
  if stream ≠ watch.streams then watch
  else
    let item :=
      match item with
      | .event event => if watch.stopped then .ended else .event event
      | item => item
    { watch with queue := watch.queue ++ [item] }

/-- What a move does. A move that the watch does not wait for does nothing. -/
def step (watch : Watch) (move : Move) : Watch × List Effect :=
  match move, watch.phase with
  | .stop, _ => watch.stop plan
  | .post stream item, _ => (watch.post stream item, [])
  | .proceed, .ready => if watch.stopped then watch.finish plan .stopped else watch.startCycle
  | .listed outcome, .listing => watch.takeAnswer plan outcome
  | .take, .streaming =>
    match watch.queue with
    | [] => (watch, [])
    | item :: queue => { watch with queue }.takeItem plan item
  | .handled failure, .delivering _ _ next =>
    watch.resume plan (failure.toList.map (handlerLine plan.target)) next
  | .slept, .sleeping => watch.startCycle
  | _, _ => (watch, [])

/-- Whatever a watch waits for, it can be stopped, and stays stopped. -/
theorem stopped_stop (watch : Watch) : (watch.stop plan).1.stopped = true := by
  unfold stop
  split <;> simp_all

/-- Stopping a watch again does nothing. -/
theorem stop_of_stopped (watch : Watch) (stopped : watch.stopped = true) :
    watch.stop plan = (watch, []) := by
  simp [stop, stopped]

end Watch

end GameSidecar
