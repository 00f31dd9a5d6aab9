import GameSidecar.Proofs.Observation
import GameSidecar.Proofs.ReferenceCache
import Mathlib.Data.List.Infix

/-!
# A server that keeps a log

The API server is seen as a log of changes. Every change shows an object with a version of its
own, and the log has a version before its first change. A list gives the version of some end of
the log; a stream that is opened after a version brings the changes behind it, one after the
other, and then breaks off for a passing reason. What an answer or a broken stream brings apart
from that is left open.

A run is served by a log if every move of it is one that such a server can make. The end of the log
that a list gives may be any, since the log may have been shorter at that time.
-/

namespace GameSidecar.Watch

/-- A change: an event about an object that has a version. -/
structure Change where
  event : Json
  notice : Notice
  version : String
  given : Notice.ofEvent? event = some notice
  versioned : Record.version? notice.record = some version
  nonEmpty : version ≠ ""

namespace Change

/-- The object of a change. -/
def object (change : Change) : Json :=
  change.notice.record

/-- A change as its stream brings it. -/
def item (change : Change) : Item :=
  .event change.event

end Change

/-- A log of changes, with the version before the first one. No version occurs twice. -/
structure ChangeLog where
  origin : String
  changes : List Change
  distinct : (origin :: changes.map Change.version).Nodup

/-- The code of an error that an event reports. -/
def errorCode (event : Json) : Json :=
  Json.memberOrNull (errorMembers (event.members?.getD [])) "code"

/-- Whether an event reports an error. -/
def reportsError : Json → Bool
  | .object event => Json.memberOrNull event "type" = .string "ERROR"
  | _ => false

/-- A stream breaks off for a passing reason: it ends, it fails and may be opened again, or it
    reports an error after which the same call may succeed. -/
def Item.Passing (plan : Plan) : Item → Prop
  | .event sent => reportsError sent ∧ StoreError.passes (errorCode sent)
  | .failed cause =>
    let error := cause.toError s!"watch {plan.target.describe}"
    error.retryable ∧ ¬error.isExpired
  | .ended | .stopped => True

instance (plan : Plan) : (item : Item) → Decidable (item.Passing plan)
  | .event _ | .failed _ => inferInstanceAs (Decidable (_ ∧ _))
  | .ended | .stopped => inferInstanceAs (Decidable True)

/-- Whether an item is the last one of its stream that counts. -/
def Item.breaksOff : Item → Bool
  | .event sent => reportsError sent
  | _ => true

/-- What the newest stream is about to bring: the changes behind a position in the log, or
    anything, once it has broken off. -/
structure Feed where
  position : Nat := 0
  broken : Bool := false
  deriving Repr, DecidableEq

/-- What a watch asks the API server for. -/
inductive Call
  | list
  | stream (since : Json)
  deriving Repr, DecidableEq

/-- The calls of the API server among the effects of a watch. -/
def calls (effects : List Effect) : List Call :=
  effects.filterMap fun effect =>
    match effect with
    | .list => some .list
    | .openStream _ since => some (.stream since)
    | _ => none

@[simp] theorem calls_nil : calls [] = [] := rfl

/-- Calls come in the order of the effects. -/
@[simp] theorem calls_append (front back : List Effect) :
    calls (front ++ back) = calls front ++ calls back :=
  List.filterMap_append

/-- Log lines are no calls. -/
@[simp] theorem calls_lines (lines : List Line) : calls (lines.map .log) = [] := by
  simp [calls]

namespace ChangeLog

variable (log : ChangeLog)

/-- All versions of a log. A change comes behind the version in its place. -/
def versions : List String :=
  log.origin :: log.changes.map Change.version

/-- The version of the log when some first changes have been made. -/
def versionAfter (front : List Change) : String :=
  (front.getLast?.map Change.version).getD log.origin

/-- How many changes come up to a version. -/
def positionOf : Json → Nat
  | .string version => log.versions.idxOf version
  | _ => log.changes.length

/-- The objects of the changes behind a version. -/
def objectsAfter (version : String) : List Json :=
  (log.changes.drop (log.positionOf (.string version))).map Change.object

/-- A version of the log is found where it belongs, because none occurs twice. -/
theorem positionOf_versionAfter {front back : List Change}
    (split : log.changes = front ++ back) :
    log.positionOf (.string (log.versionAfter front)) = front.length := by
  rcases front.eq_nil_or_concat with rfl | ⟨earlier, change, rfl⟩
  · simp [positionOf, versions, versionAfter]
  · rw [List.concat_eq_append] at split ⊢
    have distinct := log.distinct
    have all : log.versions =
        (log.origin :: earlier.map Change.version) ++
          change.version :: back.map Change.version := by
      simp [versions, split]
    have fresh : change.version ∉ log.origin :: earlier.map Change.version := by
      rw [← versions, all] at distinct
      intro member
      exact (List.nodup_append.mp distinct).2.2 _ member _ (by simp) rfl
    have last : log.versionAfter (earlier ++ [change]) = change.version := by
      simp [versionAfter]
    rw [last, positionOf, all, List.idxOf_append_of_notMem fresh, List.idxOf_cons_self]
    simp

/-- Every version of the log is that of some first changes. -/
theorem exists_versionAfter {version : String} (member : version ∈ log.versions) :
    ∃ front back, log.changes = front ++ back ∧ version = log.versionAfter front := by
  rcases List.mem_cons.mp member with rfl | changed
  · exact ⟨[], log.changes, rfl, rfl⟩
  · obtain ⟨change, among, rfl⟩ := List.mem_map.mp changed
    obtain ⟨earlier, later, split⟩ := List.append_of_mem among
    exact ⟨earlier ++ [change], later, by simp [split], by simp [versionAfter]⟩

/-- The objects behind a version are those of the changes that have not been made with it. -/
theorem objectsAfter_versionAfter {front back : List Change}
    (split : log.changes = front ++ back) :
    log.objectsAfter (log.versionAfter front) = back.map Change.object := by
  rw [objectsAfter, log.positionOf_versionAfter split, split, List.drop_left]

end ChangeLog

/-- The version of the list that an answer holds, if it is a list and its version a text. -/
def listVersion? (answer : Json) : Option String :=
  match Listing.ofAnswer answer with
  | .ok listing =>
    match listing.version with
    | .ok (.string version) => some version
    | _ => none
  | .error _ => none

namespace Feed

variable (log : ChangeLog)

/-- What a feed is about to bring after an item of it. -/
def bring (feed : Feed) (item : Item) : Feed :=
  if feed.broken then feed
  else if item.breaksOff then { feed with broken := true }
  else { feed with position := feed.position + 1 }

/-- A new stream is fed from the position of the version after which it is opened. -/
def hear (feed : Feed) : List Call → Feed
  | [] => feed
  | .list :: rest => feed.hear rest
  | .stream since :: rest => Feed.hear ⟨log.positionOf since, false⟩ rest

end Feed

/-- A watch with the feed of its newest stream. -/
structure Connection where
  watch : Watch := {}
  feed : Feed := {}

namespace Connection

variable (plan : Plan) (log : ChangeLog)

/-- The feed after what a move brings. -/
def brought (connection : Connection) : Move → Feed
  | .post stream item =>
    if stream = connection.watch.streams then connection.feed.bring item else connection.feed
  | _ => connection.feed

/-- A move of the watch. The feed goes on with what the newest stream brings, and starts anew where
    another stream is opened. -/
def step (connection : Connection) (move : Move) : Connection × List Effect :=
  let (watch, effects) := connection.watch.step plan move
  (⟨watch, (connection.brought move).hear log (calls effects)⟩, effects)

/-- A move that the server can make. What the watch and its surroundings do on their own is not
    restricted. A list that succeeds has a version of the log, one that fails may be repeated. The
    newest stream brings the next change or breaks off; behind that, and on streams that have been
    left, anything may come. -/
def Allows (connection : Connection) : Move → Prop
  | .listed (.ok answer) => ∃ version ∈ log.versions, listVersion? answer = some version
  | .listed (.error cause) => (cause.toError s!"list {plan.target.describe}").retryable
  | .post stream item =>
    stream = connection.watch.streams → connection.feed.broken = false →
      (∃ change ∈ log.changes[connection.feed.position]?, item = change.item) ∨
        item.Passing plan
  | _ => True

instance (connection : Connection) :
    (move : Move) → Decidable (connection.Allows plan log move)
  | .listed (.ok _) => inferInstanceAs (Decidable (∃ version ∈ log.versions, _))
  | .listed (.error _) => inferInstanceAs (Decidable (_ = true))
  | .post _ _ => inferInstanceAs (Decidable (_ → _ → _ ∨ _))
  | .proceed | .take | .handled _ | .slept | .stop => inferInstanceAs (Decidable True)

/-- A watch with its feed after some moves, and all that it has asked for, in order. -/
abbrev run (connection : Connection) (moves : List Move) : Connection × List Effect :=
  Machine.run (step plan log) connection moves

/-- A run is served by a log if each of its moves is allowed when it is made. -/
def Served (connection : Connection) (moves : List Move) : Prop :=
  ∀ front move back, moves = front ++ move :: back →
    (connection.run plan log front).1.Allows plan log move

variable {plan log}

/-- The watch of a connection makes its own steps. -/
theorem watch_step (connection : Connection) (move : Move) :
    (connection.step plan log move).1.watch = (connection.watch.step plan move).1 := rfl

/-- The watch of a connection moves as it does without a server. -/
theorem watch_run (connection : Connection) (moves : List Move) :
    (connection.run plan log moves).1.watch = (connection.watch.run plan moves).1 := by
  induction moves generalizing connection with
  | nil => rfl
  | cons move moves inductionHypothesis =>
    simp only [Watch.run, run, Machine.run_cons] at inductionHypothesis ⊢
    exact inductionHypothesis _

/-- A run is served if its first move is allowed and the rest is served after it. -/
theorem served_cons {connection : Connection} {move : Move} {moves : List Move} :
    connection.Served plan log (move :: moves) ↔
      connection.Allows plan log move ∧
        (connection.step plan log move).1.Served plan log moves := by
  constructor
  · intro served
    refine ⟨served [] move moves rfl, ?_⟩
    intro front later back split
    exact served (move :: front) later back (by rw [split]; rfl)
  · rintro ⟨allowed, served⟩ front later back split
    cases front with
    | nil =>
      obtain ⟨rfl, -⟩ := List.cons.inj split
      exact allowed
    | cons first others =>
      obtain ⟨rfl, rest⟩ := List.cons.inj split
      exact served others later back rest

/-- Before the first move nothing has been served. -/
theorem served_nil (connection : Connection) : connection.Served plan log [] := by
  intro front move back split
  simp at split

instance decidableServed (connection : Connection) :
    (moves : List Move) → Decidable (connection.Served plan log moves)
  | [] => isTrue (served_nil connection)
  | move :: moves =>
    have := decidableServed (connection.step plan log move).1 moves
    decidable_of_iff' _ served_cons

/-- The first part of a run that is served is served as well. -/
theorem Served.front {connection : Connection} {front back : List Move}
    (served : connection.Served plan log (front ++ back)) : connection.Served plan log front := by
  intro earlier move later split
  exact served earlier move (later ++ back) (by simp [split])

end Connection
end GameSidecar.Watch
