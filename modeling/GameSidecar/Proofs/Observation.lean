import GameSidecar.Proofs.Machine
import GameSidecar.Watch

/-!
# What a watch observes

A run of a watch is a list of moves. What the watch asks for during the run is known from its
effects. What it reads is told here: the events that it takes from its streams, and the items of
the lists that it works off, one by one. An item counts as read once it is not pending any more,
and a list counts as worked through when none is left.

Observations hold the values as they were sent. Nothing of what the watch makes of them is in
them, so that they can be given to another machine.
-/

namespace GameSidecar.Watch

/-- What a watch reads. -/
inductive Observation
  /-- An item of a list. -/
  | item (record : Json)
  /-- The end of a list, of which these were all items. -/
  | listed (items : List Json)
  /-- An event of a stream. -/
  | event (event : Json)
  deriving Repr, DecidableEq

/-- All items of the answer that a list is made of, whatever has been done of them. -/
def Listing.all (listing : Listing) : List Json :=
  (Listing.items (Json.memberOrNull listing.answer "items")).toOption.getD []

/-- What is read of the pending items of a list until the watch has come to another phase. A
    delivery leaves the items after it for later, and a watch that is stopped does not go on after
    an item. The end of the list is read only if all items are done. -/
def readOf (listing : Listing) (pending : List Json) (after : Watch) : List Observation :=
  match after.phase with
  | .delivering _ _ (.listing rest) =>
    (pending.take (pending.length - rest.pending.length)).map .item
  | _ =>
    if after.stopped && !pending.isEmpty then (pending.take 1).map .item
    else pending.map .item ++ [.listed listing.all]

variable (plan : Plan)

/-- What a watch reads during a move. -/
def reads (watch : Watch) (move : Move) : List Observation :=
  match move, watch.phase with
  | .take, .streaming =>
    match watch.queue with
    | .event event :: _ => [.event event]
    | _ => []
  | .listed (.ok answer), .listing =>
    match Listing.ofAnswer answer with
    | .ok listing => readOf listing listing.pending (watch.step plan move).1
    | .error _ => []
  | .handled _, .delivering _ _ (.listing listing) =>
    if watch.stopped then [] else readOf listing listing.pending (watch.step plan move).1
  | _, _ => []

/-- A watch after some moves, and all that it has asked for, in order. -/
abbrev run (watch : Watch) (moves : List Move) : Watch × List Effect :=
  Machine.run (step plan) watch moves

/-- All that a watch reads during some moves, in order. -/
abbrev observations (watch : Watch) (moves : List Move) : List Observation :=
  Machine.trace (step plan) (reads plan) watch moves

/-- The updates that are handed to the handler, in order. -/
def deliveries (effects : List Effect) : List (Json × Json) :=
  effects.filterMap fun effect =>
    match effect with
    | .deliver old new => some (old, new)
    | _ => none

@[simp] theorem deliveries_nil : deliveries [] = [] := rfl

/-- Updates are delivered in the order of the effects. -/
@[simp] theorem deliveries_append (front back : List Effect) :
    deliveries (front ++ back) = deliveries front ++ deliveries back :=
  List.filterMap_append

/-- Log lines deliver nothing. -/
@[simp] theorem deliveries_lines (lines : List Line) : deliveries (lines.map .log) = [] := by
  simp [deliveries]

end GameSidecar.Watch
