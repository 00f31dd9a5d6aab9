import GameSidecar.Failure
import GameSidecar.Log
import GameSidecar.Record

/-!
# What a watch knows

A watch keeps the record last observed under each name and the version from which it resumes. An
event or a list adds to that, and asks for a delivery where a known record has changed. What the
API server sends is not trusted to have any shape: an event can also ask for a new list, stand for
a failure, or make the watch break off.
-/

namespace GameSidecar.Watch

/-- What makes a watch break off. -/
inductive Defect
  /-- A map was needed. -/
  | notMap
  /-- A list was needed. -/
  | notList
  /-- A plain value was needed, to compare it. -/
  | notPlain
  deriving Repr, DecidableEq

/-- The version from which a watch resumes, null if it has to list first, and the records last
    observed, by name. -/
structure Known where
  version : Json := .null
  records : OrderedMap String Json := []
  deriving Repr, DecidableEq, Inhabited

namespace Known

/-- The record last observed under a name. A null counts as none. -/
def record? (known : Known) (name : String) : Option Json :=
  (known.records.get? name).filter fun record => !record.isNull

/-- A record is observed under its name. -/
def observe (known : Known) (record : Json) : Known :=
  { known with records := known.records.insert (Record.name record) record }

/-- A record is known no more. -/
def forget (known : Known) (name : String) : Known :=
  { known with records := known.records.erase name }

/-- The records of some names only. -/
def restrict (known : Known) (names : List String) : Known :=
  { known with records := known.records.filter fun entry => names.contains entry.1 }

/-- The version of an observed record becomes the one to resume from, if it is a text and not
    empty. -/
def advance (known : Known) (record : Json) : Known :=
  match Record.version? record with
  | none => known
  | some version => if version.isEmpty then known else { known with version := .string version }

end Known

/-- What an event means for a watch. -/
inductive Meaning
  /-- There is no more to do. -/
  | learned (known : Known) (lines : List Line)
  /-- A known record has changed. -/
  | updated (known : Known) (old new : Json)
  /-- The version to resume from has expired. -/
  | expired
  /-- The API server reports an error. -/
  | failed (error : StoreError)
  /-- Nothing can be made of it. -/
  | defective (defect : Defect)
  deriving Repr

/-- The members of an error that an event reports; none if it has no members. -/
def errorMembers (event : List (String × Json)) : List (String × Json) :=
  let raw := (Json.memberOrNull event "raw_object").orElse (Json.memberOrNull event "object")
  raw.members?.getD []

/-- Whether a value can be compared with the known codes. -/
def isPlain : Json → Bool
  | .array _ | .object _ => false
  | _ => true

/-- What an error event means, by the code of the error. -/
def errorMeaning (target : Target) (event : List (String × Json)) : Meaning :=
  let members := errorMembers event
  let code := Json.memberOrNull members "code"
  if code.equalsInt 410 then .expired
  else if !isPlain code then .defective .notPlain
  else
    .failed (.ofStatus s!"watch {target.describe} returned error: {(Json.object members).quoted}"
      code (Json.memberOrNull members "reason"))

namespace Known

/-- What an event with a record means, by its type. -/
def recordMeaning (known : Known) (target : Target) (type record : Json) : Meaning :=
  let known := known.advance record
  let name := Record.name record
  if type = .string "BOOKMARK" then .learned known []
  else if type = .string "DELETED" then
    .learned (known.forget name)
      [.info s!"[WATCH] {target.kind.name} {target.namespaceName}/{name} deleted"]
  else
    match known.record? name with
    | none => .learned (known.observe record) []
    | some old =>
      if type = .string "MODIFIED" then .updated (known.observe record) old record
      else .learned (known.observe record) []

/-- What an event means. -/
def meaning (known : Known) (target : Target) : Json → Meaning
  | .object event =>
    let type := Json.memberOrNull event "type"
    if type = .string "ERROR" then errorMeaning target event
    else
      match Json.memberOrNull event "object" with
      | .object members => known.recordMeaning target type (.object members)
      | _ =>
        .learned known [.warning
          s!"[WATCH] Dropping {type.plain} event without an object for {target.describe}"]
  | _ => .defective .notMap

end Known

/-- A list that is being worked through: the names of the items that are done, the items that are
    not, how many there were, and the rest of the answer. -/
structure Listing where
  seen : List String
  pending : List Json
  count : Nat
  answer : List (String × Json)
  deriving Repr, DecidableEq

namespace Listing

/-- The items of an answer. A text counts as its characters, a map as its names. -/
def items (value : Json) : Except Defect (List Json) :=
  if value.isVoid then .ok []
  else
    match value with
    | .array items => .ok items
    | .string text => .ok (text.toList.map fun character => .string (String.singleton character))
    | .object members => .ok (members.map fun member => .string member.1)
    | _ => .error .notList

/-- The list that an answer holds. -/
def ofAnswer : Json → Except Defect Listing
  | .object answer => do
    let items ← items (Json.memberOrNull answer "items")
    pure ⟨[], items, items.length, answer⟩
  | _ => .error .notMap

/-- The list after its next item. -/
def advance (listing : Listing) (item : Json) (rest : List Json) : Listing :=
  { listing with seen := Record.name item :: listing.seen, pending := rest }

/-- The version of a list, or the defect of its metadata. -/
def version (listing : Listing) : Except Defect Json :=
  match (Json.memberOrNull listing.answer "metadata").orElse (.object []) with
  | .object members => .ok (Json.memberOrNull members "resourceVersion")
  | _ => .error .notMap

end Listing

namespace Known

/-- The known record that an item of a list replaces, if the versions of the two differ. -/
def replaced? (known : Known) (item : Json) : Option Json :=
  (known.record? (Record.name item)).filter fun old =>
    Record.version? old ≠ Record.version? item

/-- What is known after a list has been worked through, and the defect of the list if it has one:
    records that it does not hold are known no more. -/
def conclude (known : Known) (listing : Listing) : Known × Option Defect :=
  let known := known.restrict listing.seen
  match listing.version with
  | .ok version => ({ known with version }, none)
  | .error defect => (known, some defect)

end Known

end GameSidecar.Watch
