import GameSidecar.Proofs.Edge
import GameSidecar.Proofs.Handover
import GameSidecar.Proofs.Merging

/-!
# The sidecar writes its own fields only

Of the two records the sidecar owns four fields: health and state in the status of the game server,
and the players that are connected, with their number, in the specification of the detail record.
The allocator owns others in the same parts. It writes them while the game runs, and no heartbeat
may take them away.

The API server is given the patches that the sidecar sends. It may apply each of them at any time,
late, more than once or never, and the sidecar may be told anything about it. Others change the
records as they like, but for those four fields. Whatever happens, a patch that is applied leaves
all else as it was.
-/

namespace GameSidecar

namespace Kind

/-- The part of a record to which the sidecar writes. -/
def part : Kind → String
  | .gameServer => "status"
  | .gameServerDetail => "spec"

/-- The fields of this part that the sidecar owns. -/
def ownNames : Kind → List String
  | .gameServer => ["health", "state"]
  | .gameServerDetail => ["connectedPlayersCount", "connectedPlayers"]

end Kind

namespace Heartbeat

/-- The kind of record that shows an aspect. -/
def Aspect.kind : Aspect → Kind
  | .status => .gameServer
  | .players => .gameServerDetail

namespace Report

/-- The fields that show an aspect, with their values. -/
def fields (report : Report) : Aspect → List (String × Json)
  | .status => [("health", .string report.health), ("state", .string report.state.name)]
  | .players => [("connectedPlayersCount", .int report.players.length),
      ("connectedPlayers", .array (report.players.map .string))]

variable (report : Report) (aspect : Aspect)

/-- The body of a patch consists of the fields of an aspect, in the part that these belong to. -/
theorem body_eq : report.body aspect = Json.partPatch aspect.kind.part (report.fields aspect) := by
  cases aspect <;> rfl

/-- The fields of an aspect are those that the sidecar owns in records of its kind. -/
theorem keys_fields : OrderedMap.keys (report.fields aspect) = aspect.kind.ownNames := by
  cases aspect <;> rfl

/-- An aspect has at least one field. -/
theorem fields_ne_nil : report.fields aspect ≠ [] := by
  cases aspect <;> exact List.cons_ne_nil _ _

/-- The fields of an aspect hold no maps. -/
theorem fields_leaves : ∀ field ∈ report.fields aspect, field.2.isLeaf = true := by
  cases aspect <;> simp [fields, Json.isLeaf]

/-- The patch of an aspect is for the record of its kind. -/
theorem target_patch (namespaceName name : String) :
    (report.patch namespaceName name aspect).target = ⟨aspect.kind, namespaceName, name⟩ := by
  cases aspect <;> rfl

/-- The patch of an aspect has the body for that aspect. -/
theorem body_patch (namespaceName name : String) :
    (report.patch namespaceName name aspect).body = report.body aspect := by
  cases aspect <;> rfl

/-- A record shows an aspect of a report if its fields have the values of the report. -/
def IsIn (record : Json) : Prop :=
  ∀ field ∈ report.fields aspect, record.lookup [aspect.kind.part, field.1] = .found field.2

variable {report aspect} {record : Json}

/-- A record shows what has been merged into it. -/
theorem isIn_merge (fit : record.fits aspect.kind.part = true) :
    report.IsIn aspect (record.merge (report.body aspect)) := by
  obtain ⟨members, inner, rfl, held⟩ := Json.fits_iff.mp fit
  intro field among
  have placed (rest : List (String × Json)) :
      OrderedMap.get? (OrderedMap.insertAll rest (report.fields aspect)) field.1 =
        some field.2 := by
    rw [OrderedMap.get?_insertAll]
    cases aspect <;> rcases List.mem_pair.mp among with rfl | rfl <;> simp [fields]
  rw [body_eq, Json.merge_partPatch held (report.fields_leaves aspect)]
  exact (Json.lookup_field (by rw [OrderedMap.get?_insert, if_pos rfl])).mpr (placed _)

/-- A record that shows a report already is not changed by it. -/
theorem IsIn.merge_eq (shown : report.IsIn aspect record)
    (fit : record.fits aspect.kind.part = true) : record.merge (report.body aspect) = record := by
  rw [body_eq]
  exact Json.merge_eq_self fit (report.fields_ne_nil aspect) (report.fields_leaves aspect) shown

/-- A record that agrees with another one on the fields that the sidecar owns shows the same. -/
theorem IsIn.congr {other : Json} (shown : report.IsIn aspect record)
    (same : ∀ name ∈ aspect.kind.ownNames,
      other.lookup [aspect.kind.part, name] = record.lookup [aspect.kind.part, name]) :
    report.IsIn aspect other := by
  intro field among
  rw [← shown field among]
  exact same field.1 (report.keys_fields aspect ▸ List.mem_map_of_mem among)

end Report

end Heartbeat

namespace Sidecar

variable (plan : Watch.Plan)

/-- The patches that are sent, in order. -/
def patches (effects : List Effect) : List Api.Patch :=
  effects.filterMap fun effect =>
    match effect with
    | .send patch => some patch
    | _ => none

/-- The patches among some effects are those that are sent. -/
theorem mem_patches {effects : List Effect} {patch : Api.Patch} :
    patch ∈ patches effects ↔ .send patch ∈ effects := by
  constructor
  · intro sends
    obtain ⟨effect, among, same⟩ := List.mem_filterMap.mp sends
    cases effect <;> cases same
    exact among
  · exact fun among => List.mem_filterMap.mpr ⟨_, among, rfl⟩

/-- An action of the service sends no patch but that of an aspect. -/
theorem send_of_mem_serve {sidecar : Sidecar} {action : Heartbeat.Action} {patch : Api.Patch}
    (sends : .send patch ∈ sidecar.serve action) :
    ∃ turn aspect, patch = sidecar.patch turn aspect := by
  cases action with
  | log line => simp [serve] at sends
  | send turn aspect => exact ⟨turn, aspect, by simpa [serve] using sends⟩
  | finish turn result => simp [serve] at sends

/-- What the service does sends no patch but those of aspects. -/
theorem send_of_mem_adopt {sidecar : Sidecar} {served : Heartbeat.Service × List Heartbeat.Action}
    {patch : Api.Patch} (sends : .send patch ∈ (sidecar.adopt served).2) :
    ∃ turn aspect, patch = sidecar.patch turn aspect := by
  obtain ⟨action, -, served⟩ := List.mem_flatMap.mp sends
  exact send_of_mem_serve served

/-- Nothing is sent but patches of an aspect, for the records of the game server. -/
theorem send_of_mem_step {sidecar : Sidecar} {move : Move} {patch : Api.Patch}
    (sends : .send patch ∈ (sidecar.step plan move).2) :
    ∃ turn aspect, patch = sidecar.patch turn aspect := by
  cases move with
  | watch | review | read => simp [step, reconcile] at sends
  | heartbeat host request =>
    rw [step] at sends
    split at sends
    · simp at sends
    · obtain ⟨turn, aspect, same⟩ := send_of_mem_adopt sends
      exact ⟨turn, aspect, same⟩
  | patched outcome =>
    rw [step] at sends
    split at sends
    · cases sends
    · rcases List.mem_append.mp sends with line | adopted
      · simp at line
      · exact send_of_mem_adopt adopted

/-- No move changes the detail record that is read. -/
theorem companion_step (sidecar : Sidecar) (move : Move) :
    (sidecar.step plan move).1.reconciler.allocator.companion =
      sidecar.reconciler.allocator.companion := by
  cases move with
  | watch move => exact Reconciler.companion_step plan _ (.watch move)
  | review => exact Reconciler.companion_step plan _ .review
  | read outcome => exact Reconciler.companion_step plan _ (.read outcome)
  | heartbeat host request =>
    rw [step]
    split <;> rfl
  | patched outcome =>
    rw [step]
    split <;> rfl

end Sidecar

/-- The sidecar with the records on the API server, the patches that it has sent, and for each
    record the patch that was applied last. -/
structure Estate where
  sidecar : Sidecar
  records : Target → Option Json
  sent : List Api.Patch := []
  applied : Target → Option Api.Patch := fun _ => none

namespace Estate

/-- What happens to the sidecar and to the records. -/
inductive Move
  /-- A move of the sidecar. -/
  | sidecar (move : Sidecar.Move)
  /-- The API server applies a patch that was sent. -/
  | apply (patch : Api.Patch)
  /-- Somebody else writes a record. -/
  | change (target : Target) (record : Json)

/-- Whether a move is the sidecar's or comes of one of its patches. -/
def Move.isOurs : Move → Bool
  | .change _ _ => false
  | _ => true

/-- Whether a new record leaves the fields that the sidecar owns as they were. -/
def leavesOwn (kind : Kind) (before : Option Json) (record : Json) : Bool :=
  record.fits kind.part && before.all fun before => kind.ownNames.all fun name =>
    decide (record.lookup [kind.part, name] = before.lookup [kind.part, name])

variable (plan : Watch.Plan)

/-- What a move does. A patch that was not sent is none, nor is a change of the fields that the
    sidecar owns. -/
def step (estate : Estate) : Move → Estate × List Sidecar.Effect
  | .sidecar move =>
    let (sidecar, effects) := estate.sidecar.step plan move
    ({ estate with sidecar, sent := estate.sent ++ Sidecar.patches effects }, effects)
  | .apply patch =>
    match estate.records patch.target with
    | none => (estate, [])
    | some record =>
      if patch ∈ estate.sent then
        ({ estate with
          records := Function.update estate.records patch.target (some (record.merge patch.body))
          applied := Function.update estate.applied patch.target (some patch) }, [])
      else (estate, [])
  | .change target record =>
    if leavesOwn target.kind (estate.records target) record then
      ({ estate with records := Function.update estate.records target (some record) }, [])
    else (estate, [])

/-- The estate after some moves, and what the sidecar has asked for. -/
abbrev run (estate : Estate) (moves : List Move) : Estate × List Sidecar.Effect :=
  Machine.run (step plan) estate moves

/-- The estate when the watch of the sidecar has just been started. -/
def started (namespaceName name : String) (records : Target → Option Json) : Estate :=
  { sidecar := .started plan namespaceName name, records }

variable {plan} {namespaceName name : String}

/-- What is so in every estate of a game server: the sidecar is about this one and sends patches of
    an aspect only, the part that it writes to is a map or absent, and a record shows the patch that
    was applied to it last. -/
structure Kept (namespaceName name : String) (estate : Estate) : Prop where
  about : estate.sidecar.reconciler.allocator.companion =
    ⟨.gameServerDetail, namespaceName, name⟩
  sent : ∀ patch ∈ estate.sent, ∃ report : Heartbeat.Report, ∃ aspect : Heartbeat.Aspect,
    patch = report.patch namespaceName name aspect
  fits : ∀ kind record, estate.records ⟨kind, namespaceName, name⟩ = some record →
    record.fits kind.part = true
  shown : ∀ target patch, estate.applied target = some patch →
    ∃ report : Heartbeat.Report, ∃ aspect : Heartbeat.Aspect, ∃ record,
      target = ⟨aspect.kind, namespaceName, name⟩ ∧
      patch = report.patch namespaceName name aspect ∧
      estate.records target = some record ∧ report.IsIn aspect record

/-- A record is as it was but for the fields that the sidecar owns. -/
def Unchanged (kind : Kind) (record changed : Json) : Prop :=
  ∀ path, Json.Foreign kind.part kind.ownNames path → changed.lookup path = record.lookup path

/-- The records of the estate are as they were, but for the fields that the sidecar owns in the
    records of the game server. -/
structure Frames (namespaceName name : String) (before after : Estate) : Prop where
  others : ∀ target, (∀ kind, target ≠ ⟨kind, namespaceName, name⟩) →
    after.records target = before.records target
  own : ∀ kind, Option.Rel (Unchanged kind) (before.records ⟨kind, namespaceName, name⟩)
    (after.records ⟨kind, namespaceName, name⟩)

/-- A record that is unchanged twice is unchanged, and one that is missing stays so. -/
theorem Unchanged.trans {kind : Kind} {first second third : Option Json}
    (left : Option.Rel (Unchanged kind) first second)
    (right : Option.Rel (Unchanged kind) second third) :
    Option.Rel (Unchanged kind) first third := by
  cases left with
  | none => exact right
  | some same =>
    cases right with
    | some sameToo =>
      exact .some fun path foreign => (sameToo path foreign).trans (same path foreign)

/-- An estate as it was has changed nothing. -/
theorem Frames.refl (estate : Estate) : Frames namespaceName name estate estate where
  others _ _ := rfl
  own kind := by
    cases estate.records ⟨kind, namespaceName, name⟩ with
    | none => exact .none
    | some record => exact .some fun _ _ => rfl

/-- What is changed within bounds twice is changed within them. -/
theorem Frames.trans {first second third : Estate} (left : Frames namespaceName name first second)
    (right : Frames namespaceName name second third) : Frames namespaceName name first third where
  others target other := (right.others target other).trans (left.others target other)
  own kind := Unchanged.trans (left.own kind) (right.own kind)

/-- A patch that the sidecar sends leaves a record unchanged. -/
theorem unchanged_merge (report : Heartbeat.Report) (aspect : Heartbeat.Aspect) {record : Json}
    (fit : record.fits aspect.kind.part = true) :
    Unchanged aspect.kind record (record.merge (report.body aspect)) := by
  intro path foreign
  rw [report.body_eq]
  exact Json.lookup_merge_of_foreign fit (report.fields_ne_nil aspect) (report.fields_leaves aspect)
    (report.keys_fields aspect ▸ foreign)

section Steps

variable {estate : Estate} (kept : Kept namespaceName name estate)

include kept

/-- A move of the sidecar sends patches of an aspect only, and touches no record. -/
theorem Kept.step_sidecar (move : Sidecar.Move) :
    Kept namespaceName name (estate.step plan (.sidecar move)).1 where
  about := (Sidecar.companion_step plan estate.sidecar move).trans kept.about
  sent := by
    refine List.forall_mem_append.mpr ⟨kept.sent, fun patch member => ?_⟩
    obtain ⟨turn, aspect, rfl⟩ := Sidecar.send_of_mem_step plan (Sidecar.mem_patches.mp member)
    obtain ⟨-, about, named⟩ := Target.mk.inj kept.about
    exact ⟨turn.report, aspect, by rw [Sidecar.patch, about, named]⟩
  fits := kept.fits
  shown := kept.shown

/-- A patch that is applied is shown by its record. -/
theorem Kept.step_apply (patch : Api.Patch) :
    Kept namespaceName name (estate.step plan (.apply patch)).1 := by
  rw [step]
  split
  · exact kept
  · next record held =>
    split
    · next sent =>
      obtain ⟨report, aspect, rfl⟩ := kept.sent patch sent
      rw [report.target_patch] at held ⊢
      rw [report.body_patch]
      have fit := kept.fits _ _ held
      refine ⟨kept.about, kept.sent, ?_, ?_⟩
      · intro kind other here
        dsimp only at here
        by_cases same : kind = aspect.kind
        · subst same
          rw [Function.update_self] at here
          obtain rfl := Option.some.inj here
          rw [report.body_eq]
          exact Json.fits_merge fit (report.fields_leaves aspect)
        · rw [Function.update_of_ne (by simpa using same)] at here
          exact kept.fits kind other here
      · intro target last applied
        dsimp only at applied ⊢
        by_cases same : target = ⟨aspect.kind, namespaceName, name⟩
        · subst same
          rw [Function.update_self] at applied ⊢
          obtain rfl := Option.some.inj applied
          exact ⟨report, aspect, _, rfl, rfl, rfl, Heartbeat.Report.isIn_merge fit⟩
        · rw [Function.update_of_ne same] at applied ⊢
          exact kept.shown target last applied
    · exact kept

/-- A record that others change may be anything that has the part to be written to. -/
theorem Kept.step_change (target : Target) (record : Json) :
    Kept namespaceName name (estate.step plan (.change target record)).1 := by
  rw [step]
  split
  · next leaves =>
    obtain ⟨fit, agrees⟩ := Bool.and_eq_true_iff.mp leaves
    refine ⟨kept.about, kept.sent, ?_, ?_⟩
    · intro kind other here
      dsimp only at here
      by_cases same : (⟨kind, namespaceName, name⟩ : Target) = target
      · subst same
        rw [Function.update_self] at here
        exact Option.some.inj here ▸ fit
      · rw [Function.update_of_ne same] at here
        exact kept.fits kind other here
    · intro asked last applied
      dsimp only
      obtain ⟨report, aspect, other, rfl, rfl, here, shown⟩ := kept.shown asked last applied
      by_cases same : (⟨aspect.kind, namespaceName, name⟩ : Target) = target
      · subst same
        rw [Function.update_self]
        rw [here, Option.all_some, List.all_eq_true] at agrees
        exact ⟨report, aspect, record, rfl, rfl, rfl,
          shown.congr fun owned member => of_decide_eq_true (agrees owned member)⟩
      · rw [Function.update_of_ne same]
        exact ⟨report, aspect, other, rfl, rfl, here, shown⟩
  · exact kept

/-- Every move keeps what is so in an estate. -/
theorem Kept.step (move : Move) : Kept namespaceName name (estate.step plan move).1 := by
  cases move with
  | sidecar move => exact kept.step_sidecar move
  | apply patch => exact kept.step_apply patch
  | change target record => exact kept.step_change target record

/-- The moves of the sidecar and of its patches change the fields that it owns only. -/
theorem Kept.frames {move : Move} (ours : move.isOurs = true) :
    Frames namespaceName name estate (estate.step plan move).1 := by
  cases move with
  | change => cases ours
  | sidecar move => exact ⟨fun _ _ => rfl, (Frames.refl estate).own⟩
  | apply patch =>
    rw [Estate.step]
    split
    · exact .refl estate
    · next record held =>
      split
      · next sent =>
        obtain ⟨report, aspect, rfl⟩ := kept.sent patch sent
        rw [report.target_patch] at held ⊢
        rw [report.body_patch]
        refine ⟨fun target other => Function.update_of_ne (other _) .., fun kind => ?_⟩
        dsimp only
        by_cases same : kind = aspect.kind
        · subst same
          rw [Function.update_self, held]
          exact .some (unchanged_merge report aspect (kept.fits _ _ held))
        · rw [Function.update_of_ne (by simpa using same)]
          exact (Frames.refl estate).own kind
      · exact .refl estate

end Steps

/-- An estate of a game server whose records have a map in their part, or nothing, starts well. -/
theorem kept_started {records : Target → Option Json}
    (fit : ∀ kind record, records ⟨kind, namespaceName, name⟩ = some record →
      record.fits kind.part = true) :
    Kept namespaceName name (started plan namespaceName name records) where
  about := rfl
  sent := List.forall_mem_nil _
  fits := fit
  shown _ _ applied := by cases applied

/-- What is so in an estate is kept over a run. -/
theorem Kept.run {estate : Estate} (kept : Kept namespaceName name estate) (moves : List Move) :
    Kept namespaceName name (estate.run plan moves).1 :=
  Machine.run_keeps (Estate.step plan) (Kept namespaceName name) (fun _ => True)
    (fun _ move _ kept => kept.step move) estate moves (fun _ _ => trivial) kept

/-- In a run without the moves of others only the fields are changed that the sidecar owns. -/
theorem Kept.frames_run {estate : Estate} (kept : Kept namespaceName name estate)
    {moves : List Move} (ours : ∀ move ∈ moves, move.isOurs = true) :
    Frames namespaceName name estate (estate.run plan moves).1 := by
  have both := Machine.run_keeps (Estate.step plan)
    (fun later => Kept namespaceName name later ∧ Frames namespaceName name estate later)
    (fun move => move.isOurs = true)
    (fun later move ours reached => ⟨reached.1.step move, reached.2.trans (reached.1.frames ours)⟩)
    estate moves ours ⟨kept, .refl estate⟩
  exact both.2

section Sessions

variable {record changed : Json}

/-- What the allocator writes is none of the sidecar's. -/
theorem Unchanged.sessionId {kind : Kind} (same : Unchanged kind record changed) :
    Record.sessionId changed = Record.sessionId record := by
  have foreign : Json.Foreign kind.part kind.ownNames ["status", "sessionID"] := by
    cases kind <;> decide
  rw [Record.sessionId, Json.lookupString, same _ foreign]
  rfl

/-- The cookie of the session is none of the fields that the sidecar owns. -/
theorem Unchanged.sessionCookie {kind : Kind} (same : Unchanged kind record changed) :
    Record.sessionCookie changed = Record.sessionCookie record := by
  have foreign : Json.Foreign kind.part kind.ownNames ["status", "sessionCookie"] := by
    cases kind <;> decide
  rw [Record.sessionCookie, Json.lookupString, same _ foreign]
  rfl

/-- The initial players are none of the fields that the sidecar owns. -/
theorem Unchanged.initialPlayers {kind : Kind} (same : Unchanged kind record changed) :
    Record.initialPlayers changed = Record.initialPlayers record := by
  have foreign : Json.Foreign kind.part kind.ownNames ["spec", "initialPlayers"] := by
    cases kind <;> decide
  rw [Record.initialPlayers, Json.lookupStrings, same _ foreign]
  rfl

end Sessions

/-- Players that are shown are as many as the number beside them says. -/
theorem players_counted {record : Json} {report : Heartbeat.Report} {aspect : Heartbeat.Aspect}
    (shown : report.IsIn aspect record) (detail : aspect.kind = .gameServerDetail) :
    ∃ players : List Json,
      record.lookup ["spec", "connectedPlayersCount"] = .found (.int players.length) ∧
      record.lookup ["spec", "connectedPlayers"] = .found (.array players) := by
  cases aspect with
  | status => cases detail
  | players =>
    refine ⟨report.players.map .string, ?_, shown _ (.tail _ (.head _))⟩
    rw [List.length_map]
    exact shown _ (.head _)

/-- The sidecar writes its own four fields only. Let the records of a game server be such that the
    part in question is a map or absent. Whatever has happened, the patches that are applied from
    then on leave every other field as it is, the session and its players among them, and every
    other record. A record that a patch was applied to stays as it is if the last such patch is
    applied again, and if it shows players then with their number. -/
theorem writes_own_fields_only (plan : Watch.Plan) (namespaceName name : String)
    (records : Target → Option Json)
    (fit : ∀ kind record, records ⟨kind, namespaceName, name⟩ = some record →
      record.fits kind.part = true)
    (front stretch : List Move) (ours : ∀ move ∈ stretch, move.isOurs = true) :
    let start := started plan namespaceName name records
    let before := (start.run plan front).1
    let after := (start.run plan (front ++ stretch)).1
    Frames namespaceName name before after ∧
      (∀ kind record changed, before.records ⟨kind, namespaceName, name⟩ = some record →
        after.records ⟨kind, namespaceName, name⟩ = some changed →
          changed.fits kind.part = true ∧ Record.sessionId changed = Record.sessionId record ∧
            Record.sessionCookie changed = Record.sessionCookie record ∧
            Record.initialPlayers changed = Record.initialPlayers record) ∧
      ∀ kind patch, after.applied ⟨kind, namespaceName, name⟩ = some patch →
        ∃ record, after.records ⟨kind, namespaceName, name⟩ = some record ∧
          record.merge patch.body = record ∧
          (kind = .gameServerDetail → ∃ players : List Json,
            record.lookup ["spec", "connectedPlayersCount"] = .found (.int players.length) ∧
            record.lookup ["spec", "connectedPlayers"] = .found (.array players)) := by
  intro start before after
  have keptBefore : Kept namespaceName name before := (kept_started fit).run front
  have keptAfter : Kept namespaceName name after := (kept_started fit).run (front ++ stretch)
  have frames : Frames namespaceName name before after := by
    have split : after = (before.run plan stretch).1 := by
      rw [show after = (start.run plan (front ++ stretch)).1 from rfl, Estate.run,
        Machine.run_append]
    rw [split]
    exact keptBefore.frames_run ours
  refine ⟨frames, ?_, ?_⟩
  · intro kind record changed held heldNow
    have own := frames.own kind
    rw [held, heldNow] at own
    cases own with
    | some same =>
      exact ⟨keptAfter.fits kind changed heldNow, same.sessionId, same.sessionCookie,
        same.initialPlayers⟩
  · intro kind patch applied
    obtain ⟨report, aspect, record, target, rfl, held, shown⟩ := keptAfter.shown _ patch applied
    obtain ⟨rfl, -⟩ := Target.mk.inj target
    refine ⟨record, held, ?_, players_counted shown⟩
    rw [report.body_patch]
    exact shown.merge_eq (keptAfter.fits _ record held)

/-- A heartbeat of an active game with two players. -/
def sampleHeartbeat : Endpoint.Request :=
  ⟨"POST", "/v1/sessionHosts/gs", "",
    ("\x7b\"currentGameState\":\"Active\",\"currentGameHealth\":\"Healthy\"," ++
      "\"currentPlayers\":[\x7b\"playerId\":\"ann\"\x7d,\x7b\"playerId\":\"ben\"\x7d]\x7d").toUTF8⟩

/-- The records of a game server before its first heartbeat, without a status. -/
def sampleRecords (target : Target) : Option Json :=
  if target = ⟨.gameServer, "default", "gs"⟩ then some (.object [("metadata", .object [])])
  else if target = ⟨.gameServerDetail, "default", "gs"⟩ then
    some (.object [("spec", .object [("initialPlayers", .array [.string "ann"])])])
  else none

/-- The session is written after the status was sent and before it is applied. Both patches are
    applied, and the second one is reported as failed. -/
theorem writes_own_fields_only_beside_allocation :
    let plan : Watch.Plan := ⟨⟨.gameServer, "default", "gs"⟩, none⟩
    let report : Heartbeat.Report := ⟨.active, "Healthy", ["ann", "ben"]⟩
    let allocated : Json := .object [("status", .object [("sessionID", .string "s")])]
    let front : List Move := [.sidecar (.heartbeat "gs" sampleHeartbeat),
      .change ⟨.gameServer, "default", "gs"⟩ allocated]
    let stretch : List Move := [.apply (report.patch "default" "gs" .status),
      .sidecar (.patched (.ok ())), .apply (report.patch "default" "gs" .players),
      .sidecar (.patched (.error (.other "TimeoutError" "timed out")))]
    let after := ((started plan "default" "gs" sampleRecords).run plan (front ++ stretch)).1
    (∀ move ∈ stretch, move.isOurs = true) ∧
      (∃ record, after.records ⟨.gameServer, "default", "gs"⟩ = some record ∧
        Record.sessionId record = .found "s" ∧ Record.health record = .found "Healthy") ∧
      ∃ record, after.records ⟨.gameServerDetail, "default", "gs"⟩ = some record ∧
        record.merge (report.body .players) = record ∧ ∃ players : List Json,
          record.lookup ["spec", "connectedPlayersCount"] = .found (.int players.length) ∧
          record.lookup ["spec", "connectedPlayers"] = .found (.array players) := by
  intro plan report allocated front stretch after
  have ours : ∀ move ∈ stretch, move.isOurs = true := by decide
  have fit : ∀ kind record, sampleRecords ⟨kind, "default", "gs"⟩ = some record →
      record.fits kind.part = true := by
    intro kind record held
    cases kind <;> exact Option.some.inj held ▸ rfl
  obtain ⟨before, shown, last⟩ : ((started plan "default" "gs" sampleRecords).run plan
        front).1.records ⟨.gameServer, "default", "gs"⟩ = some allocated ∧
      after.records ⟨.gameServer, "default", "gs"⟩ =
        some (allocated.merge (report.body .status)) ∧
      after.applied ⟨.gameServerDetail, "default", "gs"⟩ =
        some (report.patch "default" "gs" .players) := by
    decide +kernel
  obtain ⟨-, session, applied⟩ :=
    writes_own_fields_only plan "default" "gs" sampleRecords fit front stretch ours
  obtain ⟨-, kept, -, -⟩ := session _ _ _ before shown
  obtain ⟨record, held, same, counted⟩ := applied _ _ last
  exact ⟨ours, ⟨_, shown, kept, by decide⟩, record, held, same, counted rfl⟩

end Estate

end GameSidecar
