import GameSidecar.Json.MergePatch
import GameSidecar.Proofs.Tracking

/-!
# Patches whose acknowledgement is lost

The status of the game server is to show the health and the state of the last heartbeat. The
service is told how each of its patches ends, and what it is told can be wrong in one way: a patch
may be applied and still be reported as failed, if the connection breaks before the answer comes.

The service remembers what was acknowledged last; the record shows what was applied last. The two
part where a patch is applied and not acknowledged, and they come together with the next status
that is acknowledged. In between, a heartbeat that returns to what is remembered sends nothing. It
is answered as a success, and the record shows what the lost patch carried. This module says that
there is no other such case.
-/

namespace GameSidecar.Heartbeat

/-- What becomes of a patch, as the API server has it and as the service is told. -/
inductive Fate
  /-- It is applied, and this is acknowledged. -/
  | acknowledged
  /-- It is not applied, and it is reported as failed. -/
  | lost (error : StoreError)
  /-- It is applied, and it is reported as failed. -/
  | unheard (error : StoreError)

namespace Fate

/-- What the service is told. -/
def answer : Fate → Except StoreError Unit
  | .acknowledged => .ok ()
  | .lost error | .unheard error => .error error

/-- Whether the patch is applied. -/
def applied : Fate → Bool
  | .acknowledged | .unheard _ => true
  | .lost _ => false

end Fate

/-- A heartbeat, with the fate of each of its patches if it is sent. -/
structure Attempt where
  turn : Turn
  fate : Aspect → Fate

/-- A status that is sent to the API server, with its fate. -/
structure Write where
  report : Report
  fate : Fate

namespace Attempt

/-- A heartbeat as the service sees it. -/
def beat (attempt : Attempt) : Beat :=
  ⟨attempt.turn, fun aspect => (attempt.fate aspect).answer⟩

/-- The status that some actions of a heartbeat send, if they do. The players are kept in another
    record. -/
def writes (attempt : Attempt) (actions : List Action) : List Write :=
  (sent actions).filterMap fun patch =>
    match patch.2 with
    | .status => some ⟨patch.1.report, attempt.fate .status⟩
    | .players => none

end Attempt

/-- The record after a status was sent to it. -/
def Write.on (record : Json) (write : Write) : Json :=
  if write.fate.applied then record.merge (write.report.body .status) else record

/-- A record shows the health and the state of a report. -/
structure Shows (record : Json) (report : Report) : Prop where
  health : Record.health record = .found report.health
  state : Record.state record = .found report.state.name

instance (record : Json) (report : Report) : Decidable (Shows record report) :=
  decidable_of_iff (Record.health record = .found report.health ∧
    Record.state record = .found report.state.name)
    ⟨fun both => ⟨both.1, both.2⟩, fun shows => ⟨shows.health, shows.state⟩⟩

/-- The service, with the record of the game server on the API server. -/
structure Mirror where
  service : Service := {}
  record : Json

namespace Mirror

/-- What happens to the service and to the record. -/
inductive Move
  /-- A heartbeat comes and is handled to its end. -/
  | heartbeat (attempt : Attempt)
  /-- Somebody else changes the record. -/
  | change (record : Json)

/-- What a move does. Nobody else changes health or state, so that a change of them is none. -/
def step (mirror : Mirror) : Move → Mirror × List Action
  | .heartbeat attempt =>
    let (service, actions) := mirror.service.handle attempt.beat
    (⟨service, (attempt.writes actions).foldl Write.on mirror.record⟩, actions)
  | .change record =>
    if Record.health record = Record.health mirror.record ∧
        Record.state record = Record.state mirror.record then
      ({ mirror with record }, [])
    else (mirror, [])

/-- The service and the record after some moves, and what the service has done. -/
abbrev run (mirror : Mirror) (moves : List Move) : Mirror × List Action :=
  Machine.run step mirror moves

/-- The statuses that a move sends. -/
def writes (mirror : Mirror) : Move → List Write
  | .heartbeat attempt => attempt.writes (mirror.step (.heartbeat attempt)).2
  | .change _ => []

/-- The statuses that some moves send, in order. -/
abbrev allWrites (mirror : Mirror) (moves : List Move) : List Write :=
  Machine.trace step writes mirror moves

end Mirror

/-- The status that was applied last, if it has been neither acknowledged nor followed by one that
    was, after what was so before. -/
def adriftFrom (before : Option Report) : List Write → Option Report
  | [] => before
  | ⟨_, .acknowledged⟩ :: rest => adriftFrom none rest
  | ⟨_, .lost _⟩ :: rest => adriftFrom before rest
  | ⟨report, .unheard _⟩ :: rest => adriftFrom (some report) rest

/-- The status that the record shows and the service has not heard of. -/
def adrift (writes : List Write) : Option Report :=
  adriftFrom none writes

/-- What is adrift after some writes is found from what was adrift before them. -/
theorem adriftFrom_append (before : Option Report) (front back : List Write) :
    adriftFrom before (front ++ back) = adriftFrom (adriftFrom before front) back := by
  induction front generalizing before with
  | nil => rfl
  | cons write front inductionHypothesis =>
    obtain ⟨report, fate⟩ := write
    cases fate <;> exact inductionHypothesis _

/-- A status that is merged into a record is shown by it, whatever the record was. -/
theorem shows_merge (record : Json) (report : Report) :
    Shows (record.merge (report.body .status)) report := by
  constructor <;>
    simp [Record.health, Record.state, Report.body, Json.merge, Json.mergeMembers,
      Json.lookupString, Json.lookup, Json.lookupFrom, Json.Lookup.bind, OrderedMap.get?_insert]

namespace Shows

variable {record : Json} {report other : Report}

/-- A record shows one status only. -/
theorem value_eq (shows : Shows record report) (too : Shows record other) :
    report.value .status = other.value .status := by
  have health : report.health = other.health := by simpa [shows.health] using too.health
  have name : report.state.name = other.state.name := by simpa [shows.state] using too.state
  rw [Report.value, Report.value, health, GameState.name_injective name]

/-- Reports of one status are shown alike. -/
theorem of_value_eq (shows : Shows record report)
    (same : report.value .status = other.value .status) : Shows record other := by
  obtain ⟨state, health⟩ : report.state = other.state ∧ report.health = other.health := by
    simpa [Report.value] using same
  exact ⟨health ▸ shows.health, state ▸ shows.state⟩

end Shows

section Course

variable {attempt : Attempt} {memory last : Memory} {actions : List Action}

/-- A heartbeat writes its status once if it sends it, and else nothing. -/
theorem Course.writes_eq (course : Course attempt.beat memory last actions) :
    attempt.writes actions =
      if (attempt.turn, .status) ∈ sent actions then
        [⟨attempt.turn.report, attempt.fate .status⟩]
      else [] := by
  have once : (attempt.writes actions).Sublist [⟨attempt.turn.report, attempt.fate .status⟩] :=
    course.tracks.in_order.filterMap _
  have writes_iff : attempt.writes actions ≠ [] ↔ (attempt.turn, .status) ∈ sent actions := by
    constructor
    · intro writes
      obtain ⟨write, among⟩ := List.exists_mem_of_ne_nil _ writes
      obtain ⟨⟨turn, aspect⟩, sends, given⟩ := List.mem_filterMap.mp among
      have own := course.tracks.in_order.subset sends
      cases aspect with
      | status =>
        obtain rfl : turn = attempt.turn := by simpa [Attempt.beat] using own
        exact sends
      | players => cases given
    · intro sends
      exact List.ne_nil_of_mem (List.mem_filterMap.mpr ⟨_, sends, rfl⟩)
  split
  · rename_i sends
    exact (List.sublist_singleton.mp once).resolve_left (writes_iff.mpr sends)
  · rename_i silent
    by_contra writes
    exact silent (writes_iff.mp writes)

/-- A heartbeat that ends well has its status acknowledged, or finds it acknowledged already. -/
theorem Course.settles (course : Course attempt.beat memory last actions)
    (answered : finished actions = [(attempt.turn, .ok ())]) :
    last.value .status = attempt.turn.report.value .status := by
  by_cases sends : (attempt.turn, .status) ∈ sent actions
  · have accepted : attempt.beat.answer .status = .ok () := by
      cases told : attempt.beat.answer .status with
      | ok => rfl
      | error error =>
        have ends := (course.fails sends told).1.symm.trans answered
        simp at ends
    exact course.value_taken ⟨sends, accepted⟩
  · have settled : ¬(memory.health ≠ attempt.turn.report.health ∨
        memory.state ≠ some attempt.turn.report.state) :=
      fun wants => sends (course.tracks.status_sent.mpr wants)
    rw [course.value_kept fun took => sends took.1]
    simp only [not_or, not_not] at settled
    simp only [Memory.value, Report.value, settled]

end Course

namespace Mirror

/-- What the service remembers and what the record shows agree, but for the status that is
    adrift. -/
structure Aligned (mirror : Mirror) (memory : Memory) (drift : Option Report) : Prop where
  idle : mirror.service = Service.idle memory
  /-- The record shows the status that is adrift. -/
  drifted : ∀ other ∈ drift, Shows mirror.record other
  /-- If none is, the record shows what is remembered, once anything is. -/
  settled : drift = none → ∀ report : Report, memory.value .status = report.value .status →
    Shows mirror.record report

variable {mirror : Mirror} {memory : Memory} {drift : Option Report}

/-- A patch that is not acknowledged leaves what is remembered as it was. -/
theorem Aligned.write {report : Report} {fate : Fate} {last : Memory}
    (aligned : Aligned mirror memory drift)
    (acknowledged : fate = .acknowledged → last.value .status = report.value .status)
    (refused : fate ≠ .acknowledged → last.value .status = memory.value .status) :
    Aligned ⟨.idle last, Write.on mirror.record ⟨report, fate⟩⟩ last
      (adriftFrom drift [⟨report, fate⟩]) := by
  have merged := shows_merge mirror.record report
  refine ⟨rfl, ?_, ?_⟩
  · intro other adrift
    cases fate with
    | acknowledged => cases adrift
    | lost error => exact aligned.drifted other adrift
    | unheard error =>
      obtain rfl := Option.some.inj adrift
      exact merged
  · intro none other same
    cases fate with
    | acknowledged => exact merged.of_value_eq ((acknowledged rfl).symm.trans same)
    | lost error =>
      have kept := refused fun acknowledged => nomatch acknowledged
      exact aligned.settled none other (kept.symm.trans same)
    | unheard error => cases none

/-- A heartbeat keeps the agreement, and ends with its own status if it ends well. -/
theorem Aligned.heartbeat (aligned : Aligned mirror memory drift) (attempt : Attempt) :
    let outcome := mirror.step (.heartbeat attempt)
    ∃ last, Aligned outcome.1 last (adriftFrom drift (mirror.writes (.heartbeat attempt))) ∧
      (finished outcome.2 = [(attempt.turn, .ok ())] →
        last.value .status = attempt.turn.report.value .status) := by
  obtain ⟨last, actions, handled, course⟩ := Service.handle_course memory attempt.beat
  have outcome : mirror.step (.heartbeat attempt) =
      (⟨.idle last, (attempt.writes actions).foldl Write.on mirror.record⟩, actions) := by
    rw [step, aligned.idle, handled]
  have written : mirror.writes (.heartbeat attempt) = attempt.writes actions := by
    rw [writes, outcome]
  rw [outcome, written, course.writes_eq]
  refine ⟨last, ?_, course.settles⟩
  split
  · rename_i sends
    apply aligned.write
    · intro acknowledged
      have accepted : attempt.beat.answer .status = .ok () := congrArg Fate.answer acknowledged
      exact course.value_taken ⟨sends, accepted⟩
    · intro refused
      apply course.value_kept
      rintro ⟨-, accepted⟩
      cases fate : attempt.fate .status with
      | acknowledged => exact refused fate
      | _ => simp [Attempt.beat, fate, Fate.answer] at accepted
  · rename_i silent
    have kept := course.value_kept fun took => silent took.1
    exact ⟨rfl, aligned.drifted, fun none report same =>
      aligned.settled none report (kept.symm.trans same)⟩

/-- A change by somebody else touches neither health nor state. -/
theorem Aligned.change (aligned : Aligned mirror memory drift) (record : Json) :
    Aligned (mirror.step (.change record)).1 memory drift := by
  simp only [step]
  split
  · rename_i same
    obtain ⟨health, state⟩ := same
    have shows {report : Report} (shows : Shows mirror.record report) : Shows record report :=
      ⟨health.trans shows.health, state.trans shows.state⟩
    exact ⟨aligned.idle, fun other adrift => shows (aligned.drifted other adrift),
      fun none report same => shows (aligned.settled none report same)⟩
  · exact aligned

/-- Every run keeps the agreement. -/
theorem Aligned.run (aligned : Aligned mirror memory drift) (moves : List Move) :
    ∃ last, Aligned (mirror.run moves).1 last (adriftFrom drift (mirror.allWrites moves)) := by
  induction moves generalizing mirror memory drift with
  | nil => exact ⟨memory, aligned⟩
  | cons move moves inductionHypothesis =>
    rw [allWrites, Machine.trace, adriftFrom_append]
    cases move with
    | heartbeat attempt =>
      obtain ⟨next, kept, -⟩ := aligned.heartbeat attempt
      exact inductionHypothesis kept
    | change record => exact inductionHypothesis (aligned.change record)

/-- At first nothing is remembered, and the record may show anything. -/
theorem aligned_start (record : Json) : Aligned { record } {} none where
  idle := rfl
  drifted _ adrift := nomatch adrift
  settled _ report same := by simp [Memory.value, Report.value] at same

/-- After a heartbeat that ended well the record shows its health and its state, unless a status was
    applied without being acknowledged, no other one was acknowledged since then, and the one that
    is so adrift differs from the heartbeat. Then the record shows the one that is adrift. -/
theorem shows_iff_not_adrift (record : Json) (moves : List Move) (attempt : Attempt)
    (answered : finished ((({ record } : Mirror).run moves).1.step (.heartbeat attempt)).2 =
      [(attempt.turn, .ok ())]) :
    let all := moves ++ [.heartbeat attempt]
    let last := (({ record } : Mirror).run all).1
    let drift := adrift (({ record } : Mirror).allWrites all)
    (Shows last.record attempt.turn.report ↔
      ∀ other ∈ drift, other.value .status = attempt.turn.report.value .status) ∧
    ∀ other ∈ drift, Shows last.record other := by
  intro all last drift
  obtain ⟨memory, aligned⟩ := (aligned_start record).run moves
  obtain ⟨remembered, after, settles⟩ := aligned.heartbeat attempt
  have ended : last = ((({ record } : Mirror).run moves).1.step (.heartbeat attempt)).1 := by
    simp only [last, all, run, Machine.run_append, Machine.run_single]
  have drifted : drift = adriftFrom (adriftFrom none (({ record } : Mirror).allWrites moves))
      ((({ record } : Mirror).run moves).1.writes (.heartbeat attempt)) := by
    simp only [drift, adrift, all, allWrites, Machine.trace_append, Machine.trace_single,
      adriftFrom_append]
  rw [← ended, ← drifted] at after
  refine ⟨⟨?_, ?_⟩, after.drifted⟩
  · intro shows other adrift
    exact (after.drifted other adrift).value_eq shows
  · intro same
    cases which : drift with
    | none => exact after.settled which _ (settles answered)
    | some other => exact (after.drifted other which).of_value_eq (same other which)

/-- After a lost acknowledgement the record is right again with the next heartbeat that ends well
    and does not return to what was acknowledged before. -/
theorem shown_after_another_status :
    let healthy : Report := ⟨.standingBy, "Healthy", []⟩
    let unhealthy : Report := ⟨.standingBy, "Unhealthy", []⟩
    let active : Report := ⟨.active, "Healthy", []⟩
    let error : StoreError := ⟨"connection reset", .null, .null, true⟩
    let start : Mirror := { record := .object [] }
    let moves : List Move := [
      .heartbeat ⟨⟨0, healthy⟩, fun _ => .acknowledged⟩,
      .heartbeat ⟨⟨1, unhealthy⟩, fun _ => .unheard error⟩]
    let attempt : Attempt := ⟨⟨2, active⟩, fun _ => .acknowledged⟩
    finished ((start.run moves).1.step (.heartbeat attempt)).2 = [(⟨2, active⟩, .ok ())] ∧
      Shows (start.run (moves ++ [.heartbeat attempt])).1.record active := by
  intro healthy unhealthy active error start moves attempt
  have answered : finished ((start.run moves).1.step (.heartbeat attempt)).2 =
      [(⟨2, active⟩, .ok ())] := by decide
  have settled : adrift (start.allWrites (moves ++ [.heartbeat attempt])) = none := rfl
  refine ⟨answered, (shows_iff_not_adrift _ moves attempt answered).1.mpr ?_⟩
  intro other drifts
  exact nomatch settled.symm.trans drifts

/-- A game reports that it is unhealthy, and the acknowledgement of the patch is lost. It reports
    that it is healthy again, as was acknowledged before, and that heartbeat ends well without a
    patch. The record goes on to show an unhealthy game. -/
theorem stale_after_lost_acknowledgement :
    let healthy : Report := ⟨.standingBy, "Healthy", []⟩
    let unhealthy : Report := ⟨.standingBy, "Unhealthy", []⟩
    let error : StoreError := ⟨"connection reset", .null, .null, true⟩
    let before : Mirror := (({ record := .object [] } : Mirror).run [
      .heartbeat ⟨⟨0, healthy⟩, fun _ => .acknowledged⟩,
      .heartbeat ⟨⟨1, unhealthy⟩, fun _ => .unheard error⟩]).1
    let outcome := before.step (.heartbeat ⟨⟨2, healthy⟩, fun _ => .acknowledged⟩)
    finished outcome.2 = [(⟨2, healthy⟩, .ok ())] ∧ sent outcome.2 = [] ∧
      ¬Shows outcome.1.record healthy ∧ Shows outcome.1.record unhealthy := by
  decide

end Mirror

end GameSidecar.Heartbeat
