import GameSidecar.Json.MergePatch
import GameSidecar.Proofs.Reaching
import GameSidecar.Proofs.Tracking

/-!
# The players that the detail record lists

The detail record is to list the players of an active game, with their number. Of what it lists the
service remembers the number only, and a heartbeat sends its players if they are not as many. The
number is therefore right after every heartbeat of an active game that ends well. The list is right
where the number has just changed. As long as it stays the same the record lists the players of the
heartbeat that changed it, whoever has come for whom since then, and in whatever order they are
reported.

A patch that fails is not applied here, and nobody else writes the two fields.
-/

namespace GameSidecar

namespace Record

/-- The players that a detail record lists. Without a list it lists none. -/
def connectedPlayers? (record : Json) : Option (List String) :=
  match record.lookupStrings ["spec", "connectedPlayers"] with
  | .found players => some players
  | .absent => some []
  | .faulty _ => none

/-- The number of players that a detail record gives. Without a number it gives zero. -/
def connectedPlayersCount? (record : Json) : Option Int :=
  match record.lookup ["spec", "connectedPlayersCount"] with
  | .found (.int count) => some count
  | .absent => some 0
  | _ => none

end Record

namespace Heartbeat

/-- A record lists some players, in order, and gives their number. -/
structure Lists (record : Json) (players : List String) : Prop where
  listed : Record.connectedPlayers? record = some players
  counted : Record.connectedPlayersCount? record = some players.length

instance (record : Json) (players : List String) : Decidable (Lists record players) :=
  decidable_of_iff (Record.connectedPlayers? record = some players ∧
    Record.connectedPlayersCount? record = some players.length)
    ⟨fun both => ⟨both.1, both.2⟩, fun lists => ⟨lists.listed, lists.counted⟩⟩

/-- Players that are merged into a record are listed by it, whatever the record was. -/
theorem lists_merge (record : Json) (report : Report) :
    Lists (record.merge (report.body .players)) report.players := by
  have texts : (Json.array (report.players.map .string)).strings? = some report.players :=
    Json.strings?_eq_some_iff.mpr rfl
  constructor <;>
    simp [Record.connectedPlayers?, Record.connectedPlayersCount?, Report.body, Json.merge,
      Json.mergeMembers, Json.lookupStrings, Json.lookup, Json.lookupFrom,
      OrderedMap.get?_insert, texts]

/-- The service, with the detail record on the API server. -/
structure Roster where
  service : Service := {}
  record : Json

namespace Roster

/-- What happens to the service and to the record. -/
inductive Move
  /-- A heartbeat comes and is handled to its end. -/
  | heartbeat (beat : Beat)
  /-- Somebody else changes the record. -/
  | change (record : Json)

/-- A record after a heartbeat. Of the patches that were sent for it the accepted ones are
    applied. -/
def apply (record : Json) (beat : Beat) (actions : List Action) : Json :=
  (beat.accepted actions .players).foldl (fun record report => record.merge (report.body .players))
    record

/-- What a move does. Nobody else changes the two fields, so that a change of them is none. -/
def step (roster : Roster) : Move → Roster × List Action
  | .heartbeat beat =>
    let (service, actions) := roster.service.handle beat
    (⟨service, apply roster.record beat actions⟩, actions)
  | .change record =>
    if Record.connectedPlayers? record = Record.connectedPlayers? roster.record ∧
        Record.connectedPlayersCount? record = Record.connectedPlayersCount? roster.record then
      ({ roster with record }, [])
    else (roster, [])

/-- The service and the record after some moves, and what the service has done. -/
abbrev run (roster : Roster) (moves : List Move) : Roster × List Action :=
  Machine.run step roster moves

/-- The players of a heartbeat of an active game that ends well. -/
def reports (roster : Roster) : Move → List (List String)
  | .heartbeat beat =>
    if beat.turn.report.state = .active ∧
        finished (roster.step (.heartbeat beat)).2 = [(beat.turn, .ok ())] then
      [beat.turn.report.players]
    else []
  | .change _ => []

/-- The players of each such heartbeat during some moves, in order. -/
abbrev allReports (roster : Roster) (moves : List Move) : List (List String) :=
  Machine.trace step reports roster moves

end Roster

/-- Players that are reported take the place of the ones before if they are not as many. -/
def supersede (before players : List String) : List String :=
  if players.length = before.length then before else players

/-- The players that were reported when the number of players changed last. -/
def standing (reports : List (List String)) : List String :=
  reports.foldl supersede []

/-- What takes the place of the players before is as many as were reported. -/
@[simp] theorem length_supersede (before players : List String) :
    (supersede before players).length = players.length := by
  unfold supersede
  split
  · rename_i same
    exact same.symm
  · rfl

section Course

variable {beat : Beat} {memory last : Memory} {actions : List Action}

/-- A heartbeat that ends well has nothing left to send. -/
theorem Course.wanted_of_answered (course : Course beat memory last actions)
    (answered : finished actions = [(beat.turn, .ok ())]) :
    last.wanted beat.turn.report = [] := by
  induction course with
  | done nothing => exact nothing
  | refused first refused => simp at answered
  | accepted first accepted more inductionHypothesis =>
    exact inductionHypothesis (by simpa using answered)

/-- The players are the last thing that a heartbeat sends, so it ends well if they are accepted. -/
theorem Course.answered_of_took (course : Course beat memory last actions)
    (took : beat.Took actions .players) : finished actions = [(beat.turn, .ok ())] := by
  obtain ⟨sends, accepted⟩ := took
  apply course.succeeds
  intro aspect sent
  cases aspect with
  | status => exact (course.sends_players.mp sends).2 (course.sends_status.mp sent)
  | players => exact accepted

end Course

namespace Roster

/-- The service remembers the number of the players that the record lists. -/
structure Aligned (roster : Roster) (players : List String) : Prop where
  idle : ∃ memory, roster.service = .idle memory ∧ memory.players = players.length
  lists : Lists roster.record players

variable {roster : Roster} {players : List String}

/-- After a heartbeat the record lists its players if they are not as many as before. -/
theorem Aligned.heartbeat (aligned : Aligned roster players) (beat : Beat) :
    Aligned (roster.step (.heartbeat beat)).1
      ((roster.reports (.heartbeat beat)).foldl supersede players) := by
  obtain ⟨⟨memory, idle, counted⟩, lists⟩ := aligned
  obtain ⟨last, actions, handled, course⟩ := Service.handle_course memory beat
  have outcome : roster.step (.heartbeat beat) =
      (⟨.idle last, apply roster.record beat actions⟩, actions) := by
    rw [step, idle, handled]
  have reported : roster.reports (.heartbeat beat) =
      if beat.turn.report.state = .active ∧ finished actions = [(beat.turn, .ok ())] then
        [beat.turn.report.players]
      else [] := by
    rw [reports, outcome]
  rw [outcome, reported]
  obtain ⟨took, one⟩ | ⟨left, nothing⟩ := course.accepted_reports .players
  · obtain ⟨active, changed⟩ := Memory.wants_players.mp (course.sends_wanted took.1)
    have remembered : last.players = beat.turn.report.players.length :=
      Value.players.inj (course.value_taken took)
    rw [if_pos ⟨active, course.answered_of_took took⟩, List.foldl_cons, List.foldl_nil, supersede,
      if_neg (counted ▸ changed), apply, one]
    exact ⟨⟨last, rfl, remembered⟩, lists_merge roster.record beat.turn.report⟩
  · have remembered : last.players = memory.players := Value.players.inj (course.value_kept left)
    have stays : Aligned ⟨.idle last, apply roster.record beat actions⟩ players := by
      rw [apply, nothing]
      exact ⟨⟨last, rfl, remembered.trans counted⟩, lists⟩
    split
    · rename_i reports
      obtain ⟨active, answered⟩ := reports
      -- what is reported is as long as what is listed, or it would have been sent
      have settled : beat.turn.report.players.length = players.length := by
        by_contra other
        have wants : last.wants beat.turn.report .players = true :=
          Memory.wants_players.mpr ⟨active, by rw [remembered, counted]; exact other⟩
        have among := Memory.mem_wanted.mpr wants
        simp [course.wanted_of_answered answered] at among
      rw [List.foldl_cons, List.foldl_nil, supersede, if_pos settled]
      exact stays
    · exact stays

/-- A change by somebody else touches neither the list nor the number. -/
theorem Aligned.change (aligned : Aligned roster players) (record : Json) :
    Aligned (roster.step (.change record)).1 players := by
  simp only [step]
  split
  · rename_i same
    exact ⟨aligned.idle, same.1.trans aligned.lists.listed, same.2.trans aligned.lists.counted⟩
  · exact aligned

/-- After every run the record lists the players that were reported when their number changed
    last. -/
theorem Aligned.run (aligned : Aligned roster players) (moves : List Move) :
    Aligned (roster.run moves).1 ((roster.allReports moves).foldl supersede players) := by
  induction moves generalizing roster players with
  | nil => exact aligned
  | cons move moves inductionHypothesis =>
    rw [allReports, Machine.trace, List.foldl_append]
    cases move with
    | heartbeat beat => exact inductionHypothesis (aligned.heartbeat beat)
    | change record => exact inductionHypothesis (aligned.change record)

/-- Let a detail record list no players at first. After each heartbeat of an active game that ends
    well it gives the number of the players of this heartbeat. It lists them, in order, if they are
    as before or not as many. If they are as many, it lists those that it listed before, who were
    reported when the number changed last. -/
theorem lists_until_number_changes (record : Json) (unlisted : Lists record []) (moves : List Move)
    (beat : Beat) (active : beat.turn.report.state = .active)
    (answered : finished ((({ record } : Roster).run moves).1.step (.heartbeat beat)).2 =
      [(beat.turn, .ok ())]) :
    let start : Roster := { record }
    let before := standing (start.allReports moves)
    let players := beat.turn.report.players
    let last := (start.run (moves ++ [.heartbeat beat])).1
    Lists (start.run moves).1.record before ∧
      Record.connectedPlayersCount? last.record = some players.length ∧
      Lists last.record (if players.length = before.length then before else players) ∧
      (Record.connectedPlayers? last.record = some players ↔
        players = before ∨ players.length ≠ before.length) := by
  intro start before players last
  have first : Aligned start [] := ⟨⟨{}, rfl, rfl⟩, unlisted⟩
  have aligned : Aligned (start.run moves).1 before := first.run moves
  have after : Aligned last (supersede before players) := by
    have reported : (start.run moves).1.reports (.heartbeat beat) = [players] :=
      if_pos ⟨active, answered⟩
    have ended : last = ((start.run moves).1.step (.heartbeat beat)).1 := by
      simp only [last, run, Machine.run_append, Machine.run_single]
    have beaten := aligned.heartbeat beat
    rw [reported, ← ended] at beaten
    exact beaten
  refine ⟨aligned.lists, ?_, after.lists, ?_⟩
  · rw [after.lists.counted, length_supersede]
  · rw [after.lists.listed, Option.some.injEq, supersede]
    by_cases same : players.length = before.length
    · simp [same, eq_comm]
    · simp [same]

/-- While the game stands by no players are sent. When it is active two are, and then one, although
    the detail record has been changed by somebody else and a list was refused in between. -/
theorem lists_after_departure :
    let record : Json := .object [("spec", .object [("initialPlayers", .array [.string "ann"])])]
    let changed : Json := .object [("spec", .object [("connectedPlayersCount", .int 2),
      ("connectedPlayers", .array [.string "ann", .string "ben"])])]
    let error : StoreError := ⟨"connection reset", .null, .null, true⟩
    let fine : Aspect → Except StoreError Unit := fun _ => .ok ()
    let moves : List Move := [
      .heartbeat ⟨⟨0, ⟨.standingBy, "Healthy", ["ann"]⟩⟩, fine⟩,
      .heartbeat ⟨⟨1, ⟨.active, "Healthy", ["ann", "ben"]⟩⟩, fine⟩,
      .change changed,
      .heartbeat ⟨⟨2, ⟨.active, "Healthy", []⟩⟩, fun _ => .error error⟩]
    let beat : Beat := ⟨⟨3, ⟨.active, "Healthy", ["cat"]⟩⟩, fine⟩
    let last := (({ record } : Roster).run (moves ++ [.heartbeat beat])).1
    Lists record [] ∧
      finished ((({ record } : Roster).run moves).1.step (.heartbeat beat)).2 =
        [(beat.turn, .ok ())] ∧
      Record.connectedPlayersCount? last.record = some 1 ∧
      Record.connectedPlayers? last.record = some ["cat"] := by
  intro record changed error fine moves beat last
  have unlisted : Lists record [] := by decide
  have answered : finished ((({ record } : Roster).run moves).1.step (.heartbeat beat)).2 =
      [(beat.turn, .ok ())] := by decide
  have before : standing (({ record } : Roster).allReports moves) = ["ann", "ben"] := by decide
  obtain ⟨-, counted, -, listed⟩ :=
    lists_until_number_changes record unlisted moves beat rfl answered
  refine ⟨unlisted, answered, counted, listed.mpr (.inr ?_)⟩
  rw [before]
  decide

/-- In an active game one player leaves and another one comes before the next heartbeat. It ends
    well without a patch, and the record goes on to list the one who has left. -/
theorem lists_player_who_left :
    let record : Json := .object [("spec", .object [])]
    let fine : Aspect → Except StoreError Unit := fun _ => .ok ()
    let first : Beat := ⟨⟨0, ⟨.active, "Healthy", ["ann"]⟩⟩, fine⟩
    let second : Beat := ⟨⟨1, ⟨.active, "Healthy", ["ben"]⟩⟩, fine⟩
    let outcome := (({ record } : Roster).run [.heartbeat first]).1.step (.heartbeat second)
    Lists record [] ∧ finished outcome.2 = [(second.turn, .ok ())] ∧ sent outcome.2 = [] ∧
      Record.connectedPlayers? outcome.1.record = some ["ann"] ∧
      Record.connectedPlayers? outcome.1.record ≠ some second.turn.report.players := by
  decide

end Roster

end Heartbeat

end GameSidecar
