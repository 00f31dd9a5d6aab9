import GameSidecar.Proofs.Machine
import GameSidecar.Proofs.Patching
import Mathlib.Data.List.Chain
import Mathlib.Data.List.Induction

/-!
# Heartbeats one after the other

Two memories, of the status and of the players, are advanced by two patches that can each fail.
What one heartbeat does is said once, as its course: each patch that it wants is sent in turn until
one is refused. Everything else follows by induction on the course: which patches are sent, what is
remembered after them, how the heartbeat ends, and what it would send if it came again.

Over a run, what is remembered of an aspect is what the last accepted patch of it carried. As a
patch is sent only where a report differs from that, no patch is accepted twice in succession.
-/

namespace GameSidecar.Heartbeat

/-- The body of a patch says all that is remembered of it. -/
theorem Report.value_of_body {earlier later : Report} {aspect : Aspect}
    (same : earlier.body aspect = later.body aspect) :
    earlier.value aspect = later.value aspect := by
  cases aspect with
  | status =>
    obtain ⟨health, name⟩ : earlier.health = later.health ∧
        earlier.state.name = later.state.name := by simpa [body] using same
    simp [value, health, GameState.name_injective name]
  | players =>
    have named : earlier.players.map Json.string = later.players.map Json.string := by
      simp only [body, Json.object.injEq, List.cons.injEq, Prod.mk.injEq, Json.array.injEq] at same
      exact same.1.2.2.1.2
    have count : earlier.players.length = later.players.length := by
      simpa using congrArg List.length named
    simp [value, count]

/-- A heartbeat, with the answer that each of its patches gets if it is sent. -/
structure Beat where
  turn : Turn
  answer : Aspect → Except StoreError Unit

namespace Service

/-- The patch that is under way, if any, gets its answer. -/
def settle (service : Service) (beat : Beat) : Service × List Action :=
  match service.holder with
  | none => (service, [])
  | some (_, aspect) => service.complete (beat.answer aspect)

/-- The heartbeat that is handled gets all its answers: it sends two patches at most. -/
def conclude (service : Service) (beat : Beat) : Service × List Action :=
  let (midway, first) := service.settle beat
  let (settled, second) := midway.settle beat
  (settled, first ++ second)

/-- A heartbeat comes and is handled to its end. -/
def handle (service : Service) (beat : Beat) : Service × List Action :=
  let (arrived, first) := service.arrive beat.turn
  let (concluded, more) := arrived.conclude beat
  (concluded, first ++ more)

end Service

section Settling

variable {memory : Memory} {beat : Beat} {aspect next : Aspect} {rest : List Aspect}

/-- An idle service has no patch to answer. -/
theorem Service.settle_idle : (idle memory).settle beat = (idle memory, []) := rfl

/-- A patch that is under way gets the answer of the beat. -/
theorem Service.settle_held :
    (held memory beat.turn aspect).settle beat =
      (held memory beat.turn aspect).complete (beat.answer aspect) := rfl

variable (beat)

/-- A refusal ends the heartbeat, and nothing is remembered of it. -/
theorem Service.conclude_refused {error : StoreError}
    (answered : beat.answer aspect = .error error) :
    (held memory beat.turn aspect).conclude beat =
      (idle memory, [.finish beat.turn (.error ⟨aspect, error⟩)]) := by
  simp [conclude, settle_held, answered, complete_refused, settle_idle]

/-- When the last patch that is wanted is accepted the heartbeat ends well. -/
theorem Service.conclude_last (first : memory.wanted beat.turn.report = [aspect])
    (answered : beat.answer aspect = .ok ()) :
    (held memory beat.turn aspect).conclude beat =
      (idle (memory.accept beat.turn.report aspect), [.finish beat.turn (.ok ())]) := by
  simp [conclude, settle_held, answered, complete_accepted first, sendFirst, settle_idle]

/-- After an accepted patch a heartbeat is concluded as one that sends the next patch. Nothing is
    left to be answered then, as there are no more than two. -/
theorem Service.conclude_next (first : memory.wanted beat.turn.report = aspect :: next :: rest)
    (answered : beat.answer aspect = .ok ()) :
    (held memory beat.turn aspect).conclude beat =
      (((held (memory.accept beat.turn.report aspect) beat.turn next).conclude beat).1,
        sending (memory.accept beat.turn.report aspect) beat.turn next ++
          ((held (memory.accept beat.turn.report aspect) beat.turn next).conclude beat).2) := by
  have atMostTwo : (memory.wanted beat.turn.report).length ≤ 2 := List.length_filter_le ..
  have nothing : rest = [] := by simpa [first] using atMostTwo
  subst nothing
  have sends : (held memory beat.turn aspect).settle beat =
      sendFirst (memory.accept beat.turn.report aspect) beat.turn [next] := by
    rw [settle_held, answered, complete_accepted first]
  have left := Memory.wanted_accept first
  cases again : beat.answer next with
  | error error =>
    simp [conclude, sends, sendFirst, settle_held, again, complete_refused, settle_idle]
  | ok accepted =>
    simp [conclude, sends, sendFirst, settle_held, again, complete_accepted left, settle_idle]

/-- A heartbeat that wants nothing ends well at once. -/
theorem Service.handle_nothing (nothing : memory.wanted beat.turn.report = []) :
    (idle memory).handle beat = (idle memory, [.finish beat.turn (.ok ())]) := by
  simp [handle, arrive_idle, nothing, sendFirst, conclude, settle_idle]

/-- A heartbeat that wants something sends its first patch and goes on with the answer to it. -/
theorem Service.handle_wanted (first : memory.wanted beat.turn.report = aspect :: rest) :
    (idle memory).handle beat =
      (((held memory beat.turn aspect).conclude beat).1,
        sending memory beat.turn aspect ++ ((held memory beat.turn aspect).conclude beat).2) := by
  simp [handle, arrive_idle, first, sendFirst]

end Settling

/-- What one heartbeat does, from what is remembered before it to what is remembered after it:
    it sends the patches that it wants until one is refused, and ends. -/
inductive Course (beat : Beat) : Memory → Memory → List Action → Prop
  /-- No patch is wanted. -/
  | done {memory : Memory} (nothing : memory.wanted beat.turn.report = []) :
    Course beat memory memory [.finish beat.turn (.ok ())]
  /-- The next patch is refused. -/
  | refused {memory : Memory} {aspect : Aspect} {rest : List Aspect} {error : StoreError}
    (first : memory.wanted beat.turn.report = aspect :: rest)
    (answered : beat.answer aspect = .error error) :
    Course beat memory memory (Service.sending memory beat.turn aspect ++
      [.finish beat.turn (.error ⟨aspect, error⟩)])
  /-- The next patch is accepted, and the heartbeat goes on. -/
  | accepted {memory last : Memory} {aspect : Aspect} {rest : List Aspect} {actions : List Action}
    (first : memory.wanted beat.turn.report = aspect :: rest)
    (answered : beat.answer aspect = .ok ())
    (more : Course beat (memory.accept beat.turn.report aspect) last actions) :
    Course beat memory last (Service.sending memory beat.turn aspect ++ actions)

/-- Only the answers to the patches that are still wanted count. -/
theorem Service.conclude_congr {memory : Memory} {turn : Turn} {aspect : Aspect}
    {rest : List Aspect} {answer other : Aspect → Except StoreError Unit}
    (first : memory.wanted turn.report = aspect :: rest)
    (same : ∀ wanted ∈ aspect :: rest, answer wanted = other wanted) :
    (held memory turn aspect).conclude ⟨turn, answer⟩ =
      (held memory turn aspect).conclude ⟨turn, other⟩ := by
  have now : other aspect = answer aspect := (same aspect List.mem_cons_self).symm
  induction rest generalizing memory aspect with
  | nil =>
    cases answered : answer aspect with
    | error error =>
      rw [conclude_refused ⟨turn, answer⟩ answered,
        conclude_refused ⟨turn, other⟩ (now.trans answered)]
    | ok accepted =>
      rw [conclude_last ⟨turn, answer⟩ first answered,
        conclude_last ⟨turn, other⟩ first (now.trans answered)]
  | cons next rest inductionHypothesis =>
    cases answered : answer aspect with
    | error error =>
      rw [conclude_refused ⟨turn, answer⟩ answered,
        conclude_refused ⟨turn, other⟩ (now.trans answered)]
    | ok accepted =>
      rw [conclude_next ⟨turn, answer⟩ first answered,
        conclude_next ⟨turn, other⟩ first (now.trans answered)]
      have later := inductionHypothesis (Memory.wanted_accept first)
        (fun wanted member => same wanted (.tail _ member)) (same next (by simp)).symm
      rw [later]

/-- The rest of a heartbeat takes its course from the patch that is under way. -/
theorem Service.conclude_course {memory : Memory} {beat : Beat} {aspect : Aspect}
    {rest : List Aspect} (first : memory.wanted beat.turn.report = aspect :: rest) :
    ∃ last actions, (held memory beat.turn aspect).conclude beat = (idle last, actions) ∧
      Course beat memory last (sending memory beat.turn aspect ++ actions) := by
  induction rest generalizing memory aspect with
  | nil =>
    cases answered : beat.answer aspect with
    | error error => exact ⟨memory, _, conclude_refused beat answered, .refused first answered⟩
    | ok accepted =>
      exact ⟨_, _, conclude_last beat first answered,
        .accepted first answered (.done (Memory.wanted_accept first))⟩
  | cons next rest inductionHypothesis =>
    cases answered : beat.answer aspect with
    | error error => exact ⟨memory, _, conclude_refused beat answered, .refused first answered⟩
    | ok accepted =>
      obtain ⟨last, actions, concluded, course⟩ :=
        inductionHypothesis (Memory.wanted_accept first)
      refine ⟨last, _, ?_, .accepted first answered course⟩
      rw [conclude_next beat first answered, concluded]

/-- A heartbeat that comes to an idle service takes its course and leaves the service idle. -/
theorem Service.handle_course (memory : Memory) (beat : Beat) :
    ∃ last actions, (idle memory).handle beat = (idle last, actions) ∧
      Course beat memory last actions := by
  cases wanted : memory.wanted beat.turn.report with
  | nil => exact ⟨memory, _, handle_nothing beat wanted, .done wanted⟩
  | cons aspect rest =>
    obtain ⟨last, actions, concluded, course⟩ := conclude_course wanted
    refine ⟨last, _, ?_, course⟩
    rw [handle_wanted beat wanted, concluded]

/-- A patch for an aspect is among some actions of a heartbeat, and it is accepted. -/
def Beat.Took (beat : Beat) (actions : List Action) (aspect : Aspect) : Prop :=
  (beat.turn, aspect) ∈ sent actions ∧ beat.answer aspect = .ok ()

/-- The reports whose patches for an aspect are sent by some actions of a heartbeat and accepted. -/
def Beat.accepted (beat : Beat) (actions : List Action) (aspect : Aspect) : List Report :=
  ((sent actions).filter fun patch => patch.2 = aspect && (beat.answer patch.2).isOk).map
    fun patch => patch.1.report

namespace Course

variable {beat : Beat} {memory last : Memory} {actions : List Action} {aspect : Aspect}

/-- The patches are sent in the order of the aspects, none of them twice. -/
theorem sent_prefix (course : Course beat memory last actions) :
    sent actions <+: (memory.wanted beat.turn.report).map (beat.turn, ·) := by
  induction course with
  | done nothing => simp
  | refused first answered => simp [first]
  | accepted first answered more inductionHypothesis =>
    rw [Memory.wanted_accept first] at inductionHypothesis
    simpa [first] using inductionHypothesis

/-- A patch is sent only for an aspect that wants it. -/
theorem sends_wanted (course : Course beat memory last actions)
    (sends : (beat.turn, aspect) ∈ sent actions) :
    memory.wants beat.turn.report aspect = true := by
  obtain ⟨wanted, member, same⟩ := List.mem_map.mp (course.sent_prefix.subset sends)
  obtain rfl := (Prod.mk.inj same).2
  exact Memory.mem_wanted.mp member

/-- The status is sent exactly if it is wanted: it comes first. -/
theorem sends_status (course : Course beat memory last actions) :
    (beat.turn, .status) ∈ sent actions ↔ memory.wants beat.turn.report .status = true := by
  induction course with
  | done nothing => simp [← Memory.mem_wanted, nothing]
  | refused first answered => simp [← Memory.first_eq_status first, eq_comm]
  | @accepted memory last aspect rest actions first answered more inductionHypothesis =>
    rw [sent_append, List.mem_append, inductionHypothesis, Memory.wants_accept]
    cases aspect with
    | status => simp [Memory.wants_first first]
    | players => simp

/-- The players are patched if the status is not refused before them. -/
theorem sends_players (course : Course beat memory last actions) :
    (beat.turn, .players) ∈ sent actions ↔
      memory.wants beat.turn.report .players = true ∧
        (memory.wants beat.turn.report .status = true → beat.answer .status = .ok ()) := by
  induction course with
  | done nothing => simp [← Memory.mem_wanted, nothing]
  | @refused memory aspect rest error first answered =>
    have wants := Memory.wants_first first
    cases aspect with
    | status => simp [wants, answered]
    | players => simp [wants, Memory.status_settled first]
  | @accepted memory last aspect rest actions first answered more inductionHypothesis =>
    have wants := Memory.wants_first first
    rw [sent_append, List.mem_append, inductionHypothesis, Memory.wants_accept, Memory.wants_accept]
    cases aspect with
    | status => simp [answered]
    | players => simp [wants, Memory.status_settled first]

/-- A refused patch is the last one, and the heartbeat ends with its failure. -/
theorem fails {error : StoreError} (course : Course beat memory last actions)
    (sends : (beat.turn, aspect) ∈ sent actions) (refused : beat.answer aspect = .error error) :
    finished actions = [(beat.turn, .error ⟨aspect, error⟩)] ∧
      (sent actions).getLast? = some (beat.turn, aspect) := by
  induction course with
  | done nothing => simp at sends
  | refused first answered =>
    obtain rfl : aspect = _ := by simpa using sends
    rw [refused] at answered
    obtain rfl := Except.error.inj answered
    simp
  | @accepted _ _ _ _ actions first answered more inductionHypothesis =>
    have later : (beat.turn, aspect) ∈ sent actions := by
      refine (List.mem_append.mp (sent_append .. ▸ sends)).resolve_left fun now => ?_
      obtain rfl : aspect = _ := by simpa using now
      exact nomatch refused.symm.trans answered
    obtain ⟨ends, isLast⟩ := inductionHypothesis later
    simp [ends, List.getLast?_cons, isLast]

/-- A heartbeat ends well if none of its patches is refused. -/
theorem succeeds (course : Course beat memory last actions)
    (accepts : ∀ aspect, (beat.turn, aspect) ∈ sent actions → beat.answer aspect = .ok ()) :
    finished actions = [(beat.turn, .ok ())] := by
  induction course with
  | done nothing => rfl
  | refused first answered =>
    have accepted := accepts _ (by simp; rfl)
    exact nomatch accepted.symm.trans answered
  | accepted first answered more inductionHypothesis =>
    simpa using inductionHypothesis fun aspect sends => accepts aspect (by simp [sends])

/-- A patch that is accepted is taken, besides those that follow it. -/
theorem took_accepted {first : Aspect} (answered : beat.answer first = .ok ()) :
    beat.Took (Service.sending memory beat.turn first ++ actions) aspect ↔
      aspect = first ∨ beat.Took actions aspect := by
  simp only [Beat.Took, sent_append, sent_sending, List.singleton_append, List.mem_cons,
    Prod.mk.injEq, true_and, or_and_right]
  refine or_congr_left (and_iff_left_of_imp ?_)
  rintro rfl
  exact answered

/-- With a refusal nothing has been taken. -/
theorem not_took_refused {first : Aspect} {error : StoreError} {result : Except Failure Unit}
    (answered : beat.answer first = .error error) :
    ¬ beat.Took (Service.sending memory beat.turn first ++ [.finish beat.turn result]) aspect := by
  rintro ⟨sends, accepted⟩
  obtain rfl : aspect = first := by simpa using sends
  exact nomatch accepted.symm.trans answered

/-- What was remembered of an aspect stays where no patch of it is accepted. -/
theorem value_kept (course : Course beat memory last actions) (left : ¬ beat.Took actions aspect) :
    last.value aspect = memory.value aspect := by
  induction course with
  | done nothing => rfl
  | refused first answered => rfl
  | accepted first answered more inductionHypothesis =>
    rw [took_accepted answered, not_or] at left
    rw [inductionHypothesis left.2, Memory.value_accept, if_neg left.1]

/-- An accepted patch is remembered. -/
theorem value_taken (course : Course beat memory last actions) (took : beat.Took actions aspect) :
    last.value aspect = beat.turn.report.value aspect := by
  induction course with
  | done nothing => simp [Beat.Took] at took
  | refused first answered => exact absurd took (not_took_refused answered)
  | @accepted _ _ _ _ actions first answered more inductionHypothesis =>
    by_cases later : beat.Took actions aspect
    · exact inductionHypothesis later
    · have now : aspect = _ := ((took_accepted answered).mp took).resolve_right later
      rw [value_kept more later, Memory.value_accept, if_pos now]

/-- What is wanted after a heartbeat is what was wanted before it and not accepted. -/
theorem wants_last (course : Course beat memory last actions) :
    last.wants beat.turn.report aspect = true ↔
      memory.wants beat.turn.report aspect = true ∧ ¬ beat.Took actions aspect := by
  induction course with
  | done nothing => simp [Beat.Took]
  | refused first answered => simp [not_took_refused answered]
  | accepted first answered more inductionHypothesis =>
    rw [inductionHypothesis, took_accepted answered, Memory.wants_accept]
    simp [and_assoc]

/-- Of each aspect one patch is accepted at most. -/
theorem accepted_reports (course : Course beat memory last actions) (aspect : Aspect) :
    (beat.Took actions aspect ∧ beat.accepted actions aspect = [beat.turn.report]) ∨
      (¬ beat.Took actions aspect ∧ beat.accepted actions aspect = []) := by
  induction course with
  | done nothing => exact .inr ⟨by simp [Beat.Took], rfl⟩
  | @refused memory refused rest error first answered =>
    have no : (beat.answer refused).isOk = false := by
      rw [answered]
      rfl
    exact .inr ⟨not_took_refused answered, by simp [Beat.accepted, no]⟩
  | @accepted memory last first rest actions isFirst answered more inductionHypothesis =>
    rw [took_accepted answered]
    by_cases same : aspect = first
    · -- the aspect is settled by this patch, so no later one is sent for it
      have unsent : ¬ beat.Took actions aspect := by
        rintro ⟨sends, -⟩
        have wants := more.sends_wanted sends
        simp [Memory.wants_accept, same] at wants
      have nothing := (inductionHypothesis.resolve_left fun took => unsent took.1).2
      refine .inl ⟨.inl same, ?_⟩
      simpa [Beat.accepted, same, answered, Except.isOk, Except.toBool] using nothing
    · have passed : beat.accepted (Service.sending memory beat.turn first ++ actions) aspect =
          beat.accepted actions aspect := by
        simp [Beat.accepted, Ne.symm same]
      simpa [same, passed] using inductionHypothesis

end Course

/-- What is remembered and which reports had their patches accepted agree, for each aspect. -/
structure Faithful (memory : Memory) (accepted : Aspect → List Report) : Prop where
  /-- What is remembered is what the last accepted patch carried. -/
  remembered : ∀ aspect, memory.value aspect =
    ((accepted aspect).getLast?.map (·.value aspect)).getD (Value.start aspect)
  /-- Each accepted patch changed what was remembered. -/
  changing : ∀ aspect, (accepted aspect).IsChain fun earlier later =>
    earlier.value aspect ≠ later.value aspect

/-- One more heartbeat keeps the agreement. -/
theorem Faithful.beat {memory last : Memory} {accepted : Aspect → List Report} {beat : Beat}
    {actions : List Action} (faithful : Faithful memory accepted)
    (course : Course beat memory last actions) :
    Faithful last fun aspect => accepted aspect ++ beat.accepted actions aspect where
  remembered aspect := by
    obtain ⟨took, one⟩ | ⟨left, none⟩ := course.accepted_reports aspect
    · simp [one, course.value_taken took]
    · rw [course.value_kept left, faithful.remembered aspect, none, List.append_nil]
  changing aspect := by
    obtain ⟨took, one⟩ | ⟨left, none⟩ := course.accepted_reports aspect
    · rw [one, List.isChain_append]
      refine ⟨faithful.changing aspect, .singleton _, ?_⟩
      intro earlier isLast later isFirst
      obtain rfl : beat.turn.report = later := by simpa using isFirst
      have current : memory.value aspect = earlier.value aspect := by
        rw [faithful.remembered aspect, isLast]
        rfl
      exact current ▸ Memory.value_ne_of_wants (course.sends_wanted took.1)
    · rw [none, List.append_nil]
      exact faithful.changing aspect

/-- The service after some heartbeats that came one after the other. -/
def Service.after (beats : List Beat) : Service :=
  (Machine.run handle {} beats).1

/-- One more beat is handled after the others. -/
theorem Service.after_concat (beats : List Beat) (beat : Beat) :
    Service.after (beats ++ [beat]) = ((Service.after beats).handle beat).1 := by
  rw [after, Machine.run_append, Machine.run_single, ← after]

/-- The reports whose patches for an aspect were accepted in such a run, in order. -/
def acceptedReports (beats : List Beat) (aspect : Aspect) : List Report :=
  Machine.trace Service.handle
    (fun service beat => beat.accepted (service.handle beat).2 aspect) {} beats

/-- After every run the service is idle and remembers what was accepted. -/
theorem faithful_after (beats : List Beat) :
    ∃ memory, Service.after beats = Service.idle memory ∧
      Faithful memory (acceptedReports beats) := by
  induction beats using List.reverseRecOn with
  | nil =>
    refine ⟨{}, rfl, ?_, fun aspect => .nil⟩
    intro aspect
    cases aspect <;> rfl
  | append_singleton beats beat inductionHypothesis =>
    obtain ⟨memory, idle, faithful⟩ := inductionHypothesis
    obtain ⟨last, actions, handled, course⟩ := Service.handle_course memory beat
    refine ⟨last, by rw [Service.after_concat, idle, handled], ?_⟩
    have more : acceptedReports (beats ++ [beat]) =
        fun aspect => acceptedReports beats aspect ++ beat.accepted actions aspect := by
      funext aspect
      rw [acceptedReports, Machine.trace_append, Machine.trace_single, ← Service.after, idle,
        handled, ← acceptedReports]
    exact more ▸ faithful.beat course

/-- What one heartbeat does, told from outside: which patches it sends and how it ends, what is
    remembered after it, and what it would send again. -/
structure Tracks (memory : Memory) (beat : Beat) (last : Memory) (actions : List Action) :
    Prop where
  /-- The status is patched where health and state are not both as remembered. -/
  status_sent : (beat.turn, .status) ∈ sent actions ↔
    memory.health ≠ beat.turn.report.health ∨ memory.state ≠ some beat.turn.report.state
  /-- The players are patched in an active game whose status was not refused just now, where their
      number is not as remembered. -/
  players_sent : (beat.turn, .players) ∈ sent actions ↔
    beat.turn.report.state = .active ∧
      (¬ ∃ error, (beat.turn, .status) ∈ sent actions ∧ beat.answer .status = .error error) ∧
        beat.turn.report.players.length ≠ memory.players
  /-- Nothing else is sent, and nothing twice; the status comes first. -/
  in_order : (sent actions).Sublist [(beat.turn, .status), (beat.turn, .players)]
  /-- A refused patch is the last one; the heartbeat ends with its failure. -/
  fails : ∀ aspect error, (beat.turn, aspect) ∈ sent actions → beat.answer aspect = .error error →
    finished actions = [(beat.turn, .error ⟨aspect, error⟩)] ∧
      (sent actions).getLast? = some (beat.turn, aspect)
  /-- A heartbeat without a refused patch ends well. -/
  succeeds : (∀ aspect, (beat.turn, aspect) ∈ sent actions → beat.answer aspect = .ok ()) →
    finished actions = [(beat.turn, .ok ())]
  /-- What an accepted patch carried is remembered. -/
  taken : ∀ aspect, beat.Took actions aspect → last.value aspect = beat.turn.report.value aspect
  /-- An aspect without an accepted patch is remembered as before. -/
  kept : ∀ aspect, ¬ beat.Took actions aspect → last.value aspect = memory.value aspect
  /-- If the same comes again and nothing is refused, what has not been accepted is sent. -/
  again : ∀ again : Beat, again.turn.report = beat.turn.report →
    (∀ aspect, again.answer aspect = .ok ()) → ∀ aspect,
      (again.turn, aspect) ∈ sent ((Service.idle last).handle again).2 ↔
        memory.wants beat.turn.report aspect = true ∧ ¬ beat.Took actions aspect

/-- How the patches of a report and their failures are worded. -/
structure Worded (report : Report) : Prop where
  /-- Health and state of the report go together into the status. -/
  status_patch : ∀ namespaceName name, report.patch namespaceName name .status =
    ⟨⟨.gameServer, namespaceName, name⟩, true, .object [("status", .object [
      ("health", .string report.health), ("state", .string report.state.name)])]⟩
  /-- The players of the report go into the specification in their order, with their number. -/
  players_patch : ∀ namespaceName name, report.patch namespaceName name .players =
    ⟨⟨.gameServerDetail, namespaceName, name⟩, false, .object [("spec", .object [
      ("connectedPlayersCount", .int report.players.length),
      ("connectedPlayers", .array (report.players.map .string))])]⟩
  status_failure : ∀ error : StoreError,
    Failure.message ⟨.status, error⟩ = "error updating health: " ++ error.message
  players_failure : ∀ error : StoreError,
    Failure.message ⟨.players, error⟩ = "error updating connected players count: " ++ error.message

/-- A beat that takes its course is tracked. -/
theorem Course.tracks {memory last : Memory} {beat : Beat} {actions : List Action}
    (course : Course beat memory last actions) : Tracks memory beat last actions where
  status_sent := course.sends_status.trans Memory.wants_status
  players_sent := by
    have passed : (¬ ∃ error, (beat.turn, .status) ∈ sent actions ∧
        beat.answer .status = .error error) ↔
          (memory.wants beat.turn.report .status = true → beat.answer .status = .ok ()) := by
      rw [course.sends_status]
      cases beat.answer .status <;> simp
    rw [course.sends_players, Memory.wants_players, passed]
    exact and_right_comm.trans and_assoc
  in_order := by
    have whole : (memory.wanted beat.turn.report).Sublist Aspect.all := List.filter_sublist
    exact course.sent_prefix.sublist.trans (whole.map _)
  fails aspect error sends refused := course.fails sends refused
  succeeds := course.succeeds
  taken aspect := course.value_taken
  kept aspect := course.value_kept
  again again same accepts aspect := by
    obtain ⟨_, actions, handled, repeated⟩ := Service.handle_course last again
    rw [handled, ← course.wants_last, ← same]
    cases aspect with
    | status => exact repeated.sends_status
    | players => simp [repeated.sends_players, accepts]

/-- Every report has its patches and failures worded so. -/
theorem worded (report : Report) : Worded report where
  status_patch _ _ := rfl
  players_patch _ _ := rfl
  status_failure _ := rfl
  players_failure _ := rfl

/-- Over every run of heartbeats, what is remembered of status and players is what the last
    accepted patch of each carried, no two accepted patches of an aspect in succession are equal,
    and the next heartbeat, whatever is answered to it, sends what differs from that. -/
theorem heartbeats_tracked (beats : List Beat) :
    (∃ memory, Service.after beats = Service.idle memory ∧
      Faithful memory (acceptedReports beats)) ∧
    (∀ aspect, (acceptedReports beats aspect).IsChain fun earlier later =>
      earlier.body aspect ≠ later.body aspect) ∧
    ∀ beat : Beat, Worded beat.turn.report ∧
      Tracks (Service.after beats).memory beat (Service.after (beats ++ [beat])).memory
        ((Service.after beats).handle beat).2 := by
  obtain ⟨memory, idle, faithful⟩ := faithful_after beats
  refine ⟨⟨memory, idle, faithful⟩, fun aspect => ?_, fun beat => ⟨worded _, ?_⟩⟩
  · exact (faithful.changing aspect).imp fun _ _ changed same => changed (Report.value_of_body same)
  · obtain ⟨last, actions, handled, course⟩ := Service.handle_course memory beat
    rw [Service.after_concat, idle, handled]
    exact course.tracks

/-- A game with a player becomes active, and only its status is accepted. When the same is reported
    again, the players are all that is sent. -/
example :
    let report : Report := ⟨.active, "Healthy", ["ann"]⟩
    let refused : Beat := ⟨⟨0, report⟩, fun aspect =>
      if aspect = .status then .ok () else .error (.ofStatus "gone" (.int 503) .null)⟩
    let repeated : Beat := ⟨⟨1, report⟩, fun _ => .ok ()⟩
    sent ((Service.after [refused]).handle repeated).2 = [(⟨1, report⟩, .players)] := by
  decide

end GameSidecar.Heartbeat
