import GameSidecar.Proofs.Cycles
import GameSidecar.Proofs.Queueing

/-!
# Errors that a stream reports

A stream can tell of an error in two ways: it brings an event that reports the error with its code,
or it fails with that status. Either way the watch makes an error of it, but in two places. Two
watches are run side by side here, one for each way, with anything before and after it. They agree
in all but log lines, with one exception: a status of zero counts as none and passes, while a
reported code of zero does not.
-/

namespace GameSidecar.Watch

variable (plan : Plan)

/-- Every watch does the same about an error, whether it is reported by an event or raised for a
    cause, and leaves its stream. -/
def Agrees (event : Json) (cause : Cause) : Prop :=
  ∀ (watch : Watch) (queue : List Item),
    Matches (watch.takeItem plan (.event event))
        (({ watch with queue } : Watch).takeItem plan (.failed cause)) ∧
      (watch.takeItem plan (.event event)).1.Parked

/-- Items that a stream may bring instead of each other: the same item, or an event that reports an
    error and the failure with its status. -/
def Alike (event : Json) (cause : Cause) (item other : Item) : Prop :=
  item = other ∨ item = .event event ∧ other = .failed cause

/-- Two watches go side by side: they differ in their queues only, and what they will take from
    these is alike. One that is stopped takes at most one more item. -/
structure Abreast (event : Json) (cause : Cause) (left right : Watch) : Prop where
  same : right = { left with queue := right.queue }
  queues : left.Attends → List.Forall₂ (Alike event cause) left.queue right.queue
  heads : left.phase = .streaming → left.stopped = true →
    ∃ first later other behind, left.queue = first :: later ∧ right.queue = other :: behind ∧
      Alike event cause first other

/-- A watch that is stopped while it waits for an item finds one in its queue. -/
def Provided (watch : Watch) : Prop :=
  watch.phase = .streaming → watch.stopped = true → watch.queue ≠ []

section Provision

variable {plan} {watch : Watch}

/-- Unless it looked at its queue, a watch that waits for an item now is not stopped. -/
theorem Blind.running {act : Watch → Watch × List Effect} (blind : Blind watch act)
    (streaming : (act watch).1.phase = .streaming) : (act watch).1.stopped = false := by
  cases blind with
  | parks steady leaves idle => exact absurd streaming idle
  | stays steady attends uncalled => exact steady.stopped.trans attends.1
  | opens running same empty streams stopped => exact stopped

/-- What is done without a look at the queue leaves a stopped watch provided. -/
theorem Blind.provided {act : Watch → Watch × List Effect} (blind : Blind watch act) :
    (act watch).1.Provided := by
  intro streaming stopped
  exact absurd (blind.running streaming) (by simp [stopped])

/-- A watch that is stopped is provided after every move. -/
theorem provided_step (provided : watch.Provided) (move : Move) :
    (watch.step plan move).1.Provided := by
  cases isBlind : move.isBlind with
  | true =>
    rcases blind_step plan isBlind with blind | still
    · exact blind.provided
    · have own : watch.step plan move = (watch, []) := still watch.queue
      rw [own]
      exact provided
  | false =>
    cases move with
    | stop =>
      simp only [step, stop]
      split
      · exact provided
      · intro streaming stopped
        simp
    | post stream item =>
      simp only [step, post]
      split
      · exact provided
      · intro streaming stopped
        simp
    | take =>
      cases phase : watch.phase with
      | streaming =>
        cases queue : watch.queue with
        | nil =>
          simp only [step, phase, queue]
          exact provided
        | cons item later =>
          simp only [step, phase, queue]
          exact (@blind_takeItem plan { watch with queue := later } phase item).provided
      | _ =>
        simp only [step, phase]
        exact provided
    | _ => cases isBlind

/-- A watch that is stopped is provided after every run. -/
theorem provided_run (moves : List Move) : (({} : Watch).run plan moves).1.Provided := by
  refine Machine.run_keeps (step plan) Provided (fun _ => True)
    (fun watch move _ provided => provided_step provided move) {} moves (fun _ _ => trivial) ?_
  intro streaming
  cases streaming

end Provision

section Steps

variable {plan} {event : Json} {cause : Cause} {left right : Watch}

/-- What is done without a look at the queue keeps two watches side by side. -/
theorem abreast_act (same : right = { left with queue := right.queue })
    (queues : left.Attends → List.Forall₂ (Alike event cause) left.queue right.queue)
    {act : Watch → Watch × List Effect} (blind : Blind left act) :
    Abreast event cause (act left).1 (act right).1 ∧ (act right).2 = (act left).2 := by
  cases blind with
  | parks steady leaves idle =>
    rw [same, steady.same right.queue]
    refine ⟨⟨rfl, fun attends => ?_, fun streaming => absurd streaming idle⟩, rfl⟩
    exact absurd attends leaves
  | stays steady attends uncalled =>
    rw [same, steady.same right.queue]
    refine ⟨⟨rfl, fun _ => steady.queue ▸ queues attends, fun _ stopped => ?_⟩, rfl⟩
    exact absurd (steady.stopped.trans attends.1) (by simp [stopped])
  | opens running unseen empty streams stopped =>
    rw [same, unseen right.queue]
    refine ⟨⟨rfl, fun _ => ?_, fun _ still => ?_⟩, rfl⟩
    · rw [empty]
      exact .nil
    · exact absurd stopped (by simp [still])

/-- Something comes behind what is in two queues. The first item of each is known then. -/
theorem heads_of_alike {items others : List Item}
    (alike : List.Forall₂ (Alike event cause) items others) (last : Item) :
    ∃ first later other behind, items ++ [last] = first :: later ∧
      others ++ [last] = other :: behind ∧ Alike event cause first other := by
  cases alike with
  | nil => exact ⟨last, [], last, [], rfl, rfl, .inl rfl⟩
  | cons first later => exact ⟨_, _, _, _, rfl, rfl, first⟩

/-- Two watches that go side by side are stopped in the same way. -/
theorem Abreast.stop (abreast : Abreast event cause left right) :
    Abreast event cause (left.stop plan).1 (right.stop plan).1 ∧
      (right.stop plan).2 = (left.stop plan).2 := by
  have same := abreast.same
  cases running : left.stopped with
  | true =>
    have too : right.stopped = true := by rw [same]; exact running
    rw [stop_of_stopped plan left running, stop_of_stopped plan right too]
    exact ⟨abreast, rfl⟩
  | false =>
    have own := stop_of_running plan running left.queue
    rw [same, stop_of_running plan running right.queue, own]
    refine ⟨⟨rfl, ?_, ?_⟩, rfl⟩
    · rintro ⟨unstopped, -⟩
      cases unstopped
    · intro streaming _
      exact heads_of_alike (abreast.queues ⟨running, .inl streaming⟩) .stopped

/-- What is posted comes into both queues. -/
theorem Abreast.post (abreast : Abreast event cause left right) (stream : Nat) (item : Item) :
    Abreast event cause (left.post stream item) (right.post stream item) := by
  have same := abreast.same
  have streams : right.streams = left.streams := by rw [same]
  have stopped : right.stopped = left.stopped := by rw [same]
  rw [post_eq, post_eq, streams, stopped]
  split
  · exact abreast
  · refine ⟨by rw [same], fun attends => ?_, fun streaming still => ?_⟩
    · exact List.rel_append (abreast.queues attends) (.cons (.inl rfl) .nil)
    · obtain ⟨first, later, other, behind, items, others, alike⟩ := abreast.heads streaming still
      exact ⟨first, _, other, _, by rw [items, List.cons_append],
        by rw [others, List.cons_append], alike⟩

/-- Two watches that wait for an item both find none, or items that are alike. -/
theorem Abreast.first_items (abreast : Abreast event cause left right)
    (streaming : left.phase = .streaming) :
    (left.queue = [] ∧ right.queue = []) ∨
      ∃ first later other behind, left.queue = first :: later ∧ right.queue = other :: behind ∧
        Alike event cause first other ∧
        (left.stopped = false → List.Forall₂ (Alike event cause) later behind) := by
  cases running : left.stopped with
  | true =>
    obtain ⟨first, later, other, behind, items, others, alike⟩ := abreast.heads streaming running
    exact .inr ⟨first, later, other, behind, items, others, alike, nofun⟩
  | false =>
    have queues := abreast.queues ⟨running, .inl streaming⟩
    cases items : left.queue with
    | nil =>
      rw [items] at queues
      exact .inl ⟨rfl, List.forall₂_nil_left_iff.mp queues⟩
    | cons first later =>
      rw [items] at queues
      obtain ⟨other, behind, alike, rest, others⟩ := List.forall₂_cons_left_iff.mp queues
      exact .inr ⟨first, later, other, behind, rfl, others, alike, fun _ => rest⟩

/-- Two watches take items that are alike. They match if the reported error and the raised one do,
    and if both leave the stream over it. -/
theorem Abreast.take (abreast : Abreast event cause left right)
    (agrees : Agrees plan event cause) :
    Abreast event cause (left.step plan .take).1 (right.step plan .take).1 ∧
      unlogged (left.step plan .take).2 = unlogged (right.step plan .take).2 := by
  have same := abreast.same
  have phase : right.phase = left.phase := by rw [same]
  by_cases streaming : left.phase = .streaming
  · rcases abreast.first_items streaming with
      ⟨none, noneToo⟩ | ⟨first, later, other, behind, items, others, alike, rest⟩
    · rw [step_take_of_empty plan streaming none,
        step_take_of_empty plan (phase.trans streaming) noneToo]
      exact ⟨abreast, rfl⟩
    · have taken : ({ right with queue := behind } : Watch) = { left with queue := behind } := by
        rw [same]
      rw [step_take plan streaming items, step_take plan (phase.trans streaming) others, taken]
      rcases alike with rfl | ⟨rfl, rfl⟩
      · have blind := @blind_takeItem plan { left with queue := later } streaming first
        have after := @abreast_act event cause { left with queue := later }
          { left with queue := behind } rfl (fun attends => rest attends.1) _ blind
        exact ⟨after.1, congrArg unlogged after.2.symm⟩
      · obtain ⟨matched, parked⟩ := agrees { left with queue := later } behind
        refine ⟨⟨matched.watch, fun attends => ?_, fun waits => ?_⟩, matched.effects⟩
        · exact absurd attends.2 parked.not_streams
        · exact absurd (.inl waits) parked.not_streams
  · rw [step_take_of_ne plan streaming, step_take_of_ne plan (by rwa [phase])]
    exact ⟨abreast, rfl⟩

end Steps

section Errors

variable {event : Json} {code : Option Int}

/-- A code as a value: null if there is none. -/
def codeJson (code : Option Int) : Json :=
  code.elim .null .int

/-- An error that is reported and the failure with its status are of one class. -/
theorem conclusion_of_codeJson (nonZero : code ≠ some 0) (other : code ≠ some 410)
    (reason : Option String) :
    codeConclusion (codeJson code) = (Cause.api code reason).conclusion := by
  cases code with
  | none => rfl
  | some code =>
    have apart : code ≠ 410 := fun same => other (congrArg some same)
    have status : code ≠ 0 := fun same => nonZero (congrArg some same)
    rw [Cause.conclusion_of_ne_zero status]
    exact if_neg apart

/-- An event that reports an error with a status, or with none, is regular. -/
theorem isRegular_of_reportsError (reports : reportsError event = true)
    (given : errorCode event = codeJson code) : (Item.event event).isRegular = true := by
  cases event with
  | object members =>
    simp only [Item.isRegular, reports, given]
    cases code <;> rfl
  | _ => cases reports

/-- Streams with one number are left in the same way. -/
theorem Matches.leave {watch other : Watch} {conclusion concluded : Watch → Watch × List Effect}
    (matched : Matches (conclusion watch) (concluded other))
    (same : other.streams = watch.streams) :
    Matches (watch.leave [] conclusion) (other.leave [] concluded) := by
  refine ⟨matched.watch, ?_⟩
  have closes (watch : Watch) (conclusion : Watch → Watch × List Effect) :
      unlogged (watch.leave [] conclusion).2 =
        .closeStream watch.streams :: unlogged (conclusion watch).2 := rfl
  rw [closes, closes, same, matched.effects]

/-- Failures of which both or neither may be tried again match. -/
theorem matches_fail (watch : Watch) (queue : List Item) {error other : StoreError}
    (same : error.retryable = other.retryable) :
    Matches (watch.fail plan error) (({ watch with queue } : Watch).fail plan other) := by
  unfold fail
  cases retryable : other.retryable with
  | true =>
    rw [if_pos (same.trans retryable), if_pos rfl]
    exact ⟨rfl, rfl⟩
  | false =>
    rw [if_neg (by simp [same, retryable]), if_neg Bool.false_ne_true]
    exact ⟨rfl, rfl⟩

/-- Whether an error is reported or raised, the watch does the same about it. -/
theorem agrees_of_ne_zero (reports : reportsError event = true)
    (given : errorCode event = codeJson code) (nonZero : code ≠ some 0) (reason : Option String) :
    Agrees plan event (.api code reason) := by
  intro watch queue
  have raw (error : StoreError) : Cause.api code reason ≠ .store error := nofun
  have expiry := Cause.isExpired_toError raw s!"watch {plan.target.describe}"
  have meant := meaning_of_reportsError watch.known plan.target
    (isRegular_of_reportsError reports given) reports
  rw [given] at meant
  simp only [takeItem, takeEvent]
  -- An expired version is told from the other errors in each of the two places on its own.
  by_cases expired : code = some 410
  · subst expired
    rcases meant with ⟨meant, -⟩ | ⟨error, -, classes⟩
    · rw [meant, if_pos (expiry.mpr ⟨reason, rfl⟩)]
      exact ⟨⟨rfl, rfl⟩, .inl rfl⟩
    · have known : codeConclusion (codeJson (some 410)) = .expired := rfl
      rw [known] at classes
      split at classes <;> cases classes
  · have class_eq := Cause.conclusion_eq raw s!"watch {plan.target.describe}"
    rw [conclusion_of_codeJson nonZero expired reason, class_eq] at meant
    have failed : ¬((Cause.api code reason).toError
        s!"watch {plan.target.describe}").isExpired = true := by
      rintro isExpired
      obtain ⟨_, same⟩ := expiry.mp isExpired
      exact expired (Cause.api.inj same).1
    rcases meant with ⟨-, classes⟩ | ⟨error, meant, classes⟩
    · split at classes <;> cases classes
    · have same : error.retryable = ((Cause.api code reason).toError
          s!"watch {plan.target.describe}").retryable := by
        split at classes <;> split at classes <;> simp_all
      rw [meant, if_neg failed]
      exact ⟨(matches_fail plan watch queue same).leave rfl, parked_fail plan _ error⟩

end Errors

section Runs

variable {plan} {event : Json} {cause : Cause}

/-- Every move keeps two watches side by side, and they ask for the same. -/
theorem Abreast.step {left right : Watch} (abreast : Abreast event cause left right)
    (agrees : Agrees plan event cause) (move : Move) :
    Abreast event cause (left.step plan move).1 (right.step plan move).1 ∧
      unlogged (left.step plan move).2 = unlogged (right.step plan move).2 := by
  cases isBlind : move.isBlind with
  | true =>
    rcases blind_step plan isBlind with blind | still
    · obtain ⟨after, effects⟩ := abreast_act abreast.same abreast.queues blind
      exact ⟨after, congrArg unlogged effects.symm⟩
    · have own : left.step plan move = (left, []) := still left.queue
      rw [abreast.same, still right.queue, own]
      exact ⟨abreast.same ▸ abreast, rfl⟩
  | false =>
    cases move with
    | stop =>
      obtain ⟨after, effects⟩ := @Abreast.stop plan _ _ _ _ abreast
      exact ⟨after, congrArg unlogged effects.symm⟩
    | post stream item => exact ⟨abreast.post stream item, rfl⟩
    | take => exact abreast.take agrees
    | _ => cases isBlind

/-- Two watches that go side by side do the same over a whole run. -/
theorem Abreast.run {left right : Watch} (abreast : Abreast event cause left right)
    (agrees : Agrees plan event cause) (moves : List Move) :
    Matches (left.run plan moves) (right.run plan moves) := by
  induction moves generalizing left right with
  | nil => exact ⟨abreast.same, rfl⟩
  | cons move moves inductionHypothesis =>
    obtain ⟨after, effects⟩ := abreast.step agrees move
    have later := inductionHypothesis after
    refine ⟨later.watch, ?_⟩
    rw [Watch.run, Watch.run, Machine.run_cons, Machine.run_cons, unlogged_append,
      unlogged_append, effects, later.effects]

/-- Every watch goes side by side with itself. -/
theorem abreast_refl {watch : Watch} (provided : watch.Provided) :
    Abreast event cause watch watch := by
  refine ⟨rfl, fun _ => List.forall₂_same.mpr fun _ _ => .inl rfl, fun streaming stopped => ?_⟩
  obtain ⟨first, later, items⟩ := List.exists_cons_of_ne_nil (provided streaming stopped)
  exact ⟨first, later, first, later, items, items, .inl rfl⟩

/-- A stream brings the event or the failure. Until then the watch has been the same. -/
theorem abreast_post {watch : Watch} (provided : watch.Provided) (stream : Nat) :
    Abreast event cause (watch.post stream (.event event)) (watch.post stream (.failed cause)) := by
  have same : Abreast event cause watch watch := abreast_refl provided
  rw [post_eq, post_eq]
  split
  · exact same
  · refine ⟨rfl, fun attends => ?_, fun streaming stopped => ?_⟩
    · have arrives : (Item.event event).arriving watch.stopped = .event event :=
        if_neg (by simp [show watch.stopped = false from attends.1])
      exact List.rel_append (same.queues attends) (.cons (.inr ⟨arrives, rfl⟩) .nil)
    · obtain ⟨first, later, other, behind, items, others, alike⟩ := same.heads streaming stopped
      exact ⟨first, _, other, _, by rw [items, List.cons_append], by rw [others, List.cons_append],
        alike⟩

end Runs

section Zero

variable {event : Json}

/-- A watch gives up over a reported code of zero. -/
theorem gives_up_over_zero (reports : reportsError event = true)
    (given : errorCode event = codeJson (some 0)) (watch : Watch) :
    (watch.takeItem plan (.event event)).1.phase = .ended .gaveUp := by
  have fatal : codeConclusion (codeJson (some 0)) = .fatal := rfl
  have meant := meaning_of_reportsError watch.known plan.target
    (isRegular_of_reportsError reports given) reports
  rw [given, fatal] at meant
  rcases meant with ⟨-, classes⟩ | ⟨error, meant, classes⟩
  · cases classes
  · have final : ¬error.retryable = true := by
      intro retryable
      rw [if_pos retryable] at classes
      cases classes
    simp only [takeItem, takeEvent, meant, leave, fail, if_neg final]
    rfl

end Zero

/-- A run with a post in it is that before the post, and that from there on. -/
theorem run_post (front later : List Move) (stream : Nat) (item : Item) :
    let before := ({} : Watch).run plan front
    let after := (before.1.post stream item).run plan later
    ({} : Watch).run plan (front ++ .post stream item :: later) =
      (after.1, before.2 ++ after.2) := by
  simp only [run, Machine.run_append, Machine.run_cons]
  rfl

/-- A run in which a stream reports an error, and the same run in which it raises the error instead,
    match whatever comes before and after, unless the code is zero. A watch that is told of a code
    of zero gives up, and it tries again after a failure with a status of zero. -/
theorem reported_as_raised_iff {event : Json} (reports : reportsError event = true)
    {code : Option Int} (given : errorCode event = codeJson code) (reason : Option String) :
    (∀ front stream later,
      Matches (({} : Watch).run plan (front ++ .post stream (.event event) :: later))
        (({} : Watch).run plan (front ++ .post stream (.failed (.api code reason)) :: later))) ↔
      code ≠ some 0 := by
  constructor
  · rintro matched rfl
    -- The first stream after the first list is enough to tell the two apart.
    let front : List Move := [.proceed, .listed (.ok (Reconciler.sampleAnswer "Active" "1"))]
    let streaming := (({} : Watch).run plan front).1
    have reported : (({} : Watch).run plan (front ++ .post 1 (.event event) :: [.take])).1 =
        (streaming.takeItem plan (.event event)).1 := rfl
    have raised : (({} : Watch).run plan
        (front ++ .post 1 (.failed (.api (some 0) reason)) :: [.take])).1.phase = .sleeping := rfl
    have phases := raised.symm.trans (congrArg (·.phase) (matched front 1 [.take]).watch)
    rw [reported] at phases
    exact nomatch phases.trans (gives_up_over_zero plan reports given streaming)
  · intro nonZero front stream later
    have agrees := agrees_of_ne_zero plan reports given nonZero reason
    have provided : (({} : Watch).run plan front).1.Provided := provided_run front
    have after := (abreast_post provided stream).run agrees later
    rw [run_post, run_post]
    exact ⟨after.watch, by rw [unlogged_append, unlogged_append, after.effects]⟩

/-- An event that reports an error with a code. -/
def errorEvent (code : Json) : Json :=
  .object [("type", .string "ERROR"), ("object", .object [("code", code)])]

/-- A server that is overloaded may say so in either way. -/
theorem reported_as_raised_overload :
    let plan : Plan := ⟨⟨.gameServer, "default", "gs"⟩, none⟩
    let event := errorEvent (.int 503)
    let cause : Cause := .api (some 503) (some "overloaded")
    reportsError event = true ∧ errorCode event = codeJson (some 503) ∧
      ∀ front stream later,
        Matches (({} : Watch).run plan (front ++ .post stream (.event event) :: later))
          (({} : Watch).run plan (front ++ .post stream (.failed cause) :: later)) :=
  ⟨rfl, rfl, (reported_as_raised_iff _ rfl rfl (some "overloaded")).mpr (by decide)⟩

/-- Of two watches that have gone the same way, the one that is told of a code of zero gives up, and
    the one whose stream fails with a status of zero tries again. -/
theorem gives_up_over_reported_zero :
    let plan : Plan := ⟨⟨.gameServer, "default", "gs"⟩, none⟩
    let event := errorEvent (.int 0)
    let cause : Cause := .api (some 0) none
    let front : List Move := [.proceed, .listed (.ok (Reconciler.sampleAnswer "Active" "1"))]
    let reported := ({} : Watch).run plan (front ++ .post 1 (.event event) :: [.take])
    let raised := ({} : Watch).run plan (front ++ .post 1 (.failed cause) :: [.take])
    reportsError event = true ∧ errorCode event = codeJson (some 0) ∧
      reported.1.phase = .ended .gaveUp ∧ raised.1.phase = .sleeping ∧
      ¬Matches reported raised := by
  refine ⟨rfl, rfl, rfl, rfl, fun matched => ?_⟩
  exact nomatch congrArg (·.phase) matched.watch

end GameSidecar.Watch
