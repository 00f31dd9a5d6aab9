import GameSidecar.Proofs.ChangeLog
import GameSidecar.Proofs.Handling

/-!
# Changes are taken once and in order

A watch that is served by a log takes the changes of the log as they come, one after the other. A
stream may break off anywhere, and what it has brought behind that is thrown away. The version to
resume from is that of the last object that was taken, so that the next stream brings the rest
again, from the first change that has not been taken on.

The invariant cuts the log in three: the changes up to the list, those that have been taken since
then, and those that are ahead. The queue of a stream holds the first of the changes ahead, up to
the place where the stream has broken off.
-/

namespace GameSidecar

/-- A value equals one integer at most. -/
theorem Json.equalsInt_unique {value : Json} {left right : Int} (first : value.equalsInt left)
    (second : value.equalsInt right) : left = right := by
  cases value with
  | bool truth =>
    cases truth <;>
      exact (beq_iff_eq.mp first).trans (beq_iff_eq.mp second).symm
  | int number => exact (beq_iff_eq.mp first).symm.trans (beq_iff_eq.mp second)
  | real number =>
    have same := (beq_iff_eq.mp first).symm.trans (beq_iff_eq.mp second)
    exact Rat.intCast_inj.mp (Option.some.inj same)
  | _ => cases first

namespace Watch

variable (plan : Plan)

/-- The code of a passing error is plain, and is not that of an expired version. -/
theorem code_of_passes {code : Json} (passes : StoreError.passes code) :
    isPlain code = true ∧ code.equalsInt 410 = false := by
  rcases (Bool.or_eq_true ..).mp passes with null | listed
  · cases code with
    | null => exact ⟨rfl, rfl⟩
    | _ => cases null
  · obtain ⟨status, member, equal⟩ := List.any_eq_true.mp listed
    constructor
    · cases code with
      | array items => cases equal
      | object members => cases equal
      | _ => rfl
    · by_contra expired
      have same := Json.equalsInt_unique equal (by simpa using expired)
      rw [same] at member
      exact absurd member (by decide)

/-- A passing error that an event reports fails the cycle, which is repeated. -/
theorem meaning_of_passing (known : Known) (target : Target) {sent : Json}
    (reports : reportsError sent) (passes : StoreError.passes (errorCode sent)) :
    ∃ error : StoreError, known.meaning target sent = .failed error ∧ error.retryable = true := by
  obtain ⟨plain, notExpired⟩ := code_of_passes passes
  cases sent with
  | object members =>
    have type : Json.memberOrNull members "type" = .string "ERROR" := by
      simpa [reportsError] using reports
    simp only [errorCode, Json.members?, Option.getD_some] at plain notExpired passes
    simp only [Known.meaning, type, if_true, errorMeaning, plain, notExpired, Bool.not_true,
      Bool.false_eq_true, if_false]
    exact ⟨_, rfl, passes⟩
  | _ => cases reports

/-- An event with a notice means what its record and its type say. -/
theorem meaning_of_notice {known : Known} {target : Target} {event : Json} {notice : Notice}
    (given : Notice.ofEvent? event = some notice) :
    known.meaning target event = known.recordMeaning target notice.type notice.record := by
  cases event with
  | object members =>
    simp only [Notice.ofEvent?] at given
    split at given
    · rename_i held
      split at given
      · cases given
      · rename_i noError
        obtain rfl := Option.some.inj given
        simp only [Known.meaning, noError, if_false, held]
    · cases given
  | _ => cases given

/-- An event with a notice reports no error. -/
theorem reportsError_of_notice {event : Json} {notice : Notice}
    (given : Notice.ofEvent? event = some notice) : reportsError event = false := by
  cases event with
  | object members =>
    simp only [Notice.ofEvent?] at given
    split at given
    · split at given
      · cases given
      · rename_i noError
        simpa [reportsError] using noError
    · cases given
  | _ => cases given

/-- A record that is worked in moves the version on, and breaks nothing off. -/
theorem recordMeaning_cases (known : Known) (target : Target) (type record : Json) :
    (∃ next lines, known.recordMeaning target type record = .learned next lines ∧
      next.version = (known.advance record).version) ∨
    ∃ next old, known.recordMeaning target type record = .updated next old record ∧
      next.version = (known.advance record).version := by
  unfold Known.recordMeaning
  by_cases bookmark : type = .string "BOOKMARK"
  · rw [if_pos bookmark]
    exact .inl ⟨_, _, rfl, rfl⟩
  rw [if_neg bookmark]
  by_cases deleted : type = .string "DELETED"
  · rw [if_pos deleted]
    exact .inl ⟨_, _, rfl, rfl⟩
  rw [if_neg deleted]
  cases (known.advance record).record? (Record.name record) with
  | none => exact .inl ⟨_, _, rfl, rfl⟩
  | some old =>
    by_cases modified : type = .string "MODIFIED"
    · simp only [if_pos modified]
      exact .inr ⟨_, _, rfl, rfl⟩
    · simp only [if_neg modified]
      exact .inl ⟨_, _, rfl, rfl⟩

/-- A record with a version is what the next stream resumes from. -/
theorem version_advance {known : Known} {record : Json} {version : String}
    (versioned : Record.version? record = some version) (nonEmpty : version ≠ "") :
    (known.advance record).version = .string version := by
  simp [Known.advance, versioned, nonEmpty]

/-- The objects that a watch takes from its streams. -/
def objectsOf (observations : List Observation) : List Json :=
  observations.filterMap fun observation =>
    match observation with
    | .event sent => (Notice.ofEvent? sent).map Notice.record
    | _ => none

@[simp] theorem objectsOf_nil : objectsOf [] = [] := rfl

/-- The objects of events come in the order in which these are read. -/
@[simp] theorem objectsOf_append (front back : List Observation) :
    objectsOf (front ++ back) = objectsOf front ++ objectsOf back :=
  List.filterMap_append

/-- A list is no stream: nothing is taken from it. -/
@[simp] theorem objectsOf_readOf (listing : Listing) (pending : List Json) (after : Watch) :
    objectsOf (readOf listing pending after) = [] := by
  have items (records : List Json) : objectsOf (records.map .item) = [] := by
    simp [objectsOf]
  unfold readOf
  split
  · exact items _
  · split
    · exact items _
    · rw [objectsOf_append, items]
      rfl

/-- The versions of the lists that a watch is given. -/
def lists (watch : Watch) : Move → List String
  | .listed (.ok answer) =>
    match watch.phase with
    | .listing => (listVersion? answer).toList
    | _ => []
  | _ => []

/-- A watch has come to another stream, or it is stopped and rests. -/
inductive Resumes (outcome : Watch × List Effect) : Prop
  | opened (phase : outcome.1.phase = .streaming) (empty : outcome.1.queue = [])
      (called : calls outcome.2 = [.stream outcome.1.known.version])
  | rested (phase : outcome.1.phase = .ready) (uncalled : calls outcome.2 = [])

/-- A stream is opened unless the watch is stopped, and nothing is learned with that. -/
theorem resumes_openStream (watch : Watch) :
    Resumes watch.openStream ∧ watch.openStream.1.known = watch.known := by
  unfold openStream
  split
  · exact ⟨.rested rfl rfl, rfl⟩
  · exact ⟨.opened rfl rfl rfl, rfl⟩

/-- A stop calls for nothing. -/
@[simp] theorem calls_stop (watch : Watch) : calls (watch.stop plan).2 = [] := by
  unfold stop
  split
  · rfl
  · split <;> rfl

/-- The calls after a stream that is left are those of the end of its cycle. -/
@[simp] theorem calls_leave (watch : Watch) (lines : List Line)
    (conclusion : Watch → Watch × List Effect) :
    calls (watch.leave lines conclusion).2 = calls (conclusion watch).2 := by
  simp only [leave, calls_append, calls_lines, List.nil_append]
  rfl

/-- Working off a list with a version is left for a delivery, or by a stop, or comes to the end of
    the list, and then the watch resumes from its version. -/
theorem workOff_cases (watch : Watch) (listing : Listing) (pending : List Json) {version : Json}
    (versioned : listing.version = .ok version) :
    let outcome := watch.workOff plan listing pending
    (∃ old new rest, outcome.1.phase = .delivering old new (.listing rest) ∧
      rest.version = .ok version ∧ calls outcome.2 = []) ∨
    (watch.stopped ∧ outcome.1.phase = .ready ∧ calls outcome.2 = []) ∨
    (outcome.1.known.version = version ∧ Resumes outcome) := by
  induction pending generalizing watch listing with
  | nil =>
    have concluded : ({ listing with pending := [] } : Listing).version = .ok version := versioned
    obtain ⟨resumes, known⟩ := resumes_openStream
      { watch with known := { watch.known.restrict listing.seen with version } }
    refine .inr (.inr ?_)
    simp only [workOff, concludeListing, Known.conclude, concluded]
    refine ⟨by rw [known], ?_⟩
    cases resumes with
    | opened phase empty called => exact .opened phase empty called
    | rested phase uncalled => exact .rested phase uncalled
  | cons item pending inductionHypothesis =>
    simp only [workOff]
    split
    · exact .inl ⟨_, _, _, rfl, versioned, rfl⟩
    · split
      · rename_i stopped
        exact .inr (.inl ⟨stopped, rfl, rfl⟩)
      · exact inductionHypothesis { watch with known := watch.known.observe item }
          (listing.advance item pending) versioned

/-- A watch has no stream: it waits for its next cycle, for the end of a wait, or for nothing. -/
def Parked (watch : Watch) : Prop :=
  watch.phase = .ready ∨ watch.phase = .sleeping ∨ ∃ ending, watch.phase = .ended ending

/-- A watch has a stream: it waits for the next item, or for the handler of one. -/
def Streams (watch : Watch) : Prop :=
  watch.phase = .streaming ∨ ∃ old new, watch.phase = .delivering old new .streaming

section

variable {watch : Watch}

/-- A watch that is over has no stream. -/
theorem Over.parked (isOver : watch.Over) : watch.Parked :=
  isOver.phase.imp_right .inr

/-- A watch that is parked waits for no list. -/
theorem Parked.ne_listing (parked : watch.Parked) : watch.phase ≠ .listing := by
  rcases parked with phase | phase | ⟨ending, phase⟩ <;> simp [phase]

/-- A watch that is parked waits for no handler. -/
theorem Parked.ne_delivering (parked : watch.Parked) (old new : Json) (next : Continuation) :
    watch.phase ≠ .delivering old new next := by
  rcases parked with phase | phase | ⟨ending, phase⟩ <;> simp [phase]

/-- A watch with a stream waits for no list. -/
theorem Streams.ne_listing (streams : watch.Streams) : watch.phase ≠ .listing := by
  rcases streams with phase | ⟨old, new, phase⟩ <;> simp [phase]

/-- The handler that a watch with a stream waits for was not given an item of a list. -/
theorem Streams.ne_delivering (streams : watch.Streams) (old new : Json) (listing : Listing) :
    watch.phase ≠ .delivering old new (.listing listing) := by
  rcases streams with phase | ⟨old, new, phase⟩ <;> simp [phase]

/-- A watch that is parked has no stream. -/
theorem Parked.not_streams (parked : watch.Parked) : ¬watch.Streams := by
  rintro (streaming | ⟨old, new, delivering⟩)
  · rcases parked with phase | phase | ⟨ending, phase⟩ <;> cases streaming.symm.trans phase
  · exact parked.ne_delivering old new .streaming delivering

end

/-- A queue holds the first of the changes ahead. If nothing comes behind them the feed goes on
    with the next change; else the stream has broken off there. -/
def Queued (plan : Plan) (position : Nat) (ahead : List Change) (feed : Feed)
    (queue : List Item) : Prop :=
  ∃ changes rest behind, ahead = changes ++ rest ∧ queue = changes.map Change.item ++ behind ∧
    (behind = [] → feed = ⟨position + changes.length, false⟩) ∧
    ∀ item ∈ behind.head?, item.Passing plan

/-- How far a watch has come that is served by a log, by the versions of its lists and the objects
    that it has taken. -/
inductive Course (plan : Plan) (log : ChangeLog) (listed : List String) (objects : List Json)
    (watch : Watch) (feed : Feed) : Prop
  /-- No list has succeeded. -/
  | unlisted (none : listed = []) (nothing : objects = [])
      (version : watch.known.version = .null) (phase : watch.phase = .listing ∨ watch.Parked)
  /-- The list has been left for a delivery. -/
  | listing (earlier ahead : List Change) (split : log.changes = earlier ++ ahead)
      (once : listed = [log.versionAfter earlier]) (nothing : objects = [])
      (phase : ∃ old new listing, watch.phase = .delivering old new (.listing listing) ∧
        listing.version = .ok (.string (log.versionAfter earlier)))
  /-- The list has been left by a stop. -/
  | left (earlier ahead : List Change) (split : log.changes = earlier ++ ahead)
      (once : listed = [log.versionAfter earlier]) (nothing : objects = []) (isOver : watch.Over)
  /-- The changes behind the list are taken. -/
  | following (earlier taken ahead : List Change)
      (split : log.changes = (earlier ++ taken) ++ ahead)
      (once : listed = [log.versionAfter earlier]) (all : objects = taken.map Change.object)
      (version : watch.known.version = .string (log.versionAfter (earlier ++ taken)))
      (phase : watch.Parked ∨ watch.Streams ∧
        Queued plan (earlier ++ taken).length ahead feed watch.queue)

/-- The version of the last object that was taken, or that of the list before the first one. -/
def lastVersion? (listed : List String) (objects : List Json) : Option String :=
  match objects.getLast? with
  | some object => Record.version? object
  | none => listed.head?

/-- An outcome keeps the course, and asks the server only for what the course allows. -/
structure Keeps (plan : Plan) (log : ChangeLog) (listed : List String) (objects : List Json)
    (feed : Feed) (outcome : Watch × List Effect) : Prop where
  course : Course plan log listed objects outcome.1 (feed.hear log (calls outcome.2))
  lists : .list ∈ calls outcome.2 → listed = []
  streams : ∀ since, .stream since ∈ calls outcome.2 →
    ∃ version, lastVersion? listed objects = some version ∧ since = .string version

variable {plan} {log : ChangeLog} {listed : List String} {objects : List Json} {watch : Watch}
  {feed : Feed}

/-- An outcome that asks the server for nothing has only to keep the course. -/
theorem Course.keeps (outcome : Watch × List Effect) (uncalled : calls outcome.2 = [])
    (course : Course plan log listed objects outcome.1 feed) :
    Keeps plan log listed objects feed outcome where
  course := by
    rw [uncalled]
    exact course
  lists := by simp [uncalled]
  streams := by simp [uncalled]

/-- The last version is the one after the changes that have been taken. -/
theorem lastVersion?_following (log : ChangeLog) (earlier taken : List Change) :
    lastVersion? [log.versionAfter earlier] (taken.map Change.object) =
      some (log.versionAfter (earlier ++ taken)) := by
  rcases taken.eq_nil_or_concat with rfl | ⟨front, last, rfl⟩
  · simp [lastVersion?]
  · have versioned : Record.version? last.object = some last.version := last.versioned
    simp [lastVersion?, ChangeLog.versionAfter, versioned]

/-- A watch that resumes from the last version is fed with the changes ahead. -/
theorem keeps_of_resumes {outcome : Watch × List Effect} {earlier ahead : List Change}
    (taken : List Change) (split : log.changes = (earlier ++ taken) ++ ahead)
    (version : outcome.1.known.version = .string (log.versionAfter (earlier ++ taken)))
    (resumes : Resumes outcome) :
    Keeps plan log [log.versionAfter earlier] (taken.map Change.object) feed outcome := by
  cases resumes with
  | opened phase empty called =>
    refine ⟨.following earlier taken ahead split rfl rfl version (.inr ⟨.inl phase, ?_⟩), ?_, ?_⟩
    · refine ⟨[], ahead, [], rfl, by simp [empty], fun _ => ?_, by simp⟩
      rw [called, version]
      simp only [Feed.hear, log.positionOf_versionAfter split]
      rfl
    · simp [called]
    · intro since opened
      obtain rfl : since = outcome.1.known.version := by simpa [called] using opened
      exact ⟨_, lastVersion?_following log earlier taken, version⟩
  | rested phase uncalled =>
    exact Course.keeps _ uncalled
      (.following earlier taken ahead split rfl rfl version (.inl (.inl phase)))

/-- Working off a list whose version is one of the log keeps the course. -/
theorem keeps_workOff {listing : Listing} {earlier ahead : List Change}
    (split : log.changes = earlier ++ ahead)
    (versioned : listing.version = .ok (.string (log.versionAfter earlier)))
    (pending : List Json) :
    Keeps plan log [log.versionAfter earlier] [] feed (watch.workOff plan listing pending) := by
  have stopped := stopped_workOff plan watch listing pending
  rcases workOff_cases plan watch listing pending versioned with
    ⟨old, new, rest, phase, later, uncalled⟩ | ⟨wasStopped, phase, uncalled⟩ | ⟨version, resumes⟩
  · exact Course.keeps _ uncalled
      (.listing earlier ahead split rfl rfl ⟨old, new, rest, phase, later⟩)
  · exact Course.keeps _ uncalled
      (.left earlier ahead split rfl rfl ⟨stopped.trans wasStopped, .inl phase⟩)
  · exact keeps_of_resumes [] (by simpa using split) (by simpa using version) resumes

/-- A queue in which a stream breaks off holds no more changes, however the feed goes on. -/
theorem Queued.passing {position : Nat} {ahead : List Change} {queue : List Item}
    (queued : Queued plan position ahead feed queue) (item : Item) (passes : item.Passing plan)
    (later : Feed) : Queued plan position ahead later (queue ++ [item]) := by
  obtain ⟨changes, rest, behind, cut, rfl, -, passing⟩ := queued
  refine ⟨changes, rest, behind ++ [item], cut, by simp, by simp, ?_⟩
  cases behind with
  | nil => simpa using passes
  | cons first others => simpa using passing

/-- What a stream brings is queued: the next change behind the others, or what breaks it off. -/
theorem Queued.post {earlier ahead : List Change} {queue : List Item} {item : Item}
    (queued : Queued plan earlier.length ahead feed queue) (split : log.changes = earlier ++ ahead)
    (allowed : feed.broken = false →
      (∃ change ∈ log.changes[feed.position]?, item = change.item) ∨ item.Passing plan) :
    Queued plan earlier.length ahead (feed.bring item) (queue ++ [item]) := by
  have broken := queued.passing item
  obtain ⟨changes, rest, behind, rfl, rfl, onward, passing⟩ := queued
  cases behind with
  | cons first others =>
    exact ⟨changes, rest, first :: others ++ [item], rfl, by simp, by simp, by simpa using passing⟩
  | nil =>
    obtain rfl := onward rfl
    rcases allowed rfl with ⟨change, next, rfl⟩ | passes
    · have ahead : rest.head? = some change := by
        simpa [split, List.getElem?_append_right, List.head?_eq_getElem?] using next
      obtain ⟨others, rfl⟩ := List.head?_eq_some_iff.mp ahead
      have counts : change.item.breaksOff = false := reportsError_of_notice change.given
      refine ⟨changes ++ [change], others, [], by simp, by simp, fun _ => ?_, by simp⟩
      simp [Feed.bring, counts, Nat.add_assoc]
    · exact broken passes _

/-- A stop leaves every course as it is: a queue breaks off there. -/
theorem Course.stop (course : Course plan log listed objects watch feed) :
    Course plan log listed objects (watch.stop plan).1 feed := by
  by_cases stopped : watch.stopped
  · rw [stop_of_stopped plan watch stopped]
    exact course
  have after : (watch.stop plan).1 =
      { watch with stopped := true, queue := watch.queue ++ [.stopped] } := by
    rw [Watch.stop, if_neg stopped]
  rw [after]
  cases course with
  | unlisted none nothing version phase => exact .unlisted none nothing version phase
  | listing earlier ahead split once nothing phase =>
    exact .listing earlier ahead split once nothing phase
  | left earlier ahead split once nothing isOver => exact absurd isOver.stopped stopped
  | following earlier taken ahead split once all version phase =>
    exact .following earlier taken ahead split once all version
      (phase.imp_right fun streams => ⟨streams.1, streams.2.passing .stopped trivial feed⟩)

/-- Whatever streams bring leaves every course as it is. -/
theorem Course.post (course : Course plan log listed objects watch feed) {stream : Nat}
    {item : Item}
    (allowed : (⟨watch, feed⟩ : Connection).Allows plan log (.post stream item)) :
    Course plan log listed objects (watch.post stream item)
      ((⟨watch, feed⟩ : Connection).brought (.post stream item)) := by
  by_cases other : stream ≠ watch.streams
  · simp only [Watch.post, Connection.brought, if_pos other, if_neg other]
    exact course
  have newest : stream = watch.streams := not_not.mp other
  simp only [Watch.post, Connection.brought, if_neg other, if_pos newest]
  cases course with
  | unlisted none nothing version phase => exact .unlisted none nothing version phase
  | listing earlier ahead split once nothing phase =>
    exact .listing earlier ahead split once nothing phase
  | left earlier ahead split once nothing isOver =>
    exact .left earlier ahead split once nothing ⟨isOver.stopped, isOver.phase⟩
  | following earlier taken ahead split once all version phase =>
    refine .following earlier taken ahead split once all version (phase.imp_right ?_)
    rintro ⟨streams, queued⟩
    refine ⟨streams, ?_⟩
    split
    · split
      · exact queued.passing .ended trivial _
      · exact queued.post split (allowed newest)
    · exact queued.post split (allowed newest)

/-- A watch that has no stream goes on to its next cycle. -/
theorem Course.keeps_startCycle (course : Course plan log listed objects watch feed)
    (parked : watch.Parked) (waiting : ¬watch.Over) :
    Keeps plan log listed objects feed watch.startCycle := by
  cases course with
  | unlisted none nothing version phase =>
    have null : watch.known.version.isNull := by rw [version]; rfl
    rw [startCycle, if_pos null]
    exact ⟨.unlisted none nothing version (.inl rfl), fun _ => none, by simp [calls]⟩
  | listing _ _ _ _ _ phase =>
    obtain ⟨old, new, listing, delivering, -⟩ := phase
    exact absurd delivering (parked.ne_delivering old new _)
  | left _ _ _ _ _ isOver => exact absurd isOver waiting
  | following earlier taken ahead split once all version phase =>
    have versioned : ¬watch.known.version.isNull := by rw [version]; simp [Json.isNull]
    obtain ⟨resumes, known⟩ := resumes_openStream watch
    rw [startCycle, if_neg versioned]
    subst once all
    exact keeps_of_resumes taken split (by rw [known, version]) resumes

/-- A watch that waits for a list has not been given one. -/
theorem Course.of_listing (course : Course plan log listed objects watch feed)
    (waits : watch.phase = .listing) :
    listed = [] ∧ objects = [] ∧ watch.known.version = .null := by
  cases course with
  | unlisted none nothing version => exact ⟨none, nothing, version⟩
  | listing _ _ _ _ _ phase =>
    obtain ⟨old, new, listing, delivering, -⟩ := phase
    cases waits.symm.trans delivering
  | left _ _ _ _ _ isOver => exact absurd waits isOver.parked.ne_listing
  | following _ _ _ _ _ _ _ phase =>
    rcases phase with parked | ⟨streams, -⟩
    · exact absurd waits parked.ne_listing
    · exact absurd waits streams.ne_listing

/-- A watch whose list has been left for a delivery has been given one, with a version. -/
theorem Course.of_delivering (course : Course plan log listed objects watch feed)
    {old new : Json} {listing : Listing}
    (waits : watch.phase = .delivering old new (.listing listing)) :
    ∃ earlier ahead, log.changes = earlier ++ ahead ∧ listed = [log.versionAfter earlier] ∧
      objects = [] ∧ listing.version = .ok (.string (log.versionAfter earlier)) := by
  cases course with
  | unlisted _ _ _ phase =>
    rcases phase with called | parked
    · cases waits.symm.trans called
    · exact absurd waits (parked.ne_delivering old new _)
  | listing earlier ahead split once nothing phase =>
    obtain ⟨_, _, _, delivering, versioned⟩ := phase
    cases waits.symm.trans delivering
    exact ⟨earlier, ahead, split, once, nothing, versioned⟩
  | left _ _ _ _ _ isOver => exact absurd waits (isOver.parked.ne_delivering old new _)
  | following _ _ _ _ _ _ _ phase =>
    rcases phase with parked | ⟨streams, -⟩
    · exact absurd waits (parked.ne_delivering old new _)
    · exact absurd waits (streams.ne_delivering old new listing)

/-- A watch that has a stream takes the changes behind its list. -/
theorem Course.of_streams (course : Course plan log listed objects watch feed)
    (streams : watch.Streams) :
    ∃ earlier taken ahead, log.changes = (earlier ++ taken) ++ ahead ∧
      listed = [log.versionAfter earlier] ∧ objects = taken.map Change.object ∧
      watch.known.version = .string (log.versionAfter (earlier ++ taken)) ∧
      Queued plan (earlier ++ taken).length ahead feed watch.queue := by
  cases course with
  | unlisted _ _ _ phase =>
    rcases phase with called | parked
    · exact absurd called streams.ne_listing
    · exact absurd streams parked.not_streams
  | listing _ _ _ _ _ phase =>
    obtain ⟨old, new, listing, delivering, -⟩ := phase
    exact absurd delivering (streams.ne_delivering old new listing)
  | left _ _ _ _ _ isOver => exact absurd streams isOver.parked.not_streams
  | following earlier taken ahead split once all version phase =>
    rcases phase with parked | ⟨-, queued⟩
    · exact absurd streams parked.not_streams
    · exact ⟨earlier, taken, ahead, split, once, all, version, queued⟩

/-- After a failure that may pass the watch sleeps, and knows what it knew. -/
theorem fail_of_retryable (watch : Watch) {error : StoreError} (retryable : error.retryable) :
    watch.fail plan error = ({ watch with failures := watch.failures + 1, phase := .sleeping },
      [.sleep (plan.backoff.wait (watch.failures + 1))]) :=
  if_pos retryable

/-- The answer to a list call brings the list or a repetition of the call. -/
theorem Course.keeps_takeAnswer (course : Course plan log listed objects watch feed)
    (waits : watch.phase = .listing) {outcome : Except Cause Json}
    (allowed : (⟨watch, feed⟩ : Connection).Allows plan log (.listed outcome)) :
    Keeps plan log (listed ++ watch.lists (.listed outcome)) objects feed
      (watch.takeAnswer plan outcome) := by
  obtain ⟨rfl, rfl, unversioned⟩ := course.of_listing waits
  cases outcome with
  | error cause =>
    rw [takeAnswer, fail_of_retryable watch allowed]
    exact Course.keeps _ rfl (.unlisted rfl rfl unversioned (.inr (.inr (.inl rfl))))
  | ok answer =>
    obtain ⟨version, member, given⟩ := allowed
    obtain ⟨earlier, ahead, split, rfl⟩ := log.exists_versionAfter member
    have once : watch.lists (.listed (.ok answer)) = [log.versionAfter earlier] := by
      simp [lists, waits, given]
    rw [once, takeAnswer]
    simp only [listVersion?] at given
    split at given
    · rename_i listing opened
      split at given
      · rename_i version versioned
        obtain rfl := Option.some.inj given
        simp only [opened]
        exact keeps_workOff split versioned listing.pending
      · cases given
    · cases given

/-- The end of a handler lets the watch go on with its list or its stream. -/
theorem Course.keeps_resume (course : Course plan log listed objects watch feed)
    {old new : Json} {next : Continuation} (waits : watch.phase = .delivering old new next)
    (lines : List Line) :
    Keeps plan log listed objects feed (watch.resume plan lines next) := by
  cases next with
  | listing listing =>
    obtain ⟨earlier, ahead, split, rfl, rfl, versioned⟩ := course.of_delivering waits
    have lineless {outcome : Watch × List Effect}
        (kept : Keeps plan log [log.versionAfter earlier] [] feed outcome) :
        Keeps plan log [log.versionAfter earlier] [] feed
          (outcome.1, lines.map .log ++ outcome.2) :=
      ⟨by simpa using kept.course, by simpa using kept.lists, by simpa using kept.streams⟩
    simp only [resume]
    by_cases stopped : watch.stopped
    · rw [if_pos stopped]
      exact lineless (Course.keeps _ rfl (.left earlier ahead split rfl rfl ⟨stopped, .inl rfl⟩))
    · rw [if_neg stopped]
      exact lineless (keeps_workOff split versioned listing.pending)
  | streaming =>
    obtain ⟨earlier, taken, ahead, split, once, all, version, queued⟩ :=
      course.of_streams (.inr ⟨old, new, waits⟩)
    simp only [resume, stayOrLeave]
    by_cases stopped : watch.stopped
    · rw [if_pos stopped]
      exact Course.keeps _ (by simp [rest])
        (.following earlier taken ahead split once all version (.inl (.inl rfl)))
    · rw [if_neg stopped]
      exact Course.keeps _ (by simp)
        (.following earlier taken ahead split once all version (.inr ⟨.inl rfl, queued⟩))

/-- A change that is taken moves the version on to its own. -/
theorem takeEvent_of_change (plan : Plan) (watch : Watch) (change : Change) :
    let outcome := watch.takeEvent plan change.event
    outcome.1.known.version = .string change.version ∧ calls outcome.2 = [] ∧
      (outcome.1.phase = .ready ∨ outcome.1.Streams ∧ outcome.1.queue = watch.queue) := by
  have advanced : (watch.known.advance change.notice.record).version = .string change.version :=
    version_advance change.versioned change.nonEmpty
  unfold takeEvent
  rw [meaning_of_notice change.given]
  rcases recordMeaning_cases watch.known plan.target change.notice.type change.notice.record with
    ⟨next, lines, learned, version⟩ | ⟨next, old, updated, version⟩
  · rw [learned]
    simp only [stayOrLeave]
    by_cases stopped : watch.stopped
    · rw [if_pos stopped]
      exact ⟨version.trans advanced, by simp [rest], .inl rfl⟩
    · rw [if_neg stopped]
      exact ⟨version.trans advanced, by simp, .inr ⟨.inl rfl, rfl⟩⟩
  · rw [updated]
    exact ⟨version.trans advanced, rfl, .inr ⟨.inr ⟨_, _, rfl⟩, rfl⟩⟩

/-- What breaks a stream off is no change, and ends the cycle so that it is repeated. -/
theorem takeItem_of_passing (watch : Watch) {item : Item} (passes : item.Passing plan) :
    let outcome := watch.takeItem plan item
    outcome.1.known = watch.known ∧ calls outcome.2 = [] ∧ outcome.1.Parked := by
  cases item with
  | event sent =>
    obtain ⟨reports, passing⟩ := passes
    obtain ⟨error, meant, retryable⟩ :=
      meaning_of_passing watch.known plan.target reports passing
    simp only [takeItem, takeEvent, meant]
    rw [calls_leave, fail_of_retryable watch retryable]
    exact ⟨by simp [leave, fail_of_retryable watch retryable], rfl,
      .inr (.inl (by simp [leave, fail_of_retryable watch retryable]))⟩
  | failed cause =>
    obtain ⟨retryable, notExpired⟩ := passes
    simp only [takeItem, if_neg notExpired]
    rw [calls_leave, fail_of_retryable watch retryable]
    exact ⟨by simp [leave, fail_of_retryable watch retryable], rfl,
      .inr (.inl (by simp [leave, fail_of_retryable watch retryable]))⟩
  | ended => exact ⟨rfl, rfl, .inl rfl⟩
  | stopped => exact ⟨rfl, rfl, .inl rfl⟩

/-- An error gives no notice. -/
theorem ofEvent?_of_reportsError {event : Json} (reports : reportsError event) :
    Notice.ofEvent? event = none := by
  cases given : Notice.ofEvent? event with
  | none => rfl
  | some notice => simp [reportsError_of_notice given] at reports

/-- The next item of the queue is the next change, which is taken, or breaks the stream off. -/
theorem Course.keeps_take (course : Course plan log listed objects watch feed)
    (waits : watch.phase = .streaming) {item : Item} {queue : List Item}
    (next : watch.queue = item :: queue) :
    Keeps plan log listed (objects ++ objectsOf (watch.reads plan .take)) feed
      ({ watch with queue }.takeItem plan item) := by
  obtain ⟨earlier, taken, ahead, split, rfl, rfl, version, queued⟩ := course.of_streams (.inl waits)
  obtain ⟨changes, rest, behind, rfl, cut, onward, passing⟩ := queued
  rw [next] at cut
  cases changes with
  | nil =>
    have passes : item.Passing plan := by
      apply passing
      rw [← show item :: queue = behind from cut]
      rfl
    have nothing : objectsOf (watch.reads plan .take) = [] := by
      cases item with
      | event sent =>
        obtain ⟨reports, -⟩ := passes
        simp [reads, waits, next, objectsOf, ofEvent?_of_reportsError reports]
      | _ => simp [reads, waits, next]
    obtain ⟨known, uncalled, parked⟩ := takeItem_of_passing { watch with queue } passes
    rw [nothing, List.append_nil]
    exact Course.keeps _ uncalled (.following earlier taken rest split rfl rfl
      (by rw [known]; exact version) (.inl parked))
  | cons change changes =>
    obtain ⟨rfl, rfl⟩ := List.cons.inj cut
    have taking : objectsOf (watch.reads plan .take) = [change.object] := by
      simp [reads, waits, next, Change.item, objectsOf, change.given, Change.object]
    obtain ⟨moved, uncalled, phase⟩ := takeEvent_of_change plan
      { watch with queue := changes.map Change.item ++ behind } change
    have last : log.versionAfter (earlier ++ (taken ++ [change])) = change.version := by
      simp [ChangeLog.versionAfter, ← List.append_assoc]
    rw [taking]
    refine Course.keeps _ uncalled (.following earlier (taken ++ [change]) (changes ++ rest)
      (by simpa using split) rfl (by simp) (by rw [last]; exact moved) ?_)
    rcases phase with ready | ⟨streams, same⟩
    · exact .inl (.inl ready)
    · refine .inr ⟨streams, changes, rest, behind, rfl, same, fun unbroken => ?_, passing⟩
      rw [onward unbroken]
      simp only [List.length_append, List.length_cons, List.length_nil, Feed.mk.injEq, and_true]
      omega

/-- A watch that ends keeps its course. -/
theorem Course.finish (course : Course plan log listed objects watch feed)
    (waits : watch.phase = .ready) (ending : Ending) :
    Course plan log listed objects (watch.finish plan ending).1 feed := by
  cases course with
  | unlisted none nothing version phase =>
    exact .unlisted none nothing version (.inr (.inr (.inr ⟨ending, rfl⟩)))
  | listing _ _ _ _ _ phase =>
    obtain ⟨_, _, _, phase, -⟩ := phase
    cases waits.symm.trans phase
  | left earlier ahead split once nothing isOver =>
    exact .left earlier ahead split once nothing ⟨isOver.stopped, .inr ⟨ending, rfl⟩⟩
  | following earlier taken ahead split once all version phase =>
    exact .following earlier taken ahead split once all version (.inl (.inr (.inr ⟨ending, rfl⟩)))

/-- Only an item of a stream brings an object. -/
theorem objectsOf_reads {move : Move} (other : move ≠ .take) :
    objectsOf (watch.reads plan move) = [] := by
  unfold reads
  split
  · exact absurd rfl other
  · split
    · exact objectsOf_readOf _ _ _
    · rfl
  · split
    · rfl
    · exact objectsOf_readOf _ _ _
  · rfl

/-- Every move that a server with a log can make keeps the course. -/
theorem Course.keeps_step (course : Course plan log listed objects watch feed) {move : Move}
    (allowed : (⟨watch, feed⟩ : Connection).Allows plan log move) :
    Keeps plan log (listed ++ watch.lists move) (objects ++ objectsOf (watch.reads plan move))
      ((⟨watch, feed⟩ : Connection).brought move) (watch.step plan move) := by
  have still : Keeps plan log (listed ++ []) objects feed (watch, []) := by
    simpa using Course.keeps (watch, []) rfl course
  by_cases takes : move = .take
  · subst takes
    cases phase : watch.phase with
    | streaming =>
      cases next : watch.queue with
      | nil => simpa [step, lists, reads, phase, next, Connection.brought] using still
      | cons item queue =>
        simpa only [step, lists, phase, next, List.append_nil, Connection.brought] using
          course.keeps_take phase next
    | _ => simpa [step, lists, reads, phase, Connection.brought] using still
  rw [objectsOf_reads takes, List.append_nil]
  cases move with
  | take => exact absurd rfl takes
  | stop =>
    simpa [step, lists, Connection.brought] using
      Course.keeps _ (calls_stop plan watch) course.stop
  | post stream item =>
    have posted := Course.keeps (watch.post stream item, []) rfl (course.post allowed)
    simpa [step, lists] using posted
  | proceed =>
    cases phase : watch.phase with
    | ready =>
      simp only [step, lists, phase, List.append_nil, Connection.brought]
      by_cases stopped : watch.stopped
      · rw [if_pos stopped]
        exact Course.keeps _ rfl (course.finish phase .stopped)
      · rw [if_neg stopped]
        exact course.keeps_startCycle (.inl phase) fun isOver => stopped isOver.stopped
    | _ => simpa only [step, lists, phase, Connection.brought] using still
  | listed outcome =>
    cases phase : watch.phase with
    | listing =>
      simpa only [step, phase, Connection.brought] using course.keeps_takeAnswer phase allowed
    | _ => cases outcome <;> simpa only [step, lists, phase, Connection.brought] using still
  | handled failure =>
    cases phase : watch.phase with
    | delivering old new next =>
      simpa only [step, lists, phase, List.append_nil, Connection.brought] using
        course.keeps_resume phase _
    | _ => simpa only [step, lists, phase, Connection.brought] using still
  | slept =>
    cases phase : watch.phase with
    | sleeping =>
      have notOver : ¬watch.Over := by
        intro isOver
        rcases isOver.phase with other | ⟨_, other⟩ <;> cases phase.symm.trans other
      simpa only [step, lists, phase, List.append_nil, Connection.brought] using
        course.keeps_startCycle (.inr (.inl phase)) notOver
    | _ => simpa only [step, lists, phase, Connection.brought] using still

variable (plan)

/-- The versions of all lists that a watch is given during some moves. -/
abbrev allLists (watch : Watch) (moves : List Move) : List String :=
  Machine.trace (step plan) lists watch moves

/-- All objects that a watch takes from its streams during some moves, in order. -/
def allObjects (watch : Watch) (moves : List Move) : List Json :=
  objectsOf (watch.observations plan moves)

variable {plan}

/-- The course of a watch that has just been started. -/
theorem course_start (plan : Plan) (log : ChangeLog) : Course plan log [] [] ({} : Watch) {} :=
  .unlisted rfl rfl rfl (.inr (.inl rfl))

/-- A run that is served by a log keeps the course. -/
theorem Course.run (connection : Connection)
    (course : Course plan log listed objects connection.watch connection.feed) {moves : List Move}
    (served : connection.Served plan log moves) :
    Course plan log (listed ++ connection.watch.allLists plan moves)
      (objects ++ connection.watch.allObjects plan moves)
      (connection.run plan log moves).1.watch (connection.run plan log moves).1.feed := by
  induction moves generalizing connection listed objects with
  | nil => simpa [allObjects] using course
  | cons move moves inductionHypothesis =>
    obtain ⟨allowed, rest⟩ := Connection.served_cons.mp served
    have kept := course.keeps_step allowed
    have later := inductionHypothesis (connection.step plan log move).1 kept.course rest
    simpa only [Connection.run, Connection.watch_step, allLists, allObjects, observations,
      Machine.trace, Machine.run_cons, objectsOf_append, List.append_assoc] using later

/-- A run that is served by a log has kept the course after its first moves and the next one. -/
theorem keeps_of_served {front back : List Move} {move : Move}
    (served : ({} : Connection).Served plan log (front ++ move :: back)) :
    ∃ feed, Keeps plan log (({} : Watch).allLists plan (front ++ [move]))
      (({} : Watch).allObjects plan (front ++ [move])) feed
      ((({} : Watch).run plan front).1.step plan move) := by
  have course := (course_start plan log).run {} served.front
  have kept := course.keeps_step (served front move back rfl)
  have lists : [] ++ ({} : Watch).allLists plan front ++
      (({} : Watch).run plan front).1.lists move = ({} : Watch).allLists plan (front ++ [move]) := by
    simp [allLists, Machine.trace_append]
  have objects : [] ++ ({} : Watch).allObjects plan front ++
      objectsOf ((({} : Watch).run plan front).1.reads plan move) =
      ({} : Watch).allObjects plan (front ++ [move]) := by
    simp [allObjects, Machine.trace_append]
  rw [Connection.watch_run, lists, objects] at kept
  exact ⟨_, kept⟩

variable (plan)

/-- A run of a watch takes the changes of a log once and in order. -/
structure TakesOnce (log : ChangeLog) (moves : List Move) : Prop where
  /-- No list is asked for once one has succeeded. -/
  lists : ∀ front move back, moves = front ++ move :: back →
    .list ∈ calls ((({} : Watch).run plan front).1.step plan move).2 →
      ({} : Watch).allLists plan (front ++ [move]) = []
  /-- Every stream is opened after the last object that was taken, and before the first one after
      the list. -/
  streams : ∀ front move back, moves = front ++ move :: back →
    ∀ since, .stream since ∈ calls ((({} : Watch).run plan front).1.step plan move).2 →
      ∃ version, lastVersion? (({} : Watch).allLists plan (front ++ [move]))
        (({} : Watch).allObjects plan (front ++ [move])) = some version ∧ since = .string version
  /-- The objects of all streams together are the first ones behind the list. -/
  objects : ({} : Watch).allLists plan moves = [] ∧ ({} : Watch).allObjects plan moves = [] ∨
    ∃ version, ({} : Watch).allLists plan moves = [version] ∧
      ({} : Watch).allObjects plan moves <+: log.objectsAfter version
  /-- Once the queue of a stream has been worked off, all that it has brought has been taken. -/
  complete : (({} : Watch).run plan moves).1.phase = .streaming →
    (({} : Watch).run plan moves).1.queue = [] →
      ∃ version, ({} : Watch).allLists plan moves = [version] ∧
        log.positionOf (.string version) + (({} : Watch).allObjects plan moves).length =
          (({} : Connection).run plan log moves).1.feed.position

/-- Every run of a watch that is served by a log takes its changes once and in order, whatever
    streams break off, lists fail, handlers fail, and a stop do in between. -/
theorem takes_once (log : ChangeLog) (moves : List Move)
    (served : ({} : Connection).Served plan log moves) : TakesOnce plan log moves := by
  have course := (course_start plan log).run {} served
  rw [Connection.watch_run, List.nil_append, List.nil_append] at course
  constructor
  · intro front move back split called
    obtain ⟨feed, kept⟩ := keeps_of_served (split ▸ served)
    exact kept.lists called
  · intro front move back split since called
    obtain ⟨feed, kept⟩ := keeps_of_served (split ▸ served)
    exact kept.streams since called
  · cases course with
    | unlisted none nothing => exact .inl ⟨none, nothing⟩
    | listing earlier _ _ once nothing =>
      exact .inr ⟨_, once, by rw [nothing]; exact List.nil_prefix⟩
    | left earlier _ _ once nothing =>
      exact .inr ⟨_, once, by rw [nothing]; exact List.nil_prefix⟩
    | following earlier taken ahead split once all =>
      refine .inr ⟨_, once, ?_⟩
      rw [log.objectsAfter_versionAfter (by rw [split, List.append_assoc]), List.map_append]
      exact ⟨_, by rw [all]⟩
  · intro streaming empty
    obtain ⟨earlier, taken, ahead, split, once, all, -, queued⟩ :=
      course.of_streams (.inl streaming)
    obtain ⟨changes, rest, behind, -, queue, onward, -⟩ := queued
    obtain ⟨none, nothing⟩ := List.append_eq_nil_iff.mp (queue.symm.trans empty)
    refine ⟨_, once, ?_⟩
    rw [onward nothing, all, log.positionOf_versionAfter (by rw [split, List.append_assoc])]
    simp [List.map_eq_nil_iff.mp none]

/-- The modification of a record to a version. -/
def sampleChange (version : String) (nonEmpty : version ≠ "") : Change where
  event := .object [("type", .string "MODIFIED"),
    ("object", .object [("metadata", .object [("resourceVersion", .string version)])])]
  notice := ⟨.string "MODIFIED",
    .object [("metadata", .object [("resourceVersion", .string version)])]⟩
  version
  given := rfl
  versioned := rfl
  nonEmpty

/-- A log of two changes. -/
def sampleLog : ChangeLog where
  origin := "1"
  changes := [sampleChange "2" (by decide), sampleChange "3" (by decide)]
  distinct := by decide

/-- A stream reports an error between two changes. The second one, which was queued behind the
    error, is brought again by the next stream, which is opened after the first. -/
theorem takes_once_across_error :
    let plan : Plan := ⟨⟨.gameServer, "default", "gs"⟩, none⟩
    let answer : Json := .object [("metadata", .object [("resourceVersion", .string "1")])]
    let error : Json :=
      .object [("type", .string "ERROR"), ("object", .object [("code", .int 500)])]
    let moves : List Move := [.proceed, .listed (.ok answer),
      .post 1 (sampleChange "2" (by decide)).item, .post 1 (.event error),
      .post 1 (sampleChange "3" (by decide)).item, .take, .take, .slept,
      .post 2 (sampleChange "3" (by decide)).item, .take]
    TakesOnce plan sampleLog moves ∧
      ({} : Watch).allObjects plan moves = sampleLog.changes.map Change.object := by
  intro plan answer error moves
  have served : ({} : Connection).Served plan sampleLog moves := by decide +kernel
  exact ⟨takes_once plan sampleLog moves served, by decide +kernel⟩

end Watch
end GameSidecar
