import GameSidecar.Proofs.Handover

/-!
# The classes of replies to heartbeats

A heartbeat is answered in one of four ways. Its body may not decode, or a field of it may be empty;
then it is rejected at once. Else it is handled and answered with the failure of its patch or with
the session. Which of these it is depends on nothing but the body and the outcomes of its patches,
as long as the session consists of texts. That it does so is kept by whatever the reconciler does.
-/

namespace GameSidecar

namespace Session

/-- The session consists of texts. -/
structure HoldsTexts (session : Session) : Prop where
  sessionId : ∃ text, session.sessionId = .string text
  sessionCookie : ∃ text, session.sessionCookie = .string text
  players : ∀ players, session.initialPlayers = some players →
    ∃ texts : List String, players = texts.map .string

/-- The session at first consists of texts. -/
theorem holdsTexts_initial : HoldsTexts {} :=
  ⟨⟨"", rfl⟩, ⟨"", rfl⟩, nofun⟩

/-- The session that is made for an allocation consists of texts. -/
theorem holdsTexts_session (found : Credentials) (players : List String) :
    (Allocator.session found players).HoldsTexts :=
  ⟨⟨_, rfl⟩, ⟨_, rfl⟩, fun _ same => ⟨players, (Option.some.inj same).symm⟩⟩

/-- What is held after a session of texts is published consists of texts. -/
theorem HoldsTexts.publish {current published : Session} (held : current.HoldsTexts)
    (new : published.HoldsTexts) : (current.publish published).HoldsTexts := by
  rw [publish_eq]
  split
  · exact new
  · exact held

/-- A session of texts can always be given in an answer. -/
theorem HoldsTexts.answer {session : Session} (held : session.HoldsTexts) :
    ∃ answer, Answer.ofSession session = .ok answer := by
  obtain ⟨⟨sessionId, first⟩, ⟨sessionCookie, second⟩, named⟩ := held
  have players : ∃ texts, Answer.playersField session.initialPlayers = .ok texts := by
    cases which : session.initialPlayers with
    | none => exact ⟨none, rfl⟩
    | some players =>
      obtain ⟨texts, rfl⟩ := named players which
      refine ⟨some texts, ?_⟩
      simp only [Answer.playersField, Answer.playersFrom_texts, Answer.all_ok]
      rfl
  obtain ⟨texts, third⟩ := players
  simp only [Answer.ofSession, first, second, third]
  exact ⟨_, rfl⟩

end Session

namespace Reconciler

variable (plan : Watch.Plan) {reconciler : Reconciler}

/-- The session consists of texts after some actions of an allocator, if those among them do. -/
theorem holdsTexts_performAll {actions : List Allocator.Action}
    (held : reconciler.session.HoldsTexts)
    (published : ∀ session, .publish session ∈ actions → session.HoldsTexts) :
    (reconciler.performAll plan actions).1.session.HoldsTexts := by
  induction actions generalizing reconciler with
  | nil => exact held
  | cons action actions inductionHypothesis =>
    have next : (reconciler.perform plan action).1.session.HoldsTexts := by
      cases action with
      | publish session => exact held.publish (published session List.mem_cons_self)
      | stop => simpa [perform] using held
      | _ => exact held
    exact inductionHypothesis next fun session member => published session (.tail _ member)

/-- The session consists of texts after a review, if what that publishes does. -/
theorem holdsTexts_adopt {reviewed : Allocator × List Allocator.Action}
    (held : reconciler.session.HoldsTexts)
    (published : ∀ session, .publish session ∈ reviewed.2 → session.HoldsTexts) :
    (reconciler.adopt plan reviewed).1.session.HoldsTexts := by
  have acted : ({ reconciler with allocator := reviewed.1 }.performAll plan
      reviewed.2).1.session.HoldsTexts := holdsTexts_performAll plan held published
  simpa [adopt] using acted

/-- The review of an update publishes nothing. -/
theorem publish_not_mem_review (allocator : Allocator) (old new : Json) (session : Session) :
    .publish session ∉ (allocator.review old new).2 := by
  unfold Allocator.review
  split
  · simp
  · split
    · simp
    · simp
    · unfold Allocator.reviewStates
      split <;> simp
    · simp

/-- What is published with the answer to a read consists of texts. -/
theorem holdsTexts_of_mem_complete {allocator : Allocator}
    {outcome : Except StoreError (Option Json)} {session : Session}
    (member : .publish session ∈ (allocator.complete outcome).2) : session.HoldsTexts := by
  unfold Allocator.complete at member
  split at member
  · simp at member
  · next found _ =>
    obtain rfl : session = Allocator.session found (allocator.players outcome).1 := by
      simpa using member
    exact Session.holdsTexts_session found _

/-- Whatever the records hold, a session of texts stays one. -/
theorem holdsTexts_step (held : reconciler.session.HoldsTexts) (move : Move) :
    (reconciler.step plan move).1.session.HoldsTexts := by
  have reviewed (old new : Json) :
      (reconciler.adopt plan (reconciler.allocator.review old new)).1.session.HoldsTexts :=
    holdsTexts_adopt plan held fun session member =>
      absurd member (publish_not_mem_review _ old new session)
  unfold step
  cases move with
  | start => dsimp only; split <;> exact held
  | watch move =>
    cases move with
    | handled failure => exact held
    | _ => simpa using held
  | update old new => exact reviewed old new
  | review =>
    dsimp only
    split
    · exact held
    · split
      · exact held
      · exact reviewed _ _
  | read outcome =>
    dsimp only
    split
    · exact held
    · exact holdsTexts_adopt plan held fun session member => holdsTexts_of_mem_complete member

end Reconciler

namespace Heartbeat

namespace Request

/-- A body that is no heartbeat at all: it is blank, or it does not decode. -/
def IsUnread (body : ByteArray) : Prop :=
  isBlank body = true ∨ ∀ request, decode body ≠ Except.ok request

/-- The fields of a heartbeat that are empty and must not be, the health first. -/
def emptyFields (request : Request) : List String :=
  (if request.health = "" then ["CurrentGameHealth"] else []) ++
    (if request.state = none then ["CurrentGameState"] else [])

/-- What is said about the empty fields of a heartbeat: each of them is named. -/
def emptyObjection (request : Request) : String :=
  " - ".intercalate (request.emptyFields.map fun field => field ++ " cannot be empty")

/-- Whether a body is rejected: it is no heartbeat at all, or a field of it is empty. -/
def isRejected (body : ByteArray) : Bool :=
  isBlank body ||
    match decode body with
    | Except.ok request => !request.emptyFields.isEmpty
    | Except.error _ => true

/-- A request without empty fields is made into a report, and any other one into an objection. -/
theorem ofRequest_cases (request : Request) :
    (request.emptyFields ≠ [] ∧ Report.ofRequest request = .error request.emptyObjection) ∨
      (request.emptyFields = [] ∧ ∃ report, Report.ofRequest request = .ok report) := by
  obtain ⟨state, health, players⟩ := request
  by_cases empty : health = "" <;> cases state <;>
    simp [Report.ofRequest, Report.objection, emptyFields, emptyObjection, empty]

end Request

end Heartbeat

namespace Endpoint

/-- The reply to a body that is no heartbeat at all. -/
def Reply.IsUndecodable (reply : Reply) : Prop :=
  reply = .emptyBody ∨ ∃ faults, reply = .undecodable faults

open Heartbeat.Request (isBlank decode IsUnread isRejected) in
/-- A body is rejected because it is no heartbeat at all or because fields of it are empty, or it is
    admitted. -/
theorem receiveBody_cases (host : String) (body : ByteArray) :
    (IsUnread body ∧ isRejected body = true ∧ ∃ reply : Reply, reply.IsUndecodable ∧
      receiveBody host body = .replied reply []) ∨
    (¬IsUnread body ∧ isRejected body = true ∧ ∃ request lines,
      decode body = Except.ok request ∧ request.emptyFields ≠ [] ∧
      receiveBody host body = .replied (.invalid request.emptyObjection) lines) ∨
    (¬IsUnread body ∧ isRejected body = false ∧ ∃ request report,
      decode body = Except.ok request ∧ request.emptyFields = [] ∧
      receiveBody host body = .admitted host report) := by
  unfold receiveBody isRejected
  by_cases blank : isBlank body = true
  · exact .inl ⟨.inl blank, by simp [blank], .emptyBody, .inl rfl, by rw [if_pos blank]⟩
  · rw [if_neg blank]
    have given : isBlank body = false := by simpa using blank
    cases decoded : (decode body : Except (List Fault) Heartbeat.Request) with
    | error faults =>
      have unread (request : Heartbeat.Request) : decode body ≠ Except.ok request :=
        fun read => nomatch decoded.symm.trans read
      exact .inl ⟨.inr unread, by simp, .undecodable faults, .inr ⟨faults, rfl⟩, rfl⟩
    | ok request =>
      have read : ¬IsUnread body := by
        rintro (blank | unread)
        · exact nomatch given.symm.trans blank
        · exact unread request decoded
      rcases Heartbeat.Request.ofRequest_cases request with ⟨lacks, failed⟩ | ⟨full, report, made⟩
      · exact .inr (.inl ⟨read, by simpa [given] using lacks, request, _, rfl, lacks,
          by simp only [failed]; rfl⟩)
      · exact .inr (.inr ⟨read, by simpa [given] using full, request, report, rfl, full,
          by simp only [made]⟩)

/-- A patch of a heartbeat that was tried, with its outcome. -/
structure Attempt where
  aspect : Heartbeat.Aspect
  patch : Api.Patch
  outcome : Except Cause Unit

/-- What the store says about an attempt that failed for a cause. -/
def Attempt.message (attempt : Attempt) (cause : Cause) : String :=
  (cause.toError ("patch " ++ attempt.patch.describe)).message

/-- A reply is of the one class that the body of the heartbeat and the outcomes of its patches ask
    for. -/
structure Reply.Classified (body : ByteArray) (attempts : List Attempt) (reply : Reply) : Prop where
  /-- It says that the body cannot be read exactly if that is so. -/
  unread : reply.IsUndecodable ↔ Heartbeat.Request.IsUnread body
  /-- It names some fields as empty exactly if those are all that are. -/
  lacking : ∀ objection, reply = .invalid objection ↔
    ¬Heartbeat.Request.IsUnread body ∧ ∃ request,
      Heartbeat.Request.decode body = Except.ok request ∧ request.emptyFields ≠ [] ∧
      objection = request.emptyObjection
  /-- It reports the failure of a patch exactly if that patch was tried and failed so. -/
  failing : ∀ (aspect : Heartbeat.Aspect) (message : String),
    reply = .refusal 500 ("error updating " ++ aspect.label ++ ": " ++ message) ↔
      ∃ attempt ∈ attempts, attempt.aspect = aspect ∧
        ∃ cause, attempt.outcome = .error cause ∧ message = attempt.message cause
  /-- Else, and only else, it is a success. -/
  succeeding : reply.status = 200 ↔ ¬Heartbeat.Request.IsUnread body ∧
    (∀ request, Heartbeat.Request.decode body = Except.ok request → request.emptyFields = []) ∧
    ∀ attempt ∈ attempts, attempt.outcome = .ok ()
  /-- It does not break off. -/
  handled : reply ≠ .broken

/-- Refusals with different texts are different. -/
theorem Reply.refusal_inj {status : Nat} {text other : String}
    (same : Reply.refusal status text = Reply.refusal status other) : text = other := by
  simpa [refusal, ofValue] using same

/-- A body that cannot be read is answered with status 400. -/
theorem Reply.status_of_isUndecodable {reply : Reply} (undecodable : reply.IsUndecodable) :
    reply.status = 400 := by
  rcases undecodable with rfl | ⟨faults, rfl⟩ <;> rfl

/-- A body with empty fields is not reported as one that cannot be read. -/
theorem Reply.invalid_not_isUndecodable (objection : String) :
    ¬(Reply.invalid objection).IsUndecodable := by
  rintro (same | ⟨faults, same⟩)
  · have texts := congrArg (fun text : String => text.toList.head?) (refusal_inj same)
    simp [toString] at texts
  · cases same

/-- Different objections give different replies. -/
theorem Reply.invalid_inj {objection other : String}
    (same : Reply.invalid objection = Reply.invalid other) : objection = other := by
  have texts := congrArg String.toList (refusal_inj same)
  exact String.toList_inj.mp (by simpa [toString] using texts)

/-- The text of a failure tells the aspect and the message of its patch. -/
theorem failure_text_inj {aspect other : Heartbeat.Aspect} {message another : String}
    (same : "error updating " ++ aspect.label ++ ": " ++ message =
      "error updating " ++ other.label ++ ": " ++ another) :
    aspect = other ∧ message = another := by
  have initial := congrArg (fun text : String => text.toList[15]?) same
  cases aspect <;> cases other
  · exact ⟨rfl, by simpa using same⟩
  · simp [Heartbeat.Aspect.label] at initial
  · simp [Heartbeat.Aspect.label] at initial
  · exact ⟨rfl, by simpa using same⟩

section Classes

variable {body : ByteArray} {reply : Reply} {attempts : List Attempt}
  {request : Heartbeat.Request}

/-- Whatever refuses a body that cannot be read is classified. -/
theorem Reply.Classified.of_unread (unread : Heartbeat.Request.IsUnread body)
    (refused : reply.IsUndecodable) : reply.Classified body [] := by
  have status := Reply.status_of_isUndecodable refused
  refine ⟨iff_of_true refused unread, fun objection => ?_, fun aspect message => ?_, ?_, ?_⟩
  · refine iff_of_false ?_ fun other => other.1 unread
    rintro rfl
    exact Reply.invalid_not_isUndecodable objection refused
  · refine iff_of_false ?_ (by simp)
    rintro rfl
    exact nomatch status
  · exact iff_of_false (by simp [status]) fun other => other.1 unread
  · rintro rfl
    exact absurd status (by decide)

/-- The reply to a request with empty fields names all of them, and is classified. -/
theorem Reply.Classified.of_lacking (read : ¬Heartbeat.Request.IsUnread body)
    (decoded : Heartbeat.Request.decode body = Except.ok request)
    (lacks : request.emptyFields ≠ []) :
    (Reply.invalid request.emptyObjection).Classified body [] := by
  have only {other : Heartbeat.Request} (again : Heartbeat.Request.decode body = Except.ok other) :
      other = request := Except.ok.inj (again.symm.trans decoded)
  refine ⟨iff_of_false (Reply.invalid_not_isUndecodable _) read, fun objection => ?_,
    fun aspect message => iff_of_false nofun (by simp), iff_of_false nofun ?_, nofun⟩
  · constructor
    · intro same
      exact ⟨read, request, decoded, lacks, (Reply.invalid_inj same).symm⟩
    · rintro ⟨-, other, again, -, rfl⟩
      rw [only again]
  · rintro ⟨-, full, -⟩
    exact lacks (full request decoded)

/-- The end of a heartbeat whose patches have been tried: it is a success, or it reports the failure
    of the last patch. -/
inductive Ends (attempts : List Attempt) : Reply → Prop
  | well {value : Json} (accepted : ∀ attempt ∈ attempts, attempt.outcome = .ok ()) :
    Ends attempts (.ofValue 200 value)
  | badly {front : List Attempt} {last : Attempt} {cause : Cause}
      (accepted : ∀ attempt ∈ front, attempt.outcome = .ok ()) (tried : attempts = front ++ [last])
      (failed : last.outcome = .error cause) :
    Ends attempts (.refusal 500 ("error updating " ++ last.aspect.label ++ ": " ++
      last.message cause))

/-- A heartbeat that goes on after patches that were accepted ends as it does then. -/
theorem Ends.after {earlier : List Attempt}
    (accepted : ∀ attempt ∈ earlier, attempt.outcome = .ok ()) (ends : Ends attempts reply) :
    Ends (earlier ++ attempts) reply := by
  cases ends with
  | well others => exact .well (List.forall_mem_append.mpr ⟨accepted, others⟩)
  | badly others tried failed =>
    refine .badly (List.forall_mem_append.mpr ⟨accepted, others⟩) ?_ failed
    rw [tried, List.append_assoc]

/-- What a patch has come to is said in the reply as the end of its heartbeat asks for. -/
theorem Ends.of_failure {attempt : Attempt} {cause : Cause}
    (failed : attempt.outcome = .error cause) :
    Ends [attempt]
      (.failed ⟨attempt.aspect, cause.toError ("patch " ++ attempt.patch.describe)⟩) := by
  have text (failure : Heartbeat.Failure) : Reply.failed failure =
      .refusal 500 ("error updating " ++ failure.aspect.label ++ ": " ++ failure.error.message) :=
    rfl
  rw [text]
  exact .badly (List.forall_mem_nil _) (List.nil_append _).symm failed

/-- What a heartbeat that was admitted ends with is of the class that is asked for. -/
theorem Ends.classified (ends : Ends attempts reply) (read : ¬Heartbeat.Request.IsUnread body)
    (decoded : Heartbeat.Request.decode body = Except.ok request)
    (full : request.emptyFields = []) : reply.Classified body attempts := by
  have only {other : Heartbeat.Request} (again : Heartbeat.Request.decode body = Except.ok other) :
      other = request := Except.ok.inj (again.symm.trans decoded)
  have admitted : ¬∃ other, Heartbeat.Request.decode body = Except.ok other ∧
      other.emptyFields ≠ [] := by
    rintro ⟨other, again, lacks⟩
    exact lacks (only again ▸ full)
  have unlike (objection : String) (differs : reply ≠ .invalid objection) :
      reply = .invalid objection ↔ ¬Heartbeat.Request.IsUnread body ∧ ∃ request,
        Heartbeat.Request.decode body = Except.ok request ∧ request.emptyFields ≠ [] ∧
        objection = request.emptyObjection :=
    iff_of_false differs fun other => admitted <| by
      obtain ⟨-, request, again, lacks, -⟩ := other
      exact ⟨request, again, lacks⟩
  have status (undecodable : reply.IsUndecodable) := Reply.status_of_isUndecodable undecodable
  cases ends with
  | well accepted =>
    refine ⟨iff_of_false (fun other => nomatch status other) read,
      fun objection => unlike objection nofun, fun aspect message => iff_of_false nofun ?_,
      iff_of_true rfl ⟨read, fun other again => only again ▸ full, accepted⟩, nofun⟩
    rintro ⟨attempt, member, -, cause, failed, -⟩
    exact nomatch (accepted attempt member).symm.trans failed
  | @badly front last cause accepted tried failed =>
    have mem : last ∈ attempts := by simp [tried]
    refine ⟨iff_of_false (fun other => nomatch status other) read,
      fun objection => unlike objection nofun, fun aspect message => ?_,
      iff_of_false nofun ?_, ?_⟩
    · constructor
      · intro same
        obtain ⟨rfl, rfl⟩ := failure_text_inj (Reply.refusal_inj same)
        exact ⟨last, mem, rfl, cause, failed, rfl⟩
      · rintro ⟨attempt, member, rfl, other, failedSo, rfl⟩
        have which : attempt = last := by
          rw [tried] at member
          rcases List.mem_append.mp member with early | late
          · exact nomatch (accepted attempt early).symm.trans failedSo
          · exact List.mem_singleton.mp late
        subst which
        obtain rfl := Except.error.inj (failed.symm.trans failedSo)
        rfl
    · rintro ⟨-, -, allAccepted⟩
      exact nomatch (allAccepted last mem).symm.trans failed
    · exact Reply.failed_ne_broken ⟨last.aspect, cause.toError ("patch " ++ last.patch.describe)⟩

end Classes

/-- The reply with which a heartbeat ends. -/
def replyOf (session : Session) : Except Heartbeat.Failure Unit → Reply
  | .error failure => .failed failure
  | .ok () =>
    match Answer.ofSession session with
    | .ok answer => .ofValue 200 answer.toJson
    | .error _ => .broken

/-- A heartbeat is replied to by how it has ended and by the session. -/
theorem conclude_fst (request : Request) (session : Session)
    (result : Except Heartbeat.Failure Unit) :
    (conclude request session result).1 = replyOf session result := by
  cases result with
  | error failure => rfl
  | ok =>
    simp only [conclude, replyOf]
    cases Answer.ofSession session <;> rfl

end Endpoint

end GameSidecar
