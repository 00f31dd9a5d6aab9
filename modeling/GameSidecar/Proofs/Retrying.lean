import GameSidecar.Proofs.Waiting

/-!
# How a call is retried

A call is attempted again after every failure that is not for good, as long as its policy does not
count the attempts as used up. The first attempt that is not followed by another one is its final
one, and the outcome of that attempt is the result of the call, whatever it is. The call waits
before every other attempt, and not after the final one.

Outcomes are given for all attempts that could be made, numbered from one on. How many of them are
looked at is decided by the policy and by the outcomes themselves.
-/

namespace GameSidecar.RetryPolicy

variable {ε α : Type}

/-- The outcomes of the first attempts, in order. -/
def firstOf (outcomes : Nat → Except ε α) (count : Nat) : List (Except ε α) :=
  (List.range' 1 count).map outcomes

/-- Whether an outcome is a success, or a failure for good. -/
def settles (retryable : ε → Bool) : Except ε α → Bool
  | .ok _ => true
  | .error cause => !retryable cause

/-- An attempt is the last one within a limit: it settles the call or reaches the limit, and no
    earlier one has settled the call. -/
structure IsLast (limit : Option Nat) (retryable : ε → Bool) (outcomes : Nat → Except ε α)
    (attempt : Nat) : Prop where
  made : 0 < attempt
  within : ∀ most ∈ limit, attempt ≤ most
  ends : settles retryable (outcomes attempt) = true ∨ limit = some attempt
  earliest : ∀ earlier, 0 < earlier → earlier < attempt →
    settles retryable (outcomes earlier) = false

/-- The seconds that are laid down between an attempt and the next one: a power of the base, bounded
    by the cap, and then by the floor or zero. -/
def laidDown (floor cap base : Rat) (attempt : Nat) : Rat :=
  max (max 0 floor) (min (base ^ (attempt - 1)) cap)

/-- The seconds that are laid down after the first attempts, in order. -/
def schedule (floor cap base : Rat) (count : Nat) : List Rat :=
  (List.range' 1 count).map (laidDown floor cap base)

variable (policy : RetryPolicy) (retryable : ε → Bool) (outcomes : Nat → Except ε α)

/-- An attempt is followed by another one. -/
def IsRepeated (attempt : Nat) : Prop :=
  settles retryable (outcomes attempt) = false ∧ policy.isExhausted attempt = false

/-- An attempt is the first one that is not followed by another one. -/
structure IsFinal (attempt : Nat) : Prop where
  made : 0 < attempt
  unrepeated : ¬policy.IsRepeated retryable outcomes attempt
  earlier : ∀ earlier, 0 < earlier → earlier < attempt →
    policy.IsRepeated retryable outcomes earlier

/-- A call ends after some attempts, whatever further ones would bring. -/
def EndsAfter (attempts : Nat) : Prop :=
  ∀ count, attempts ≤ count → ∃ waits result,
    policy.course retryable (firstOf outcomes count) = ⟨attempts, waits, some result⟩

/-- A failure is followed by another attempt, unless it is for good or the attempts are used up. -/
theorem next_eq (attempt : Nat) (outcome : Except ε α) :
    policy.next retryable attempt outcome =
      if settles retryable outcome || policy.isExhausted attempt then .finish outcome
      else .again (policy.backoff.wait attempt) := by
  cases outcome <;> rfl

variable {policy retryable outcomes}

/-- A failure that is repeated is followed by a wait. -/
theorem IsRepeated.next {attempt : Nat} (repeated : policy.IsRepeated retryable outcomes attempt) :
    policy.next retryable attempt (outcomes attempt) = .again (policy.backoff.wait attempt) := by
  simp [next_eq, repeated.1, repeated.2]

/-- An outcome that is not repeated is the result. -/
theorem next_of_not_isRepeated {attempt : Nat}
    (unrepeated : ¬policy.IsRepeated retryable outcomes attempt) :
    policy.next retryable attempt (outcomes attempt) = .finish (outcomes attempt) := by
  rw [next_eq, if_pos]
  by_contra onward
  simp only [Bool.or_eq_true, not_or, Bool.not_eq_true] at onward
  exact unrepeated onward

/-- Attempts that are repeated are made one after the other, with a wait after each of them. -/
theorem courseFrom_of_isRepeated (made count : Nat) (later : List (Except ε α))
    (repeated : ∀ attempt ∈ List.range' (made + 1) count,
      policy.IsRepeated retryable outcomes attempt) :
    policy.courseFrom retryable made ((List.range' (made + 1) count).map outcomes ++ later) =
      let course := policy.courseFrom retryable (made + count) later
      { course with
        waits := (List.range' (made + 1) count).map policy.backoff.wait ++ course.waits } := by
  induction count generalizing made with
  | zero => simp
  | succ count inductionHypothesis =>
    have first : policy.IsRepeated retryable outcomes (made + 1) := repeated _ (by simp)
    have onward := inductionHypothesis (made + 1) fun attempt among =>
      repeated attempt (by simp [List.range'_succ, among])
    have sum : made + 1 + count = made + (count + 1) := by omega
    simp only [List.range'_succ, List.map_cons, List.cons_append, courseFrom, first.next, onward,
      sum]

/-- A call goes on as long as its attempts are repeated. -/
theorem course_of_isRepeated {count : Nat}
    (repeated : ∀ attempt, 0 < attempt → attempt ≤ count →
      policy.IsRepeated retryable outcomes attempt) :
    policy.course retryable (firstOf outcomes count) =
      ⟨count, (List.range' 1 count).map policy.backoff.wait, none⟩ := by
  have all : ∀ attempt ∈ List.range' 1 count, policy.IsRepeated retryable outcomes attempt := by
    intro attempt among
    obtain ⟨made, within⟩ := List.mem_range'_1.mp among
    exact repeated attempt made (by omega)
  have gone := courseFrom_of_isRepeated 0 count [] all
  simpa [course, firstOf, courseFrom] using gone

/-- A call ends with its final attempt, and the outcome of that attempt is its result. -/
theorem IsFinal.course {attempt count : Nat} (final : policy.IsFinal retryable outcomes attempt)
    (within : attempt ≤ count) :
    policy.course retryable (firstOf outcomes count) =
      ⟨attempt, (List.range' 1 (attempt - 1)).map policy.backoff.wait,
        some (outcomes attempt)⟩ := by
  obtain ⟨before, rfl⟩ := Nat.exists_eq_add_one.mpr final.made
  obtain ⟨rest, rfl⟩ := Nat.exists_eq_add_of_le within
  have all : ∀ attempt ∈ List.range' 1 before, policy.IsRepeated retryable outcomes attempt := by
    intro attempt among
    obtain ⟨made, earlier⟩ := List.mem_range'_1.mp among
    exact final.earlier attempt made (by omega)
  have split : firstOf outcomes (before + 1 + rest) = (List.range' 1 before).map outcomes ++
      outcomes (before + 1) :: (List.range' (before + 2) rest).map outcomes := by
    have sum : before + 1 + rest = before + (rest + 1) := by omega
    rw [firstOf, sum, ← List.range'_append_1, List.range'_succ, Nat.add_comm 1 before]
    simp
  have gone := courseFrom_of_isRepeated 0 before
    (outcomes (before + 1) :: (List.range' (before + 2) rest).map outcomes) (by simpa using all)
  rw [RetryPolicy.course, split]
  simpa [courseFrom, next_of_not_isRepeated final.unrepeated] using gone

/-- Some attempt is the final one, if not all are repeated. -/
theorem exists_isFinal {attempt : Nat} (made : 0 < attempt)
    (unrepeated : ¬policy.IsRepeated retryable outcomes attempt) :
    ∃ final ≤ attempt, policy.IsFinal retryable outcomes final := by
  have found : ∃ attempt, 0 < attempt ∧ ¬policy.IsRepeated retryable outcomes attempt :=
    ⟨attempt, made, unrepeated⟩
  classical
  obtain ⟨first, ends⟩ := Nat.find_spec found
  refine ⟨Nat.find found, Nat.find_min' found ⟨made, unrepeated⟩, first, ends, ?_⟩
  intro earlier numbered before
  by_contra unrepeated
  exact Nat.find_min found before ⟨numbered, unrepeated⟩

/-- A call goes on as long as there was no final attempt. -/
theorem course_of_not_isFinal {count : Nat}
    (none : ∀ attempt ≤ count, ¬policy.IsFinal retryable outcomes attempt) :
    policy.course retryable (firstOf outcomes count) =
      ⟨count, (List.range' 1 count).map policy.backoff.wait, Option.none⟩ := by
  refine course_of_isRepeated fun attempt made within => ?_
  by_contra unrepeated
  obtain ⟨final, before, isFinal⟩ := exists_isFinal made unrepeated
  exact none final (before.trans within) isFinal

/-- A call ends after some attempts exactly if the last of them is the final one. -/
theorem endsAfter_iff {attempts : Nat} :
    policy.EndsAfter retryable outcomes attempts ↔
      policy.IsFinal retryable outcomes attempts := by
  constructor
  · intro ends
    obtain ⟨waits, result, ended⟩ := ends attempts le_rfl
    by_contra other
    by_cases none : ∀ attempt ≤ attempts, ¬policy.IsFinal retryable outcomes attempt
    · rw [course_of_not_isFinal none] at ended
      simp at ended
    · obtain ⟨attempt, within, final⟩ :
          ∃ attempt ≤ attempts, policy.IsFinal retryable outcomes attempt := by simpa using none
      rw [final.course within] at ended
      exact other ((Course.mk.inj ended).1 ▸ final)
  · exact fun final count within => ⟨_, _, final.course within⟩

/-- A limit other than zero counts the attempts as used up when it is reached. -/
theorem isExhausted_eq {limit : Int} (other : limit ≠ 0) (backoff : Backoff) (attempts : Nat) :
    (⟨some limit, backoff⟩ : RetryPolicy).isExhausted attempts = decide (limit ≤ attempts) := by
  unfold isExhausted
  split
  · contradiction
  · rename_i zero
    exact absurd (Option.some.inj zero) other
  · rename_i set
    rw [Option.some.inj set]

section

variable {limit : Option Nat} (positive : ∀ most ∈ limit, 1 ≤ most) (backoff : Backoff)
include positive

/-- Attempts are left as long as there are fewer than the limit, if there is one. -/
theorem isExhausted_eq_false_iff (attempts : Nat) :
    (⟨limit.map Int.ofNat, backoff⟩ : RetryPolicy).isExhausted attempts = false ↔
      ∀ most ∈ limit, attempts < most := by
  cases limit with
  | none => simp [isExhausted]
  | some most =>
    have made : 1 ≤ most := positive most rfl
    have other : Int.ofNat most ≠ 0 := by
      rw [Int.ofNat_eq_natCast]
      omega
    rw [Option.map_some, isExhausted_eq other]
    simp

/-- The last attempt within a limit is the final one of every policy with that limit. -/
theorem isLast_iff {attempt : Nat} :
    IsLast limit retryable outcomes attempt ↔
      (⟨limit.map Int.ofNat, backoff⟩ : RetryPolicy).IsFinal retryable outcomes attempt := by
  constructor
  · intro last
    refine ⟨last.made, ?_, ?_⟩
    · rintro ⟨unsettled, unexhausted⟩
      rcases last.ends with settled | reached
      · exact Bool.noConfusion (unsettled.symm.trans settled)
      · have below := (isExhausted_eq_false_iff positive backoff attempt).mp unexhausted
        exact lt_irrefl attempt (below attempt reached)
    · intro earlier made before
      refine ⟨last.earliest earlier made before, ?_⟩
      rw [isExhausted_eq_false_iff positive]
      exact fun most set => before.trans_le (last.within most set)
  · intro final
    have within : ∀ most ∈ limit, attempt ≤ most := by
      intro most set
      by_contra beyond
      have repeated := final.earlier most (positive most set) (not_le.mp beyond)
      have below := (isExhausted_eq_false_iff positive backoff most).mp repeated.2
      exact lt_irrefl most (below most set)
    refine ⟨final.made, within, ?_, fun earlier made before =>
      (final.earlier earlier made before).1⟩
    by_contra onward
    obtain ⟨unsettled, unreached⟩ := not_or.mp onward
    refine final.unrepeated ⟨by simpa using unsettled, ?_⟩
    rw [isExhausted_eq_false_iff positive]
    intro most set
    refine (within most set).lt_of_ne ?_
    rintro rfl
    exact unreached set

end

/-- With powers that are computed as they are, a wait is the one that is laid down. -/
theorem wait_eq {floor cap base : Rat} {powers : Powers} {attempt : Nat}
    (computed : powers.power? base (attempt - 1) = some (base ^ (attempt - 1))) :
    (⟨floor, some cap, base, powers⟩ : Backoff).wait attempt = laidDown floor cap base attempt :=
  Backoff.wait_of_computed computed

/-- Exact powers are computed as they are, however large they grow. -/
example (base : Rat) (exponent : Nat) :
    Powers.exact.power? base exponent = some (base ^ exponent) := rfl

/-- With a base of one at least, what is laid down does not decrease. -/
theorem laidDown_mono (floor cap : Rat) {base : Rat} (growing : 1 ≤ base) :
    Monotone (laidDown floor cap base) := by
  intro earlier later before
  have grown : base ^ (earlier - 1) ≤ base ^ (later - 1) :=
    pow_le_pow_right₀ growing (Nat.sub_le_sub_right before 1)
  exact max_le_max le_rfl (min_le_min grown le_rfl)

/-- The waits of a schedule do not become shorter. -/
theorem schedule_pairwise (floor cap : Rat) {base : Rat} (growing : 1 ≤ base) (count : Nat) :
    (schedule floor cap base count).Pairwise (· ≤ ·) := by
  have increasing : (List.range' 1 count).Pairwise (· < ·) := List.pairwise_lt_range'
  exact List.pairwise_map.mpr
    (increasing.imp fun before => laidDown_mono floor cap growing before.le)

/-- A call with a positive limit, or with none, is attempted until it succeeds, fails for good, or
    has reached the limit, and the outcome of the last attempt is its result. Until then it goes on.
    It waits as laid down before every attempt but the first one, and these waits do not decrease if
    the base is one at least. A call with a limit comes to its last attempt. -/
theorem course_follows_schedule (limit : Option Nat) (positive : ∀ most ∈ limit, 1 ≤ most)
    (floor cap base : Rat) (powers : Powers) (retryable : ε → Bool) (outcomes : Nat → Except ε α)
    (count : Nat)
    (computed : ∀ exponent < count, powers.power? base exponent = some (base ^ exponent)) :
    let policy : RetryPolicy := ⟨limit.map Int.ofNat, ⟨floor, some cap, base, powers⟩⟩
    let course := policy.course retryable (firstOf outcomes count)
    (∀ attempt ≤ count, IsLast limit retryable outcomes attempt →
        course = ⟨attempt, schedule floor cap base (attempt - 1), some (outcomes attempt)⟩) ∧
      ((∀ attempt ≤ count, ¬IsLast limit retryable outcomes attempt) →
        course = ⟨count, schedule floor cap base count, none⟩) ∧
      (∀ most ∈ limit, ∃ attempt ≤ most, IsLast limit retryable outcomes attempt) ∧
      (1 ≤ base → course.waits.Pairwise (· ≤ ·)) := by
  intro policy course
  have waits (gone : Nat) (within : gone ≤ count) :
      (List.range' 1 gone).map policy.backoff.wait = schedule floor cap base gone := by
    refine List.map_congr_left fun attempt among => ?_
    obtain ⟨made, before⟩ := List.mem_range'_1.mp among
    exact wait_eq (computed _ (by omega))
  have last_iff (attempt : Nat) : IsLast limit retryable outcomes attempt ↔
      policy.IsFinal retryable outcomes attempt := isLast_iff positive policy.backoff
  have ended : ∀ attempt ≤ count, IsLast limit retryable outcomes attempt →
      course = ⟨attempt, schedule floor cap base (attempt - 1), some (outcomes attempt)⟩ := by
    intro attempt within last
    rw [← waits (attempt - 1) (by omega)]
    exact ((last_iff attempt).mp last).course within
  have onward : (∀ attempt ≤ count, ¬IsLast limit retryable outcomes attempt) →
      course = ⟨count, schedule floor cap base count, none⟩ := by
    intro none
    rw [← waits count le_rfl]
    refine course_of_not_isFinal fun attempt within final => ?_
    exact none attempt within ((last_iff attempt).mpr final)
  refine ⟨ended, onward, ?_, ?_⟩
  · intro most set
    have unrepeated : ¬policy.IsRepeated retryable outcomes most := by
      intro repeated
      have below := (isExhausted_eq_false_iff positive policy.backoff most).mp repeated.2
      exact lt_irrefl most (below most set)
    obtain ⟨final, within, isFinal⟩ := exists_isFinal (positive most set) unrepeated
    exact ⟨final, within, (last_iff final).mpr isFinal⟩
  · intro growing
    by_cases none : ∀ attempt ≤ count, ¬IsLast limit retryable outcomes attempt
    · rw [onward none]
      exact schedule_pairwise floor cap growing count
    · obtain ⟨attempt, within, last⟩ :
          ∃ attempt ≤ count, IsLast limit retryable outcomes attempt := by simpa using none
      rw [ended attempt within last]
      exact schedule_pairwise floor cap growing _

/-- Five failures within the standard limits are waited out for one, two, four and eight seconds.
    The last failure is what comes of the call. -/
theorem course_of_five_failures :
    let failing : Nat → Except Nat Unit := .error
    RetryPolicy.standard = ⟨(some 5).map Int.ofNat, ⟨1, some 30, 2, .exact⟩⟩ ∧
      (∀ most ∈ some 5, 1 ≤ most) ∧
      (∀ exponent < 6, Powers.exact.power? 2 exponent = some (2 ^ exponent)) ∧
      IsLast (some 5) (fun _ => true) failing 5 ∧
      RetryPolicy.standard.course (fun _ => true) (firstOf failing 6) =
        ⟨5, [1, 2, 4, 8], some (.error 5)⟩ := by
  intro failing
  have positive : ∀ most ∈ some 5, 1 ≤ most := by simp
  have computed : ∀ exponent < 6, Powers.exact.power? 2 exponent = some (2 ^ exponent) :=
    fun _ _ => rfl
  have last : IsLast (some 5) (fun _ => true) failing 5 :=
    ⟨by decide, by simp, .inr rfl, fun _ _ _ => rfl⟩
  have follows := course_follows_schedule (some 5) positive 1 30 2 .exact (fun _ => true)
    failing 6 computed
  have waits : schedule 1 30 2 (5 - 1) = [1, 2, 4, 8] := by
    norm_num [schedule, laidDown, List.range'_succ]
  refine ⟨rfl, positive, computed, last, ?_⟩
  rw [← waits]
  exact follows.1 5 (by decide) last

/-- A limit of any size ends a call in time, unless it is zero: then the call ends in time only if
    the first attempt settles it. -/
theorem endsInTime_iff (limit : Int) (backoff : Backoff) (retryable : ε → Bool)
    (outcomes : Nat → Except ε α) :
    (∃ attempts : Nat, (attempts : Int) ≤ max 1 limit ∧
        (⟨some limit, backoff⟩ : RetryPolicy).EndsAfter retryable outcomes attempts) ↔
      limit ≠ 0 ∨ settles retryable (outcomes 1) = true := by
  simp only [endsAfter_iff]
  constructor
  · rintro ⟨attempts, few, final⟩
    by_contra onward
    obtain ⟨zero, unsettled⟩ := not_or.mp onward
    obtain rfl := not_not.mp zero
    have one : attempts = 1 := by
      have made := final.made
      have atMost : (attempts : Int) ≤ 1 := few
      omega
    subst one
    exact final.unrepeated ⟨by simpa using unsettled, rfl⟩
  · intro ends
    have unrepeated : ¬(⟨some limit, backoff⟩ : RetryPolicy).IsRepeated retryable outcomes
        (max 1 limit).toNat := by
      rintro ⟨unsettled, unexhausted⟩
      by_cases zero : limit = 0
      · subst zero
        have settled := ends.resolve_left (not_not_intro rfl)
        exact Bool.noConfusion (unsettled.symm.trans settled)
      · rw [isExhausted_eq zero, decide_eq_false_iff_not] at unexhausted
        omega
    obtain ⟨attempts, within, final⟩ := exists_isFinal (by omega) unrepeated
    exact ⟨attempts, by omega, final⟩

/-- With a limit of zero a call that fails for a passing reason every time is attempted for ever. -/
theorem endless_of_zero :
    let policy : RetryPolicy := { RetryPolicy.standard with limit := some 0 }
    let failing : Nat → Except Nat Unit := .error
    (∀ count, (policy.course (fun _ => true) (firstOf failing count)).attempts = count ∧
        (policy.course (fun _ => true) (firstOf failing count)).result.isNone) ∧
      ¬∃ attempts : Nat, (attempts : Int) ≤ max 1 0 ∧
        policy.EndsAfter (fun _ => true) failing attempts := by
  intro policy failing
  have repeated (attempt : Nat) : policy.IsRepeated (fun _ => true) failing attempt := ⟨rfl, rfl⟩
  constructor
  · intro count
    rw [course_of_isRepeated fun attempt _ _ => repeated attempt]
    exact ⟨rfl, rfl⟩
  · rintro ⟨attempts, -, ends⟩
    exact (endsAfter_iff.mp ends).unrepeated (repeated attempts)

end GameSidecar.RetryPolicy
