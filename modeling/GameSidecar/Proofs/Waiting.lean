import GameSidecar.Watch
import Mathlib.Algebra.Order.Ring.Rat
import Mathlib.Data.Rat.Lemmas
import Mathlib.Tactic.NormNum

/-!
# How long a watch waits

After failures in a row a watch waits for a power of two, bounded by its cap and by one second. The
powers are taken as they are. That this is no other wait in double precision is shown here too:
doubles hold every power of two below the limit of their range exactly, and a power beyond is
bounded by the cap like an infinite one, provided that the library takes it for one.
-/

namespace GameSidecar

namespace Double

/-- A power of two is scaled to a power of two over one. -/
theorem scale_two_pow (power : Nat) (exponent : Int) (digits : Nat)
    (splits : (power : Int) = digits + exponent) :
    ∃ unit, 0 < unit ∧ scale (2 ^ power) 1 exponent = (2 ^ digits * unit, unit) := by
  cases exponent with
  | ofNat up =>
    refine ⟨2 ^ up, Nat.two_pow_pos up, ?_⟩
    have sum : power = digits + up := by
      simp only [Int.ofNat_eq_natCast] at splits
      omega
    simp [scale, sum, pow_add]
  | negSucc down =>
    refine ⟨1, by decide, ?_⟩
    have sum : digits = power + (down + 1) := by omega
    simp [scale, sum, pow_add]

/-- The significand of a power of two takes 53 binary digits. -/
theorem exponentOf_two_pow (power : Nat) : exponentOf (2 ^ power) 1 = (power : Int) - 52 := by
  obtain ⟨unit, positive, scaled⟩ := scale_two_pow power ((power : Int) - 53) 53 (by omega)
  have guess : ((Nat.log2 (2 ^ power) : Nat) : Int) - (Nat.log2 1 : Nat) - 53 = power - 53 := by
    rw [Nat.log2_two_pow]
    have one : Nat.log2 1 = 0 := by decide
    omega
  simp only [exponentOf, guess, scaled, Nat.mul_div_cancel _ positive, minExponent]
  rw [if_pos (by decide)]
  omega

/-- A power of two is rounded to itself, unless it leaves the range. -/
theorem ofQuotient_two_pow (power : Nat) :
    ofQuotient false (2 ^ power) 1 =
      if power < 1024 then .finite false (2 ^ 52) (power - 52) else .infinite false := by
  obtain ⟨unit, positive, scaled⟩ := scale_two_pow power ((power : Int) - 52) 52 (by omega)
  have rounded : roundQuotient (2 ^ 52 * unit) unit = 2 ^ 52 := by
    simp only [roundQuotient, Nat.mul_div_cancel _ positive, Nat.mul_mod_left, Nat.mul_zero]
    rw [if_pos positive]
  have carried : ¬(2 ^ 52 = Nat.pow 2 53) := by decide
  simp only [ofQuotient, exponentOf_two_pow, scaled, rounded, carried, if_false, maxExponent]
  rw [if_neg (Nat.two_pow_pos power).ne']
  by_cases inRange : power < 1024
  · rw [if_pos inRange, if_neg (by omega)]
  · rw [if_neg inRange, if_pos (by omega)]

/-- A power of two has its exact value, unless it leaves the range. -/
theorem power?_two (power : Nat) :
    power? 2 power = if power < 1024 then some (2 ^ power) else none := by
  have double : ofRat (2 ^ power) = ofQuotient false (2 ^ power) 1 := by
    have positive : ¬((2 : Rat) ^ power < 0) := (pow_nonneg (by decide) power).not_gt
    simp [ofRat, positive, Rat.num_pow, Rat.den_pow, Int.natAbs_pow]
  rw [power?, double, ofQuotient_two_pow]
  split
  · have value : ((2 ^ 52 : Nat) : Rat) * 2 ^ ((power : Int) - 52) = 2 ^ power := by
      rw [zpow_sub₀ (by norm_num), zpow_natCast]
      exact mul_div_cancel₀ _ (by norm_num)
    simp only [toRat?, value, Bool.false_eq_true, if_false]
  · rfl

end Double

namespace Backoff

/-- A number of seconds is bounded by the cap, and then by the floor or zero. -/
theorem bounded_eq (backoff : Backoff) (seconds : Rat) :
    backoff.bounded seconds =
      max (max 0 backoff.floor) (backoff.cap.elim seconds (min seconds)) := by
  have lowest : backoff.lowest = max 0 backoff.floor := by
    rw [max_comm, max_def_lt]
    rfl
  have capped : backoff.capped seconds = backoff.cap.elim seconds (min seconds) := by
    unfold Backoff.capped
    cases backoff.cap with
    | none => rfl
    | some cap => rw [Option.elim_some, min_comm, min_def_lt]
  have bounded : backoff.bounded seconds = max (backoff.capped seconds) backoff.lowest :=
    (max_def_lt _ _).symm
  rw [bounded, capped, lowest, max_comm]

/-- A power that is computed as it is gives the wait, bounded by the cap and then by the floor or
    zero. -/
theorem wait_of_computed {backoff : Backoff} {attempt : Nat}
    (computed : backoff.powers.power? backoff.base (attempt - 1) =
      some (backoff.base ^ (attempt - 1))) :
    backoff.wait attempt = max (max 0 backoff.floor)
      (backoff.cap.elim (backoff.base ^ (attempt - 1)) (min (backoff.base ^ (attempt - 1)))) := by
  obtain ⟨floor, cap, base, powers⟩ := backoff
  cases powers with
  | exact => exact bounded_eq _ _
  | rounded beyond =>
    have held : Double.power? base (attempt - 1) = some (base ^ (attempt - 1)) := computed
    simp only [wait, held, bounded_eq]

/-- Let the library take a power beyond all doubles for infinite, so that the wait is the cap, or
    the floor if that is more. Then doubling in double precision waits as doubling does, for every
    cap that a double can be. -/
theorem wait_doubling {floor cap : Rat} {beyond : Option Rat → Rat → Rat} (inRange : cap < 2 ^ 1024)
    (infinite : beyond (some cap) floor = max (max 0 floor) cap) (attempt : Nat) :
    (⟨floor, some cap, 2, .rounded beyond⟩ : Backoff).wait attempt =
      (⟨floor, some cap, 2, .exact⟩ : Backoff).wait attempt := by
  have exact : (⟨floor, some cap, 2, .exact⟩ : Backoff).wait attempt = _ := wait_of_computed rfl
  rw [exact]
  have power := Double.power?_two (attempt - 1)
  by_cases held : attempt - 1 < 1024
  · rw [if_pos held] at power
    exact wait_of_computed power
  · have beyondCap : cap ≤ 2 ^ (attempt - 1) :=
      inRange.le.trans (pow_le_pow_right₀ (by norm_num) (not_lt.mp held))
    simp only [wait, power, if_neg held, infinite, Option.elim_some, min_eq_right beyondCap]

end Backoff

namespace Watch

/-- A number of seconds, but no more than the cap of a plan. -/
def Plan.atMost (plan : Plan) (seconds : Rat) : Rat :=
  plan.cap.elim seconds (min seconds)

/-- How long a watch waits after some failures in a row: a power of two between one second and its
    cap, and one second where the cap is less. -/
theorem Plan.wait_eq (plan : Plan) (failures : Nat) :
    plan.backoff.wait failures = max 1 (plan.atMost (2 ^ (failures - 1))) := by
  have lowest : max (0 : Rat) 1 = 1 := max_eq_right (by decide)
  rw [Backoff.wait_of_computed rfl]
  simp only [backoff, lowest, atMost]

end Watch
end GameSidecar
