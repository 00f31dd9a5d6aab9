import GameSidecar.Double

/-!
# Repeated attempts

A call is attempted until it succeeds, fails for good, or has used up its attempts. Before attempt
k + 1 the caller waits for the base to the power k - 1, bounded above by a cap and below by a
floor that is never negative. Waits are rational numbers of seconds.

The waits are counted by a library. Powers are exact, or they are rounded to doubles; in the second
case a power can leave the range of doubles, and what the library waits then is a parameter.
-/

namespace GameSidecar

/-- How the powers of a base are computed. -/
inductive Powers
  /-- As they are. -/
  | exact
  /-- Rounded to doubles. Where a power is beyond all doubles, what is waited depends on the cap and
      the floor. -/
  | rounded (beyond : Option Rat → Rat → Rat)

/-- The double nearest to a power, if the power does not leave their range. -/
def Double.power? (base : Rat) (exponent : Nat) : Option Rat :=
  (ofRat (base ^ exponent)).toRat?

/-- A power of a base, if it does not leave the range. -/
def Powers.power? (powers : Powers) (base : Rat) (exponent : Nat) : Option Rat :=
  match powers with
  | .exact => some (base ^ exponent)
  | .rounded _ => Double.power? base exponent

/-- How long to wait between attempts, in seconds. Without a cap the power is not bounded. -/
structure Backoff where
  floor : Rat
  cap : Option Rat
  base : Rat
  powers : Powers

namespace Backoff

/-- The cap that a double sets. Below every wait is as good as zero; what is no number and what is
    above every wait set none. -/
def capOf (longest : Double) : Option Rat :=
  if longest = .infinite true then some 0 else longest.toRat?

/-- The base that a double is, and how its powers are computed. The wait for one beyond the range is
    the cap, even if the floor is more. An infinite base is as good as an integer beyond all
    doubles; what is no number is none. -/
def baseOf? : Double → Option (Rat × Powers)
  | .nan => none
  | .infinite negative =>
    let beyond : Rat := Nat.pow 2 1024
    some (if negative then -beyond else beyond, .exact)
  | number => number.toRat?.map (·, .rounded fun cap floor => cap.getD floor)

/-- The floor, or zero where it is negative. -/
def lowest (backoff : Backoff) : Rat :=
  if backoff.floor < 0 then 0 else backoff.floor

/-- A number of seconds, or the cap where it is less. -/
def capped (backoff : Backoff) (seconds : Rat) : Rat :=
  match backoff.cap with
  | some cap => if cap < seconds then cap else seconds
  | none => seconds

/-- A number of seconds, bounded by the cap and then by the floor. -/
def bounded (backoff : Backoff) (seconds : Rat) : Rat :=
  if backoff.capped seconds < backoff.lowest then backoff.lowest else backoff.capped seconds

/-- The wait after a failed attempt, the first attempt being number one. -/
def wait (backoff : Backoff) (attempt : Nat) : Rat :=
  match backoff.powers with
  | .exact => backoff.bounded (backoff.base ^ (attempt - 1))
  | .rounded beyond =>
    match Double.power? backoff.base (attempt - 1) with
    | some power => backoff.bounded power
    | none => beyond backoff.cap backoff.floor

/-- Whether the wait after an attempt is an exact power that neither bound has replaced. -/
def isExactAt (backoff : Backoff) (attempt : Nat) : Bool :=
  match backoff.powers with
  | .exact =>
    let power := backoff.base ^ (attempt - 1)
    backoff.wait attempt = power && backoff.lowest < power
  | .rounded _ => false

end Backoff

/-- A rational number rounded to the nearest integer, a tie to the even one. -/
def roundEven (number : Rat) : Int :=
  let below := number.floor
  let rest := number - below
  if rest < 1 / 2 then below
  else if 1 / 2 < rest then below + 1
  else below + below % 2

/-- A wait in whole milliseconds, which are counted in double precision. -/
def milliseconds (seconds : Rat) : Int :=
  roundEven ((Double.ofRat (seconds * 1000)).toRat?.getD (seconds * 1000))

/-- The wait after a failed attempt in whole milliseconds. Those of an exact power are exact. -/
def Backoff.pause (backoff : Backoff) (attempt : Nat) : Int :=
  let seconds := backoff.wait attempt
  if backoff.isExactAt attempt then roundEven (seconds * 1000) else milliseconds seconds

/-- When to give up, and how long to wait before. Without a limit, and with a limit of zero, a
    call is attempted until it succeeds or fails for good. -/
structure RetryPolicy where
  limit : Option Int
  backoff : Backoff

namespace RetryPolicy

/-- Five attempts, with waits from one second on that double up to thirty. Doubles hold the powers
    of two as they are. -/
def standard : RetryPolicy :=
  ⟨some 5, ⟨1, some 30, 2, .exact⟩⟩

/-- Whether the attempts are used up. A negative limit is used up by the first one. -/
def isExhausted (policy : RetryPolicy) (attempts : Nat) : Bool :=
  match policy.limit with
  | none | some 0 => false
  | some limit => limit ≤ attempts

/-- What follows an attempt. -/
inductive Next (ε α : Type)
  | finish (result : Except ε α)
  | again (wait : Rat)
  deriving Repr

variable {ε α : Type}

/-- What follows the attempt of a number, by its outcome. -/
def next (policy : RetryPolicy) (retryable : ε → Bool) (attempt : Nat) :
    Except ε α → Next ε α
  | .ok value => .finish (.ok value)
  | .error cause =>
    if !retryable cause || policy.isExhausted attempt then .finish (.error cause)
    else .again (policy.backoff.wait attempt)

/-- A course of attempts: how many were made, the waits between them, and the result, which is
    none while the call would be attempted again. -/
structure Course (ε α : Type) where
  attempts : Nat
  waits : List Rat
  result : Option (Except ε α)
  deriving Repr

/-- The course of a call whose further attempts have these outcomes in turn. -/
def courseFrom (policy : RetryPolicy) (retryable : ε → Bool) (attempts : Nat) :
    List (Except ε α) → Course ε α
  | [] => ⟨attempts, [], none⟩
  | outcome :: rest =>
    match policy.next retryable (attempts + 1) outcome with
    | .finish result => ⟨attempts + 1, [], some result⟩
    | .again wait =>
      let course := policy.courseFrom retryable (attempts + 1) rest
      { course with waits := wait :: course.waits }

/-- The course of a call whose attempts have these outcomes in turn. -/
def course (policy : RetryPolicy) (retryable : ε → Bool) (outcomes : List (Except ε α)) :
    Course ε α :=
  policy.courseFrom retryable 0 outcomes

end RetryPolicy

end GameSidecar
