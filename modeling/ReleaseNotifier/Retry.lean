/-
How long the GitHub client waits after a 429: `internal/client/github/retry.go`.

Header values are byte strings, and the numbers in them may be as large as an
`int64`. Durations are nanoseconds in an `int64`: a product of two wraps around
(`wrap64`), while `Time.Sub` saturates and `time.Unix` wraps the seconds it adds
an epoch to. `Retry-After` is multiplied before anything looks at the result;
`X-RateLimit-Reset` is cut down to two minutes.
-/
import ReleaseNotifier.Wire
import Mathlib.Order.Lattice

set_option autoImplicit false

namespace ReleaseNotifier.GitHub

/-! ## Numbers -/

/-- The value of an `int64` after an operation whose exact result is `x`. -/
def wrap64 (x : Int) : Int := x.bmod (2 ^ 64)

/-- The value of a decimal digit. -/
def decimalDigit (b : UInt8) : Option Nat :=
  if 0x30 ≤ b.toNat ∧ b.toNat ≤ 0x39 then some (b.toNat - 0x30) else none

/-- The number some digits denote, after a number `n` that was read before. -/
def decimalFrom (n : Nat) : Bytes → Option Nat
  | [] => some n
  | b :: bs =>
    match decimalDigit b with
    | some d => decimalFrom (10 * n + d) bs
    | none => none

/-- Digits, and at least one of them. -/
def decimal (s : Bytes) : Option Nat := if s = [] then none else decimalFrom 0 s

/-- `strconv.ParseInt` with base 10 and 64 bits, `none` for any error.
`strconv.Atoi` is the same where an `int` has 64 bits. -/
def parseInt (s : Bytes) : Option Int :=
  match s with
  | 0x2b :: digits => (decimal digits).bind (fun n => if n < 2 ^ 63 then some (n : Int) else none)
  | 0x2d :: digits =>
    (decimal digits).bind (fun n => if n ≤ 2 ^ 63 then some (-(n : Int)) else none)
  | digits => (decimal digits).bind (fun n => if n < 2 ^ 63 then some (n : Int) else none)

/-! ## Times -/

/-- `time.Second`. -/
def timeSecond : Int := 1000000000

/-- `maxResetWait`. -/
def maxResetWait : Int := 120 * timeSecond

/-- `maxBackoffAttempt`. -/
def maxBackoffAttempt : Int := 2

/-- A `time.Time`: the seconds since the year 1, and the nanoseconds. -/
structure Time where
  sec : Int
  nsec : Int
  deriving DecidableEq, Repr

/-- The seconds from the year 1 to 1970. -/
def unixToInternal : Int := 62135596800

/-- `time.Unix(sec, 0)`. -/
def Time.unix (sec : Int) : Time := ⟨wrap64 (sec + unixToInternal), 0⟩

/-- `Time.Sub`: the duration nearest to the difference. -/
def Time.sub (t u : Time) : Int :=
  max (-(2 ^ 63)) (min (2 ^ 63 - 1) ((t.sec - u.sec) * timeSecond + (t.nsec - u.nsec)))

/-! ## `retry.go` -/

/-- What `NextWait` reads of a response: the first value of each header, empty if
there is none. -/
structure RetryHeaders where
  retryAfter : Bytes
  rateLimitReset : Bytes
  deriving DecidableEq

namespace HeaderAwareRetry

/-- The back-off at the end of `NextWait`. -/
def backoff (attempt : Int) : Int :=
  let attempt := if attempt < 0 then 0 else attempt
  wrap64 (2 ^ (min attempt maxBackoffAttempt).toNat * timeSecond)

/-- `NextWait` from the second header on. -/
def untilReset (reset : Bytes) (now : Time) (attempt : Int) : Int :=
  -- an empty value is no number
  match parseInt reset with
  | none => backoff attempt
  | some ts =>
    let wait := (Time.unix ts).sub now
    if 0 < wait then (if maxResetWait < wait then maxResetWait else wait) else backoff attempt

/-- `HeaderAwareRetry.NextWait`, called at `now`. -/
def nextWait (headers : RetryHeaders) (now : Time) (attempt : Int) : Int :=
  match parseInt headers.retryAfter with
  | some seconds =>
    if 0 < seconds then wrap64 (seconds * timeSecond)
    else untilReset headers.rateLimitReset now attempt
  | none => untilReset headers.rateLimitReset now attempt

/-! ## Bounds -/

/-- The backoff is one, two or four seconds. -/
theorem backoff_bounds (attempt : Int) :
    0 < backoff attempt ∧ backoff attempt ≤ 4 * timeSecond := by
  have hexp : (min (if attempt < 0 then 0 else attempt) maxBackoffAttempt).toNat ≤ 2 := by
    unfold maxBackoffAttempt
    omega
  have hall : ∀ k ≤ 2, 0 < wrap64 (2 ^ k * timeSecond) ∧
      wrap64 (2 ^ k * timeSecond) ≤ 4 * timeSecond := by
    decide
  exact hall _ hexp

/-- A reset in the past, or too far away, gives a wait in bounds all the same. -/
theorem untilReset_bounds (reset : Bytes) (now : Time) (attempt : Int) :
    0 < untilReset reset now attempt ∧ untilReset reset now attempt ≤ maxResetWait := by
  have hback := backoff_bounds attempt
  have hfour : 4 * timeSecond ≤ maxResetWait := by decide
  have hreset : 0 < maxResetWait := by decide
  unfold untilReset
  split
  · omega
  · next ts _ =>
    simp only
    split
    · next hpos =>
      split
      · omega
      · omega
    · omega

/-- The largest number of seconds that fits a duration. -/
def maxSeconds : Int := 9223372036

/-- Below this bound the product of seconds does not overflow. -/
theorem wrap64_of_fits {seconds : Int} (hpos : 0 < seconds) (hle : seconds ≤ maxSeconds) :
    wrap64 (seconds * timeSecond) = seconds * timeSecond := by
  unfold maxSeconds at hle
  unfold wrap64 timeSecond
  rw [Int.bmod_eq_of_le]
  · omega
  · omega

theorem wrap64_lt (x : Int) : wrap64 x < 2 ^ 63 := by
  have h : wrap64 x < (((2 ^ 64 : Nat) : Int) + 1) / 2 := Int.bmod_lt (by decide)
  omega

/-! ## The wait -/

/-- The seconds the server asked for, if `Retry-After` asks for any. -/
def asked (headers : RetryHeaders) : Option Int :=
  (parseInt headers.retryAfter).filter (fun seconds => decide (0 < seconds))

/-- A wait that is one, is no shorter than the server asked for, and does not stall
the caller when the server asked for nothing. -/
structure Honours (headers : RetryHeaders) (wait : Int) : Prop where
  positive : 0 < wait
  atLeast : ∀ seconds, asked headers = some seconds → seconds * timeSecond ≤ wait
  atMost : asked headers = none → wait ≤ 120 * timeSecond

variable {headers : RetryHeaders}

/-- `Retry-After` counts if it is a positive number. -/
theorem asked_eq_some {seconds : Int} :
    asked headers = some seconds ↔ parseInt headers.retryAfter = some seconds ∧ 0 < seconds := by
  simp [asked, Option.filter_eq_some_iff]

/-- `nextWait` by what the server asked for. -/
theorem nextWait_eq (headers : RetryHeaders) (now : Time) (attempt : Int) :
    nextWait headers now attempt =
      match asked headers with
      | some seconds => wrap64 (seconds * timeSecond)
      | none => untilReset headers.rateLimitReset now attempt := by
  unfold nextWait asked
  cases parseInt headers.retryAfter with
  | none => rfl
  | some seconds =>
    by_cases hpos : 0 < seconds
    · simp [Option.filter_some, hpos]
    · simp [Option.filter_some, hpos]

/-- What the server asks for is not capped. -/
theorem nextWait_asked {seconds : Int} (h : asked headers = some seconds) (now : Time)
    (attempt : Int) : nextWait headers now attempt = wrap64 (seconds * timeSecond) := by
  rw [nextWait_eq, h]

/-- Without a `Retry-After` the wait is capped. -/
theorem nextWait_unasked (h : asked headers = none) (now : Time) (attempt : Int) :
    nextWait headers now attempt = untilReset headers.rateLimitReset now attempt := by
  rw [nextWait_eq, h]

/-- The wait honours the headers exactly if the seconds asked for fit a duration:
from 9223372037 on the product has wrapped around, and is below what was asked for
or is no wait at all. -/
theorem nextWait_honours_iff (headers : RetryHeaders) (now : Time) (attempt : Int) :
    Honours headers (nextWait headers now attempt) ↔
      ∀ seconds, parseInt headers.retryAfter = some seconds → seconds ≤ 9223372036 := by
  constructor
  · intro hon seconds hparsed
    by_cases hpos : 0 < seconds
    · have hasked : asked headers = some seconds := asked_eq_some.mpr ⟨hparsed, hpos⟩
      have hle := hon.atLeast seconds hasked
      rw [nextWait_asked hasked] at hle
      have hlt := wrap64_lt (seconds * timeSecond)
      unfold timeSecond at hle hlt
      omega
    · omega
  · intro hfits
    cases hasked : asked headers with
    | some seconds =>
      obtain ⟨hparsed, hpos⟩ := asked_eq_some.mp hasked
      have hexact := wrap64_of_fits hpos (hfits seconds hparsed)
      have hprod : 0 < seconds * timeSecond := by
        unfold timeSecond
        omega
      rw [nextWait_asked hasked, hexact]
      refine ⟨hprod, fun other hother => ?_, fun hnone => ?_⟩
      · rw [hasked] at hother
        cases hother
        exact le_refl _
      · rw [hasked] at hnone
        cases hnone
    | none =>
      obtain ⟨hpos, hle⟩ := untilReset_bounds headers.rateLimitReset now attempt
      rw [nextWait_unasked hasked]
      refine ⟨hpos, fun other hother => ?_, fun _ => hle⟩
      rw [hasked] at hother
      cases hother

/-- Asked for 9223372037 seconds the client waits for a negative time, and asked for
2⁵⁵ seconds for none. -/
theorem nextWait_overflows :
    asked ⟨utf8 "9223372037", []⟩ = some 9223372037 ∧
      nextWait ⟨utf8 "9223372037", []⟩ (.unix 1700000000) 0 = -9223372036709551616 ∧
      ¬ Honours ⟨utf8 "9223372037", []⟩
        (nextWait ⟨utf8 "9223372037", []⟩ (.unix 1700000000) 0) ∧
      asked ⟨utf8 "36028797018963968", []⟩ = some 36028797018963968 ∧
      nextWait ⟨utf8 "36028797018963968", []⟩ (.unix 1700000000) 0 = 0 := by
  have hwait : nextWait ⟨utf8 "9223372037", []⟩ (.unix 1700000000) 0 = -9223372036709551616 := by
    decide
  refine ⟨by decide, hwait, fun hon => ?_, by decide, by decide⟩
  have hpos := hon.positive
  rw [hwait] at hpos
  exact absurd hpos (by decide)

end HeaderAwareRetry

end ReleaseNotifier.GitHub
