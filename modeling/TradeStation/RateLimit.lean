import Mathlib.Algebra.Order.Ring.Rat
import TradeStation.Python.Library
import TradeStation.Errors

/-!
# Retry delays

`RetryPolicy.delay_for_attempt` and `parse_retry_after_seconds`. Delays are rational numbers; what
is kept of floating point is that `2 ** n` cannot be made a `float` from `n = 1024` on. The random
number and the clock are read where Python reads them, in any monad.
-/

namespace TradeStation

open Python

/-- `RetryPolicy`. -/
structure RetryPolicy where
  maxAttempts : ℤ := 4
  baseDelaySeconds : ℚ := 1 / 4
  maxDelaySeconds : ℚ := 5
  jitterRatio : ℚ := 1 / 5
  retryAfterCeilingSeconds : ℚ := 300

/-- `base * 2 ** doublings`, no more than `most`; `none` where the power is too large for a
`float`. -/
def backoff (base most : ℚ) (doublings : ℕ) : Option ℚ :=
  if 1024 ≤ doublings then none else some (min (base * 2 ^ doublings) most)

/-- `parse_retry_after_seconds`, which catches no `OverflowError`. -/
def parseRetryAfterSeconds {m : Type → Type} [Monad m] (lib : Library) (now : m Datetime)
    (value : Option PyStr) : m (Except Exc (Option ℚ)) :=
  match value with
  | none => return .ok none
  | some value =>
    match lib.float value with
    | some none => return .ok none
    | some (some numeric) => return .ok (some (max 0 numeric))
    | none =>
      match lib.parsedate value with
      | .error .malformed => return .ok none
      | .error .overflow => return .error .overflow
      | .ok retryAt => do
        let now ← now
        return .ok (some (max 0 (totalSeconds (retryAt.orUtc.sub now))))

/-- A value that is no number, and as a date raises an `OverflowError`. -/
def DateOverflows (lib : Library) (value : Option PyStr) : Prop :=
  ∃ text ∈ value, lib.float text = none ∧ lib.parsedate text = .error .overflow

/-- What a value says: nothing, a time to wait, or until when. -/
inductive BackOff
  | none
  | seconds (v : ℚ)
  | date (instant : ℤ)
  deriving DecidableEq

/-- What a header says; `none` where reading it raises `OverflowError`. -/
def readRetryAfter (lib : Library) (value : Option PyStr) : Option BackOff :=
  match value with
  | none => some .none
  | some value =>
    match lib.float value with
    | some none => some .none
    | some (some numeric) => some (.seconds (max 0 numeric))
    | none =>
      match lib.parsedate value with
      | .error .malformed => some .none
      | .error .overflow => none
      | .ok retryAt => some (.date retryAt.orUtc.instant)

theorem readRetryAfter_eq_none_iff {lib : Library} {value : Option PyStr} :
    readRetryAfter lib value = none ↔ DateOverflows lib value := by
  cases value with
  | none => simp [readRetryAfter, DateOverflows]
  | some text =>
    have hoverflows : DateOverflows lib (some text) ↔
        lib.float text = none ∧ lib.parsedate text = .error .overflow := by
      simp [DateOverflows]
    rw [hoverflows, readRetryAfter]
    rcases hfloat : lib.float text with _ | _ | numeric
    · rcases hdate : lib.parsedate text with (_ | _) | retryAt <;> simp
    all_goals simp

/-- The delay behind an attempt cannot be computed: the header cannot be read, or it says nothing and the
power is too large. -/
def DelayOverflows (lib : Library) (attemptIndex : ℕ) (retryAfter : Option PyStr) : Prop :=
  DateOverflows lib retryAfter ∨ readRetryAfter lib retryAfter = some .none ∧ 1024 ≤ attemptIndex - 1

@[simp] theorem delayOverflows_none {lib : Library} {attemptIndex : ℕ} :
    DelayOverflows lib attemptIndex none ↔ 1024 ≤ attemptIndex - 1 := by
  simp [DelayOverflows, DateOverflows, readRetryAfter]

/-- `RetryPolicy.delay_for_attempt`; `none` where it raises `OverflowError`. -/
def RetryPolicy.delayForAttempt {m : Type → Type} [Monad m] (policy : RetryPolicy)
    (lib : Library) (now : m Datetime) (uniform : ℚ → ℚ → m ℚ) (attemptIndex : ℕ)
    (retryAfter : Option PyStr) : m (Option ℚ) := do
  match ← parseRetryAfterSeconds lib now retryAfter with
  | .error _ => return none
  | .ok (some parsed) => return some (min parsed policy.retryAfterCeilingSeconds)
  | .ok none =>
    match backoff policy.baseDelaySeconds policy.maxDelaySeconds (attemptIndex - 1) with
    | none => return none
    | some delay =>
      if policy.jitterRatio ≤ 0 then return some delay
      else
        let spread := delay * policy.jitterRatio
        let jitter ← uniform (-spread) spread
        return some (max 0 (delay + jitter))

end TradeStation
