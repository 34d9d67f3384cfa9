import TradeStation.Rest.Backoff

/-!
# The length of a delay

What a policy waits before an attempt and before a reconnect. The power of two is formed before it is
capped, and from 1024 doublings on it cannot be made a `float`; before that the cap is what bounds it.

* `delays_bounded_iff`: when a delay is computed, and within its bound.
-/

namespace TradeStation

open Python Foundations TradeStation.Stream

/-! ## Seconds that need not be a number -/

/-- A `float`. -/
inductive PyFloat
  | finite (v : ℚ)
  | infinite (negative : Bool)
  | nan

namespace PyFloat

/-- `a < b`. -/
def lt : PyFloat → PyFloat → Bool
  | .finite a, .finite b => a < b
  | .finite _, .infinite negative => !negative
  | .infinite negative, .finite _ => negative
  | .infinite negative, .infinite negative' => negative && !negative'
  | .nan, _ | _, .nan => false

/-- `max(a, b)`: the first, unless the second is greater. -/
def max (a b : PyFloat) : PyFloat := if a.lt b then b else a

/-- `min(a, b)`: the first, unless the second is less. -/
def min (a b : PyFloat) : PyFloat := if b.lt a then b else a

theorem max_finite (a b : ℚ) : max (.finite a) (.finite b) = .finite (Max.max a b) := by
  rcases lt_or_ge a b with h | h
  · simp [max, lt, h, max_eq_right h.le]
  · simp [max, lt, not_lt.2 h, max_eq_left h]

theorem min_finite (a b : ℚ) : min (.finite a) (.finite b) = .finite (Min.min a b) := by
  rcases lt_or_ge b a with h | h
  · simp [min, lt, h, min_eq_right h.le]
  · simp [min, lt, not_lt.2 h, min_eq_left h]

/-- Cut off at 0 and at a ceiling, anything is a number between the two. -/
theorem clamp_finite {ceiling : ℚ} (hceiling : 0 ≤ ceiling) (x : PyFloat) :
    ∃ v, min (max (.finite 0) x) (.finite ceiling) = .finite v ∧ 0 ≤ v ∧ v ≤ ceiling := by
  cases x with
  | finite a =>
    rw [max_finite, min_finite]
    exact ⟨_, rfl, le_min (le_max_left 0 a) hceiling, min_le_right _ _⟩
  | infinite negative =>
    cases negative with
    | false => exact ⟨ceiling, rfl, hceiling, le_rfl⟩
    | true =>
      have hzero : max (.finite 0) (.infinite true) = .finite 0 := rfl
      rw [hzero, min_finite]
      exact ⟨_, rfl, le_min le_rfl hceiling, min_le_right _ _⟩
  | nan =>
    have hzero : max (.finite 0) .nan = .finite 0 := rfl
    rw [hzero, min_finite]
    exact ⟨_, rfl, le_min le_rfl hceiling, min_le_right _ _⟩

end PyFloat

/-- `StreamReconnectPolicy.delay_for_reconnect`, of seconds that need not be a number; `none` where it
raises `OverflowError`. -/
def Stream.StreamReconnectPolicy.delayForReconnectFloat (policy : StreamReconnectPolicy)
    (reconnectNumber : ℕ) (retryAfterSeconds : Option PyFloat) : Option PyFloat :=
  match retryAfterSeconds with
  | some retryAfter =>
    some (.min (.max (.finite 0) retryAfter) (.finite policy.retryAfterCeilingSeconds))
  | none => (policy.delayForReconnect reconnectNumber none).map .finite

/-- On numbers it is the delay of the session. -/
theorem delayForReconnectFloat_finite (policy : StreamReconnectPolicy) (reconnectNumber : ℕ)
    (retryAfterSeconds : Option ℚ) :
    policy.delayForReconnectFloat reconnectNumber (retryAfterSeconds.map .finite) =
      (policy.delayForReconnect reconnectNumber retryAfterSeconds).map .finite := by
  cases retryAfterSeconds with
  | none => rfl
  | some v =>
    rw [Option.map_some, StreamReconnectPolicy.delayForReconnectFloat, PyFloat.max_finite,
      PyFloat.min_finite]
    rfl

/-! ## The bounds -/

/-- No field of the policy is negative. -/
structure RetryPolicy.NonNegative (policy : RetryPolicy) : Prop where
  base : 0 ≤ policy.baseDelaySeconds
  most : 0 ≤ policy.maxDelaySeconds
  jitter : 0 ≤ policy.jitterRatio
  ceiling : 0 ≤ policy.retryAfterCeilingSeconds

/-- No field of the policy is negative. -/
structure Stream.StreamReconnectPolicy.NonNegative (policy : StreamReconnectPolicy) : Prop where
  base : 0 ≤ policy.baseDelaySeconds
  most : 0 ≤ policy.maxDelaySeconds
  ceiling : 0 ≤ policy.retryAfterCeilingSeconds

/-- The streams of a client take over its policy. -/
theorem RetryPolicy.NonNegative.stream {client : RestClient}
    (h : client.retryPolicy.NonNegative) : client.streamReconnectPolicy.NonNegative :=
  ⟨h.base, h.most, h.ceiling⟩

/-- What `random.uniform` promises. -/
def Op.Fair : (op : Op) → op.Answer → Prop
  | .uniform low high, answer => low ≤ high → low ≤ answer ∧ answer ≤ high
  | _, _ => True

/-- The longest delay before an attempt. -/
def RetryPolicy.longest (policy : RetryPolicy) : BackOff → ℚ
  | .none => policy.maxDelaySeconds * (1 + policy.jitterRatio)
  | _ => policy.retryAfterCeilingSeconds

/-- **The delay before an attempt is bounded**: it is always computed, is not negative, and no longer
than the ceiling if the server said something, or else than the maximum and its jitter. -/
def AttemptBounded (lib : Library) (policy : RetryPolicy) (attemptIndex : ℕ)
    (retryAfter : Option PyStr) : Prop :=
  ∀ tr r, Coro.Runs (policy.delayForAttempt lib Program.now Program.uniform attemptIndex retryAfter)
      tr r → (∀ event ∈ tr, event.op.Fair event.answer) →
    ∃ delay, r = .ok (some delay) ∧ 0 ≤ delay ∧
      delay ≤ policy.longest ((readRetryAfter lib retryAfter).getD .none)

/-- **The delay before a reconnect is bounded**: it is always computed, is not negative, and no longer
than the ceiling if seconds are given, or else than the maximum. -/
def ReconnectBounded (policy : StreamReconnectPolicy) (reconnectNumber : ℕ)
    (retryAfterSeconds : Option PyFloat) : Prop :=
  ∃ delay, policy.delayForReconnectFloat reconnectNumber retryAfterSeconds = some (.finite delay) ∧
    0 ≤ delay ∧
    delay ≤ if retryAfterSeconds.isSome then policy.retryAfterCeilingSeconds
      else policy.maxDelaySeconds

/-! ## The power -/

theorem backoff_none_iff (base most : ℚ) (doublings : ℕ) :
    backoff base most doublings = none ↔ 1024 ≤ doublings := by
  by_cases hlarge : 1024 ≤ doublings
  · simp [backoff, hlarge]
  · simp [backoff, hlarge]

/-- Below the power that is no `float`, the cap bounds the delay. -/
theorem backoff_bounded {base most : ℚ} {doublings : ℕ} (hbase : 0 ≤ base) (hmost : 0 ≤ most)
    (hsmall : doublings < 1024) :
    ∃ delay, backoff base most doublings = some delay ∧ 0 ≤ delay ∧ delay ≤ most := by
  rw [backoff, if_neg (by omega)]
  have hproduct : 0 ≤ base * 2 ^ doublings := mul_nonneg hbase (by positivity)
  exact ⟨_, rfl, le_min hproduct hmost, min_le_right _ _⟩

/-- With its jitter, a delay stays above 0 and below the maximum and its jitter. -/
theorem jittered_bounded {delay most ratio jitter : ℚ} (hdelay : 0 ≤ delay) (hmost : delay ≤ most)
    (hratio : 0 ≤ ratio) (hhigh : jitter ≤ delay * ratio) :
    0 ≤ max 0 (delay + jitter) ∧ max 0 (delay + jitter) ≤ most * (1 + ratio) := by
  have hbound : 0 ≤ most * (1 + ratio) :=
    mul_nonneg (hdelay.trans hmost) (by linarith)
  refine ⟨le_max_left _ _, max_le hbound ?_⟩
  calc delay + jitter ≤ delay + delay * ratio := by gcongr
    _ = delay * (1 + ratio) := by ring
    _ ≤ most * (1 + ratio) := by gcongr

/-! ## Before an attempt -/

section
variable {lib : Library} {policy : RetryPolicy} {attemptIndex : ℕ} {retryAfter : Option PyStr}

/-- A header that says nothing counts for none. -/
theorem delayForAttempt_unsaid (hsaid : readRetryAfter lib retryAfter = some .none) :
    policy.delayForAttempt lib Program.now Program.uniform attemptIndex retryAfter =
      policy.delayForAttempt lib Program.now Program.uniform attemptIndex none := by
  rw [RetryPolicy.delayForAttempt, parseRetryAfterSeconds_program, hsaid]
  rfl

/-- What the server said is waited for, up to the ceiling. -/
theorem attemptBounded_of_said {said : BackOff} (h : policy.NonNegative)
    (hread : readRetryAfter lib retryAfter = some said) (hsaid : said ≠ .none) :
    AttemptBounded lib policy attemptIndex retryAfter := by
  intro tr r hruns _
  rw [RetryPolicy.delayForAttempt, parseRetryAfterSeconds_program, hread] at hruns
  rw [hread]
  cases said with
  | none => exact absurd rfl hsaid
  | seconds v =>
    obtain ⟨-, rfl⟩ := hruns
    exact ⟨_, rfl, le_min (seconds_nonneg hread) h.ceiling, min_le_right _ _⟩
  | date instant =>
    obtain ⟨now, _, -, -, rfl⟩ := hruns
    exact ⟨_, rfl, le_min (le_max_left _ _) h.ceiling, min_le_right _ _⟩

/-- Where it said nothing, the cap bounds the first 1024 attempts. -/
theorem attemptBounded_of_small (h : policy.NonNegative)
    (hsaid : readRetryAfter lib retryAfter = some .none) (hsmall : attemptIndex ≤ 1024) :
    AttemptBounded lib policy attemptIndex retryAfter := by
  intro tr r hruns hfair
  rw [delayForAttempt_unsaid hsaid] at hruns
  have hdoublings : attemptIndex - 1 < 1024 := by omega
  obtain ⟨delay, hdelay, hnonneg, hmost⟩ := backoff_bounded h.base h.most hdoublings
  unfold RetryPolicy.delayForAttempt at hruns
  simp only [parseRetryAfterSeconds, Coro.pure_eq, Coro.ret_bind, hdelay] at hruns
  rw [hsaid, Option.getD_some, RetryPolicy.longest]
  by_cases hjitter : policy.jitterRatio ≤ 0
  · rw [if_pos hjitter] at hruns
    obtain ⟨-, rfl⟩ := hruns
    have hzero : policy.jitterRatio = 0 := le_antisymm hjitter h.jitter
    exact ⟨delay, rfl, hnonneg, by simpa [hzero] using hmost⟩
  · rw [if_neg hjitter] at hruns
    obtain ⟨jitter, _, rfl, -, rfl⟩ := hruns
    have hspread : -(delay * policy.jitterRatio) ≤ delay * policy.jitterRatio := by
      linarith [mul_nonneg hnonneg h.jitter]
    obtain ⟨-, hhigh⟩ := hfair _ List.mem_cons_self hspread
    exact ⟨_, rfl, jittered_bounded hnonneg hmost h.jitter hhigh⟩

/-- From the 1025th attempt on, nothing is computed. -/
theorem not_attemptBounded (hsaid : readRetryAfter lib retryAfter = some .none)
    (hlarge : 1024 < attemptIndex) : ¬AttemptBounded lib policy attemptIndex retryAfter := by
  intro h
  have hbackoff := (backoff_none_iff policy.baseDelaySeconds policy.maxDelaySeconds
    (attemptIndex - 1)).2 (by omega)
  have hruns : Coro.Runs
      (policy.delayForAttempt lib Program.now Program.uniform attemptIndex retryAfter) []
      (.ok none) := by
    rw [delayForAttempt_unsaid hsaid]
    unfold RetryPolicy.delayForAttempt
    simp only [parseRetryAfterSeconds, Coro.pure_eq, Coro.ret_bind, hbackoff]
    exact ⟨rfl, rfl⟩
  obtain ⟨delay, hdelay, -⟩ := h _ _ hruns (by simp)
  cases hdelay

/-- Nor is anything for a header that cannot be read. -/
theorem not_attemptBounded_of_overflows (hoverflows : DateOverflows lib retryAfter) :
    ¬AttemptBounded lib policy attemptIndex retryAfter := by
  intro h
  have hruns : Coro.Runs
      (policy.delayForAttempt lib Program.now Program.uniform attemptIndex retryAfter) []
      (.ok none) := by
    rw [RetryPolicy.delayForAttempt, parseRetryAfterSeconds_program,
      readRetryAfter_eq_none_iff.2 hoverflows]
    exact ⟨rfl, rfl⟩
  obtain ⟨delay, hdelay, -⟩ := h _ _ hruns (by simp)
  cases hdelay

end

/-! ## Before a reconnect -/

section
variable {policy : StreamReconnectPolicy} {reconnectNumber : ℕ}

theorem reconnectBounded_of_given (h : policy.NonNegative) (seconds : PyFloat) :
    ReconnectBounded policy reconnectNumber (some seconds) := by
  obtain ⟨v, hv, hbounds⟩ := PyFloat.clamp_finite h.ceiling seconds
  exact ⟨v, congrArg some hv, hbounds⟩

theorem reconnectBounded_none_iff (h : policy.NonNegative) :
    ReconnectBounded policy reconnectNumber none ↔ reconnectNumber ≤ 1024 := by
  constructor
  · rintro ⟨delay, hdelay, -⟩
    by_contra hlarge
    have hbackoff := (backoff_none_iff policy.baseDelaySeconds policy.maxDelaySeconds
      (reconnectNumber - 1)).2 (by omega)
    simp [StreamReconnectPolicy.delayForReconnectFloat, StreamReconnectPolicy.delayForReconnect,
      hbackoff] at hdelay
  · intro hsmall
    have hdoublings : reconnectNumber - 1 < 1024 := by omega
    obtain ⟨delay, hdelay, hnonneg, hmost⟩ := backoff_bounded h.base h.most hdoublings
    refine ⟨max 0 delay, ?_, le_max_left _ _, max_le h.most hmost⟩
    rw [StreamReconnectPolicy.delayForReconnectFloat, StreamReconnectPolicy.delayForReconnect,
      hdelay]
    rfl

end

/-! ## When the delays are bounded -/

/-- **A delay is computed, and within its bound, exactly when the server said how long it is, or for no
more than 1024 attempts or reconnects.** What the server said must not be a date that no `datetime` can
hold. -/
theorem delays_bounded_iff (lib : Library) (policy : RetryPolicy) (streamPolicy : StreamReconnectPolicy)
    (hpolicy : policy.NonNegative) (hstream : streamPolicy.NonNegative) (n : ℕ) :
    (∀ retryAfter, AttemptBounded lib policy n retryAfter ↔
      ¬DateOverflows lib retryAfter ∧
        (readRetryAfter lib retryAfter ≠ some .none ∨ n ≤ 1024)) ∧
    ∀ retryAfterSeconds, ReconnectBounded streamPolicy n retryAfterSeconds ↔
      retryAfterSeconds.isSome ∨ n ≤ 1024 := by
  refine ⟨fun retryAfter => ⟨fun hbounded => ⟨fun hoverflows => ?_, ?_⟩, ?_⟩,
    fun retryAfterSeconds => ?_⟩
  · exact not_attemptBounded_of_overflows hoverflows hbounded
  · by_contra hneither
    rw [not_or, not_not, not_le] at hneither
    exact not_attemptBounded hneither.1 hneither.2 hbounded
  · rintro ⟨hreadable, hlong⟩
    cases hread : readRetryAfter lib retryAfter with
    | none => exact absurd (readRetryAfter_eq_none_iff.1 hread) hreadable
    | some said =>
      by_cases hsaid : said = .none
      · rw [hsaid] at hread
        exact attemptBounded_of_small hpolicy hread (hlong.resolve_left (absurd hread))
      · exact attemptBounded_of_said hpolicy hread hsaid
  · cases retryAfterSeconds with
    | none => simp [reconnectBounded_none_iff hstream]
    | some seconds => simp [reconnectBounded_of_given hstream seconds]

/-- The policies as they are by default. -/
theorem delays_bounded_iff_defaults :
    RetryPolicy.NonNegative {} ∧ StreamReconnectPolicy.NonNegative {} ∧
    (∀ retryAfter, AttemptBounded simClient.lib {} 1 retryAfter ↔
      ¬DateOverflows simClient.lib retryAfter ∧
        (readRetryAfter simClient.lib retryAfter ≠ some .none ∨ 1 ≤ 1024)) ∧
    ∀ retryAfterSeconds, ReconnectBounded {} 1 retryAfterSeconds ↔
      retryAfterSeconds.isSome ∨ 1 ≤ 1024 :=
  have hpolicy : RetryPolicy.NonNegative {} := by constructor <;> norm_num
  have hstream : StreamReconnectPolicy.NonNegative {} := by constructor <;> norm_num
  ⟨hpolicy, hstream, delays_bounded_iff simClient.lib {} {} hpolicy hstream 1⟩

/-- With the defaults, the 1025th attempt without a `Retry-After` gets no delay, and neither does the
1025th reconnect. -/
theorem delays_unbounded_1025 :
    ¬AttemptBounded simClient.lib {} 1025 none ∧ ¬ReconnectBounded {} 1025 none := by
  refine ⟨not_attemptBounded rfl (by omega), ?_⟩
  have hstream : StreamReconnectPolicy.NonNegative {} := by constructor <;> norm_num
  rw [reconnectBounded_none_iff hstream]
  omega

end TradeStation
