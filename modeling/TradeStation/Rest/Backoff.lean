import TradeStation.Rest.Streams
import TradeStation.Rest.Writes

/-!
# The server's back-off

The names of HTTP fields have no case, but the wrapper keeps them in a `dict`, under the spelling of
the transport. `Headers.field` is the lookup that is meant, and `BackOff` what a `Retry-After` says.

* `retryAfter_honoured_iff`: when the retries, the errors and the reconnects go by what the server
  said.
-/

namespace TradeStation

open Python Foundations TradeStation.Stream

/-! ## Fields -/

/-- The name of a field, whose case does not matter. -/
def fieldName (name : PyStr) : PyStr := name.map fun c => if 0x41 ≤ c ∧ c ≤ 0x5a then c + 0x20 else c

/-- The field of that name. -/
def Headers.field (headers : Headers) (name : PyStr) : Option PyStr :=
  (headers.find? fun h => fieldName h.1 = fieldName name).map Prod.snd

/-- The same fields, but for the case of their names. -/
def SameFields (headers headers' : Headers) : Prop :=
  headers.map (fun h => (fieldName h.1, h.2)) = headers'.map fun h => (fieldName h.1, h.2)

/-- How a field is spelled does not matter. -/
theorem field_congr {headers headers' : Headers} (h : SameFields headers headers') (name : PyStr) :
    headers.field name = headers'.field name := by
  have hfield : ∀ headers : Headers, headers.field name =
      ((headers.map fun h => (fieldName h.1, h.2)).find? fun h => h.1 = fieldName name).map
        Prod.snd := by
    intro headers
    rw [List.find?_map, Option.map_map]
    rfl
  rw [hfield, hfield, h]

/-- `"Retry-After"`. -/
def retryAfterName : PyStr := str "Retry-After"

/-- No two spellings of a `Retry-After`. -/
def OneRetryAfter (headers : Headers) : Prop :=
  (headers.filter fun h => fieldName h.1 = fieldName retryAfterName).length ≤ 1

/-- What is found under the spelling of the code is the field, where it is the only one. -/
theorem field_of_get {headers : Headers} {value : PyStr} (hone : OneRetryAfter headers)
    (h : headers.get retryAfterName = some value) : headers.field retryAfterName = some value := by
  obtain ⟨⟨name, v⟩, hfound, hv⟩ := Option.map_eq_some_iff.1 h
  obtain rfl : v = value := hv
  have hname : name = retryAfterName := by simpa using List.find?_some hfound
  have hmem : (name, v) ∈ headers.filter fun h => fieldName h.1 = fieldName retryAfterName :=
    List.mem_filter.2 ⟨List.mem_of_find?_eq_some hfound, by simp [hname]⟩
  rw [Headers.field, ← List.head?_filter]
  cases hfields : headers.filter fun h => fieldName h.1 = fieldName retryAfterName with
  | nil => simp [hfields] at hmem
  | cons field rest =>
    have hrest : rest = [] := by
      rw [OneRetryAfter, hfields, List.length_cons] at hone
      exact List.length_eq_zero_iff.1 (by omega)
    rw [hfields, hrest, List.mem_singleton] at hmem
    rw [List.head?_cons, ← hmem]
    rfl

/-! ## What a `Retry-After` says -/

namespace BackOff

/-- The time to wait, from now on. -/
def remaining (now : Datetime) : BackOff → Option ℚ
  | .none => Option.none
  | .seconds v => some v
  | .date instant => some (max 0 (totalSeconds (instant - now.instant)))

/-- The time to wait, with a look at the clock where it is needed. -/
def wait : BackOff → Program (Option ℚ)
  | .none => return Option.none
  | .seconds v => return some v
  | .date instant => do
    let now ← Program.now
    return (BackOff.date instant).remaining now

theorem instant_utc (t : ℤ) : (Datetime.utc t).instant = t := by
  simp [Datetime.utc, Datetime.instant, Datetime.utcoffset]

/-- Until a time that is a number of seconds ahead, that number is left. -/
theorem remaining_date (instant : ℤ) (n : ℕ) :
    (BackOff.date instant).remaining (.utc (instant - n * 1000000)) = some (n : ℚ) := by
  have hahead : instant - (Datetime.utc (instant - n * 1000000)).instant = n * 1000000 := by
    rw [instant_utc]
    omega
  rw [remaining, hahead, totalSeconds]
  norm_num

/-- At some time or other, two values say different things. -/
theorem remaining_inj {a b : BackOff} (h : ∀ now, a.remaining now = b.remaining now) : a = b := by
  -- a time and a number of seconds differ at one of two times
  have hvaries : ∀ instant v, ¬∀ now, (BackOff.date instant).remaining now = some v := by
    intro instant v hsame
    have hnow := hsame (.utc (instant - (0 : ℕ) * 1000000))
    have hlater := hsame (.utc (instant - (1 : ℕ) * 1000000))
    rw [remaining_date] at hnow hlater
    rw [← hnow] at hlater
    simp at hlater
  cases a with
  | none =>
    cases b with
    | none => rfl
    | seconds v => cases h (.utc 0)
    | date instant => cases h (.utc 0)
  | seconds v =>
    cases b with
    | none => cases h (.utc 0)
    | seconds w => rw [Option.some.inj (h (.utc 0))]
    | date instant => exact absurd (fun now => (h now).symm) (hvaries instant v)
  | date instant =>
    cases b with
    | none => cases h (.utc 0)
    | seconds v => exact absurd h (hvaries instant v)
    | date instant' =>
      have hle : ∀ t u : ℤ, (BackOff.date t).remaining (.utc t) = (BackOff.date u).remaining (.utc t) →
          u ≤ t := by
        intro t u hsame
        have hnow : totalSeconds 0 = 0 := by simp [totalSeconds]
        rw [remaining, remaining, instant_utc, Int.sub_self, hnow, max_self] at hsame
        by_contra hlater
        have hpos : 0 < totalSeconds (u - t) := by
          rw [totalSeconds]
          have hdiff : (0 : ℚ) < ((u - t : ℤ) : ℚ) := by exact_mod_cast (by omega)
          positivity
        rw [max_eq_right hpos.le] at hsame
        exact hpos.ne (Option.some.inj hsame)
      have hinstant := le_antisymm (hle instant' instant (h _).symm) (hle instant instant' (h _))
      rw [hinstant]

end BackOff

section
variable {lib : Library} {value : Option PyStr}

theorem parseRetryAfterSeconds_id {said : BackOff} (hread : readRetryAfter lib value = some said)
    (now : Datetime) : parseRetryAfterSeconds (m := Id) lib now value = .ok (said.remaining now) := by
  cases value with
  | none =>
    cases hread
    rfl
  | some text =>
    unfold readRetryAfter at hread
    unfold parseRetryAfterSeconds
    rcases hfloat : lib.float text with _ | _ | numeric
    · rcases hdate : lib.parsedate text with (_ | _) | retryAt <;> simp only [hfloat, hdate] at hread ⊢
      all_goals cases hread
      all_goals rfl
    all_goals
      simp only [hfloat] at hread ⊢
      cases hread
      rfl

/-- Reading a header in a coroutine. -/
theorem parseRetryAfterSeconds_program (lib : Library) (value : Option PyStr) :
    parseRetryAfterSeconds lib Program.now value =
      (readRetryAfter lib value).elim (return .error .overflow) fun said =>
        said.wait >>= fun seconds => return .ok seconds := by
  cases value with
  | none => rfl
  | some text =>
    unfold parseRetryAfterSeconds readRetryAfter
    rcases hfloat : lib.float text with _ | _ | numeric
    · rcases hdate : lib.parsedate text with (_ | _) | retryAt <;> simp only [hfloat, hdate] <;> rfl
    all_goals
      simp only [hfloat]
      rfl

end

/-! ## What is meant -/

/-- Between two attempts: no longer than the ceiling what the server says, or else what the policy
says by itself. -/
def backoffSleep (client : RestClient) (attempt : ℕ) (said : BackOff) : Program Unit := do
  match ← said.wait with
  | some v => Program.sleep (min v client.retryPolicy.retryAfterCeilingSeconds)
  | none => client.sleep attempt

theorem sleep_eq (client : RestClient) (attempt : ℕ) (value : Option PyStr) :
    client.sleep attempt value =
      (readRetryAfter client.lib value).elim (throw .overflow) (backoffSleep client attempt) := by
  rw [RestClient.sleep, RetryPolicy.delayForAttempt, parseRetryAfterSeconds_program]
  rcases readRetryAfter client.lib value with _ | _ | _ | _ <;> rfl

/-- The error of a 429, with the time that the server said. -/
def rateLimitError (lib : Library) (response : HTTPResponse) (retryAfterSeconds : Option ℚ) : Exc :=
  let payload := responsePayload lib response
  .rateLimit response.statusCode
    (payloadText lib payload (str "Error") (str "error") (str "TradeStationAPIError"))
    (payloadText lib payload (str "Message") (str "message") response.pyText) (some payload)
    retryAfterSeconds

/-- The reconnect behind a 429: no longer than the ceiling what the server says, or else what the
policy says by itself. -/
def backoffReconnect (policy : StreamReconnectPolicy) (reconnectNumber : ℕ) (said : Option ℚ) :
    Option ℚ :=
  match said with
  | some v => some (min v policy.retryAfterCeilingSeconds)
  | none => policy.delayForReconnect reconnectNumber none

/-- A run in which a request of `request_json` has got a response. -/
def responded (client : RestClient) (call : Call) (token : PyStr) (response : HTTPResponse)
    (tail : Trace Op Op.Answer) : Trace Op Op.Answer :=
  ⟨.provider .getAccessToken, .ok token⟩ :: ⟨.send (client.request call token), .ok response⟩ :: tail

/-- What the server says in the response. A date that no `datetime` can hold says nothing. -/
def HTTPResponse.backOff (lib : Library) (response : HTTPResponse) : BackOff :=
  (readRetryAfter lib (response.headers.field retryAfterName)).getD .none

/-- **The server's back-off is honoured**: the field of the response, and not its spelling, says how
long a retry waits, what a `RateLimitError` carries, and how long a stream waits to reconnect. -/
structure HonoursRetryAfter (lib : Library) (response : HTTPResponse) : Prop where
  retries : isRetryable response = true → ∀ client : RestClient, client.lib = lib →
    ∀ (call : Call) (attempt : ℕ) (refreshed : Bool) (token : PyStr) (tail : Trace Op Op.Answer)
      (r : Except Exc Json.Dict), call.retrySafe = true →
      (attempt : ℤ) < client.retryPolicy.maxAttempts →
      (Coro.Runs (client.requestLoop call attempt refreshed)
          (responded client call token response tail) r ↔
        Coro.Runs (backoffSleep client attempt (response.backOff lib) >>= fun _ =>
          client.requestLoop call (attempt + 1) refreshed) tail r)
  raises : response.statusCode = 429 → ∀ client : RestClient, client.lib = lib →
    ∀ (call : Call) (attempt : ℕ) (refreshed : Bool) (token : PyStr) (tail : Trace Op Op.Answer)
      (r : Except Exc Json.Dict),
      call.retrySafe = false ∨ client.retryPolicy.maxAttempts ≤ (attempt : ℤ) →
      (Coro.Runs (client.requestLoop call attempt refreshed)
          (responded client call token response tail) r ↔
        ∃ said, Coro.Runs (response.backOff lib).wait tail (.ok said) ∧
          r = .error (rateLimitError lib response said))
  streamOpens : response.statusCode = 429 → ∀ client : RestClient, client.lib = lib → ∀ now,
    client.streamOpenApiError now response.statusCode response.headers response.body =
      .ok (rateLimitError lib response ((response.backOff lib).remaining now))
  reconnects : response.statusCode = 429 → ∀ client : RestClient, client.lib = lib → ∀ now,
    ∀ (policy : StreamReconnectPolicy) (reconnects : ℕ) (delay : ℚ),
      (reconnects : ℤ) < policy.maxReconnects →
      backoffReconnect policy (reconnects + 1) ((response.backOff lib).remaining now) = some delay →
      ∃ exc, onException (σ := StreamEffect) policy none reconnects
          (client.raiseStreamOpenApiError now response.statusCode response.headers response.body) =
        ([.failed exc, .slept (reconnects + 1) delay], .inr (reconnects + 1))

/-- What is looked up can be read, and is what the server says. -/
def Heard (lib : Library) (response : HTTPResponse) : Prop :=
  readRetryAfter lib (response.headers.get retryAfterName) = some (response.backOff lib)

/-- A field by itself is heard when it is spelled as in the code, or says nothing; and one that cannot be
read, when it is not found. -/
theorem heard_iff {lib : Library} {response : HTTPResponse} (hone : OneRetryAfter response.headers) :
    Heard lib response ↔ ∀ value, response.headers.field retryAfterName = some value →
      (DateOverflows lib (some value) → response.headers.get retryAfterName = none) ∧
      ∀ said, readRetryAfter lib (some value) = some said → said ≠ .none →
        response.headers.get retryAfterName = some value := by
  rw [Heard, HTTPResponse.backOff]
  cases hget : response.headers.get retryAfterName with
  | some found =>
    rw [field_of_get hone hget]
    cases hread : readRetryAfter lib (some found) with
    | none =>
      refine iff_of_false (fun h => by cases h) fun h => ?_
      cases (h found rfl).1 (readRetryAfter_eq_none_iff.1 hread)
    | some said =>
      refine iff_of_true rfl ?_
      rintro value ⟨⟩
      refine ⟨fun hoverflows => ?_, fun _ _ _ => rfl⟩
      rw [readRetryAfter_eq_none_iff.2 hoverflows] at hread
      cases hread
  | none =>
    have hnothing : readRetryAfter lib none = some .none := rfl
    rw [hnothing]
    cases hfield : response.headers.field retryAfterName with
    | none =>
      refine iff_of_true rfl ?_
      rintro value ⟨⟩
    | some field =>
      cases hread : readRetryAfter lib (some field) with
      | none =>
        refine iff_of_true rfl ?_
        rintro value ⟨⟩
        refine ⟨fun _ => rfl, fun said hsaid => ?_⟩
        rw [hread] at hsaid
        cases hsaid
      | some said =>
        constructor
        · rintro hsaid value ⟨⟩
          refine ⟨fun _ => rfl, fun said' hsaid' hne => ?_⟩
          rw [hread] at hsaid'
          cases hsaid'
          exact absurd (Option.some.inj hsaid).symm hne
        · intro h
          by_contra hne
          have hsays : said ≠ .none := by
            rintro rfl
            exact hne rfl
          cases (h field rfl).2 said hread hsays

/-! ## When it is honoured -/

/-- A value never says a time before now. -/
theorem seconds_nonneg {lib : Library} {value : Option PyStr} {v : ℚ}
    (h : readRetryAfter lib value = some (.seconds v)) : 0 ≤ v := by
  unfold readRetryAfter at h
  split at h
  · cases h
  · split at h
    · cases h
    · cases h
      exact le_max_left _ _
    · split at h <;> cases h

theorem remaining_nonneg {lib : Library} {response : HTTPResponse} {now : Datetime} {v : ℚ}
    (h : (response.backOff lib).remaining now = some v) : 0 ≤ v := by
  rw [HTTPResponse.backOff] at h
  cases hread : readRetryAfter lib (response.headers.field retryAfterName) with
  | none =>
    rw [hread] at h
    cases h
  | some said =>
    rw [hread] at h
    cases said with
    | none => cases h
    | seconds v' =>
      cases h
      exact seconds_nonneg hread
    | date instant =>
      cases h
      exact le_max_left _ _

theorem delayForReconnect_eq {lib : Library} {response : HTTPResponse} {now : Datetime}
    (policy : StreamReconnectPolicy) (reconnectNumber : ℕ) :
    policy.delayForReconnect reconnectNumber ((response.backOff lib).remaining now) =
      backoffReconnect policy reconnectNumber ((response.backOff lib).remaining now) := by
  cases hsaid : (response.backOff lib).remaining now with
  | none => rfl
  | some v =>
    have hnonneg := remaining_nonneg hsaid
    simp [StreamReconnectPolicy.delayForReconnect, backoffReconnect, hnonneg]

/-- The error of a 429 carries what is looked up. -/
theorem apiError_429 {lib : Library} {response : HTTPResponse} {said : BackOff}
    (h429 : response.statusCode = 429)
    (hread : readRetryAfter lib (response.headers.get retryAfterName) = some said) :
    Program.apiError lib response =
      (said.wait >>= fun seconds => (return rateLimitError lib response seconds : Program Exc)) := by
  have h401 : ¬response.statusCode = 401 := by omega
  rw [Program.apiError, apiError]
  simp only [if_neg h401, if_pos h429]
  have hparse := parseRetryAfterSeconds_program lib (response.headers.get retryAfterName)
  rw [hread] at hparse
  rw [← retryAfterName, hparse, Option.elim_some]
  cases said <;> rfl

/-- What follows a response that is no success, no 401 to refresh behind, and leaves no order write in
doubt. -/
theorem runs_responded {client : RestClient} {call : Call} {attempt : ℕ} {refreshed : Bool}
    {token : PyStr} {response : HTTPResponse} {tail : Trace Op Op.Answer}
    {r : Except Exc Json.Dict} (h401 : ¬(response.statusCode = 401 ∧ refreshed = false))
    (hsuccess : ¬isSuccess response = true)
    (hambiguous : ¬(call.retrySafe = false ∧ response.statusCode ∈ ambiguousWriteStatuses)) :
    Coro.Runs (client.requestLoop call attempt refreshed)
        (responded client call token response tail) r ↔
      Coro.Runs
        (if call.retrySafe = true ∧ isRetryable response = true ∧
            (attempt : ℤ) < client.retryPolicy.maxAttempts then
          client.sleep attempt (response.headers.get retryAfterName) >>= fun _ =>
            client.requestLoop call (attempt + 1) refreshed
        else Program.apiError client.lib response >>= fun error => throw error) tail r := by
  rw [RestClient.requestLoop, Program.getAccessToken, Program.runs_provider]
  constructor
  · rintro (⟨_, htrace, -⟩ | ⟨_, _, htrace, h⟩)
    · cases htrace
    · cases htrace
      obtain ⟨_, _, htrace, h⟩ := Program.runs_send.1 h
      cases htrace
      simpa only [dif_neg h401, if_neg hsuccess, if_neg hambiguous, dite_eq_ite, retryAfterName]
        using h
  · intro h
    refine .inr ⟨token, _, rfl, Program.runs_send.2 ⟨_, _, rfl, ?_⟩⟩
    simpa only [dif_neg h401, if_neg hsuccess, if_neg hambiguous, dite_eq_ite, retryAfterName]
      using h

section
variable {client : RestClient} {call : Call} {attempt : ℕ} {refreshed : Bool} {token : PyStr}
  {response : HTTPResponse} {tail : Trace Op Op.Answer} {r : Except Exc Json.Dict}

/-- What follows a response that is retried. -/
theorem runs_retried (hretryable : isRetryable response = true) (hsafe : call.retrySafe = true)
    (hmore : (attempt : ℤ) < client.retryPolicy.maxAttempts) :
    Coro.Runs (client.requestLoop call attempt refreshed)
        (responded client call token response tail) r ↔
      Coro.Runs (client.sleep attempt (response.headers.get retryAfterName) >>= fun _ =>
        client.requestLoop call (attempt + 1) refreshed) tail r := by
  have hstatus : response.statusCode = 408 ∨ response.statusCode = 429 ∨
      response.statusCode = 500 ∨ response.statusCode = 502 ∨ response.statusCode = 503 ∨
      response.statusCode = 504 := by
    simpa [isRetryable] using hretryable
  rw [runs_responded (by omega) (by rw [isSuccess_iff]; omega) (by simp [hsafe]),
    if_pos ⟨hsafe, hretryable, hmore⟩]

/-- What follows a 429 that is not retried. -/
theorem runs_rateLimited {said : BackOff} (h429 : response.statusCode = 429)
    (hread : readRetryAfter client.lib (response.headers.get retryAfterName) = some said)
    (hlast : call.retrySafe = false ∨ client.retryPolicy.maxAttempts ≤ (attempt : ℤ)) :
    Coro.Runs (client.requestLoop call attempt refreshed)
        (responded client call token response tail) r ↔
      ∃ seconds, Coro.Runs said.wait tail (.ok seconds) ∧
        r = .error (rateLimitError client.lib response seconds) := by
  have hno : ¬(call.retrySafe = true ∧ isRetryable response = true ∧
      (attempt : ℤ) < client.retryPolicy.maxAttempts) := by
    rintro ⟨hsafe, -, hmore⟩
    rcases hlast with hunsafe | hlast
    · simp [hsafe] at hunsafe
    · omega
  rw [runs_responded (by omega) (by rw [isSuccess_iff]; omega)
    (by simp [h429, ambiguousWriteStatuses]), if_neg hno, apiError_429 h429 hread]
  cases said with
  | none => exact ⟨fun h => ⟨_, ⟨h.1, rfl⟩, h.2⟩, by rintro ⟨_, ⟨htail, ⟨⟩⟩, hr⟩; exact ⟨htail, hr⟩⟩
  | seconds v =>
    exact ⟨fun h => ⟨_, ⟨h.1, rfl⟩, h.2⟩, by rintro ⟨_, ⟨htail, ⟨⟩⟩, hr⟩; exact ⟨htail, hr⟩⟩
  | date instant =>
    constructor
    · rintro ⟨now, rest, rfl, hrest, hr⟩
      exact ⟨_, ⟨now, rest, rfl, hrest, rfl⟩, hr⟩
    · rintro ⟨_, ⟨now, rest, rfl, hrest, ⟨⟩⟩, hr⟩
      exact ⟨now, rest, rfl, hrest, hr⟩

end

/-- The error of a stream that opens with a 429 carries what is looked up. -/
theorem streamOpenApiError_429 {client : RestClient} {response : HTTPResponse} {said : BackOff}
    (now : Datetime) (h429 : response.statusCode = 429)
    (hread : readRetryAfter client.lib (response.headers.get retryAfterName) = some said) :
    client.streamOpenApiError now response.statusCode response.headers response.body =
      .ok (rateLimitError client.lib response (said.remaining now)) := by
  have h401 : ¬response.statusCode = 401 := by omega
  have hparse := parseRetryAfterSeconds_id hread now
  rw [RestClient.streamOpenApiError, apiError]
  simp only [if_neg h401, if_pos h429]
  rw [← retryAfterName, hparse]
  rfl

/-- **What is heard is honoured**, and nothing need be heard where nothing is retried. -/
theorem honours_of_heard {lib : Library} {response : HTTPResponse}
    (h : isRetryable response = true → Heard lib response) : HonoursRetryAfter lib response := by
  have h429 : response.statusCode = 429 → Heard lib response := fun h429 =>
    h (by simp [isRetryable, h429])
  constructor
  · rintro hretryable client rfl call attempt refreshed token tail r hsafe hmore
    rw [runs_retried hretryable hsafe hmore, sleep_eq, h hretryable]
    rfl
  · rintro hstatus client rfl call attempt refreshed token tail r hlast
    exact runs_rateLimited hstatus (h429 hstatus) hlast
  · rintro hstatus client rfl now
    exact streamOpenApiError_429 now hstatus (h429 hstatus)
  · rintro hstatus client rfl now policy reconnects delay hbudget hdelay
    have herror := streamOpenApiError_429 now hstatus (h429 hstatus)
    rw [RestClient.raiseStreamOpenApiError, herror]
    refine ⟨rateLimitError client.lib response ((response.backOff client.lib).remaining now), ?_⟩
    have hreconnect := (delayForReconnect_eq policy (reconnects + 1)).trans hdelay
    rw [onException]
    simp only [rateLimitError, handling, if_neg (not_le.2 hbudget), sleepForReconnect, hreconnect]

/-! ## When it is not -/

/-- The clock shows one time throughout. -/
def Op.AnswersAt (now : Datetime) : (op : Op) → op.Answer → Prop
  | .now, answer => answer = now
  | _, _ => True

/-- The first sleep of a run. -/
def firstSleep : Trace Op Op.Answer → Option ℚ
  | [] => none
  | ⟨.sleep delay, _⟩ :: _ => some delay
  | _ :: tr => firstSleep tr

/-- The delay behind the first attempt, for a policy without jitter. -/
def plainDelay (policy : RetryPolicy) : Option ℚ → ℚ
  | some v => min v policy.retryAfterCeilingSeconds
  | none => min policy.baseDelaySeconds policy.maxDelaySeconds

theorem sleep_plain {client : RestClient} (hjitter : client.retryPolicy.jitterRatio ≤ 0) :
    client.sleep 1 = Program.sleep (plainDelay client.retryPolicy none) := by
  simp [RestClient.sleep, RetryPolicy.delayForAttempt, parseRetryAfterSeconds, backoff, hjitter,
    plainDelay]

theorem firstSleep_of_runs {client : RestClient} {said : BackOff} {now : Datetime}
    {f : Unit → Program Json.Dict} {tail : Trace Op Op.Answer} {r : Except Exc Json.Dict}
    (hjitter : client.retryPolicy.jitterRatio ≤ 0)
    (h : Coro.Runs (backoffSleep client 1 said >>= f) tail r)
    (hclock : ∀ event ∈ tail, event.op.AnswersAt now event.answer) :
    firstSleep tail = some (plainDelay client.retryPolicy (said.remaining now)) := by
  cases said with
  | none =>
    have hplain : backoffSleep client 1 .none = client.sleep 1 := rfl
    rw [hplain, sleep_plain hjitter] at h
    obtain ⟨answer, rest, rfl, -⟩ := h
    rfl
  | seconds v =>
    obtain ⟨answer, rest, rfl, -⟩ := h
    rfl
  | date instant =>
    obtain ⟨t, _, rfl, answer, rest, rfl, -⟩ := h
    obtain rfl : t = now := hclock ⟨.now, t⟩ List.mem_cons_self
    rfl

/-- Where two values differ there is a policy that shows it. -/
theorem exists_policy {a b : Option ℚ} (h : a ≠ b) :
    ∃ policy : RetryPolicy, policy.maxAttempts = 2 ∧ policy.jitterRatio ≤ 0 ∧
      plainDelay policy a ≠ plainDelay policy b := by
  have hone : ∀ v : ℚ, ∃ policy : RetryPolicy, policy.maxAttempts = 2 ∧ policy.jitterRatio ≤ 0 ∧
      plainDelay policy (some v) ≠ plainDelay policy none := by
    intro v
    refine ⟨⟨2, v + 1, v + 1, 0, v⟩, rfl, le_rfl, ?_⟩
    simp [plainDelay]
  rcases a with _ | x <;> rcases b with _ | y
  · exact absurd rfl h
  · obtain ⟨policy, hmax, hjitter, hne⟩ := hone y
    exact ⟨policy, hmax, hjitter, hne.symm⟩
  · exact hone x
  · refine ⟨⟨2, 0, 0, 0, max x y⟩, rfl, le_rfl, ?_⟩
    simpa [plainDelay] using h

/-- Parties that answer, at one time. -/
def answersAt (now : Datetime) : Coro.Env Op Op.Answer := fun _ op =>
  match op with
  | .provider _ => .ok []
  | .send _ => .error (.transport [])
  | .sleep _ => .ok ()
  | .uniform low _ => low
  | .now => now
  | .exists _ => false

/-- A client with a policy. -/
def policyClient (lib : Library) (policy : RetryPolicy) : RestClient where
  lib
  config := simConfig
  retryPolicy := policy

/-- **What is honoured has been heard.** -/
theorem heard_of_honours {lib : Library} {response : HTTPResponse}
    (h : HonoursRetryAfter lib response) (hretryable : isRetryable response = true) :
    Heard lib response := by
  -- the first sleep of a run is the delay that is meant, whatever the policy and the clock
  have hmeant : ∀ (policy : RetryPolicy) (now : Datetime), policy.maxAttempts = 2 →
      policy.jitterRatio ≤ 0 → ∃ tr r,
        Coro.Runs ((policyClient lib policy).sleep 1 (response.headers.get retryAfterName) >>= fun _ =>
          (policyClient lib policy).requestLoop
            { method := str "GET", path := [], retrySafe := true } 2 false) tr r ∧
        (∀ event ∈ tr, event.op.AnswersAt now event.answer) ∧
        firstSleep tr = some (plainDelay policy ((response.backOff lib).remaining now)) := by
    intro policy now hmax hjitter
    set client : RestClient := policyClient lib policy
    set call : Call := { method := str "GET", path := [], retrySafe := true }
    have hmore : ((1 : ℕ) : ℤ) < client.retryPolicy.maxAttempts := by
      show ((1 : ℕ) : ℤ) < policy.maxAttempts
      rw [hmax]
      decide
    set program : Program Json.Dict := client.sleep 1 (response.headers.get retryAfterName) >>=
      fun _ => client.requestLoop call 2 false
    have hrun := Coro.exec_runs (answersAt now) [] program
    have hclock : ∀ event ∈ (Coro.exec (answersAt now) [] program).1,
        Op.AnswersAt now event.op event.answer :=
      Coro.exec_answers (fun _ op => by cases op <;> first | rfl | trivial) [] program
    have hhonoured := (h.retries hretryable client rfl call 1 false [] _ _ rfl hmore).1
      ((runs_retried hretryable rfl hmore).2 hrun)
    exact ⟨_, _, hrun, hclock, firstSleep_of_runs hjitter hhonoured hclock⟩
  rw [Heard]
  cases hread : readRetryAfter lib (response.headers.get retryAfterName) with
  | none =>
    obtain ⟨tr, r, hrun, -, hfirst⟩ := hmeant { maxAttempts := 2, jitterRatio := 0 } (.utc 0) rfl le_rfl
    rw [sleep_eq, policyClient, hread] at hrun
    obtain ⟨rfl, -⟩ := hrun
    cases hfirst
  | some said =>
    refine congrArg some (BackOff.remaining_inj fun now => ?_)
    by_contra hne
    obtain ⟨policy, hmax, hjitter, hdelay⟩ := exists_policy hne
    obtain ⟨tr, r, hrun, hclock, hfirst⟩ := hmeant policy now hmax hjitter
    rw [sleep_eq, policyClient, hread] at hrun
    rw [firstSleep_of_runs hjitter hrun hclock] at hfirst
    exact hdelay (Option.some.inj hfirst)

/-- **A retry, an error and a reconnect go by what the server said exactly when nothing is retried, or
the lookup finds what the field says**: where the field is the only one, it has to be spelled as in the
code, unless it says nothing; and if it is a date that no `datetime` can hold, it must not be found.
What is meant is the same for all spellings. -/
theorem retryAfter_honoured_iff (lib : Library) (response : HTTPResponse) :
    (HonoursRetryAfter lib response ↔ isRetryable response = false ∨ Heard lib response) ∧
    (OneRetryAfter response.headers →
      (Heard lib response ↔
        ∀ value, response.headers.field retryAfterName = some value →
          (DateOverflows lib (some value) → response.headers.get retryAfterName = none) ∧
          ∀ said, readRetryAfter lib (some value) = some said → said ≠ .none →
            response.headers.get retryAfterName = some value)) ∧
    ∀ headers', SameFields response.headers headers' →
      HTTPResponse.backOff lib { response with headers := headers' } = response.backOff lib := by
  refine ⟨⟨fun h => ?_, fun h => ?_⟩, heard_iff, fun headers' hsame => ?_⟩
  · cases hretryable : isRetryable response with
    | false => exact .inl rfl
    | true => exact .inr (heard_of_honours h hretryable)
  · refine honours_of_heard fun hretryable => ?_
    rcases h with hnot | hheard
    · rw [hnot] at hretryable
      cases hretryable
    · exact hheard
  · rw [HTTPResponse.backOff, HTTPResponse.backOff, field_congr hsame]

/-- A library that reads `"2"`. -/
def twoLibrary : Library :=
  { simClient.lib with float := fun s => if s = str "2" then some (some 2) else none }

/-- A 429 from a transport with names in lower case: `retry-after: 2` is not found. -/
theorem retryAfter_lowerCase :
    ¬HonoursRetryAfter twoLibrary ⟨429, [(str "retry-after", str "2")], []⟩ := by
  intro h
  have hheard := heard_of_honours h (by decide)
  have hget : Headers.get [(str "retry-after", str "2")] retryAfterName = none := by decide
  have hfield : Headers.field [(str "retry-after", str "2")] retryAfterName = some (str "2") := by
    decide
  rw [Heard, HTTPResponse.backOff, hget, hfield] at hheard
  simp [readRetryAfter, twoLibrary] at hheard

end TradeStation
