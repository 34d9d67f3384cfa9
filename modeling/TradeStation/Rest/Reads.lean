import TradeStation.Rest.Drops

/-!
# Safe reads

What a request that may be retried does, over every sequence of transport outcomes.

* `ReadRun` lists its runs, and `readRun_of_runs` says that there are no others. A turn of the loop
  uses up an attempt or the one refresh, which bounds all that is sent and slept.
* `conclusive_iff`: a run ends in what its last outcome says, unless it ends in an `OverflowError`.
* `safeRead_conclusive_iff`: that happens exactly if the delay behind some outcome cannot be computed on
  its attempt, or the `Retry-After` of a last 429 cannot be read.
* `safeRead_conclusive`: so not to a policy with no more than 1025 attempts, where every `Retry-After` can
  be read.
-/

namespace TradeStation

open Python Foundations

/-- A call of `get`, `post_read` or `post_confirm`. -/
inductive SafeRead
  | get (path : PyStr)
  | postRead (path : PyStr) (payload : Json.Dict)
  | postConfirm (path : PyStr) (payload : Json.Dict)

namespace SafeRead

/-- The coroutine of a safe read. -/
def program (client : RestClient) : SafeRead → Program Json.Dict
  | .get path => client.get path
  | .postRead path payload => client.postRead path payload
  | .postConfirm path payload => client.postConfirm path payload

/-- Every safe read is a call of `request_json` that may be retried. -/
theorem program_eq (client : RestClient) (read : SafeRead) :
    ∃ call : Call, call.retrySafe = true ∧ read.program client = client.requestJson call := by
  cases read <;> exact ⟨_, rfl, rfl⟩

end SafeRead

/-- The token provider and the sleeper do not raise, and the transport answers with a response or
with a `TransportError`. -/
def Op.Regular : (op : Op) → op.Answer → Prop
  | .provider _, answer => ∃ token, answer = .ok token
  | .send _, answer => TransportOutcome answer
  | .sleep _, answer => answer = .ok ()
  | .uniform _ _, _ => True
  | .now, _ => True
  | .exists _, _ => True

/-- A run against parties that are regular. -/
def RegularRun (tr : Trace Op Op.Answer) : Prop := ∀ event ∈ tr, event.op.Regular event.answer

/-! ## Outcomes -/

/-- The outcome of an event that hands a request to the transport. -/
def outcomeOf : Event Op Op.Answer → Option (Except Exc HTTPResponse)
  | ⟨.send _, answer⟩ => some answer
  | _ => none

/-- The outcomes of the requests handed to the transport, in order. -/
def outcomes (tr : Trace Op Op.Answer) : List (Except Exc HTTPResponse) := tr.filterMap outcomeOf

@[simp] theorem outcomes_nil : outcomes [] = [] := rfl

@[simp] theorem outcomes_provider (method : ProviderMethod) (answer : Except Exc PyStr)
    (tr : Trace Op Op.Answer) : outcomes (⟨.provider method, answer⟩ :: tr) = outcomes tr := rfl

@[simp] theorem outcomes_send (request : HTTPRequest) (answer : Except Exc HTTPResponse)
    (tr : Trace Op Op.Answer) :
    outcomes (⟨.send request, answer⟩ :: tr) = answer :: outcomes tr := rfl

@[simp] theorem outcomes_sleep (delay : ℚ) (answer : Except Exc Unit) (tr : Trace Op Op.Answer) :
    outcomes (⟨.sleep delay, answer⟩ :: tr) = outcomes tr := rfl

@[simp] theorem outcomes_append (tr tr' : Trace Op Op.Answer) :
    outcomes (tr ++ tr') = outcomes tr ++ outcomes tr' :=
  List.filterMap_append

/-- There is one outcome for every request. -/
theorem length_outcomes (tr : Trace Op Op.Answer) : (outcomes tr).length = (sends tr).length := by
  induction tr with
  | nil => rfl
  | cons event tr ih =>
    obtain ⟨op, answer⟩ := event
    cases op with
    | send request => exact congrArg (· + 1) ih
    | _ => exact ih

theorem outcomes_draws {draws : Trace Op Op.Answer} (h : ∀ event ∈ draws, event.op.IsDraw) :
    outcomes draws = [] := by
  have hlength := length_outcomes draws
  rw [sends_draws h] at hlength
  exact List.eq_nil_of_length_eq_zero hlength

theorem countP_isRefresh_draws {draws : Trace Op Op.Answer}
    (h : ∀ event ∈ draws, event.op.IsDraw) : draws.countP isRefresh = 0 := by
  rw [List.countP_eq_zero]
  rintro ⟨op, answer⟩ hevent
  have hdraw := h _ hevent
  cases op with
  | now => simp [isRefresh]
  | uniform low high => simp [isRefresh]
  | _ => exact hdraw.elim

@[simp] theorem isRefresh_sleep (delay : ℚ) (answer : Except Exc Unit) :
    isRefresh ⟨.sleep delay, answer⟩ = false := rfl

@[simp] theorem isSleep_provider (method : ProviderMethod) (answer : Except Exc PyStr) :
    isSleep ⟨.provider method, answer⟩ = false := rfl

@[simp] theorem isSleep_send (request : HTTPRequest) (answer : Except Exc HTTPResponse) :
    isSleep ⟨.send request, answer⟩ = false := rfl

@[simp] theorem isSleep_sleep (delay : ℚ) (answer : Except Exc Unit) :
    isSleep ⟨.sleep delay, answer⟩ = true := rfl

/-- An outcome behind which a safe read is tried again: a failure of the transport, or one of the
statuses of `_is_retryable`. -/
def Retryable : Except Exc HTTPResponse → Prop
  | .error _ => True
  | .ok response => response.statusCode ∈ [408, 429, 500, 502, 503, 504]

instance : DecidablePred Retryable
  | .error _ => .isTrue trivial
  | .ok response => inferInstanceAs (Decidable (response.statusCode ∈ [408, 429, 500, 502, 503, 504]))

/-- A 401. -/
def Unauthorized (outcome : Except Exc HTTPResponse) : Prop :=
  ∃ response, outcome = .ok response ∧ response.statusCode = 401

theorem not_unauthorized_of_retryable {outcome : Except Exc HTTPResponse}
    (h : Retryable outcome) : ¬Unauthorized outcome := by
  rintro ⟨response, rfl, h401⟩
  simp [Retryable, h401] at h

/-- A `TradeStationAPIError` of a response: `AuthenticationError` for a 401, `RateLimitError` for a
429, and the class itself for any other status. It holds the payload of a response that is no
success. -/
inductive ApiErrorOf (lib : Library) (response : HTTPResponse) : Exc → Prop
  | authentication (error message : PyStr) (h401 : response.statusCode = 401) :
    ApiErrorOf lib response (.authentication response.statusCode error message
      (some (responsePayload lib response)))
  | rateLimit (error message : PyStr) (retryAfterSeconds : Option ℚ)
    (h429 : response.statusCode = 429) :
    ApiErrorOf lib response (.rateLimit response.statusCode error message
      (some (responsePayload lib response)) retryAfterSeconds)
  | api (error message : PyStr) (payload : Option Json.Dict) (h401 : response.statusCode ≠ 401)
    (h429 : response.statusCode ≠ 429)
    (hpayload : isSuccess response = false → payload = some (responsePayload lib response)) :
    ApiErrorOf lib response (.api response.statusCode error message payload)

theorem ApiErrorOf.isApiError {lib : Library} {response : HTTPResponse} {exc : Exc}
    (h : ApiErrorOf lib response exc) : exc.isApiError = true := by
  cases h <;> rfl

theorem isRetryExhausted_of_isApiError {exc : Exc} (h : exc.isApiError = true) :
    exc.isRetryExhausted = false := by
  cases exc <;> simp_all [Exc.isApiError, Exc.isRetryExhausted]

theorem runs_apiError_of {lib : Library} {response : HTTPResponse} {tr : Trace Op Op.Answer}
    {error : Exc} (h : Coro.Runs (Program.apiError lib response) tr (.ok error)) :
    ApiErrorOf lib response error := by
  unfold Program.apiError TradeStation.apiError at h
  simp only at h
  split_ifs at h with h401 h429
  · cases h.2
    exact .authentication _ _ h401
  · rw [Coro.bind_assoc] at h
    obtain ⟨parsed, tr₁, tr₂, rfl, -, h⟩ := Coro.runs_bind_ok.1 h
    cases parsed with
    | error exc => cases h.2
    | ok delay =>
      cases h.2
      exact .rateLimit _ _ _ h429
  · cases h.2
    exact .api _ _ _ h401 h429 fun _ => rfl

/-! ## Outcomes behind which nothing can be computed -/

/-- The header that the delay behind an outcome goes by. -/
def retryAfterOf : Except Exc HTTPResponse → Option PyStr
  | .error _ => none
  | .ok response => response.headers.get (str "Retry-After")

/-- Behind an outcome, on an attempt, stands an `OverflowError`: there is another attempt, and the delay
before it cannot be computed; or there is none, and the error of a 429 cannot be made. -/
def Overflows (client : RestClient) (attempt : ℕ) (outcome : Except Exc HTTPResponse) : Prop :=
  (Retryable outcome ∧ attempt < client.retryPolicy.maxAttempts ∧
    DelayOverflows client.lib attempt (retryAfterOf outcome)) ∨
  client.retryPolicy.maxAttempts ≤ attempt ∧
    ∃ response, outcome = .ok response ∧ RateLimitOverflows client.lib response

/-- Behind none of some outcomes stands an `OverflowError`. Those that are tried again count as attempts. -/
def NoneOverflows (client : RestClient) (attempt : ℕ) : List (Except Exc HTTPResponse) → Prop
  | [] => True
  | outcome :: outcomes => ¬Overflows client attempt outcome ∧
    NoneOverflows client (if Retryable outcome then attempt + 1 else attempt) outcomes

/-- A response that is neither tried again nor a 429 can be dealt with. -/
theorem not_overflows {client : RestClient} {attempt : ℕ} {response : HTTPResponse}
    (h : response.statusCode ∉ [408, 429, 500, 502, 503, 504]) :
    ¬Overflows client attempt (.ok response) := by
  rintro (⟨hretry, -⟩ | ⟨-, _, ⟨⟩, h429, -⟩)
  · exact h hretry
  · exact h (by simp [h429])

theorem Unauthorized.not_overflows {client : RestClient} {attempt : ℕ}
    {outcome : Except Exc HTTPResponse} (h : Unauthorized outcome) :
    ¬Overflows client attempt outcome := by
  obtain ⟨response, rfl, h401⟩ := h
  exact TradeStation.not_overflows (by simp [h401])

/-! ## The runs of a safe read -/

/-- What the last outcome makes of a safe read, on the attempt it belongs to. -/
def ReadEnd (client : RestClient) (attempt : ℕ) (last : Except Exc HTTPResponse)
    (r : Except Exc Json.Dict) : Prop :=
  match last with
  | .error _ => client.retryPolicy.maxAttempts ≤ attempt ∧
      ∃ exc, r = .error exc ∧ exc.isRetryExhausted = true
  | .ok response => (∃ decoded, Accepted last decoded ∧ r = .ok decoded) ∨
      (∀ decoded, ¬Accepted last decoded) ∧ ∃ exc, ApiErrorOf client.lib response exc ∧ r = .error exc

/-- The runs of `request_json` for a call that may be retried, from an attempt on, before and after
the refresh. -/
inductive ReadRun (client : RestClient) (call : Call) :
    ℕ → Bool → Trace Op Op.Answer → Except Exc Json.Dict → Prop
  | ended (attempt : ℕ) (refreshed : Bool) (token : PyStr) (outcome : Except Exc HTTPResponse)
    (tail : Trace Op Op.Answer) (r : Except Exc Json.Dict)
    (htail : ∀ event ∈ tail, event.op.IsDraw) (hcomputed : ¬Overflows client attempt outcome)
    (hr : ReadEnd client attempt outcome r) :
    ReadRun client call attempt refreshed
      (⟨.provider .getAccessToken, .ok token⟩ :: ⟨.send (client.request call token), outcome⟩ :: tail) r
  | overflow (attempt : ℕ) (refreshed : Bool) (token : PyStr) (outcome : Except Exc HTTPResponse)
    (draws : Trace Op Op.Answer) (hdraws : ∀ event ∈ draws, event.op.IsDraw)
    (hoverflows : Overflows client attempt outcome) :
    ReadRun client call attempt refreshed
      (⟨.provider .getAccessToken, .ok token⟩ :: ⟨.send (client.request call token), outcome⟩ :: draws)
      (.error .overflow)
  | refreshed (attempt : ℕ) (token token' : PyStr) (outcome : Except Exc HTTPResponse)
    (rest : Trace Op Op.Answer) (r : Except Exc Json.Dict) (h401 : Unauthorized outcome)
    (h : ReadRun client call attempt true rest r) :
    ReadRun client call attempt false
      (⟨.provider .getAccessToken, .ok token⟩ :: ⟨.send (client.request call token), outcome⟩ ::
        ⟨.provider .forceRefreshAccessToken, .ok token'⟩ :: rest) r
  | retried (attempt : ℕ) (refreshed : Bool) (token : PyStr) (outcome : Except Exc HTTPResponse)
    (draws : Trace Op Op.Answer) (delay : ℚ) (rest : Trace Op Op.Answer)
    (r : Except Exc Json.Dict) (hdraws : ∀ event ∈ draws, event.op.IsDraw)
    (hretry : Retryable outcome) (hmore : attempt < client.retryPolicy.maxAttempts)
    (hcomputed : ¬Overflows client attempt outcome)
    (h : ReadRun client call (attempt + 1) refreshed rest r) :
    ReadRun client call attempt refreshed
      (⟨.provider .getAccessToken, .ok token⟩ :: ⟨.send (client.request call token), outcome⟩ ::
        (draws ++ ⟨.sleep delay, .ok ()⟩ :: rest)) r

/-- A retry, with a sleeper that does not raise: the delay cannot be computed, or it is slept and the
next attempt follows. -/
theorem runs_retry {client : RestClient} {call : Call} {attempt : ℕ} {refreshed : Bool}
    {retryAfter : Option PyStr} {tail : Trace Op Op.Answer} {r : Except Exc Json.Dict}
    (h : Coro.Runs (client.sleep attempt retryAfter >>= fun _ =>
      client.requestLoop call (attempt + 1) refreshed) tail r) (hregular : RegularRun tail) :
    ∃ draws, (∀ event ∈ draws, event.op.IsDraw) ∧
      ((tail = draws ∧ r = .error .overflow ∧ DelayOverflows client.lib attempt retryAfter) ∨
        ∃ delay rest, tail = draws ++ ⟨.sleep delay, .ok ()⟩ :: rest ∧
          ¬DelayOverflows client.lib attempt retryAfter ∧
          Coro.Runs (client.requestLoop call (attempt + 1) refreshed) rest r) := by
  rw [Coro.runs_bind] at h
  rcases h with ⟨exc, hsleep, rfl⟩ | ⟨_, gap, rest, rfl, hsleep, h⟩
  · obtain ⟨draws, hdraws, ⟨rfl, hr, hlarge⟩ | ⟨delay, rfl, -⟩⟩ := runs_sleep hsleep
    · cases hr
      exact ⟨_, hdraws, .inl ⟨rfl, rfl, hlarge⟩⟩
    · have hraised : Except.error exc = .ok () := hregular ⟨.sleep delay, .error exc⟩ (by simp)
      cases hraised
  · obtain ⟨draws, hdraws, ⟨-, hr, -⟩ | ⟨delay, rfl, hsmall⟩⟩ := runs_sleep hsleep
    · cases hr
    · exact ⟨draws, hdraws, .inr ⟨delay, rest, by simp, hsmall, h⟩⟩

/-- An error that a response is mapped to ends the call. -/
theorem runs_throw_apiError {lib : Library} {response : HTTPResponse} {tail : Trace Op Op.Answer}
    {r : Except Exc Json.Dict}
    (h : Coro.Runs (Program.apiError lib response >>= fun error =>
      (throw error : Program Json.Dict)) tail r) :
    (∀ event ∈ tail, event.op.IsDraw) ∧
      ((RateLimitOverflows lib response ∧ r = .error .overflow) ∨
        ¬RateLimitOverflows lib response ∧ ∃ exc, ApiErrorOf lib response exc ∧ r = .error exc) := by
  have hdraws : ∀ {tr r}, Coro.Runs (Program.apiError lib response) tr r →
      ∀ event ∈ tr, event.op.IsDraw := by
    intro tr r herror event hevent
    rw [(runs_apiError herror).1 event hevent]
    trivial
  rw [Coro.runs_bind] at h
  rcases h with ⟨exc, herror, rfl⟩ | ⟨error, tr₁, tr₂, rfl, herror, rfl, rfl⟩
  · obtain ⟨-, ⟨hoverflows, he⟩ | ⟨-, error, he, -⟩⟩ := runs_apiError herror
    · cases he
      exact ⟨hdraws herror, .inl ⟨hoverflows, rfl⟩⟩
    · cases he
  · obtain ⟨-, ⟨-, he⟩ | ⟨hreadable, -⟩⟩ := runs_apiError herror
    · cases he
    · exact ⟨by simpa using hdraws herror, .inr ⟨hreadable, error, runs_apiError_of herror, rfl⟩⟩

/-- A success is decoded to the object it holds, or is an API error. -/
theorem readEnd_decode {client : RestClient} {call : Call} (hcall : call.retrySafe = true)
    (attempt : ℕ) {response : HTTPResponse} (hsuccess : isSuccess response = true) :
    ReadEnd client attempt (.ok response) (RestClient.decode call response) := by
  have hstatus := isSuccess_iff.1 hsuccess
  have hrefused : (∀ decoded, response.json ≠ some (.obj decoded)) →
      ∀ decoded, ¬Accepted (.ok response) decoded := by
    rintro hnone decoded ⟨_, ⟨⟩, -, hjson⟩
    exact hnone decoded hjson
  have herror : ∀ error message payload,
      ApiErrorOf client.lib response (.api response.statusCode error message payload) :=
    fun error message payload =>
      .api error message payload (by omega) (by omega) (by simp [hsuccess])
  unfold RestClient.decode
  split
  · next hjson =>
    refine .inr ⟨hrefused (by simp [hjson]), _, ?_, by simp only [hcall, if_true]; rfl⟩
    exact herror _ _ _
  · next decoded hjson => exact .inl ⟨decoded, ⟨response, rfl, hsuccess, hjson⟩, rfl⟩
  · next decoded hobj hjson =>
    refine .inr ⟨hrefused ?_, _, ?_, by simp only [hcall, if_true]; rfl⟩
    · intro payload hpayload
      rw [hjson] at hpayload
      exact hobj payload (Option.some.inj hpayload)
    · exact herror _ _ _

/-- **The runs of a safe read are those listed.** -/
theorem readRun_of_runs {client : RestClient} {call : Call} (hcall : call.retrySafe = true)
    {attempt : ℕ} {refreshed : Bool} {tr : Trace Op Op.Answer} {r : Except Exc Json.Dict}
    (h : Coro.Runs (client.requestLoop call attempt refreshed) tr r)
    (hregular : RegularRun tr) : ReadRun client call attempt refreshed tr r := by
  -- the induction is on the length of the trace, which every turn of the loop uses some of
  induction hn : tr.length using Nat.strong_induction_on generalizing tr attempt refreshed with
  | _ n ih =>
  subst hn
  rw [RestClient.requestLoop, Program.getAccessToken, Program.runs_provider] at h
  rcases h with ⟨exc, rfl, -⟩ | ⟨token, rest, rfl, h⟩
  · obtain ⟨token, htoken⟩ := hregular _ List.mem_cons_self
    cases htoken
  rw [Program.runs_send] at h
  obtain ⟨outcome, tail, rfl, h⟩ := h
  have htail : RegularRun tail := fun event hevent =>
    hregular event (List.mem_cons_of_mem _ (List.mem_cons_of_mem _ hevent))
  have hretried : ∀ {retryAfter : Option PyStr}, attempt < client.retryPolicy.maxAttempts →
      Retryable outcome → retryAfter = retryAfterOf outcome →
      Coro.Runs (client.sleep attempt retryAfter >>= fun _ =>
        client.requestLoop call (attempt + 1) refreshed) tail r →
      ReadRun client call attempt refreshed (⟨.provider .getAccessToken, .ok token⟩ ::
        ⟨.send (client.request call token), outcome⟩ :: tail) r := by
    rintro _ hmore hretry rfl h
    obtain ⟨draws, hdraws, ⟨rfl, rfl, hdelay⟩ | ⟨delay, rest, rfl, hdelay, h⟩⟩ := runs_retry h htail
    · exact .overflow attempt refreshed token outcome _ hdraws (.inl ⟨hretry, hmore, hdelay⟩)
    · refine .retried attempt refreshed token outcome draws delay rest r hdraws hretry hmore ?_
        (ih rest.length ?_ h ?_ rfl)
      · rintro (⟨-, -, hoverflows⟩ | ⟨hlast, -⟩)
        · exact hdelay hoverflows
        · omega
      · simp only [List.length_cons, List.length_append]
        omega
      · exact fun event hevent => htail event (by simp [hevent])
  cases outcome with
  | error exc =>
    have htransport : exc.isTransportError = true :=
      hregular ⟨.send _, .error exc⟩ (List.mem_cons_of_mem _ List.mem_cons_self)
    simp only [htransport, hcall, Bool.true_eq_false, if_false] at h
    split_ifs at h with hlast
    · obtain ⟨rfl, rfl⟩ := h
      refine .ended attempt refreshed token _ [] _ (by simp) ?_ ⟨hlast, _, rfl, rfl⟩
      rintro (⟨-, hmore, -⟩ | ⟨-, _, ⟨⟩, -⟩)
      omega
    · exact hretried (by omega) trivial rfl h
  | ok response =>
    simp only [hcall, Bool.true_eq_false, false_and, if_false, true_and] at h
    split_ifs at h with h401 hsuccess hretry
    · rw [Program.forceRefreshAccessToken, Program.runs_provider] at h
      rcases h with ⟨exc, rfl, -⟩ | ⟨token', rest, rfl, h⟩
      · obtain ⟨token, htoken⟩ := htail _ List.mem_cons_self
        cases htoken
      obtain ⟨h401, rfl⟩ := h401
      refine .refreshed attempt token token' _ rest r ⟨response, rfl, h401⟩
        (ih rest.length ?_ h ?_ rfl)
      · simp only [List.length_cons]
        omega
      · exact fun event hevent => htail event (List.mem_cons_of_mem _ hevent)
    · rw [Coro.runs_ofExcept] at h
      obtain ⟨rfl, rfl⟩ := h
      have hstatus := isSuccess_iff.1 hsuccess
      refine .ended attempt refreshed token _ [] _ (by simp) (not_overflows ?_)
        (readEnd_decode hcall attempt hsuccess)
      simp only [List.mem_cons, List.not_mem_nil, or_false]
      omega
    · obtain ⟨hretry, hmore⟩ := hretry
      exact hretried hmore (by simpa [Retryable, isRetryable] using hretry) rfl h
    · obtain ⟨hdraws, ⟨hoverflows, rfl⟩ | ⟨hreadable, exc, hexc, rfl⟩⟩ := runs_throw_apiError h
      · have hlast : client.retryPolicy.maxAttempts ≤ attempt := by
          by_contra hmore
          exact hretry ⟨by simp [isRetryable, hoverflows.1], by omega⟩
        exact .overflow attempt refreshed token _ tail hdraws (.inr ⟨hlast, response, rfl, hoverflows⟩)
      · refine .ended attempt refreshed token _ tail _ hdraws ?_ (.inr ⟨?_, exc, hexc, rfl⟩)
        · rintro (⟨hstatus, hmore, -⟩ | ⟨-, _, ⟨⟩, hoverflows⟩)
          · exact hretry ⟨by simpa [Retryable, isRetryable] using hstatus, hmore⟩
          · exact hreadable hoverflows
        · rintro decoded ⟨_, ⟨⟩, haccepted, -⟩
          exact hsuccess haccepted

/-! ## Bounds -/

section
variable {client : RestClient} {call : Call} {attempt : ℕ} {refreshed : Bool}
  {tr : Trace Op Op.Answer} {r : Except Exc Json.Dict}

/-- The attempts of a policy: the first is always made. -/
def RetryPolicy.attempts (policy : RetryPolicy) : ℤ := max 1 policy.maxAttempts

/-- **What is left bounds what is done**: the attempts left bound the sleeps, the refresh left bounds
the refreshes, and the two together bound the requests. -/
theorem ReadRun.bounded (h : ReadRun client call attempt refreshed tr r)
    (hattempt : attempt ≤ client.retryPolicy.attempts) :
    (attempt + tr.countP isSleep : ℤ) ≤ client.retryPolicy.attempts ∧
      tr.countP isRefresh ≤ (if refreshed then 0 else 1) ∧
      (outcomes tr).length = 1 + tr.countP isSleep + tr.countP isRefresh := by
  induction h with
  | ended attempt refreshed token outcome tail r htail hcomputed hr =>
    have hsleep := countP_isSleep_draws htail
    have hrefresh := countP_isRefresh_draws htail
    simp [outcomes_draws htail, hsleep, hrefresh, hattempt]
  | overflow attempt refreshed token outcome draws hdraws hoverflows =>
    have hsleep := countP_isSleep_draws hdraws
    have hrefresh := countP_isRefresh_draws hdraws
    simp [outcomes_draws hdraws, hsleep, hrefresh, hattempt]
  | refreshed attempt token token' outcome rest r h401 h ih =>
    obtain ⟨hsleep, hrefresh, hlength⟩ := ih hattempt
    have hzero : rest.countP isRefresh = 0 := by simpa using hrefresh
    simp only [List.countP_cons, isSleep_provider, isSleep_send, isRefresh_getAccessToken,
      isRefresh_send, isRefresh_forceRefreshAccessToken, outcomes_provider, outcomes_send,
      List.length_cons, hlength, hzero]
    exact ⟨by simpa using hsleep, by simp, by simp⟩
  | retried attempt refreshed token outcome draws delay rest r hdraws hretry hmore hcomputed h ih =>
    have hnext : ((attempt + 1 : ℕ) : ℤ) ≤ client.retryPolicy.attempts := by
      unfold RetryPolicy.attempts
      omega
    obtain ⟨hsleep, hrefresh, hlength⟩ := ih hnext
    simp only [List.countP_cons, List.countP_append, countP_isSleep_draws hdraws,
      countP_isRefresh_draws hdraws, isSleep_provider, isSleep_send, isSleep_sleep,
      isRefresh_getAccessToken, isRefresh_send, isRefresh_sleep, outcomes_provider, outcomes_send,
      outcomes_append, outcomes_draws hdraws, outcomes_sleep, List.nil_append, List.length_cons,
      hlength]
    refine ⟨?_, by simpa using hrefresh, ?_⟩
    · push_cast at hsleep ⊢
      simp
      omega
    · simp
      omega

/-- **A request follows a retryable outcome or the first 401.** -/
theorem ReadRun.resent (h : ReadRun client call attempt refreshed tr r)
    {before after : List (Except Exc HTTPResponse)} {outcome : Except Exc HTTPResponse}
    (heq : outcomes tr = before ++ outcome :: after) (hafter : after ≠ []) :
    Retryable outcome ∨ refreshed = false ∧ Unauthorized outcome ∧
      ∀ earlier ∈ before, ¬Unauthorized earlier := by
  induction h generalizing before with
  | ended attempt refreshed token outcome' tail r htail hcomputed hr =>
    rw [outcomes_provider, outcomes_send, outcomes_draws htail] at heq
    rcases List.append_eq_singleton_iff.1 heq.symm with ⟨-, h⟩ | ⟨-, h⟩
    · cases h
      exact absurd rfl hafter
    · cases h
  | overflow attempt refreshed token outcome' draws hdraws hoverflows =>
    rw [outcomes_provider, outcomes_send, outcomes_draws hdraws] at heq
    rcases List.append_eq_singleton_iff.1 heq.symm with ⟨-, h⟩ | ⟨-, h⟩
    · cases h
      exact absurd rfl hafter
    · cases h
  | refreshed attempt token token' outcome' rest r h401 h ih =>
    simp only [outcomes_provider, outcomes_send] at heq
    rcases List.cons_eq_append_iff.1 heq with ⟨rfl, h⟩ | ⟨before', rfl, h⟩
    · cases h
      exact .inr ⟨rfl, h401, by simp⟩
    · rcases ih h with hretry | ⟨hfalse, -⟩
      · exact .inl hretry
      · cases hfalse
  | retried attempt refreshed token outcome' draws delay rest r hdraws hretry hmore hcomputed h ih =>
    simp only [outcomes_provider, outcomes_send, outcomes_append, outcomes_draws hdraws,
      outcomes_sleep, List.nil_append] at heq
    rcases List.cons_eq_append_iff.1 heq with ⟨rfl, h⟩ | ⟨before', rfl, h⟩
    · cases h
      exact .inl hretry
    · refine (ih h).imp_right fun ⟨hfalse, h401, hearlier⟩ => ⟨hfalse, h401, ?_⟩
      intro earlier hmem
      rcases List.mem_cons.1 hmem with rfl | hmem
      · exact not_unauthorized_of_retryable hretry
      · exact hearlier earlier hmem

/-- **A safe read ends as its last outcome says**, on the attempt that the sleeps before it make, or
in an `OverflowError`. -/
theorem ReadRun.ends (h : ReadRun client call attempt refreshed tr r) :
    ∃ before last, outcomes tr = before ++ [last] ∧
      (ReadEnd client (attempt + tr.countP isSleep) last r ∨ r = .error .overflow) := by
  induction h with
  | ended attempt refreshed token outcome tail r htail hcomputed hr =>
    refine ⟨[], outcome, by simp [outcomes_draws htail], .inl ?_⟩
    simpa [countP_isSleep_draws htail] using hr
  | overflow attempt refreshed token outcome draws hdraws hoverflows =>
    exact ⟨[], outcome, by simp [outcomes_draws hdraws], .inr rfl⟩
  | refreshed attempt token token' outcome rest r h401 h ih =>
    obtain ⟨before, last, heq, hend⟩ := ih
    exact ⟨outcome :: before, last, by simp [heq], by simpa using hend⟩
  | retried attempt refreshed token outcome draws delay rest r hdraws hretry hmore hcomputed h ih =>
    obtain ⟨before, last, heq, hend⟩ := ih
    refine ⟨outcome :: before, last, by simp [heq, outcomes_draws hdraws], ?_⟩
    have hcount : (⟨.provider .getAccessToken, .ok token⟩ ::
        ⟨.send (client.request call token), outcome⟩ ::
          (draws ++ ⟨.sleep delay, .ok ()⟩ :: rest) : Trace Op Op.Answer).countP isSleep =
        1 + rest.countP isSleep := by
      rw [List.countP_cons, List.countP_cons, List.countP_append, countP_isSleep_draws hdraws,
        List.countP_cons]
      simp
      omega
    rw [hcount, ← Nat.add_assoc]
    exact hend

/-- What the last outcome makes of a safe read is no `OverflowError`. -/
theorem ReadEnd.ne_overflow {last : Except Exc HTTPResponse} (h : ReadEnd client attempt last r) :
    r ≠ .error .overflow := by
  rintro rfl
  cases last with
  | error exc =>
    obtain ⟨-, error, he, hexhausted⟩ := h
    cases he
    cases hexhausted
  | ok response =>
    rcases h with ⟨decoded, -, he⟩ | ⟨-, error, herror, he⟩
    · cases he
    · cases he
      cases herror

/-- **A safe read ends in an `OverflowError`** exactly if one stands behind an outcome. -/
theorem ReadRun.noneOverflows_iff (h : ReadRun client call attempt refreshed tr r) :
    NoneOverflows client attempt (outcomes tr) ↔ r ≠ .error .overflow := by
  induction h with
  | ended attempt refreshed token outcome tail r htail hcomputed hr =>
    simp [outcomes_draws htail, NoneOverflows, hcomputed, hr.ne_overflow]
  | overflow attempt refreshed token outcome draws hdraws hoverflows =>
    simp [outcomes_draws hdraws, NoneOverflows, hoverflows]
  | refreshed attempt token token' outcome rest r h401 h ih =>
    have hnot : ¬Retryable outcome := fun hretry => not_unauthorized_of_retryable hretry h401
    rw [outcomes_provider, outcomes_send, outcomes_provider, NoneOverflows, if_neg hnot, ih]
    exact and_iff_right h401.not_overflows
  | retried attempt refreshed token outcome draws delay rest r hdraws hretry hmore hcomputed h ih =>
    rw [outcomes_provider, outcomes_send, outcomes_append, outcomes_draws hdraws, outcomes_sleep,
      List.nil_append, NoneOverflows, if_pos hretry, ih]
    exact and_iff_right hcomputed

end

/-! ## Bounded and conclusive -/

/-- What a safe read may do, and how it may end. The attempt of its last request is one more than
its sleeps. -/
structure Conclusive (client : RestClient) (tr : Trace Op Op.Answer) (r : Except Exc Json.Dict) :
    Prop where
  sent : ((sends tr).length : ℤ) ≤ max 1 client.retryPolicy.maxAttempts + 1
  slept : (tr.countP isSleep : ℤ) ≤ max 1 client.retryPolicy.maxAttempts - 1
  refreshed : tr.countP isRefresh ≤ 1
  resent : ∀ before outcome after, outcomes tr = before ++ outcome :: after → after ≠ [] →
    Retryable outcome ∨ Unauthorized outcome ∧ ∀ earlier ∈ before, ¬Unauthorized earlier
  ended : ∃ before last, outcomes tr = before ++ [last] ∧
    (∀ decoded, r = .ok decoded ↔ Accepted last decoded) ∧
    ((∃ exc, r = .error exc ∧ exc.isRetryExhausted = true) ↔ (∃ exc, last = .error exc) ∧
      (1 + tr.countP isSleep : ℤ) = max 1 client.retryPolicy.maxAttempts) ∧
    ((∃ decoded, r = .ok decoded) ∨ (∃ exc, r = .error exc ∧ exc.isRetryExhausted = true) ∨
      ∃ response exc, last = .ok response ∧ r = .error exc ∧ ApiErrorOf client.lib response exc)
  definite : ∀ exc, r = .error exc → exc.isAmbiguous = false

section
variable {client : RestClient} {call : Call} {tr : Trace Op Op.Answer} {r : Except Exc Json.Dict}

/-- An `OverflowError` says nothing about the last outcome. -/
theorem not_conclusive_overflow : ¬Conclusive client tr (.error .overflow) := by
  intro h
  obtain ⟨before, last, -, -, -, ⟨decoded, hr⟩ | ⟨exc, hr, hexhausted⟩ | ⟨response, exc, -, hr, hexc⟩⟩ :=
    h.ended
  · cases hr
  · cases hr
    cases hexhausted
  · cases hr
    cases hexc

/-- **A run is conclusive** unless it ends in an `OverflowError`. -/
theorem ReadRun.conclusive_iff (h : ReadRun client call 1 false tr r) :
    Conclusive client tr r ↔ r ≠ .error .overflow := by
  constructor
  · rintro hconclusive rfl
    exact not_conclusive_overflow hconclusive
  intro hr
  obtain ⟨hsleep, hrefresh, hlength⟩ := h.bounded (by simp [RetryPolicy.attempts])
  rw [RetryPolicy.attempts] at hsleep
  rw [length_outcomes] at hlength
  simp only [Bool.false_eq_true, if_false] at hrefresh
  obtain ⟨before, last, heq, hend | hoverflow⟩ := h.ends
  swap
  · exact absurd hoverflow hr
  refine ⟨by omega, by omega, hrefresh, ?_, ⟨before, last, heq, ?_⟩, ?_⟩
  · intro before outcome after houtcomes hafter
    exact (h.resent houtcomes hafter).imp_right And.right
  · cases last with
    | error exc =>
      obtain ⟨hlast, error, rfl, hexhausted⟩ := hend
      refine ⟨by simp [Accepted], ?_, .inr (.inl ⟨error, rfl, hexhausted⟩)⟩
      refine iff_of_true ⟨error, rfl, hexhausted⟩ ⟨⟨exc, rfl⟩, ?_⟩
      push_cast at hlast
      omega
    | ok response =>
      rcases hend with ⟨decoded, haccepted, rfl⟩ | ⟨hrefused, error, herror, rfl⟩
      · refine ⟨?_, by simp, .inl ⟨decoded, rfl⟩⟩
        intro decoded'
        obtain ⟨_, ⟨⟩, hsuccess, hjson⟩ := haccepted
        constructor
        · rintro ⟨⟩
          exact ⟨response, rfl, hsuccess, hjson⟩
        · rintro ⟨_, ⟨⟩, -, hjson'⟩
          rw [hjson] at hjson'
          cases hjson'
          rfl
      · refine ⟨?_, ?_, .inr (.inr ⟨response, error, rfl, rfl, herror⟩)⟩
        · simpa using hrefused
        · have hnot := isRetryExhausted_of_isApiError herror.isApiError
          simp [hnot]
  · rintro exc rfl
    cases last with
    | error exc' =>
      obtain ⟨-, error, he, hexhausted⟩ := hend
      cases he
      cases exc <;> first | rfl | cases hexhausted
    | ok response =>
      rcases hend with ⟨decoded, -, he⟩ | ⟨-, error, herror, he⟩
      · cases he
      · cases he
        exact isAmbiguous_of_isApiError herror.isApiError

/-- With 1025 attempts or fewer, only a header that cannot be read stands in the way. -/
theorem noneOverflows_of_few {outcomes : List (Except Exc HTTPResponse)} {attempt : ℕ}
    (hfew : client.retryPolicy.maxAttempts ≤ 1025)
    (hread : ∀ outcome ∈ outcomes, ¬DateOverflows client.lib (retryAfterOf outcome)) :
    NoneOverflows client attempt outcomes := by
  induction outcomes generalizing attempt with
  | nil => trivial
  | cons outcome outcomes ih =>
    have hreadable := hread outcome List.mem_cons_self
    refine ⟨?_, ih fun outcome hmem => hread outcome (List.mem_cons_of_mem _ hmem)⟩
    rintro (⟨-, hmore, hdate | ⟨-, hlarge⟩⟩ | ⟨-, response, rfl, -, hdate⟩)
    · exact hreadable hdate
    · omega
    · exact hreadable hdate

end

/-- **Safe reads are bounded and conclusive**: a run is so exactly if, behind each of its outcomes, the
delay of the next attempt or the error of a last 429 can be computed. -/
theorem safeRead_conclusive_iff (client : RestClient) (read : SafeRead) {tr : Trace Op Op.Answer}
    {r : Except Exc Json.Dict} (hrun : Coro.Runs (read.program client) tr r)
    (hregular : RegularRun tr) :
    Conclusive client tr r ↔ NoneOverflows client 1 (outcomes tr) := by
  obtain ⟨call, hcall, hprogram⟩ := read.program_eq client
  rw [hprogram] at hrun
  have hread := readRun_of_runs hcall hrun hregular
  rw [hread.conclusive_iff, hread.noneOverflows_iff]

/-- A policy with no more than 1025 attempts makes every run conclusive whose headers can be read. -/
theorem safeRead_conclusive (client : RestClient) (read : SafeRead)
    (hfew : client.retryPolicy.maxAttempts ≤ 1025) {tr : Trace Op Op.Answer}
    {r : Except Exc Json.Dict} (hrun : Coro.Runs (read.program client) tr r)
    (hregular : RegularRun tr)
    (hread : ∀ outcome ∈ outcomes tr, ¬DateOverflows client.lib (retryAfterOf outcome)) :
    Conclusive client tr r := by
  obtain ⟨call, hcall, hprogram⟩ := read.program_eq client
  rw [hprogram] at hrun
  have hruns := readRun_of_runs hcall hrun hregular
  exact hruns.conclusive_iff.2 (hruns.noneOverflows_iff.1 (noneOverflows_of_few hfew hread))

/-- A read of the accounts. -/
def readCall : Call where
  method := str "GET"
  path := str "/brokerage/accounts"
  retrySafe := true

/-- The delay behind the first attempt, before the jitter. -/
def firstDelay : ℚ := min (1 / 4 * 2 ^ 0) 5

/-- A read that is answered after a failure of the transport and a 401. -/
def answeredRead : Trace Op Op.Answer :=
  [⟨.provider .getAccessToken, .ok (str "T")⟩,
    ⟨.send (simClient.request readCall (str "T")), .error (.transport [])⟩,
    ⟨.uniform (-(firstDelay * (1 / 5))) (firstDelay * (1 / 5)), (0 : ℚ)⟩,
    ⟨.sleep (max 0 (firstDelay + 0)), .ok ()⟩,
    ⟨.provider .getAccessToken, .ok (str "T")⟩,
    ⟨.send (simClient.request readCall (str "T")), .ok ⟨401, [], []⟩⟩,
    ⟨.provider .forceRefreshAccessToken, .ok (str "U")⟩,
    ⟨.provider .getAccessToken, .ok (str "U")⟩,
    ⟨.send (simClient.request readCall (str "U")), .ok ⟨200, [], []⟩⟩]

theorem regular_answeredRead : RegularRun answeredRead := by
  simp [RegularRun, answeredRead, Op.Regular, TransportOutcome, Exc.isTransportError]

/-- The delay behind the failure is drawn and slept. -/
theorem runs_firstDelay : Coro.Runs (simClient.sleep 1)
    [⟨.uniform (-(firstDelay * (1 / 5))) (firstDelay * (1 / 5)), (0 : ℚ)⟩,
      ⟨.sleep (max 0 (firstDelay + 0)), .ok ()⟩] (.ok ()) := by
  have hjitter : ¬simClient.retryPolicy.jitterRatio ≤ 0 := by
    change ¬(1 / 5 : ℚ) ≤ 0
    norm_num
  rw [RestClient.sleep, Coro.runs_bind]
  refine .inr ⟨some (max 0 (firstDelay + 0)), [_], [_], rfl, ?_, ?_⟩
  · rw [RetryPolicy.delayForAttempt, Coro.runs_bind]
    refine .inr ⟨.ok none, [], [_], rfl, ⟨rfl, rfl⟩, ?_⟩
    have hpower : ¬1024 ≤ 1 - 1 := by omega
    simp only [backoff, if_neg hpower, if_neg hjitter]
    exact ⟨0, [], rfl, rfl, rfl⟩
  · exact ⟨.ok (), [], rfl, rfl, rfl⟩

theorem runs_answeredRead :
    Coro.Runs ((SafeRead.get (str "/brokerage/accounts")).program simClient) answeredRead (.ok []) := by
  rw [SafeRead.program, RestClient.get, RestClient.requestJson, RestClient.requestLoop,
    Program.getAccessToken, Program.runs_provider]
  refine .inr ⟨_, _, rfl, ?_⟩
  rw [Program.runs_send]
  refine ⟨_, _, rfl, ?_⟩
  change Coro.Runs (simClient.sleep 1 >>= fun _ => simClient.requestLoop readCall 2 false) _ _
  rw [Coro.runs_bind]
  refine .inr ⟨(), [_, _], _, rfl, runs_firstDelay, ?_⟩
  rw [RestClient.requestLoop, Program.getAccessToken, Program.runs_provider]
  refine .inr ⟨_, _, rfl, ?_⟩
  rw [Program.runs_send]
  refine ⟨_, _, rfl, ?_⟩
  change Coro.Runs (Program.forceRefreshAccessToken >>= fun _ =>
    simClient.requestLoop readCall 2 true) _ _
  rw [Program.forceRefreshAccessToken, Program.runs_provider]
  refine .inr ⟨_, _, rfl, ?_⟩
  rw [RestClient.requestLoop, Program.getAccessToken, Program.runs_provider]
  refine .inr ⟨_, _, rfl, ?_⟩
  rw [Program.runs_send]
  exact ⟨_, _, rfl, rfl, rfl⟩

/-- The read is bounded and conclusive: no outcome has a header, and four attempts are allowed. -/
theorem safeRead_conclusive_iff_answered : Conclusive simClient answeredRead (.ok []) := by
  refine (safeRead_conclusive_iff simClient _ runs_answeredRead regular_answeredRead).2 ?_
  have hheaders : ∀ outcome ∈ outcomes answeredRead, retryAfterOf outcome = none := by
    intro outcome hmem
    simp only [answeredRead, outcomes, List.filterMap, outcomeOf, List.mem_cons, List.not_mem_nil,
      or_false] at hmem
    rcases hmem with rfl | rfl | rfl <;> rfl
  refine noneOverflows_of_few (by decide) fun outcome hmem => ?_
  simp [hheaders outcome hmem, DateOverflows]

/-- A policy that allows 2000 attempts. -/
def patientClient : RestClient := { simClient with retryPolicy := { maxAttempts := 2000 } }

/-- Behind a failure on every attempt, with more than 1025 allowed, stands an `OverflowError`. -/
theorem ReadRun.overflows {client : RestClient} {call : Call} {attempt : ℕ} {refreshed : Bool}
    {tr : Trace Op Op.Answer} {r : Except Exc Json.Dict}
    (h : ReadRun client call attempt refreshed tr r)
    (hmany : 1025 < client.retryPolicy.maxAttempts) (hattempt : attempt ≤ 1025)
    (hfail : ∀ outcome ∈ outcomes tr, ∃ exc, outcome = .error exc) : r = .error .overflow := by
  induction h with
  | ended attempt refreshed token outcome tail r htail hcomputed hr =>
    obtain ⟨exc, rfl⟩ := hfail outcome (by simp)
    obtain ⟨hlast, -⟩ := hr
    omega
  | overflow attempt refreshed token outcome draws hdraws hoverflows => rfl
  | refreshed attempt token token' outcome rest r h401 h ih =>
    obtain ⟨exc, rfl⟩ := hfail outcome (by simp)
    obtain ⟨response, hresponse, -⟩ := h401
    cases hresponse
  | retried attempt refreshed token outcome draws delay rest r hdraws hretry hmore hcomputed h ih =>
    obtain ⟨exc, rfl⟩ := hfail outcome (by simp)
    have hnext : attempt < 1025 := by
      by_contra hlarge
      exact hcomputed (.inl ⟨hretry, hmore, delayOverflows_none.2 (by omega)⟩)
    refine ih (by omega) fun outcome hmem => hfail outcome ?_
    simp [hmem]

/-- A gateway that is never reached. -/
def unreachable : Coro.Env Op Op.Answer := fun _ op =>
  match op with
  | .provider _ => .ok []
  | .send _ => .error (.transport [])
  | .sleep _ => .ok ()
  | .uniform low _ => low
  | .now => ⟨0, none⟩
  | .exists _ => false

/-- The parties are regular, and no request is answered. -/
theorem unanswered_unreachable (h : Trace Op Op.Answer) (op : Op) :
    op.Regular (unreachable h op) ∧
      ∀ outcome ∈ outcomeOf ⟨op, unreachable h op⟩, ∃ exc, outcome = .error exc := by
  cases op with
  | provider method => exact ⟨⟨[], rfl⟩, by simp [outcomeOf]⟩
  | send request => exact ⟨rfl, by rintro _ ⟨⟩; exact ⟨_, rfl⟩⟩
  | sleep delay => exact ⟨rfl, by simp [outcomeOf]⟩
  | _ => exact ⟨trivial, by simp [outcomeOf]⟩

/-- With 2000 attempts allowed, a read of a gateway that is never reached ends in an
`OverflowError`. -/
theorem patientClient_not_conclusive :
    ∃ tr r, Coro.Runs ((SafeRead.get (str "/brokerage/accounts")).program patientClient) tr r ∧
      RegularRun tr ∧ ¬Conclusive patientClient tr r := by
  obtain ⟨call, hcall, hprogram⟩ :=
    (SafeRead.get (str "/brokerage/accounts")).program_eq patientClient
  have hrun := Coro.exec_runs unreachable [] (patientClient.requestJson call)
  have hanswers := Coro.exec_answers (Q := fun op answer => op.Regular answer ∧
    ∀ outcome ∈ outcomeOf ⟨op, answer⟩, ∃ exc, outcome = .error exc) unanswered_unreachable []
    (patientClient.requestJson call)
  have hregular : RegularRun (Coro.exec unreachable [] (patientClient.requestJson call)).1 :=
    fun event hevent => (hanswers event hevent).1
  have hoverflow := (readRun_of_runs hcall hrun hregular).overflows (by decide) (by omega) <| by
    intro outcome hmem
    obtain ⟨event, hevent, houtcome⟩ := List.mem_filterMap.1 hmem
    exact (hanswers event hevent).2 outcome houtcome
  rw [hoverflow] at hrun
  rw [hprogram]
  exact ⟨_, _, hrun, hregular, not_conclusive_overflow⟩

end TradeStation
