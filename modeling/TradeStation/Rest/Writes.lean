import TradeStation.Rest.Client

/-!
# Order writes

What an order write does, over every behaviour of the token provider and the transport.

* `WriteRun` lists the runs of `request_json` for a call that must not be retried, and
  `writeRun_of_runs` says that there are no others: the loop comes back only behind a 401.
* `orderWrite_noBlindResend`: so a write is sent at most twice, and the second time only after
  the first was turned down with a 401 and the token was refreshed.
* `orderWrite_classified_iff`: a write whose effect is unknown ends in `AmbiguousOrderState`,
  but for the 5xx statuses that `AMBIGUOUS_WRITE_STATUSES` does not list; and the others end in their
  API error, but for a 429 whose `Retry-After` cannot be read.
-/

namespace TradeStation

open Python Foundations

/-- A call of `post_order_write`, `put_order_write` or `delete_order_write`. -/
inductive OrderWrite
  | post (path : PyStr) (payload : Json.Dict) (localRequestId : Option PyStr)
  | put (path : PyStr) (payload : Json.Dict) (localRequestId : Option PyStr)
  | delete (path : PyStr) (localRequestId : Option PyStr)

namespace OrderWrite

/-- The coroutine of an order write. -/
def program (client : RestClient) : OrderWrite → Program Json.Dict
  | .post path payload localRequestId => client.postOrderWrite path payload localRequestId
  | .put path payload localRequestId => client.putOrderWrite path payload localRequestId
  | .delete path localRequestId => client.deleteOrderWrite path localRequestId

/-- Every order write is a call of `request_json` that must not be retried. -/
theorem program_eq (client : RestClient) (write : OrderWrite) :
    ∃ call : Call, call.retrySafe = false ∧ write.program client = client.requestJson call := by
  cases write <;> exact ⟨_, rfl, rfl⟩

end OrderWrite

/-! ## The runs of a write -/

/-- A 429 whose `Retry-After` raises an `OverflowError`. -/
def RateLimitOverflows (lib : Library) (response : HTTPResponse) : Prop :=
  response.statusCode = 429 ∧ DateOverflows lib (response.headers.get (str "Retry-After"))

/-- What an answer of the transport makes of a write, where it is not refreshed and sent again. -/
def Concludes (lib : Library) (call : Call) (answer : Except Exc HTTPResponse)
    (r : Except Exc Json.Dict) : Prop :=
  match answer with
  | .error exc =>
    r = .error (if exc.isTransportError then RestClient.ambiguous call exc else exc)
  | .ok response =>
    if isSuccess response then r = RestClient.decode call response
    else (RateLimitOverflows lib response ∧ r = .error .overflow) ∨
      ¬RateLimitOverflows lib response ∧ ∃ error : Exc, error.isApiError = true ∧
        r = .error (if response.statusCode ∈ ambiguousWriteStatuses then
          RestClient.ambiguous call error else error)

/-- The runs of `request_json` for a call that must not be retried, before and after the
refresh. -/
inductive WriteRun (client : RestClient) (call : Call) :
    Bool → Trace Op Op.Answer → Except Exc Json.Dict → Prop
  | noToken (refreshed : Bool) (exc : Exc) :
    WriteRun client call refreshed [⟨.provider .getAccessToken, .error exc⟩] (.error exc)
  | answered (refreshed : Bool) (token : PyStr) (answer : Except Exc HTTPResponse)
    (tail : Trace Op Op.Answer) (r : Except Exc Json.Dict)
    (hfinal : refreshed = false → ∀ response, answer = .ok response → response.statusCode ≠ 401)
    (htail : ∀ event ∈ tail, event.op = .now) (hr : Concludes client.lib call answer r) :
    WriteRun client call refreshed
      (⟨.provider .getAccessToken, .ok token⟩ :: ⟨.send (client.request call token), answer⟩ :: tail) r
  | noRefresh (token : PyStr) (response : HTTPResponse) (exc : Exc)
    (h401 : response.statusCode = 401) :
    WriteRun client call false
      [⟨.provider .getAccessToken, .ok token⟩, ⟨.send (client.request call token), .ok response⟩,
        ⟨.provider .forceRefreshAccessToken, .error exc⟩] (.error exc)
  | refreshed (token : PyStr) (response : HTTPResponse) (token' : PyStr)
    (tr : Trace Op Op.Answer) (r : Except Exc Json.Dict) (h401 : response.statusCode = 401)
    (h : WriteRun client call true tr r) :
    WriteRun client call false
      (⟨.provider .getAccessToken, .ok token⟩ :: ⟨.send (client.request call token), .ok response⟩ ::
        ⟨.provider .forceRefreshAccessToken, .ok token'⟩ :: tr) r

theorem runs_parseRetryAfterSeconds {lib : Library} {value : Option PyStr}
    {tr : Trace Op Op.Answer} {r : Except Exc (Except Exc (Option ℚ))}
    (h : Coro.Runs (parseRetryAfterSeconds lib Program.now value) tr r) :
    (∀ event ∈ tr, event.op = .now) ∧
      ((readRetryAfter lib value = none ∧ r = .ok (.error .overflow)) ∨
        ∃ said delay, readRetryAfter lib value = some said ∧ r = .ok (.ok delay) ∧
          (delay = none ↔ said = .none)) := by
  cases value with
  | none =>
    obtain ⟨rfl, rfl⟩ := h
    exact ⟨by simp, .inr ⟨_, _, rfl, rfl, by simp⟩⟩
  | some text =>
    unfold parseRetryAfterSeconds at h
    unfold readRetryAfter
    rcases hfloat : lib.float text with _ | _ | numeric
    · rcases hdate : lib.parsedate text with (_ | _) | retryAt <;> simp only [hfloat, hdate] at h ⊢
      · obtain ⟨rfl, rfl⟩ := h
        exact ⟨by simp, .inr ⟨_, _, rfl, rfl, by simp⟩⟩
      · obtain ⟨rfl, rfl⟩ := h
        exact ⟨by simp, .inl ⟨trivial, rfl⟩⟩
      · obtain ⟨now, rest, rfl, rfl, rfl⟩ := h
        exact ⟨by simp, .inr ⟨_, _, rfl, rfl, by simp⟩⟩
    all_goals
      simp only [hfloat] at h ⊢
      obtain ⟨rfl, rfl⟩ := h
      exact ⟨by simp, .inr ⟨_, _, rfl, rfl, by simp⟩⟩

/-- Mapping a response to an API error reads the clock at most. It fails for a 429 only. -/
theorem runs_apiError {lib : Library} {response : HTTPResponse} {tr : Trace Op Op.Answer}
    {r : Except Exc Exc} (h : Coro.Runs (Program.apiError lib response) tr r) :
    (∀ event ∈ tr, event.op = .now) ∧
      ((RateLimitOverflows lib response ∧ r = .error .overflow) ∨
        ¬RateLimitOverflows lib response ∧ ∃ error, r = .ok error ∧ error.isApiError = true) := by
  have hplain : ∀ {error : Exc}, response.statusCode ≠ 429 → error.isApiError = true →
      Coro.Runs (Coro.ofExcept (.ok error)) tr r →
      (∀ event ∈ tr, event.op = .now) ∧
        ((RateLimitOverflows lib response ∧ r = .error .overflow) ∨
          ¬RateLimitOverflows lib response ∧ ∃ error, r = .ok error ∧ error.isApiError = true) := by
    rintro error hstatus hapi ⟨rfl, rfl⟩
    exact ⟨by simp, .inr ⟨fun h => hstatus h.1, error, rfl, hapi⟩⟩
  unfold Program.apiError TradeStation.apiError at h
  simp only at h
  split_ifs at h with h401 h429
  · exact hplain (by omega) rfl h
  · rw [Coro.bind_assoc, Coro.runs_bind] at h
    rcases h with ⟨exc, hparse, -⟩ | ⟨parsed, tr₁, tr₂, rfl, hparse, hrest⟩
    · obtain ⟨-, ⟨-, hok⟩ | ⟨said, delay, -, hok, -⟩⟩ := runs_parseRetryAfterSeconds hparse <;>
        cases hok
    obtain ⟨hnow, ⟨hread, hok⟩ | ⟨said, delay, hread, hok, -⟩⟩ := runs_parseRetryAfterSeconds hparse
    · cases hok
      obtain ⟨rfl, rfl⟩ := hrest
      exact ⟨by simpa using hnow, .inl ⟨⟨h429, readRetryAfter_eq_none_iff.1 hread⟩, rfl⟩⟩
    · cases hok
      obtain ⟨rfl, rfl⟩ := hrest
      refine ⟨by simpa using hnow, .inr ⟨fun h => ?_, _, rfl, rfl⟩⟩
      rw [readRetryAfter_eq_none_iff.2 h.2] at hread
      cases hread
  · exact hplain h429 rfl h

theorem concludes_error (lib : Library) {call : Call} {exc : Exc} {tr : Trace Op Op.Answer}
    {r : Except Exc Json.Dict}
    (h : Coro.Runs (if exc.isTransportError = false then Coro.raise exc
      else Coro.raise (RestClient.ambiguous call exc) : Program Json.Dict) tr r) :
    tr = [] ∧ Concludes lib call (.error exc) r := by
  cases htransport : exc.isTransportError <;> simp_all [Concludes]

theorem concludes_ok {client : RestClient} {call : Call} {response : HTTPResponse}
    {tr : Trace Op Op.Answer} {r : Except Exc Json.Dict}
    (h : Coro.Runs (if isSuccess response = true then Coro.ofExcept (RestClient.decode call response)
      else if response.statusCode ∈ ambiguousWriteStatuses then do
        throw (RestClient.ambiguous call (← Program.apiError client.lib response))
      else do throw (← Program.apiError client.lib response) : Program Json.Dict) tr r) :
    (∀ event ∈ tr, event.op = .now) ∧ Concludes client.lib call (.ok response) r := by
  simp only [Concludes]
  split_ifs at h ⊢ with hsuccess hambiguous
  · cases hdecode : RestClient.decode call response <;> simp_all
  all_goals
    rw [Coro.runs_bind] at h
    rcases h with ⟨exc, herror, rfl⟩ | ⟨error, tr₁, tr₂, rfl, herror, rfl, rfl⟩
    · obtain ⟨hnow, ⟨hoverflows, he⟩ | ⟨-, error, he, -⟩⟩ := runs_apiError herror
      · cases he
        exact ⟨hnow, .inl ⟨hoverflows, rfl⟩⟩
      · cases he
    · obtain ⟨hnow, ⟨-, he⟩ | ⟨hoverflows, error', he, hapi⟩⟩ := runs_apiError herror
      · cases he
      · cases he
        exact ⟨by simpa using hnow, .inr ⟨hoverflows, error, hapi, rfl⟩⟩

/-- One turn of the loop, given the runs of the turn behind the refresh. -/
theorem writeRun_turn {client : RestClient} {call : Call} (hcall : call.retrySafe = false)
    {attempt : ℕ} {refreshed : Bool} {tr : Trace Op Op.Answer} {r : Except Exc Json.Dict}
    (next : refreshed = false → ∀ tr r, Coro.Runs (client.requestLoop call attempt true) tr r →
      WriteRun client call true tr r)
    (h : Coro.Runs (client.requestLoop call attempt refreshed) tr r) :
    WriteRun client call refreshed tr r := by
  rw [RestClient.requestLoop, Program.getAccessToken, Program.runs_provider] at h
  rcases h with ⟨exc, rfl, rfl⟩ | ⟨token, rest, rfl, h⟩
  · exact .noToken refreshed exc
  rw [Program.runs_send] at h
  obtain ⟨answer, tail, rfl, h⟩ := h
  cases answer with
  | error exc =>
    simp only [hcall, if_true] at h
    obtain ⟨rfl, hr⟩ := concludes_error _ h
    exact .answered refreshed token (.error exc) [] r (by simp) (by simp) hr
  | ok response =>
    simp only [hcall, Bool.false_eq_true, false_and, dite_false, true_and] at h
    by_cases h401 : response.statusCode = 401 ∧ refreshed = false
    · rw [dif_pos h401, Program.forceRefreshAccessToken, Program.runs_provider] at h
      obtain ⟨h401, rfl⟩ := h401
      rcases h with ⟨exc, rfl, rfl⟩ | ⟨token', rest, rfl, h⟩
      · exact .noRefresh token response exc h401
      · exact .refreshed token response token' rest r h401 (next rfl rest r h)
    · rw [dif_neg h401] at h
      obtain ⟨htail, hr⟩ := concludes_ok h
      refine .answered refreshed token (.ok response) tail r ?_ htail hr
      rintro hrefreshed _ ⟨⟩ hstatus
      exact h401 ⟨hstatus, hrefreshed⟩

/-- **The runs of a write are those listed.** -/
theorem writeRun_of_runs {client : RestClient} {call : Call} (hcall : call.retrySafe = false)
    {attempt : ℕ} {refreshed : Bool} {tr : Trace Op Op.Answer} {r : Except Exc Json.Dict}
    (h : Coro.Runs (client.requestLoop call attempt refreshed) tr r) :
    WriteRun client call refreshed tr r := by
  have hrefreshed : ∀ tr r, Coro.Runs (client.requestLoop call attempt true) tr r →
      WriteRun client call true tr r :=
    fun tr r => writeRun_turn hcall (by simp)
  cases refreshed with
  | true => exact hrefreshed tr r h
  | false => exact writeRun_turn hcall (fun _ => hrefreshed) h

/-! ## No blind re-send -/

/-- The request that an event hands to the transport. -/
def sentRequest (event : Event Op Op.Answer) : Option HTTPRequest :=
  match event.op with
  | .send request => some request
  | _ => none

/-- The requests handed to the transport, in order. -/
def sends (tr : Trace Op Op.Answer) : List HTTPRequest := tr.filterMap sentRequest

/-- An event that forces a token refresh. -/
def isRefresh (event : Event Op Op.Answer) : Bool :=
  match event.op with
  | .provider .forceRefreshAccessToken => true
  | _ => false

@[simp] theorem sends_nil : sends [] = [] := rfl

@[simp] theorem sends_provider (method : ProviderMethod) (answer : Except Exc PyStr)
    (tr : Trace Op Op.Answer) : sends (⟨.provider method, answer⟩ :: tr) = sends tr := rfl

@[simp] theorem sends_send (request : HTTPRequest) (answer : Except Exc HTTPResponse)
    (tr : Trace Op Op.Answer) : sends (⟨.send request, answer⟩ :: tr) = request :: sends tr := rfl

@[simp] theorem isRefresh_getAccessToken (answer : Except Exc PyStr) :
    isRefresh ⟨.provider .getAccessToken, answer⟩ = false := rfl

@[simp] theorem isRefresh_forceRefreshAccessToken (answer : Except Exc PyStr) :
    isRefresh ⟨.provider .forceRefreshAccessToken, answer⟩ = true := rfl

@[simp] theorem isRefresh_send (request : HTTPRequest) (answer : Except Exc HTTPResponse) :
    isRefresh ⟨.send request, answer⟩ = false := rfl

/-- What an order write may do: it is sent at most twice, and a second time only behind a 401 and
a refresh that returned; both requests are the same but for the token, which is the one returned
just before; nothing sleeps. -/
structure NoBlindResend (tr : Trace Op Op.Answer) : Prop where
  sent_twice : (sends tr).length ≤ 2
  refreshed_once : tr.countP isRefresh ≤ 1
  no_sleep : ∀ event ∈ tr, ∀ delay, event.op ≠ .sleep delay
  same_request : ∀ request ∈ sends tr, ∀ request' ∈ sends tr,
    request.method = request'.method ∧ request.url = request'.url ∧
      request.jsonBody = request'.jsonBody
  fresh_token : ∀ before request answer after, tr = before ++ ⟨.send request, answer⟩ :: after →
    ∃ before' token, before = before' ++ [⟨.provider .getAccessToken, .ok token⟩] ∧
      request.headers.get (str "Authorization") = some (str "Bearer " ++ token)
  behind_401 : ∀ before request answer after, tr = before ++ ⟨.send request, answer⟩ :: after →
    sends after ≠ [] → ∃ response token rest, answer = .ok response ∧ response.statusCode = 401 ∧
      after = ⟨.provider .forceRefreshAccessToken, .ok token⟩ :: rest

theorem sends_now {tail : Trace Op Op.Answer} (h : ∀ event ∈ tail, event.op = .now) :
    sends tail = [] := by
  rw [sends, List.filterMap_eq_nil_iff]
  intro event hevent
  simp [sentRequest, h event hevent]

theorem countP_isRefresh_now {tail : Trace Op Op.Answer} (h : ∀ event ∈ tail, event.op = .now) :
    tail.countP isRefresh = 0 := by
  rw [List.countP_eq_zero]
  intro event hevent
  simp [isRefresh, h event hevent]

/-- Where the sends are in a run that starts with a token and a send. -/
theorem send_mem_turn {token : PyStr} {request request' : HTTPRequest}
    {answer answer' : Except Exc HTTPResponse} {rest before after : Trace Op Op.Answer}
    (h : (⟨.provider .getAccessToken, .ok token⟩ :: ⟨.send request, answer⟩ :: rest :
      Trace Op Op.Answer) = before ++ ⟨.send request', answer'⟩ :: after) :
    (before = [⟨.provider .getAccessToken, .ok token⟩] ∧ request = request' ∧ answer = answer' ∧
      rest = after) ∨
    ∃ before', before = ⟨.provider .getAccessToken, .ok token⟩ :: ⟨.send request, answer⟩ ::
      before' ∧ rest = before' ++ ⟨.send request', answer'⟩ :: after := by
  match before with
  | [] => cases h
  | [_] =>
    cases h
    exact .inl ⟨rfl, rfl, rfl, rfl⟩
  | _ :: _ :: before' =>
    obtain ⟨rfl, htail⟩ := List.cons.inj h
    obtain ⟨rfl, hrest⟩ := List.cons.inj htail
    exact .inr ⟨before', rfl, hrest⟩

theorem send_not_mem_now {request : HTTPRequest} {answer : Except Exc HTTPResponse}
    {tail before after : Trace Op Op.Answer} (h : ∀ event ∈ tail, event.op = .now)
    (ht : tail = before ++ ⟨.send request, answer⟩ :: after) : False := by
  have hsend := h ⟨.send request, answer⟩ (by simp [ht])
  cases hsend

theorem request_authorization (client : RestClient) (call : Call) (token : PyStr) :
    (client.request call token).headers.get (str "Authorization") =
      some (str "Bearer " ++ token) := by
  have hname : str "Accept" ≠ str "Authorization" := by decide
  simp [RestClient.request, Headers.get, hname]

/-- A token and a send in front of a run that sends at most once more, and only behind the 401 of
this send. -/
theorem noBlindResend_turn {client : RestClient} {call : Call} {token : PyStr}
    {answer : Except Exc HTTPResponse} {rest : Trace Op Op.Answer} (hrest : NoBlindResend rest)
    (hsent : (sends rest).length ≤ 1)
    (hrequest : ∀ request ∈ sends rest, ∃ token, request = client.request call token)
    (h401 : sends rest ≠ [] → ∃ response token' rest', answer = .ok response ∧
      response.statusCode = 401 ∧ rest = ⟨.provider .forceRefreshAccessToken, .ok token'⟩ :: rest') :
    NoBlindResend (⟨.provider .getAccessToken, .ok token⟩ ::
      ⟨.send (client.request call token), answer⟩ :: rest) := by
  refine ⟨?_, ?_, ?_, ?_, ?_, ?_⟩
  · simp only [sends_provider, sends_send, List.length_cons]
    omega
  · simpa using hrest.refreshed_once
  · intro event hevent delay
    rcases List.mem_cons.1 hevent with rfl | hevent
    · simp
    rcases List.mem_cons.1 hevent with rfl | hevent
    · simp
    exact hrest.no_sleep event hevent delay
  · have hall : ∀ request ∈ client.request call token :: sends rest,
        ∃ token, request = client.request call token := by
      intro request hmem
      rcases List.mem_cons.1 hmem with rfl | hmem
      · exact ⟨token, rfl⟩
      · exact hrequest request hmem
    intro request hmem request' hmem'
    rw [sends_provider, sends_send] at hmem hmem'
    obtain ⟨_, rfl⟩ := hall request hmem
    obtain ⟨_, rfl⟩ := hall request' hmem'
    exact ⟨rfl, rfl, rfl⟩
  · intro before request' answer' after h
    rcases send_mem_turn h with ⟨rfl, rfl, -, -⟩ | ⟨before', rfl, h'⟩
    · exact ⟨[], token, rfl, request_authorization client call token⟩
    · obtain ⟨before'', token', rfl, hauth⟩ := hrest.fresh_token before' request' answer' after h'
      exact ⟨_ :: _ :: before'', token', rfl, hauth⟩
  · intro before request' answer' after h hafter
    rcases send_mem_turn h with ⟨rfl, rfl, rfl, rfl⟩ | ⟨before', rfl, h'⟩
    · exact h401 hafter
    · exact hrest.behind_401 before' request' answer' after h' hafter

/-- An event that is no send and no sleep in front of a run. -/
theorem NoBlindResend.cons {event : Event Op Op.Answer} {tr : Trace Op Op.Answer}
    (h : NoBlindResend tr) (hsend : sentRequest event = none)
    (hsleep : ∀ delay, event.op ≠ .sleep delay)
    (hrefresh : isRefresh event = true → tr.countP isRefresh = 0) :
    NoBlindResend (event :: tr) := by
  have hsends : sends (event :: tr) = sends tr := by simp [sends, hsend]
  have hsplit : ∀ {before request answer after},
      event :: tr = before ++ ⟨.send request, answer⟩ :: after →
        ∃ before', before = event :: before' ∧ tr = before' ++ ⟨.send request, answer⟩ :: after := by
    intro before request answer after heq
    cases before with
    | nil =>
      cases heq
      cases hsend
    | cons _ before' =>
      obtain ⟨rfl, htr⟩ := List.cons.inj heq
      exact ⟨before', rfl, htr⟩
  refine ⟨hsends ▸ h.sent_twice, ?_, ?_, hsends ▸ h.same_request, ?_, ?_⟩
  · have hone := h.refreshed_once
    cases hevent : isRefresh event
    · simpa [hevent] using hone
    · simp [hevent, hrefresh hevent]
  · intro event' hmem
    rcases List.mem_cons.1 hmem with rfl | hmem
    · exact hsleep
    · exact h.no_sleep event' hmem
  · intro before request answer after heq
    obtain ⟨before', rfl, htr⟩ := hsplit heq
    obtain ⟨before'', token, rfl, hauth⟩ := h.fresh_token _ _ _ _ htr
    exact ⟨event :: before'', token, rfl, hauth⟩
  · intro before request answer after heq hafter
    obtain ⟨before', rfl, htr⟩ := hsplit heq
    exact h.behind_401 _ _ _ _ htr hafter

theorem noBlindResend_nil : NoBlindResend [] := by
  constructor <;> simp [sends]

theorem noBlindResend_now {tail : Trace Op Op.Answer} (h : ∀ event ∈ tail, event.op = .now) :
    NoBlindResend tail := by
  induction tail with
  | nil => exact noBlindResend_nil
  | cons event tail ih =>
    have hevent := h event List.mem_cons_self
    refine (ih fun e he => h e (List.mem_cons_of_mem _ he)).cons ?_ ?_ ?_
    · simp [sentRequest, hevent]
    · simp [hevent]
    · simp [isRefresh, hevent]

/-- What a write does, before the refresh and behind it. -/
theorem WriteRun.noBlindResend {client : RestClient} {call : Call} {refreshed : Bool}
    {tr : Trace Op Op.Answer} {r : Except Exc Json.Dict}
    (h : WriteRun client call refreshed tr r) :
    NoBlindResend tr ∧ (∀ request ∈ sends tr, ∃ token, request = client.request call token) ∧
      (refreshed = true → (sends tr).length ≤ 1 ∧ tr.countP isRefresh = 0) := by
  induction h with
  | noToken refreshed exc =>
    exact ⟨noBlindResend_nil.cons rfl (by simp) (by simp), by simp, by simp⟩
  | answered refreshed token answer tail r hfinal htail hr =>
    have hnone := sends_now htail
    refine ⟨noBlindResend_turn (noBlindResend_now htail) (by simp [hnone]) (by simp [hnone])
      (by simp [hnone]), ?_, fun _ => ?_⟩
    · simp [hnone]
    · simp [hnone, countP_isRefresh_now htail]
  | noRefresh token response exc h401 =>
    refine ⟨noBlindResend_turn (noBlindResend_nil.cons rfl (by simp) (by simp)) (by simp) (by simp)
      (by simp), by simp, by simp⟩
  | refreshed token response token' tr r h401 h ih =>
    obtain ⟨hrun, hrequest, hbound⟩ := ih
    obtain ⟨hsent, hrefresh⟩ := hbound rfl
    refine ⟨noBlindResend_turn (hrun.cons rfl (by simp) fun _ => hrefresh) hsent hrequest
      fun _ => ⟨response, token', tr, rfl, h401, rfl⟩, ?_, by simp⟩
    intro request hmem
    simp only [sends_provider, sends_send, List.mem_cons] at hmem
    rcases hmem with rfl | hmem
    · exact ⟨token, rfl⟩
    · exact hrequest request hmem

/-- **No blind re-send of order writes.** For every behaviour of the token provider and of the
transport, an order write ends, and in all it did it was sent again only behind a 401 and a
refresh. -/
theorem orderWrite_noBlindResend (client : RestClient) (write : OrderWrite)
    (env : Coro.Env Op Op.Answer) :
    NoBlindResend (Coro.exec env [] (write.program client)).1 := by
  obtain ⟨call, hcall, hprogram⟩ := write.program_eq client
  rw [hprogram]
  exact (writeRun_of_runs hcall (Coro.exec_runs env [] _)).noBlindResend.1

/-! ## Ambiguous and definite ends -/

/-- The answer of the transport that a run ends on: behind it nothing is sent, and nothing is asked
of the token provider. -/
def FinalAnswer (tr : Trace Op Op.Answer) (answer : Except Exc HTTPResponse) : Prop :=
  ∃ before request after, tr = before ++ ⟨.send request, answer⟩ :: after ∧
    ∀ event ∈ after, event.op = .now

/-- The transport answered with a response, or with a `TransportError`. -/
def TransportOutcome : Except Exc HTTPResponse → Prop
  | .ok _ => True
  | .error exc => exc.isTransportError = true

/-- The outcome is a 2xx response with a JSON object or no body. -/
def Accepted (answer : Except Exc HTTPResponse) (decoded : Json.Dict) : Prop :=
  ∃ response, answer = .ok response ∧ isSuccess response = true ∧
    response.json = some (.obj decoded)

/-- The outcome leaves open whether the write took effect: no response, a 408, any 5xx, or a 2xx
response with anything but an object. -/
def EffectUnknown (answer : Except Exc HTTPResponse) : Prop :=
  ∀ response, answer = .ok response → response.statusCode = 408 ∨
    (500 ≤ response.statusCode ∧ response.statusCode ≤ 599) ∨
    (isSuccess response = true ∧ ∀ decoded, response.json ≠ some (.obj decoded))

/-- A write reports its outcome as what it is. -/
structure Classified (answer : Except Exc HTTPResponse) (r : Except Exc Json.Dict) : Prop where
  value : ∀ decoded, r = .ok decoded ↔ Accepted answer decoded
  ambiguous : (∃ exc, r = .error exc ∧ exc.isAmbiguous = true) ↔ EffectUnknown answer
  definite : (∀ decoded, ¬Accepted answer decoded) → ¬EffectUnknown answer →
    ∃ exc, r = .error exc ∧ exc.isApiError = true ∧ exc.isAmbiguous = false

/-- A 5xx response with a status that `AMBIGUOUS_WRITE_STATUSES` does not list. -/
def UnlistedServerError (answer : Except Exc HTTPResponse) : Prop :=
  ∃ response, answer = .ok response ∧ 500 ≤ response.statusCode ∧ response.statusCode ≤ 599 ∧
    response.statusCode ∉ ambiguousWriteStatuses

/-- A write ends as its final answer says. -/
theorem WriteRun.concludes {client : RestClient} {call : Call} {refreshed : Bool}
    {tr : Trace Op Op.Answer} {r : Except Exc Json.Dict} {answer : Except Exc HTTPResponse}
    (h : WriteRun client call refreshed tr r) (hfinal : FinalAnswer tr answer) :
    Concludes client.lib call answer r := by
  obtain ⟨before, request, after, heq, hnow⟩ := hfinal
  induction h generalizing before with
  | noToken refreshed exc =>
    rcases List.cons_eq_append_iff.1 heq with ⟨rfl, h⟩ | ⟨before', rfl, h⟩
    · cases h
    · simp at h
  | answered refreshed token answer' tail r hfinal htail hr =>
    rcases send_mem_turn heq with ⟨-, -, rfl, -⟩ | ⟨before', -, h⟩
    · exact hr
    · exact (send_not_mem_now htail h).elim
  | noRefresh token response exc h401 =>
    rcases send_mem_turn heq with ⟨-, -, -, rfl⟩ | ⟨before', -, h⟩
    · exact absurd (hnow _ List.mem_cons_self) (by simp)
    · rcases List.cons_eq_append_iff.1 h with ⟨rfl, h⟩ | ⟨before'', rfl, h⟩
      · cases h
      · simp at h
  | refreshed token response token' tr r h401 h ih =>
    rcases send_mem_turn heq with ⟨-, -, -, rfl⟩ | ⟨before', -, h⟩
    · exact absurd (hnow _ List.mem_cons_self) (by simp)
    · rcases List.cons_eq_append_iff.1 h with ⟨rfl, hsend⟩ | ⟨before'', rfl, htr⟩
      · cases hsend
      · exact ih before'' htr

theorem isSuccess_iff {response : HTTPResponse} :
    isSuccess response = true ↔ 200 ≤ response.statusCode ∧ response.statusCode < 300 := by
  simp [isSuccess]

/-- A write that was answered by a success with an object returns the object. -/
theorem WriteRun.accepted {client : RestClient} {call : Call} {refreshed : Bool}
    {tr : Trace Op Op.Answer} {r : Except Exc Json.Dict} {request : HTTPRequest}
    {response : HTTPResponse} {body : Json.Dict} (h : WriteRun client call refreshed tr r)
    (hmem : ⟨.send request, .ok response⟩ ∈ tr) (hsuccess : isSuccess response = true)
    (hbody : response.json = some (.obj body)) : r = .ok body := by
  have hstatus := isSuccess_iff.1 hsuccess
  induction h with
  | noToken refreshed exc => simp at hmem
  | answered refreshed token answer tail r hfinal htail hr =>
    rcases List.mem_cons.1 hmem with he | hmem
    · cases he
    rcases List.mem_cons.1 hmem with he | hmem
    · cases he
      simp only [Concludes, hsuccess, if_true] at hr
      rw [hr, RestClient.decode, hbody]
    · cases htail _ hmem
  | noRefresh token response exc h401 =>
    simp only [List.mem_cons, List.not_mem_nil, or_false] at hmem
    rcases hmem with he | he | he
    · cases he
    · cases he
      omega
    · cases he
  | refreshed token response token' tr r h401 h ih =>
    simp only [List.mem_cons] at hmem
    rcases hmem with he | he | he | hmem
    · cases he
    · cases he
      omega
    · cases he
    · exact ih hmem

theorem isAmbiguous_ambiguous (call : Call) (cause : Exc) :
    (RestClient.ambiguous call cause).isAmbiguous = true := rfl

theorem isAmbiguous_of_isApiError {exc : Exc} (h : exc.isApiError = true) :
    exc.isAmbiguous = false := by
  cases exc <;> simp_all [Exc.isApiError, Exc.isAmbiguous]

/-- A listed status is a 408 or a 5xx. -/
theorem mem_ambiguousWriteStatuses {status : ℤ} (h : status ∈ ambiguousWriteStatuses) :
    status = 408 ∨ 500 ≤ status ∧ status ≤ 599 := by
  simp only [ambiguousWriteStatuses, List.mem_cons, List.not_mem_nil, or_false] at h
  omega

/-- A failure without a response is ambiguous, and so reported. -/
theorem classified_error (call : Call) (exc : Exc) :
    Classified (.error exc) (.error (RestClient.ambiguous call exc)) where
  value decoded := by simp [Accepted]
  ambiguous := by simp [EffectUnknown, isAmbiguous_ambiguous]
  definite _ hknown := absurd (by simp [EffectUnknown]) hknown

/-- A success is decoded to the object it holds, or is ambiguous. -/
theorem classified_decode {call : Call} (hcall : call.retrySafe = false) {response : HTTPResponse}
    (hsuccess : isSuccess response = true) :
    Classified (.ok response) (RestClient.decode call response) := by
  have hstatus := isSuccess_iff.1 hsuccess
  have hunknown : EffectUnknown (.ok response) ↔
      ∀ decoded, response.json ≠ some (.obj decoded) := by
    constructor
    · intro h
      rcases h response rfl with h408 | h5xx | h
      · omega
      · omega
      · exact h.2
    · rintro h _ ⟨⟩
      exact .inr (.inr ⟨hsuccess, h⟩)
  have haccepted : ∀ decoded, Accepted (.ok response) decoded ↔
      response.json = some (.obj decoded) := by
    intro decoded
    constructor
    · rintro ⟨_, ⟨⟩, -, h⟩
      exact h
    · exact fun h => ⟨response, rfl, hsuccess, h⟩
  refine ⟨?_, ?_, ?_⟩
  all_goals
    simp only [haccepted, hunknown]
    unfold RestClient.decode
    split <;> simp_all [isAmbiguous_ambiguous]

/-- A response that is no success ends as its status says. -/
theorem classified_response_iff {call : Call} {response : HTTPResponse}
    (hsuccess : isSuccess response ≠ true) {error : Exc} (herror : error.isApiError = true) :
    Classified (.ok response) (.error (if response.statusCode ∈ ambiguousWriteStatuses then
        RestClient.ambiguous call error else error)) ↔
      ¬UnlistedServerError (.ok response) := by
  have hunknown : EffectUnknown (.ok response) ↔ response.statusCode = 408 ∨
      (500 ≤ response.statusCode ∧ response.statusCode ≤ 599) := by
    constructor
    · intro h
      rcases h response rfl with h408 | h5xx | h
      · exact .inl h408
      · exact .inr h5xx
      · exact absurd h.1 hsuccess
    · rintro h _ ⟨⟩
      exact h.imp_right .inl
  have hunlisted : UnlistedServerError (.ok response) ↔ 500 ≤ response.statusCode ∧
      response.statusCode ≤ 599 ∧ response.statusCode ∉ ambiguousWriteStatuses := by
    constructor
    · rintro ⟨_, ⟨⟩, h⟩
      exact h
    · exact fun h => ⟨response, rfl, h⟩
  have hnone : ∀ decoded, ¬Accepted (.ok response) decoded := by
    rintro decoded ⟨_, ⟨⟩, h, -⟩
    exact hsuccess h
  have hplain := isAmbiguous_of_isApiError herror
  by_cases hlisted : response.statusCode ∈ ambiguousWriteStatuses
  · have hstatus := mem_ambiguousWriteStatuses hlisted
    rw [if_pos hlisted, hunlisted]
    refine iff_of_true ⟨?_, ?_, ?_⟩ fun h => h.2.2 hlisted
    · simpa using hnone
    · simp [hunknown, hstatus, isAmbiguous_ambiguous]
    · exact fun _ hknown => absurd (hunknown.2 hstatus) hknown
  · rw [if_neg hlisted, hunlisted]
    have h408 : response.statusCode ≠ 408 := by
      intro h
      exact hlisted (by simp [h, ambiguousWriteStatuses])
    constructor
    · rintro h ⟨h500, h599, -⟩
      obtain ⟨exc, hexc, hambiguous⟩ := h.ambiguous.2 (hunknown.2 (.inr ⟨h500, h599⟩))
      cases hexc
      simp [hplain] at hambiguous
    · intro h
      have hknown : ¬EffectUnknown (.ok response) := by
        rw [hunknown]
        rintro (h' | ⟨h500, h599⟩)
        · exact h408 h'
        · exact h ⟨h500, h599, hlisted⟩
      refine ⟨by simpa using hnone, ?_, fun _ _ => ⟨error, rfl, herror, hplain⟩⟩
      simp [hknown, hplain]

/-- A 429 whose `Retry-After` cannot be read ends in no API error. -/
theorem not_classified_overflow {lib : Library} {response : HTTPResponse}
    (h : RateLimitOverflows lib response) : ¬Classified (.ok response) (.error .overflow) := by
  intro hclassified
  have hstatus := h.1
  obtain ⟨exc, hexc, hapi, -⟩ := hclassified.definite
    (by
      rintro decoded ⟨_, ⟨⟩, hsuccess, -⟩
      rw [isSuccess_iff] at hsuccess
      omega)
    (by
      intro hunknown
      rcases hunknown response rfl with h408 | h5xx | ⟨hsuccess, -⟩
      · omega
      · omega
      · rw [isSuccess_iff] at hsuccess
        omega)
  cases hexc
  cases hapi

/-- **Exactly the listed server errors are ambiguous.** An order write reports its final outcome as
what it is, unless that is a 5xx response with a status outside the list, or a 429 whose `Retry-After`
raises an `OverflowError`. -/
theorem orderWrite_classified_iff (client : RestClient) (write : OrderWrite)
    {tr : Trace Op Op.Answer} {r : Except Exc Json.Dict} {answer : Except Exc HTTPResponse}
    (hrun : Coro.Runs (write.program client) tr r) (hfinal : FinalAnswer tr answer)
    (houtcome : TransportOutcome answer) :
    Classified answer r ↔ ¬UnlistedServerError answer ∧
      ∀ response, answer = .ok response → ¬RateLimitOverflows client.lib response := by
  obtain ⟨call, hcall, hprogram⟩ := write.program_eq client
  rw [hprogram] at hrun
  have hend := (writeRun_of_runs hcall hrun).concludes hfinal
  cases answer with
  | error exc =>
    have htransport : exc.isTransportError = true := houtcome
    simp only [Concludes, htransport, if_true] at hend
    rw [hend]
    exact iff_of_true (classified_error call exc) ⟨by simp [UnlistedServerError], by simp⟩
  | ok response =>
    simp only [Concludes] at hend
    by_cases hsuccess : isSuccess response = true
    · rw [if_pos hsuccess] at hend
      rw [hend]
      have hstatus := isSuccess_iff.1 hsuccess
      refine iff_of_true (classified_decode hcall hsuccess) ⟨?_, ?_⟩
      · rintro ⟨_, ⟨⟩, h500, -, -⟩
        omega
      · rintro _ ⟨⟩ ⟨h429, -⟩
        omega
    · rw [if_neg hsuccess] at hend
      rcases hend with ⟨hoverflows, rfl⟩ | ⟨hreadable, error, herror, rfl⟩
      · exact iff_of_false (not_classified_overflow hoverflows) fun h => h.2 response rfl hoverflows
      · rw [classified_response_iff hsuccess herror]
        exact (and_iff_left fun _ h => by cases h; exact hreadable).symm

/-- A submission that the gateway answers with a 501 and no body. -/
theorem runs_submit_501 :
    Coro.Runs ((OrderWrite.post (str "/orderexecution/orders") [] none).program simClient)
      [⟨.provider .getAccessToken, .ok (str "T")⟩,
        ⟨.send ⟨str "POST", simBaseUrl ++ str "/orderexecution/orders",
          [(str "Accept", str "application/json"), (str "Authorization", str "Bearer T")],
          some [], none, 30⟩, .ok ⟨501, [], []⟩⟩]
      (.error (.api 501 (str "TradeStationAPIError") [] (some []))) := by
  rw [OrderWrite.program, RestClient.postOrderWrite, RestClient.requestJson,
    RestClient.requestLoop, Program.getAccessToken, Program.runs_provider]
  refine .inr ⟨_, _, rfl, ?_⟩
  rw [Program.runs_send]
  refine ⟨_, _, rfl, ?_⟩
  exact ⟨rfl, rfl⟩

/-- A 501 is a 5xx, but a write it answers fails with a plain API error. -/
theorem orderWrite_501_not_ambiguous :
    ∃ tr r, Coro.Runs
        ((OrderWrite.post (str "/orderexecution/orders") [] none).program simClient) tr r ∧
      FinalAnswer tr (.ok ⟨501, [], []⟩) ∧ TransportOutcome (.ok ⟨501, [], []⟩) ∧
      ¬Classified (.ok ⟨501, [], []⟩) r := by
  refine ⟨_, _, runs_submit_501, ⟨[_], _, [], rfl, by simp⟩, trivial, fun h => ?_⟩
  have hunknown : EffectUnknown (.ok ⟨501, [], []⟩) := by
    rintro _ ⟨⟩
    exact .inr (.inl ⟨by decide, by decide⟩)
  obtain ⟨exc, hexc, hambiguous⟩ := h.ambiguous.2 hunknown
  cases hexc
  cases hambiguous

theorem orderWrite_classified_iff_501 :
    Classified (.ok ⟨501, [], []⟩)
        (.error (.api 501 (str "TradeStationAPIError") [] (some []))) ↔
      ¬UnlistedServerError (.ok ⟨501, [], []⟩) ∧
        ∀ response : HTTPResponse, Except.ok (ε := Exc) ⟨501, [], []⟩ = .ok response →
          ¬RateLimitOverflows simClient.lib response :=
  orderWrite_classified_iff simClient _ runs_submit_501 ⟨[_], _, [], rfl, by simp⟩ trivial

end TradeStation
