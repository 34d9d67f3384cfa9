import TradeStation.Rest.Writes

/-!
# Dropped connections

`UrllibAsyncTransport` and `request_json` together: what becomes of an exception of the standard
HTTP library. The transport maps an `OSError` raised while the request is sent or the body of an
answer is read; it maps neither the rest of `http.client.HTTPException` nor anything raised while
the body of an `HTTPError` is read, and what it does not map the loop does not catch.

`runs_behind_failure` finds, for any failed send of a run, the attempt it was and what the loop does
behind it; `urllib_drop_handled_iff` reads off which drops are handled.
-/

namespace TradeStation

open Python Foundations

/-- The connection broke with `e`: before an answer, in the body of an answer, or in the body of
an `HTTPError`. -/
def Dropped (result : UrlopenResult) (e : LibExc) : Prop :=
  result = .raised e ∨ (∃ status headers, result = .opened status headers (.error e)) ∨
    ∃ code headers, result = .httpError code headers (.error e)

/-- The body of an `HTTPError` was being read. -/
def InErrorBody (result : UrlopenResult) : Prop :=
  ∃ code headers e, result = .httpError code headers (.error e)

/-- A drop is raised, and as a `TransportError` only if it is mapped. -/
theorem sendSync_dropped {lib : Library} {urlopen : Urlopen} {request : HTTPRequest} {e : LibExc}
    (h : Dropped (urlopen (urllibRequest lib request) request.timeoutSeconds) e) :
    ∃ exc, sendSync lib urlopen request = .error exc ∧ exc.isAmbiguous = false ∧
      exc.isRetryExhausted = false ∧
      (exc.isTransportError = true ↔ e.isOSError = true ∧
        ¬InErrorBody (urlopen (urllibRequest lib request) request.timeoutSeconds)) := by
  have hmap : (mapLibExc e).isTransportError = e.isOSError ∧ (mapLibExc e).isAmbiguous = false ∧
      (mapLibExc e).isRetryExhausted = false := by
    cases e <;> exact ⟨rfl, rfl, rfl⟩
  obtain ⟨htransport, hambiguous, hexhausted⟩ := hmap
  rcases h with h | ⟨status, headers, h⟩ | ⟨code, headers, h⟩
  · exact ⟨mapLibExc e, by simp [sendSync, h], hambiguous, hexhausted,
      by simp [htransport, h, InErrorBody]⟩
  · exact ⟨mapLibExc e, by simp [sendSync, h], hambiguous, hexhausted,
      by simp [htransport, h, InErrorBody]⟩
  · exact ⟨.library e, by simp [sendSync, h], rfl, rfl,
      by simp [Exc.isTransportError, h, InErrorBody]⟩

/-! ## Behind a failed send -/

/-- A sleep. -/
def isSleep (event : Event Op Op.Answer) : Bool :=
  match event.op with
  | .sleep _ => true
  | _ => false

/-- What the loop does behind a failed send. -/
def RestClient.onFailure (client : RestClient) (call : Call) (attempt : ℕ) (refreshed : Bool)
    (exc : Exc) : Program Json.Dict :=
  if exc.isTransportError = false then throw exc
  else if call.retrySafe = false then throw (ambiguous call exc)
  else if client.retryPolicy.maxAttempts ≤ attempt then
    throw (.retryExhausted (transportErrorText client.lib exc))
  else do
    client.sleep attempt
    client.requestLoop call (attempt + 1) refreshed

/-- Reading the clock or drawing a random number. -/
def Op.IsDraw : Op → Prop
  | .now | .uniform _ _ => True
  | _ => False

theorem runs_delayForAttempt {policy : RetryPolicy} {lib : Library} {attempt : ℕ}
    {retryAfter : Option PyStr} {tr : Trace Op Op.Answer} {r : Except Exc (Option ℚ)}
    (h : Coro.Runs (policy.delayForAttempt lib Program.now Program.uniform attempt retryAfter)
      tr r) :
    (∀ event ∈ tr, event.op.IsDraw) ∧
      ∃ delay, r = .ok delay ∧ (delay = none ↔ DelayOverflows lib attempt retryAfter) := by
  unfold RetryPolicy.delayForAttempt at h
  rw [Coro.runs_bind] at h
  rcases h with ⟨exc, hparse, -⟩ | ⟨parsed, tr₁, tr₂, rfl, hparse, h⟩
  · obtain ⟨-, ⟨-, hok⟩ | ⟨said, delay, -, hok, -⟩⟩ := runs_parseRetryAfterSeconds hparse <;> cases hok
  have hnow : ∀ event ∈ tr₁, event.op.IsDraw := by
    intro event hevent
    rw [(runs_parseRetryAfterSeconds hparse).1 event hevent]
    trivial
  unfold DelayOverflows
  rw [← readRetryAfter_eq_none_iff]
  obtain ⟨-, ⟨hread, hok⟩ | ⟨said, delay, hread, hok, hsaid⟩⟩ := runs_parseRetryAfterSeconds hparse <;>
    cases hok
  · obtain ⟨rfl, rfl⟩ := h
    exact ⟨by simpa using hnow, none, rfl, by simp [hread]⟩
  cases delay with
  | some parsed =>
    obtain ⟨rfl, rfl⟩ := h
    have hne : said ≠ .none := fun hnone => by cases hsaid.2 hnone
    exact ⟨by simpa using hnow, _, rfl, by simp [hread, hne]⟩
  | none =>
    have hnone : said = .none := hsaid.1 rfl
    by_cases hlarge : 1024 ≤ attempt - 1
    · simp only [backoff, if_pos hlarge] at h
      obtain ⟨rfl, rfl⟩ := h
      exact ⟨by simpa using hnow, none, rfl, by simp [hread, hnone, hlarge]⟩
    simp only [backoff, if_neg hlarge] at h
    by_cases hjitter : policy.jitterRatio ≤ 0
    · rw [if_pos hjitter] at h
      obtain ⟨rfl, rfl⟩ := h
      exact ⟨by simpa using hnow, _, rfl, by simp [hread, hlarge]⟩
    · rw [if_neg hjitter] at h
      obtain ⟨jitter, rest, rfl, rfl, rfl⟩ := h
      refine ⟨?_, _, rfl, by simp [hread, hlarge]⟩
      intro event hevent
      rcases List.mem_append.1 hevent with hevent | hevent
      · exact hnow event hevent
      · rw [List.mem_singleton.1 hevent]
        trivial

/-- A retry delay: it cannot be computed, or is slept. -/
theorem runs_sleep {client : RestClient} {attempt : ℕ} {retryAfter : Option PyStr}
    {tr : Trace Op Op.Answer} {r : Except Exc Unit}
    (h : Coro.Runs (client.sleep attempt retryAfter) tr r) :
    ∃ draws, (∀ event ∈ draws, event.op.IsDraw) ∧
      ((tr = draws ∧ r = .error .overflow ∧ DelayOverflows client.lib attempt retryAfter) ∨
        ∃ delay, tr = draws ++ [⟨.sleep delay, r⟩] ∧ ¬DelayOverflows client.lib attempt retryAfter) := by
  rw [RestClient.sleep, Coro.runs_bind] at h
  rcases h with ⟨exc, hdelay, -⟩ | ⟨delay, draws, rest, rfl, hdelay, h⟩
  · obtain ⟨-, _, hok, -⟩ := runs_delayForAttempt hdelay
    cases hok
  obtain ⟨hdraws, _, hok, hoverflows⟩ := runs_delayForAttempt hdelay
  cases hok
  refine ⟨draws, hdraws, ?_⟩
  rw [← hoverflows]
  cases delay with
  | none =>
    obtain ⟨rfl, rfl⟩ := h
    exact .inl ⟨by simp, rfl, rfl⟩
  | some delay =>
    refine .inr ⟨delay, ?_, by simp⟩
    obtain ⟨answer, rest, rfl, h⟩ := h
    cases answer <;> obtain ⟨rfl, rfl⟩ := h <;> rfl

theorem sends_draws {draws : Trace Op Op.Answer} (h : ∀ event ∈ draws, event.op.IsDraw) :
    sends draws = [] := by
  rw [sends, List.filterMap_eq_nil_iff]
  intro event hevent
  have hdraw := h event hevent
  unfold sentRequest
  split
  · next hop =>
    rw [hop] at hdraw
    exact hdraw.elim
  · rfl

theorem countP_isSleep_draws {draws : Trace Op Op.Answer}
    (h : ∀ event ∈ draws, event.op.IsDraw) : draws.countP isSleep = 0 := by
  rw [List.countP_eq_zero]
  intro event hevent
  have hdraw := h event hevent
  unfold isSleep
  split
  · next hop =>
    rw [hop] at hdraw
    exact hdraw.elim
  · simp

/-- Behind a send the loop sends no more, or it goes on with the attempt that the sleeps in between
make it. -/
def GoesOn (client : RestClient) (call : Call) (attempt : ℕ) (tail : Trace Op Op.Answer)
    (r : Except Exc Json.Dict) : Prop :=
  sends tail = [] ∨ ∃ gap rest refreshed, tail = gap ++ rest ∧ sends gap = [] ∧
    Coro.Runs (client.requestLoop call (attempt + gap.countP isSleep) refreshed) rest r

/-- Behind a retry delay the loop goes on with the next attempt. -/
theorem goesOn_sleep {client : RestClient} {call : Call} {attempt : ℕ} {refreshed : Bool}
    {retryAfter : Option PyStr} {tail : Trace Op Op.Answer} {r : Except Exc Json.Dict}
    (h : Coro.Runs (client.sleep attempt retryAfter >>= fun _ =>
      client.requestLoop call (attempt + 1) refreshed) tail r) :
    GoesOn client call attempt tail r := by
  rw [Coro.runs_bind] at h
  rcases h with ⟨exc, hsleep, -⟩ | ⟨_, gap, rest, rfl, hsleep, h⟩
  · left
    obtain ⟨draws, hdraws, ⟨rfl, -⟩ | ⟨delay, rfl, -⟩⟩ := runs_sleep hsleep
    · exact sends_draws hdraws
    · rw [sends, List.filterMap_append, ← sends, sends_draws hdraws]
      rfl
  · right
    obtain ⟨draws, hdraws, ⟨-, he, -⟩ | ⟨delay, rfl, -⟩⟩ := runs_sleep hsleep
    · cases he
    refine ⟨_, rest, refreshed, rfl, ?_, ?_⟩
    · rw [sends, List.filterMap_append, ← sends, sends_draws hdraws]
      rfl
    · have hcount : (draws ++ [(⟨.sleep delay, .ok ()⟩ : Event Op Op.Answer)]).countP isSleep = 1 := by
        rw [List.countP_append, countP_isSleep_draws hdraws]
        rfl
      rw [hcount]
      exact h

/-- An error that a response is mapped to ends the call. -/
theorem sends_apiError {lib : Library} {response : HTTPResponse} {wrap : Exc → Exc}
    {tail : Trace Op Op.Answer} {r : Except Exc Json.Dict}
    (h : Coro.Runs (Program.apiError lib response >>= fun error =>
      (throw (wrap error) : Program Json.Dict)) tail r) : sends tail = [] := by
  rw [Coro.runs_bind] at h
  rcases h with ⟨exc, herror, -⟩ | ⟨error, tr₁, tr₂, rfl, herror, rfl, -⟩
  · exact sends_now (runs_apiError herror).1
  · rw [List.append_nil]
    exact sends_now (runs_apiError herror).1

/-- One turn of the loop. -/
theorem runs_requestLoop {client : RestClient} {call : Call} {attempt : ℕ} {refreshed : Bool}
    {tr : Trace Op Op.Answer} {r : Except Exc Json.Dict}
    (h : Coro.Runs (client.requestLoop call attempt refreshed) tr r) :
    (∃ exc, tr = [⟨.provider .getAccessToken, .error exc⟩]) ∨
      ∃ token answer tail, tr = ⟨.provider .getAccessToken, .ok token⟩ ::
          ⟨.send (client.request call token), answer⟩ :: tail ∧
        GoesOn client call attempt tail r ∧
        ∀ exc, answer = .error exc →
          Coro.Runs (client.onFailure call attempt refreshed exc) tail r := by
  rw [RestClient.requestLoop, Program.getAccessToken, Program.runs_provider] at h
  rcases h with ⟨exc, rfl, -⟩ | ⟨token, rest, rfl, h⟩
  · exact .inl ⟨exc, rfl⟩
  rw [Program.runs_send] at h
  obtain ⟨answer, tail, rfl, h⟩ := h
  refine .inr ⟨token, answer, tail, rfl, ?_⟩
  cases answer with
  | error exc =>
    simp only [dite_eq_ite] at h
    refine ⟨?_, ?_⟩
    · split_ifs at h
      all_goals first
        | exact goesOn_sleep h
        | exact .inl (by rw [h.1]; rfl)
    · rintro _ ⟨⟩
      exact h
  | ok response =>
    refine ⟨?_, by simp⟩
    simp only at h
    split_ifs at h with h401 hsuccess hambiguous hretry
    · rw [Program.forceRefreshAccessToken, Program.runs_provider] at h
      rcases h with ⟨exc, rfl, -⟩ | ⟨token', rest, rfl, h⟩
      · exact .inl rfl
      · exact .inr ⟨[_], rest, true, rfl, rfl, h⟩
    · left
      cases hdecode : RestClient.decode call response with
      | error exc =>
        rw [hdecode] at h
        rw [h.1]
        rfl
      | ok decoded =>
        rw [hdecode] at h
        rw [h.1]
        rfl
    · exact .inl (sends_apiError h)
    · exact goesOn_sleep h
    · exact .inl (sends_apiError h)

/-- A send is not in a stretch without sends. -/
theorem send_behind_gap {gap rest before after : Trace Op Op.Answer} {request : HTTPRequest}
    {answer : Except Exc HTTPResponse} (hgap : sends gap = [])
    (h : gap ++ rest = before ++ ⟨.send request, answer⟩ :: after) :
    ∃ before', before = gap ++ before' ∧ rest = before' ++ ⟨.send request, answer⟩ :: after := by
  refine Trace.behind (fun hmem => ?_) h
  cases List.filterMap_eq_nil_iff.1 hgap _ hmem

/-- **What happens behind a failed send**: it was made at the attempt that the sleeps before it make,
and the loop handles the failure as one of that attempt. -/
theorem runs_behind_failure {client : RestClient} {call : Call} {attempt : ℕ} {refreshed : Bool}
    {before after : Trace Op Op.Answer} {request : HTTPRequest} {exc : Exc}
    {r : Except Exc Json.Dict}
    (h : Coro.Runs (client.requestLoop call attempt refreshed)
      (before ++ ⟨.send request, .error exc⟩ :: after) r) :
    ∃ refreshed', Coro.Runs
      (client.onFailure call (attempt + before.countP isSleep) refreshed' exc) after r := by
  -- the induction is on the length of the trace, which every turn of the loop uses some of
  induction hn : before.length using Nat.strong_induction_on generalizing before attempt refreshed with
  | _ n ih =>
    subst hn
    rcases runs_requestLoop h with ⟨exc', heq⟩ | ⟨token, answer, tail, heq, hon, hfail⟩
    · rcases List.append_eq_singleton_iff.1 heq with ⟨rfl, he⟩ | ⟨rfl, he⟩
      · cases he
      · cases he
    rcases send_mem_turn heq.symm with ⟨rfl, rfl, rfl, rfl⟩ | ⟨before', rfl, htail⟩
    · exact ⟨refreshed, hfail exc rfl⟩
    · rcases hon with hnone | ⟨gap, rest, refreshed', hgap, hsends, hrest⟩
      · rw [htail, sends, List.filterMap_append] at hnone
        simp [sentRequest] at hnone
      · obtain ⟨before'', rfl, rfl⟩ := send_behind_gap hsends (hgap.symm.trans htail)
        obtain ⟨refreshed'', hdone⟩ := ih before''.length (by simp; omega) hrest rfl
        have hcount : (⟨.provider .getAccessToken, .ok token⟩ ::
            ⟨.send (client.request call token), answer⟩ :: (gap ++ before'') :
              Trace Op Op.Answer).countP isSleep =
            gap.countP isSleep + before''.countP isSleep := by
          simp [isSleep]
        refine ⟨refreshed'', ?_⟩
        rw [hcount, ← Nat.add_assoc]
        exact hdone

/-! ## The drops that are handled -/

/-- A retry follows: at most a random number is drawn, then the loop sleeps, and where the sleep
returns it starts over with a token. -/
def Retried (after : Trace Op Op.Answer) : Prop :=
  ∃ draws delay answer rest, after = draws ++ ⟨.sleep delay, answer⟩ :: rest ∧
    (∀ event ∈ draws, event.op.IsDraw) ∧
    (answer = .ok () → ∃ token rest', rest = ⟨.provider .getAccessToken, token⟩ :: rest')

/-- A failed send is handled: a write ends in `AmbiguousOrderState`, and a read is retried or ends
in `RetryExhausted`. -/
def DropHandled (call : Call) (after : Trace Op Op.Answer) (r : Except Exc Json.Dict) : Prop :=
  if call.retrySafe then
    Retried after ∨ ∃ exc, r = .error exc ∧ exc.isRetryExhausted = true
  else ∃ exc, r = .error exc ∧ exc.isAmbiguous = true

theorem starts_with_token {client : RestClient} {call : Call} {attempt : ℕ} {refreshed : Bool}
    {tr : Trace Op Op.Answer} {r : Except Exc Json.Dict}
    (h : Coro.Runs (client.requestLoop call attempt refreshed) tr r) :
    ∃ token rest, tr = ⟨.provider .getAccessToken, token⟩ :: rest := by
  rcases runs_requestLoop h with ⟨exc, rfl⟩ | ⟨token, answer, tail, rfl, -⟩
  · exact ⟨_, _, rfl⟩
  · exact ⟨_, _, rfl⟩

/-- A retry delay is slept, unless it is too large to compute. -/
theorem retried_iff {client : RestClient} {call : Call} {attempt : ℕ} {refreshed : Bool}
    {after : Trace Op Op.Answer} {r : Except Exc Json.Dict}
    (h : Coro.Runs (client.sleep attempt >>= fun _ =>
      client.requestLoop call (attempt + 1) refreshed) after r) (hattempt : 0 < attempt) :
    (Retried after ∨ ∃ exc, r = .error exc ∧ exc.isRetryExhausted = true) ↔ attempt ≤ 1024 := by
  have notRetried : ∀ {draws : Trace Op Op.Answer}, (∀ event ∈ draws, event.op.IsDraw) →
      ¬Retried draws := by
    rintro draws hdraws ⟨_, delay, answer, rest, rfl, -⟩
    exact hdraws ⟨.sleep delay, answer⟩ (by simp)
  rw [Coro.runs_bind] at h
  rcases h with ⟨exc, hsleep, rfl⟩ | ⟨_, gap, rest, rfl, hsleep, h⟩
  · obtain ⟨draws, hdraws, ⟨rfl, he, hlarge⟩ | ⟨delay, rfl, hsmall⟩⟩ := runs_sleep hsleep
    · cases he
      rw [delayOverflows_none] at hlarge
      refine iff_of_false ?_ (by omega)
      rintro (hretried | ⟨_, ⟨⟩, he⟩)
      · exact notRetried hdraws hretried
      · cases he
    · rw [delayOverflows_none] at hsmall
      exact iff_of_true (.inl ⟨draws, delay, _, [], rfl, hdraws, by simp⟩) (by omega)
  · obtain ⟨draws, hdraws, ⟨-, he, -⟩ | ⟨delay, rfl, hsmall⟩⟩ := runs_sleep hsleep
    · cases he
    · rw [delayOverflows_none] at hsmall
      refine iff_of_true (.inl ⟨draws, delay, .ok (), rest, by simp, hdraws, fun _ => ?_⟩)
        (by omega)
      exact starts_with_token h

section
variable {client : RestClient} {call : Call} {before after : Trace Op Op.Answer} {request : HTTPRequest}
  {exc : Exc} {r : Except Exc Json.Dict}

/-- **What the loop handles of a send that raises**: a transport error, unless it would retry a read and the
delay is too large to compute. -/
theorem failed_send_handled_iff
    (hrun : Coro.Runs (client.requestJson call) (before ++ ⟨.send request, .error exc⟩ :: after) r)
    (hambiguous : exc.isAmbiguous = false) (hexhausted : exc.isRetryExhausted = false) :
    DropHandled call after r ↔ exc.isTransportError = true ∧
      (call.retrySafe = true → client.retryPolicy.maxAttempts ≤ 1 + before.countP isSleep ∨
        1 + before.countP isSleep ≤ 1024) := by
  obtain ⟨refreshed, hfail⟩ := runs_behind_failure hrun
  unfold RestClient.onFailure at hfail
  by_cases htransport : exc.isTransportError = true
  · rw [if_neg (by simp [htransport])] at hfail
    rw [and_iff_right htransport]
    cases hsafe : call.retrySafe with
    | false =>
      rw [if_pos hsafe] at hfail
      obtain ⟨rfl, rfl⟩ := hfail
      simp [DropHandled, hsafe, isAmbiguous_ambiguous]
    | true =>
      rw [if_neg (by simp [hsafe])] at hfail
      simp only [DropHandled, hsafe, if_true, true_implies]
      by_cases hlast : client.retryPolicy.maxAttempts ≤ (1 + before.countP isSleep : ℕ)
      · rw [if_pos hlast] at hfail
        obtain ⟨rfl, rfl⟩ := hfail
        exact iff_of_true (.inr ⟨_, rfl, rfl⟩) (.inl (by exact_mod_cast hlast))
      · rw [if_neg hlast] at hfail
        rw [retried_iff hfail (by omega), or_iff_right (by exact_mod_cast hlast)]
  · -- what is no transport error leaves the loop as it is
    rw [if_pos (by simpa using htransport)] at hfail
    obtain ⟨rfl, rfl⟩ := hfail
    refine iff_of_false ?_ fun h => htransport h.1
    unfold DropHandled
    split_ifs
    · rintro (⟨draws, delay, answer, rest, h, -⟩ | ⟨_, ⟨⟩, h⟩)
      · simp at h
      · simp [hexhausted] at h
    · rintro ⟨_, ⟨⟩, h⟩
      simp [hambiguous] at h

/-- What is no transport error leaves the loop as it is. -/
theorem failed_send_escapes
    (hrun : Coro.Runs (client.requestJson call) (before ++ ⟨.send request, .error exc⟩ :: after) r)
    (hother : exc.isTransportError = false) : after = [] ∧ r = .error exc := by
  obtain ⟨refreshed, hfail⟩ := runs_behind_failure hrun
  rw [RestClient.onFailure, if_pos hother] at hfail
  exact hfail

end

/-- **The drops that are handled, end to end.** A call sent with `UrllibAsyncTransport` handles a
drop exactly if it was an `OSError` outside the body of an `HTTPError`; and for a read, unless
the delay of a next attempt is too large to compute. -/
theorem urllib_drop_handled_iff (client : RestClient) (call : Call) (urlopen : Urlopen)
    {before after : Trace Op Op.Answer} {request : HTTPRequest} {e : LibExc}
    {r : Except Exc Json.Dict}
    (hrun : Coro.Runs (client.requestJson call)
      (before ++ ⟨.send request, sendSync client.lib urlopen request⟩ :: after) r)
    (hdrop : Dropped (urlopen (urllibRequest client.lib request) request.timeoutSeconds) e) :
    DropHandled call after r ↔
      (e.isOSError = true ∧
        ¬InErrorBody (urlopen (urllibRequest client.lib request) request.timeoutSeconds)) ∧
      (call.retrySafe = true → client.retryPolicy.maxAttempts ≤ 1 + before.countP isSleep ∨
        1 + before.countP isSleep ≤ 1024) := by
  obtain ⟨exc, hexc, hambiguous, hexhausted, hmapped⟩ := sendSync_dropped hdrop
  rw [hexc] at hrun
  rw [failed_send_handled_iff hrun hambiguous hexhausted, hmapped]

/-- A connection that is cut in the middle of the body of a 200. -/
def cutBody : Urlopen := fun _ _ =>
  .opened 200 [] (.error (.httpException (str "IncompleteRead(3 bytes read)")))

/-- A submission over a connection that is cut so. -/
def submitCall : Call where
  method := str "POST"
  path := str "/orderexecution/orders"
  payload := some []
  retrySafe := false
  ambiguousOperation := some (str "submit order")

theorem runs_cutBody :
    Coro.Runs (simClient.requestJson submitCall)
      ([⟨.provider .getAccessToken, .ok (str "T")⟩] ++
        ⟨.send (simClient.request submitCall (str "T")),
          sendSync simClient.lib cutBody (simClient.request submitCall (str "T"))⟩ :: [])
      (.error (.library (.httpException (str "IncompleteRead(3 bytes read)")))) := by
  rw [RestClient.requestJson, RestClient.requestLoop, Program.getAccessToken,
    Program.runs_provider]
  refine .inr ⟨_, _, rfl, ?_⟩
  rw [Program.runs_send]
  refine ⟨_, _, rfl, ?_⟩
  exact ⟨rfl, rfl⟩

/-- The `IncompleteRead` of a body that is cut off comes out of a submission as it is. -/
theorem cutBody_not_handled :
    ∃ before after request r, Coro.Runs (simClient.requestJson submitCall)
        (before ++ ⟨.send request, sendSync simClient.lib cutBody request⟩ :: after) r ∧
      Dropped (cutBody (urllibRequest simClient.lib request) request.timeoutSeconds)
        (.httpException (str "IncompleteRead(3 bytes read)")) ∧
      ¬DropHandled submitCall after r := by
  refine ⟨_, _, _, _, runs_cutBody, .inr (.inl ⟨200, [], rfl⟩), ?_⟩
  rintro ⟨_, ⟨⟩, h⟩
  cases h

theorem urllib_drop_handled_iff_cutBody :
    DropHandled submitCall []
        (.error (.library (.httpException (str "IncompleteRead(3 bytes read)")))) ↔
      (LibExc.isOSError (.httpException (str "IncompleteRead(3 bytes read)")) = true ∧
        ¬InErrorBody (cutBody (urllibRequest simClient.lib
          (simClient.request submitCall (str "T"))) 30)) ∧
      (submitCall.retrySafe = true → simClient.retryPolicy.maxAttempts ≤ 1 + (0 : ℕ) ∨
        1 + 0 ≤ 1024) :=
  urllib_drop_handled_iff simClient submitCall cutBody runs_cutBody (.inr (.inl ⟨200, [], rfl⟩))

end TradeStation
