import TradeStation.Auth.Rotation
import TradeStation.Python.Queries

/-!
# The loopback login

`authorize_with_loopback`. The server takes one request at a time, and the handler leaves in the
callback a code or an error, at which the loop ends; a request to another path leaves nothing, and
neither does one whose target cannot be parsed. What follows is the exchange of the code, or an error.

* `firstCallback`: what the first request to the callback path asks.
* `loopback_verdict`: the login exchanges a code exactly when that request has the expected state, no
  error, and the code.
-/

namespace TradeStation

open Python Foundations

/-- `PKCEPair`. -/
structure PKCEPair where
  verifier : PyStr
  challenge : PyStr

/-- `AUTHORIZATION_URL`. -/
def authorizationEndpoint : PyStr := str "https://signin.tradestation.com/authorize"

/-- `authorization_url`; `none` where `urlencode` raises. -/
def OAuthManager.authorizationUrl (manager : OAuthManager) (scopes : List PyStr) (state : PyStr)
    (pkce : Option PKCEPair) : Option PyStr :=
  let query :=
    [(str "audience", str "https://api.tradestation.com"), (str "client_id", manager.clientId),
      (str "redirect_uri", manager.redirectUri), (str "response_type", str "code"),
      (str "scope", join (str " ") scopes), (str "state", state)] ++
    match pkce with
    | none => []
    | some pkce =>
      [(str "code_challenge", pkce.challenge), (str "code_challenge_method", str "S256")]
  (urlencode query).map fun query => authorizationEndpoint ++ str "?" ++ query

/-! ## The handler -/

/-- `_LoopbackCallback`. -/
structure LoopbackCallback where
  expectedState : PyStr
  authorizationCode : Option PyStr := none
  error : Option PyStr := none

/-- `_write_response`. -/
structure LoopbackResponse where
  statusCode : ℤ
  body : PyStr

/-- `_first_query_value`. -/
def firstQueryValue (query : Query) (key : PyStr) : Option PyStr :=
  match query.get key with
  | some (value :: _) => some value
  | _ => none

/-- `do_GET`, for that `self.path`. Where `urlparse` raises, the server goes on without a response. -/
def doGet (checkNetloc : PyStr → Bool) (callbackPath : PyStr) (callback : LoopbackCallback)
    (path : PyStr) : LoopbackCallback × Option LoopbackResponse :=
  match urlparse checkNetloc path with
  | none => (callback, none)
  | some parsed =>
    if parsed.path ≠ callbackPath then (callback, some ⟨404, str "Not found"⟩)
    else
      let query := parseQs parsed.query
      if firstQueryValue query (str "state") ≠ some callback.expectedState then
        ({ callback with error := some (str "OAuth state did not match") },
          some ⟨400, str "OAuth state did not match"⟩)
      else
        match (firstQueryValue query (str "error")).filter (· ≠ []) with
        | some providerError =>
          ({ callback with error := some providerError },
            some ⟨400, str "OAuth provider returned an error"⟩)
        | none =>
          match (firstQueryValue query (str "code")).filter (· ≠ []) with
          | none =>
            ({ callback with error := some (str "OAuth callback did not include an authorization code") },
              some ⟨400, str "Missing authorization code"⟩)
          | some authorizationCode =>
            ({ callback with authorizationCode := some authorizationCode },
              some ⟨200, str "Authorization complete. You can close this window."⟩)

/-! ## The loop -/

/-- A turn of the loop: what the clock shows at its head, and the request that `handle_request` takes,
if one comes before its timeout. -/
structure LoopbackPoll where
  now : ℚ
  request : Option PyStr

/-- What a loop leaves: the callback, the responses, and the turns that it did not take. -/
structure LoopbackServed where
  callback : LoopbackCallback
  responses : List LoopbackResponse := []
  unserved : List LoopbackPoll

/-- The `while` loop; `none` while it waits for a turn beyond those given. -/
def serveLoopback (checkNetloc : PyStr → Bool) (callbackPath : PyStr) (deadline : ℚ) :
    List LoopbackPoll → LoopbackCallback → Option LoopbackServed
  | polls, callback =>
    if callback.authorizationCode.isSome ∨ callback.error.isSome then
      some { callback, unserved := polls }
    else
      match polls with
      | [] => none
      | poll :: polls =>
        if deadline ≤ poll.now then some { callback, unserved := polls }
        else
          match poll.request with
          | none => serveLoopback checkNetloc callbackPath deadline polls callback
          | some path =>
            let (callback', response) := doGet checkNetloc callbackPath callback path
            (serveLoopback checkNetloc callbackPath deadline polls callback').map fun served =>
              { served with responses := response.toList ++ served.responses }

/-! ## The login -/

/-- The arguments of `authorize_with_loopback`, less the address of the server. -/
structure LoopbackArguments where
  state : Option PyStr := none
  pkce : Option PKCEPair := none
  callbackPath : PyStr := str "/callback"
  openBrowser : Bool := true
  timeoutSeconds : ℚ := 300

/-- `secrets.token_urlsafe(24)` and `create_pkce_pair()`. -/
structure LoopbackSecrets where
  state : PyStr
  pkce : PKCEPair

/-- `state_value`. -/
def LoopbackArguments.stateValue (arguments : LoopbackArguments) (fresh : LoopbackSecrets) : PyStr :=
  (arguments.state.filter (· ≠ [])).getD fresh.state

/-- `pkce_value`. -/
def LoopbackArguments.pkceValue (arguments : LoopbackArguments) (fresh : LoopbackSecrets) : PKCEPair :=
  arguments.pkce.getD fresh.pkce

/-- What a login does: the URL, which the browser gets if it is opened, the responses of the server,
the turns that the loop did not take, and what is left to do behind it. -/
structure LoopbackLogin where
  authorizationUrl : PyStr
  browser : Option PyStr
  responses : List LoopbackResponse
  unserved : List LoopbackPoll
  program : TokenProgram OAuthToken

namespace OAuthManager

variable (manager : OAuthManager)

/-- What follows the loop. -/
def finishLoopback (callback : LoopbackCallback) (pkce : PKCEPair) : TokenProgram OAuthToken :=
  match callback.error with
  | some error => throw (.authentication 0 (str "OAuthCallbackError") error none)
  | none =>
    match callback.authorizationCode with
    | none =>
      throw (.authentication 0 (str "OAuthCallbackTimeout") (str "OAuth callback was not received")
        none)
    | some authorizationCode =>
      manager.exchangeAuthorizationCode authorizationCode (some pkce.verifier)

/-- `authorize_with_loopback`, whose clock shows `start` where the deadline is set; `none` where there
is no URL, or while the loop goes on. -/
def authorizeWithLoopback (scopes : List PyStr) (checkNetloc : PyStr → Bool)
    (arguments : LoopbackArguments) (fresh : LoopbackSecrets) (start : ℚ)
    (polls : List LoopbackPoll) : Option LoopbackLogin := do
  let state := arguments.stateValue fresh
  let pkce := arguments.pkceValue fresh
  let authorizationUrl ← manager.authorizationUrl scopes state (some pkce)
  let deadline := start + arguments.timeoutSeconds
  let served ← serveLoopback checkNetloc arguments.callbackPath deadline polls { expectedState := state }
  return {
    authorizationUrl
    browser := if arguments.openBrowser then some authorizationUrl else none
    responses := served.responses
    unserved := served.unserved
    program := manager.finishLoopback served.callback pkce }

end OAuthManager

/-! ## What is meant -/

/-- The pairs of the query, if the request is one to the callback path. -/
def callbackPairs (checkNetloc : PyStr → Bool) (callbackPath path : PyStr) :
    Option (List (PyStr × PyStr)) :=
  ((urlparse checkNetloc path).filter fun parsed => parsed.path = callbackPath).map fun parsed =>
    parseQsl parsed.query

/-- What the turn asks of the callback path, if anything. -/
def LoopbackPoll.callback (checkNetloc : PyStr → Bool) (callbackPath : PyStr) (poll : LoopbackPoll) :
    Option (List (PyStr × PyStr)) :=
  poll.request.bind (callbackPairs checkNetloc callbackPath)

/-- What the first request to the callback path asks. -/
def firstCallback (checkNetloc : PyStr → Bool) (callbackPath : PyStr) (polls : List LoopbackPoll) :
    Option (List (PyStr × PyStr)) :=
  polls.findSome? (LoopbackPoll.callback checkNetloc callbackPath)

/-- The query grants that code to whoever expects that state. -/
structure Grants (expectedState : PyStr) (pairs : List (PyStr × PyStr)) (code : PyStr) : Prop where
  hasState : (valuesOf pairs (str "state")).head? = some expectedState
  noError : ∀ value ∈ valuesOf pairs (str "error"), value = []
  hasCode : (valuesOf pairs (str "code")).head? = some code
  nonempty : code ≠ []

/-- **A login accepts only its own callback.** -/
structure LoopbackVerdict (manager : OAuthManager) (verifier expectedState : PyStr)
    (callback : Option (List (PyStr × PyStr))) (program : TokenProgram OAuthToken) : Prop where
  /-- It goes on with the exchange of a code exactly when the callback grants that code. -/
  exchanges : ∀ code, program = manager.exchangeAuthorizationCode code (some verifier) ↔
    ∃ pairs, callback = some pairs ∧ Grants expectedState pairs code
  /-- Then the first thing it does is to send the code with the verifier. -/
  sends : ∀ pairs code, callback = some pairs → Grants expectedState pairs code →
    ∀ tr r, Coro.Runs program tr r → ∃ answer rest,
      tr = ⟨.send (manager.codeRequest code (some verifier)), answer⟩ :: rest
  /-- Otherwise it raises `AuthenticationError`, and nothing else. -/
  refuses : (∀ pairs code, callback = some pairs → ¬Grants expectedState pairs code) →
    ∀ tr r, Coro.Runs program tr r →
      tr = [] ∧ ∃ error message, r = .error (.authentication 0 error message none)

/-! ## The handler is right -/

section
variable {checkNetloc : PyStr → Bool} {callbackPath : PyStr} {callback : LoopbackCallback}

theorem firstQueryValue_parseQs (qs key : PyStr) :
    firstQueryValue (parseQs qs) key = (valuesOf (parseQsl qs) key).head? := by
  rw [firstQueryValue, get_parseQs]
  cases hvalues : valuesOf (parseQsl qs) key <;> simp

/-- No value that is read is empty. -/
theorem filter_head_valuesOf (qs key : PyStr) :
    (valuesOf (parseQsl qs) key).head?.filter (· ≠ []) = (valuesOf (parseQsl qs) key).head? := by
  cases hvalue : (valuesOf (parseQsl qs) key).head? with
  | none => rfl
  | some value =>
    have hne := valuesOf_ne_nil (List.mem_of_head? hvalue)
    simp [hne]

/-- A request elsewhere leaves nothing. -/
theorem doGet_elsewhere {path : PyStr} (h : callbackPairs checkNetloc callbackPath path = none) :
    (doGet checkNetloc callbackPath callback path).1 = callback := by
  rw [doGet]
  rw [callbackPairs] at h
  cases hparsed : urlparse checkNetloc path with
  | none => rfl
  | some parsed =>
    have helsewhere : parsed.path ≠ callbackPath := by simpa [hparsed] using h
    simp [helsewhere]

/-- Where a callback asks for these pairs, this is left: the code that they grant, or else an error. -/
def LoopbackCallback.Leaves (callback : LoopbackCallback) (pairs : List (PyStr × PyStr))
    (left : LoopbackCallback) : Prop :=
  (∃ code, Grants callback.expectedState pairs code ∧
    left = { callback with authorizationCode := some code }) ∨
  (∀ code, ¬Grants callback.expectedState pairs code) ∧
    ∃ message, left = { callback with error := some message }

/-- **A request to the callback path leaves the code that it grants, or else an error.** -/
theorem doGet_callback (callback : LoopbackCallback) {path : PyStr} {pairs : List (PyStr × PyStr)}
    (h : callbackPairs checkNetloc callbackPath path = some pairs) :
    callback.Leaves pairs (doGet checkNetloc callbackPath callback path).1 := by
  rw [callbackPairs] at h
  obtain ⟨parsed, hparsed, rfl⟩ := Option.map_eq_some_iff.1 h
  obtain ⟨hparsed, hpath⟩ := Option.filter_eq_some_iff.1 hparsed
  have hpath : ¬parsed.path ≠ callbackPath := by simpa using hpath
  rw [doGet]
  simp only [hparsed, if_neg hpath, firstQueryValue_parseQs, filter_head_valuesOf]
  by_cases hstate : (valuesOf (parseQsl parsed.query) (str "state")).head? =
      some callback.expectedState
  · rw [if_neg (not_not.2 hstate)]
    cases herror : (valuesOf (parseQsl parsed.query) (str "error")).head? with
    | some providerError =>
      refine .inr ⟨fun code hgrants => ?_, providerError, rfl⟩
      have hmem := List.mem_of_head? herror
      exact valuesOf_ne_nil hmem (hgrants.noError _ hmem)
    | none =>
      cases hcode : (valuesOf (parseQsl parsed.query) (str "code")).head? with
      | none =>
        refine .inr ⟨fun code hgrants => ?_, _, rfl⟩
        have hgranted := hgrants.hasCode
        rw [hcode] at hgranted
        cases hgranted
      | some code =>
        have hnone : ∀ value ∈ valuesOf (parseQsl parsed.query) (str "error"), value = [] := by
          rw [List.head?_eq_none_iff.1 herror]
          simp
        have hne := valuesOf_ne_nil (List.mem_of_head? hcode)
        exact .inl ⟨code, ⟨hstate, hnone, hcode, hne⟩, rfl⟩
  · rw [if_pos hstate]
    exact .inr ⟨fun code hgrants => hstate hgrants.hasState, _, rfl⟩

end

/-! ## The loop is right -/

section
variable {checkNetloc : PyStr → Bool} {callbackPath : PyStr} {deadline : ℚ}

/-- Nothing has come yet. -/
def LoopbackCallback.Open (callback : LoopbackCallback) : Prop :=
  callback.authorizationCode = none ∧ callback.error = none

variable {callback : LoopbackCallback} {polls : List LoopbackPoll} {poll : LoopbackPoll}

/-- What has come ends the loop. -/
theorem serveLoopback_closed
    (h : callback.authorizationCode.isSome ∨ callback.error.isSome) :
    serveLoopback checkNetloc callbackPath deadline polls callback =
      some { callback, unserved := polls } := by
  cases polls <;> rw [serveLoopback, if_pos h]

theorem LoopbackCallback.Open.not_closed (h : callback.Open) :
    ¬(callback.authorizationCode.isSome ∨ callback.error.isSome) := by
  simp [h.1, h.2]

/-- The deadline ends it. -/
theorem serveLoopback_late (hopen : callback.Open) (hlate : deadline ≤ poll.now) :
    serveLoopback checkNetloc callbackPath deadline (poll :: polls) callback =
      some { callback, unserved := polls } := by
  rw [serveLoopback, if_neg hopen.not_closed]
  simp only [if_pos hlate]

/-- A turn that asks nothing of the callback path changes nothing but the responses. -/
theorem serveLoopback_elsewhere (polls : List LoopbackPoll) (hopen : callback.Open)
    (hearly : poll.now < deadline) (helsewhere : poll.callback checkNetloc callbackPath = none) :
    ∃ response, serveLoopback checkNetloc callbackPath deadline (poll :: polls) callback =
      (serveLoopback checkNetloc callbackPath deadline polls callback).map fun served =>
        { served with responses := response ++ served.responses } := by
  rw [serveLoopback, if_neg hopen.not_closed]
  simp only [if_neg (not_le.2 hearly)]
  cases hrequest : poll.request with
  | none => exact ⟨[], by simp⟩
  | some path =>
    have hpairs : callbackPairs checkNetloc callbackPath path = none := by
      simpa [LoopbackPoll.callback, hrequest] using helsewhere
    refine ⟨(doGet checkNetloc callbackPath callback path).2.toList, ?_⟩
    simp only [doGet_elsewhere hpairs]

/-- A turn that asks anything of it is the last one. -/
theorem serveLoopback_callback (polls : List LoopbackPoll) (hopen : callback.Open)
    (hearly : poll.now < deadline) {pairs : List (PyStr × PyStr)}
    (hcallback : poll.callback checkNetloc callbackPath = some pairs) :
    ∃ served, serveLoopback checkNetloc callbackPath deadline (poll :: polls) callback = some served ∧
      served.unserved = polls ∧ callback.Leaves pairs served.callback := by
  obtain ⟨path, hrequest, hpairs⟩ := Option.bind_eq_some_iff.1 hcallback
  rw [serveLoopback, if_neg hopen.not_closed]
  simp only [if_neg (not_le.2 hearly), hrequest]
  rcases doGet_callback callback hpairs with
    ⟨code, hgrants, hleft⟩ | ⟨hrefused, message, hleft⟩
  · rw [hleft, serveLoopback_closed (.inl rfl), Option.map_some]
    exact ⟨_, rfl, rfl, .inl ⟨code, hgrants, rfl⟩⟩
  · rw [hleft, serveLoopback_closed (.inr rfl), Option.map_some]
    exact ⟨_, rfl, rfl, .inr ⟨hrefused, message, rfl⟩⟩

/-- **The loop ends at the first request to the callback path, or at the deadline.** -/
theorem serveLoopback_first (checkNetloc : PyStr → Bool) (callbackPath : PyStr)
    (hopen : callback.Open) {last : LoopbackPoll} (hlast : deadline ≤ last.now)
    (hearly : ∀ poll ∈ polls, poll.now < deadline) :
    ∃ served, serveLoopback checkNetloc callbackPath deadline (polls ++ [last]) callback =
        some served ∧
      (firstCallback checkNetloc callbackPath polls = none → served.callback = callback) ∧
      ∀ pairs, firstCallback checkNetloc callbackPath polls = some pairs →
        (∃ before poll after, polls = before ++ poll :: after ∧
          (∀ poll ∈ before, poll.callback checkNetloc callbackPath = none) ∧
          poll.callback checkNetloc callbackPath = some pairs ∧
          served.unserved = after ++ [last]) ∧
        callback.Leaves pairs served.callback := by
  induction polls with
  | nil => exact ⟨_, serveLoopback_late hopen hlast, fun _ => rfl, fun _ h => nomatch h⟩
  | cons poll polls ih =>
    have hpoll := hearly poll List.mem_cons_self
    cases hcallback : poll.callback checkNetloc callbackPath with
    | none =>
      have hfirst : firstCallback checkNetloc callbackPath (poll :: polls) =
          firstCallback checkNetloc callbackPath polls := by
        rw [firstCallback, List.findSome?_cons, hcallback]
        rfl
      obtain ⟨served, hserved, hnone, hsome⟩ :=
        ih fun poll hpoll => hearly poll (List.mem_cons_of_mem _ hpoll)
      obtain ⟨response, hresponse⟩ :=
        serveLoopback_elsewhere (polls ++ [last]) hopen hpoll hcallback
      rw [hserved, Option.map_some] at hresponse
      refine ⟨_, hresponse, fun h => hnone (hfirst ▸ h), fun pairs h => ?_⟩
      obtain ⟨⟨before, poll', after, rfl, hbefore, hpoll', hunserved⟩, hleft⟩ :=
        hsome pairs (hfirst ▸ h)
      refine ⟨⟨poll :: before, poll', after, rfl, ?_, hpoll', hunserved⟩, hleft⟩
      intro other hother
      rcases List.mem_cons.1 hother with rfl | hother
      · exact hcallback
      · exact hbefore other hother
    | some pairs =>
      have hfirst : firstCallback checkNetloc callbackPath (poll :: polls) = some pairs := by
        rw [firstCallback, List.findSome?_cons, hcallback]
      obtain ⟨served, hserved, hunserved, hleft⟩ :=
        serveLoopback_callback (polls ++ [last]) hopen hpoll hcallback
      refine ⟨served, hserved, fun h => ?_, fun pairs' h => ?_⟩
      · rw [hfirst] at h
        cases h
      · obtain rfl : pairs = pairs' := Option.some.inj (hfirst.symm.trans h)
        exact ⟨⟨[], poll, polls, rfl, by simp, hcallback, hunserved⟩, hleft⟩

end

/-! ## The login is right -/

section
variable {manager : OAuthManager} {pkce : PKCEPair} {callback : LoopbackCallback}

theorem exchangeAuthorizationCode_inj {a b : PyStr} {verifier : Option PyStr}
    (h : manager.exchangeAuthorizationCode a verifier = manager.exchangeAuthorizationCode b verifier) :
    a = b := by
  unfold OAuthManager.exchangeAuthorizationCode TokenProgram.send at h
  injection h with hop
  injection hop with hrequest
  simpa [OAuthManager.codeRequest] using hrequest

/-- An exchange starts with its request. -/
theorem sends_of_exchange {code : PyStr} {verifier : Option PyStr}
    {tr : Trace TokenOp TokenOp.Answer} {r : Except Exc OAuthToken}
    (h : Coro.Runs (manager.exchangeAuthorizationCode code verifier) tr r) :
    ∃ answer rest, tr = ⟨.send (manager.codeRequest code verifier), answer⟩ :: rest := by
  unfold OAuthManager.exchangeAuthorizationCode TokenProgram.send at h
  obtain ⟨answer, rest, rfl, -⟩ := h
  exact ⟨answer, rest, rfl⟩

/-- An exchange is no exception. -/
theorem exchange_ne_raise {code : PyStr} {verifier : Option PyStr} {exc : Exc} :
    (throw exc : TokenProgram OAuthToken) ≠ manager.exchangeAuthorizationCode code verifier := by
  unfold OAuthManager.exchangeAuthorizationCode TokenProgram.send
  intro h
  cases h

theorem verdict_of_raise {verifier expectedState : PyStr} {asked : Option (List (PyStr × PyStr))}
    {error message : PyStr}
    (hrefused : ∀ pairs code, asked = some pairs → ¬Grants expectedState pairs code) :
    LoopbackVerdict manager verifier expectedState asked
      (throw (.authentication 0 error message none)) := by
  refine ⟨fun code => ⟨fun h => absurd h exchange_ne_raise, ?_⟩, ?_, ?_⟩
  · rintro ⟨pairs, hasked, hgrants⟩
    exact absurd hgrants (hrefused pairs code hasked)
  · intro pairs code hasked hgrants
    exact absurd hgrants (hrefused pairs code hasked)
  · rintro - tr r ⟨rfl, rfl⟩
    exact ⟨rfl, error, message, rfl⟩

theorem verdict_of_exchange {verifier expectedState : PyStr} {pairs : List (PyStr × PyStr)}
    {code : PyStr} (hgrants : Grants expectedState pairs code) :
    LoopbackVerdict manager verifier expectedState (some pairs)
      (manager.exchangeAuthorizationCode code (some verifier)) := by
  have hcode : ∀ code', Grants expectedState pairs code' → code' = code := fun code' h =>
    Option.some.inj (h.hasCode.symm.trans hgrants.hasCode)
  refine ⟨fun code' => ⟨fun h => ?_, ?_⟩, ?_, fun h => absurd hgrants (h pairs code rfl)⟩
  · obtain rfl := exchangeAuthorizationCode_inj h
    exact ⟨pairs, rfl, hgrants⟩
  · rintro ⟨_, ⟨⟩, hgrants'⟩
    rw [hcode code' hgrants']
  · rintro _ code' ⟨⟩ hgrants' tr r hruns
    rw [hcode code' hgrants']
    exact sends_of_exchange hruns

end

/-- **A loopback login exchanges a code exactly when the first request to the callback path grants it**,
with the verifier to the challenge of its URL, and otherwise raises `AuthenticationError` and sends
nothing. Requests to other paths and requests behind the first one make no difference, and the latter
are not served. -/
theorem loopback_verdict (manager : OAuthManager) (scopes : List PyStr) (checkNetloc : PyStr → Bool)
    (arguments : LoopbackArguments) (fresh : LoopbackSecrets) (start : ℚ) {authorizationUrl : PyStr}
    (hurl : manager.authorizationUrl scopes (arguments.stateValue fresh)
      (some (arguments.pkceValue fresh)) = some authorizationUrl)
    {polls : List LoopbackPoll} {last : LoopbackPoll}
    (hearly : ∀ poll ∈ polls, poll.now < start + arguments.timeoutSeconds)
    (hlast : start + arguments.timeoutSeconds ≤ last.now) :
    ∃ login, manager.authorizeWithLoopback scopes checkNetloc arguments fresh start (polls ++ [last]) =
        some login ∧
      login.authorizationUrl = authorizationUrl ∧
      LoopbackVerdict manager (arguments.pkceValue fresh).verifier (arguments.stateValue fresh)
        (firstCallback checkNetloc arguments.callbackPath polls) login.program ∧
      ∀ pairs, firstCallback checkNetloc arguments.callbackPath polls = some pairs →
        ∃ before poll after, polls = before ++ poll :: after ∧
          (∀ poll ∈ before, poll.callback checkNetloc arguments.callbackPath = none) ∧
          poll.callback checkNetloc arguments.callbackPath = some pairs ∧
          login.unserved = after ++ [last] := by
  have hopen : LoopbackCallback.Open { expectedState := arguments.stateValue fresh } := ⟨rfl, rfl⟩
  obtain ⟨served, hserved, hnone, hsome⟩ :=
    serveLoopback_first checkNetloc arguments.callbackPath hopen hlast hearly
  set login : LoopbackLogin :=
    { authorizationUrl
      browser := if arguments.openBrowser then some authorizationUrl else none
      responses := served.responses
      unserved := served.unserved
      program := manager.finishLoopback served.callback (arguments.pkceValue fresh) }
  refine ⟨login, ?_, rfl, ?_, fun pairs hfirst => (hsome pairs hfirst).1⟩
  · rw [OAuthManager.authorizeWithLoopback, hurl]
    simp only [Option.bind_eq_bind, Option.bind_some, hserved]
    rfl
  · show LoopbackVerdict _ _ _ _ (manager.finishLoopback served.callback (arguments.pkceValue fresh))
    cases hfirst : firstCallback checkNetloc arguments.callbackPath polls with
    | none =>
      rw [hnone hfirst]
      exact verdict_of_raise (by simp)
    | some pairs =>
      obtain ⟨-, ⟨code, hgrants, hleft⟩ | ⟨hrefused, message, hleft⟩⟩ := hsome pairs hfirst
      · rw [hleft]
        exact verdict_of_exchange hgrants
      · rw [hleft]
        refine verdict_of_raise ?_
        rintro _ code ⟨⟩
        exact hrefused code

/-- A browser that looks for an icon first. -/
def iconPolls : List LoopbackPoll :=
  [⟨0, some (str "/favicon.ico")⟩, ⟨1, none⟩, ⟨2, some (str "/callback?code=x&state=s")⟩]

/-- What is drawn at random. -/
def simSecrets : LoopbackSecrets := ⟨str "t", ⟨str "v", str "c"⟩⟩

/-- The icon is not found, and the code is exchanged with the verifier. -/
theorem loopback_verdict_icon : ∃ authorizationUrl login,
    simManager.authorizationUrl [] (str "s") (some simSecrets.pkce) = some authorizationUrl ∧
    simManager.authorizeWithLoopback [] (fun _ => true) { state := some (str "s") } simSecrets 0
      (iconPolls ++ [⟨300, none⟩]) = some login ∧
    login.program = simManager.exchangeAuthorizationCode (str "x") (some (str "v")) := by
  obtain ⟨authorizationUrl, hurl⟩ := Option.isSome_iff_exists.1 (by decide +kernel :
    (simManager.authorizationUrl [] (str "s") (some simSecrets.pkce)).isSome = true)
  have hearly : ∀ poll ∈ iconPolls, poll.now < 0 + 300 := by decide +kernel
  have hlast : (0 + 300 : ℚ) ≤ (LoopbackPoll.mk 300 none).now := by decide +kernel
  obtain ⟨login, hlogin, -, hverdict, -⟩ := loopback_verdict simManager [] (fun _ => true)
    { state := some (str "s") } simSecrets 0 hurl hearly hlast
  have hfirst : firstCallback (fun _ => true) (str "/callback") iconPolls =
      some [(str "code", str "x"), (str "state", str "s")] := by decide +kernel
  have hgrants : Grants (str "s") [(str "code", str "x"), (str "state", str "s")] (str "x") := by
    constructor <;> decide
  exact ⟨authorizationUrl, login, hurl, hlogin,
    (hverdict.exchanges (str "x")).2 ⟨_, hfirst, hgrants⟩⟩

end TradeStation
