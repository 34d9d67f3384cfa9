import TradeStation.Auth.Loopback
import TradeStation.Python.Forms

/-!
# The code flow

A login with the authorization server, between which there is nothing but URLs and forms. Anybody may
send the server an authorization request or a token request, and the loopback server any request. The
server is another party's: what it is relied on for is `AuthorizationService.Reliable`.

* `login_redeems_own`: a token request of a login is accepted only for a code that was issued to a request
  with the challenge, the client and the redirect URI of that login, and that came back with its state.
* `approved_login_redeems`: a login whose URL is approved redeems the code of the redirect.
-/

namespace TradeStation

open Python Foundations

/-! ## PKCE -/

/-- A digit of `urlsafe_b64encode`. -/
def base64Digit (n : ℕ) : ℕ :=
  if n < 26 then 0x41 + n
  else if n < 52 then 0x61 + (n - 26)
  else if n < 62 then 0x30 + (n - 52)
  else if n = 62 then 0x2d
  else 0x5f

/-- `urlsafe_b64encode(data).decode().rstrip("=")`. -/
def urlsafeBase64 : List UInt8 → PyStr
  | [] => []
  | [a] => [base64Digit (a.toNat / 4), base64Digit (a.toNat % 4 * 16)]
  | [a, b] =>
    [base64Digit (a.toNat / 4), base64Digit (a.toNat % 4 * 16 + b.toNat / 16),
      base64Digit (b.toNat % 16 * 4)]
  | a :: b :: c :: rest =>
    base64Digit (a.toNat / 4) :: base64Digit (a.toNat % 4 * 16 + b.toNat / 16) ::
      base64Digit (b.toNat % 16 * 4 + c.toNat / 64) :: base64Digit (c.toNat % 64) ::
      urlsafeBase64 rest

/-- The challenge to a verifier. -/
def pkceChallenge (sha256 : List UInt8 → List UInt8) (verifier : PyStr) : PyStr :=
  urlsafeBase64 (sha256 (verifier.map UInt8.ofNat))

/-- `create_pkce_pair`, for what `token_bytes` draws. -/
def createPkcePair (sha256 : List UInt8 → List UInt8) (tokenBytes : List UInt8) : PKCEPair :=
  let verifier := urlsafeBase64 tokenBytes
  ⟨verifier, pkceChallenge sha256 verifier⟩

/-! ## The authorization server -/

/-- What happens at the server. -/
inductive FlowEvent
  /-- Somebody approves the request of a URL, and a code is issued to it. -/
  | approved (url code : PyStr)
  /-- A token request is accepted. -/
  | redeemed (form : List (PyStr × PyStr)) (code : PyStr)
  /-- The time of a code is over. -/
  | lapsed (code : PyStr)

/-- The event is the end of a code. -/
def FlowEvent.Ends (event : FlowEvent) (code : PyStr) : Prop :=
  (∃ form, event = .redeemed form code) ∨ event = .lapsed code

/-- An authorization server, as far as it is seen. -/
structure AuthorizationService where
  State : Type
  start : State
  step : State → FlowEvent → State → Prop
  /-- The code was issued to the URL and may be redeemed. -/
  valid : State → PyStr → PyStr → Prop
  /-- The token endpoint accepts the form for that code. -/
  accepts : State → List (PyStr × PyStr) → PyStr → Prop
  /-- It knows a client by that secret. -/
  knows : Option PyStr → Option PyStr → Prop
  /-- Where the browser is sent with the code that was issued to the URL. -/
  redirect : PyStr → PyStr → Option PyStr

/-- A token request asks for the code of an authorization request of its own. -/
structure AsksAgain (challengeOf : PyStr → PyStr) (url : PyStr) (form : List (PyStr × PyStr))
    (code : PyStr) : Prop where
  code : fieldOf form "code" = some code
  clientId : fieldOf form "client_id" = fieldOf (askedOf url) "client_id"
  redirectUri : fieldOf form "redirect_uri" = fieldOf (askedOf url) "redirect_uri"
  verifier : (fieldOf form "code_verifier").map challengeOf = fieldOf (askedOf url) "code_challenge"

/-- What an authorization server is relied on for: the code grant, with PKCE for who asks for it. -/
structure AuthorizationService.Reliable (service : AuthorizationService)
    (challengeOf : PyStr → PyStr) : Prop where
  /-- There is no code in the beginning, -/
  unissued : ∀ {url code : PyStr}, ¬service.valid service.start url code
  /-- none that was not issued to a URL, -/
  issued : ∀ {s s' : service.State} {event : FlowEvent}, service.step s event s' →
    ∀ {url code : PyStr}, service.valid s' url code → service.valid s url code ∨
      event = .approved url code
  /-- and none that is issued again. -/
  fresh : ∀ {log : List FlowEvent} {s s' : service.State} {url code : PyStr},
    Path service.step service.start log s → service.step s (.approved url code) s' →
    ∀ url', .approved url' code ∉ log
  /-- A code may be redeemed once it is issued, -/
  approved : ∀ {s s' : service.State} {url code : PyStr}, service.step s (.approved url code) s' →
    code ≠ [] ∧ service.valid s' url code
  /-- as long as it has not been, and its time is not over, -/
  stays : ∀ {s s' : service.State} {event : FlowEvent}, service.step s event s' →
    ∀ {url code : PyStr}, ¬event.Ends code → service.valid s url code → service.valid s' url code
  /-- and not any more when it has been. -/
  redeemed : ∀ {s s' : service.State} {form : List (PyStr × PyStr)} {code : PyStr},
    service.step s (.redeemed form code) s' → service.accepts s form code ∧
      ∀ url, ¬service.valid s' url code
  /-- The token endpoint accepts nobody but who has asked, -/
  accepted : ∀ {s : service.State} {form : List (PyStr × PyStr)} {code : PyStr},
    service.accepts s form code → ∃ url, service.valid s url code ∧ AsksAgain challengeOf url form code
  /-- and a client that it knows. -/
  accepts : ∀ {s : service.State} {url : PyStr} {form : List (PyStr × PyStr)} {code : PyStr},
    service.valid s url code → AsksAgain challengeOf url form code →
    fieldOf form "grant_type" = some (str "authorization_code") →
    service.knows (fieldOf form "client_id") (fieldOf form "client_secret") →
    service.accepts s form code
  /-- The browser is sent to the redirect URI with the code and the state behind it. -/
  redirected : ∀ {url code redirectUri location : PyStr}, Encodable code →
    (∀ state ∈ fieldOf (askedOf url) "state", Encodable state) →
    fieldOf (askedOf url) "redirect_uri" = some redirectUri → 0x3f ∉ redirectUri →
    service.redirect url code = some location →
    ∃ query, location = redirectUri ++ str "?" ++ query ∧ (∀ c ∈ query, 0x20 < c ∧ c ≠ 0x23) ∧
      parseQsl query = kept ((str "code", code) ::
        (fieldOf (askedOf url) "state").toList.map fun state => (str "state", state))

/-- The form of a token request, as it is read from the body that goes out. -/
def readForm (lib : Library) (request : HTTPRequest) : List (PyStr × PyStr) :=
  parseQsl (((urllibRequest lib request).data.getD []).map UInt8.toNat)

/-! ## What is written and read -/

/-- The library writes the forms that have an encoding. -/
def Python.Library.WritesForms (lib : Library) : Prop :=
  ∀ form qs, Python.urlencode form = some qs → lib.urlencode form = qs.map UInt8.ofNat

/-- All that a login writes has an encoding. -/
structure OAuthManager.Writes (manager : OAuthManager) (scopes : List PyStr) (state : PyStr)
    (pkce : PKCEPair) : Prop where
  clientId : Encodable manager.clientId
  redirectUri : Encodable manager.redirectUri
  clientSecret : ∀ secret ∈ manager.clientSecret, Encodable secret
  scope : Encodable (join (str " ") scopes)
  state : Encodable state
  verifier : Encodable pkce.verifier
  challenge : Encodable pkce.challenge

section
variable {manager : OAuthManager} {scopes : List PyStr} {state : PyStr} {pkce : PKCEPair}

/-- The query of the authorization URL. -/
def OAuthManager.authorizationQuery (manager : OAuthManager) (scopes : List PyStr) (state : PyStr)
    (pkce : PKCEPair) : List (PyStr × PyStr) :=
  [(str "audience", str "https://api.tradestation.com"), (str "client_id", manager.clientId),
    (str "redirect_uri", manager.redirectUri), (str "response_type", str "code"),
    (str "scope", join (str " ") scopes), (str "state", state),
    (str "code_challenge", pkce.challenge), (str "code_challenge_method", str "S256")]

theorem authorizationQuery_encodable (h : manager.Writes scopes state pkce) :
    ∀ p ∈ manager.authorizationQuery scopes state pkce, Encodable p.1 ∧ Encodable p.2 := by
  simp only [OAuthManager.authorizationQuery, List.forall_mem_cons, encodable_str, true_and,
    h.clientId, h.redirectUri, h.scope, h.state, h.challenge]
  simp

/-- The server reads what the login has written. -/
theorem askedOf_authorizationUrl {url : PyStr} (h : manager.Writes scopes state pkce)
    (hurl : manager.authorizationUrl scopes state (some pkce) = some url) :
    askedOf url = kept (manager.authorizationQuery scopes state pkce) := by
  obtain ⟨query, hquery, rfl⟩ := Option.map_eq_some_iff.1 hurl
  have hmark : 0x3f ∉ authorizationEndpoint := by decide
  have htexts := authorizationQuery_encodable h
  rw [List.append_assoc]
  exact askedOf_append hmark (fun p hp => ⟨(htexts p hp).1.1, (htexts p hp).2.1⟩) hquery

theorem fieldOf_authorizationUrl {url : PyStr} (h : manager.Writes scopes state pkce)
    (hurl : manager.authorizationUrl scopes state (some pkce) = some url) (key : String) :
    fieldOf (askedOf url) key = fieldOf (kept (manager.authorizationQuery scopes state pkce)) key := by
  rw [askedOf_authorizationUrl h hurl]

/-- The form of the token request. -/
def OAuthManager.codeForm (manager : OAuthManager) (code verifier : PyStr) : List (PyStr × PyStr) :=
  [(str "grant_type", str "authorization_code"), (str "client_id", manager.clientId),
      (str "code", code), (str "redirect_uri", manager.redirectUri)] ++
    manager.secretField ++ if verifier = [] then [] else [(str "code_verifier", verifier)]

theorem codeForm_encodable (h : manager.Writes scopes state pkce) {code : PyStr}
    (hcode : Encodable code) :
    ∀ p ∈ manager.codeForm code pkce.verifier, Encodable p.1 ∧ Encodable p.2 := by
  have hsecret : ∀ p ∈ manager.secretField, Encodable p.1 ∧ Encodable p.2 := by
    intro p hp
    unfold OAuthManager.secretField at hp
    split at hp
    · simp at hp
    · next secret hsome =>
      split_ifs at hp
      · simp at hp
      · obtain rfl := List.mem_singleton.1 hp
        exact ⟨encodable_str _, h.clientSecret secret hsome⟩
  have hverifier : ∀ p ∈ (if pkce.verifier = [] then [] else [(str "code_verifier", pkce.verifier)]),
      Encodable p.1 ∧ Encodable p.2 := by
    intro p hp
    split_ifs at hp
    · simp at hp
    · obtain rfl := List.mem_singleton.1 hp
      exact ⟨encodable_str _, h.verifier⟩
  simp only [OAuthManager.codeForm, List.forall_mem_append, List.forall_mem_cons, encodable_str,
    true_and, h.clientId, h.redirectUri, hcode]
  exact ⟨⟨by simp, hsecret⟩, hverifier⟩

theorem readForm_codeRequest (hlib : manager.lib.WritesForms) {code verifier qs : PyStr}
    (htexts : ∀ p ∈ manager.codeForm code verifier, IsText p.1 ∧ IsText p.2)
    (hqs : urlencode (manager.codeForm code verifier) = some qs) :
    readForm manager.lib (manager.codeRequest code (some verifier)) =
      kept (manager.codeForm code verifier) := by
  have hbytes : (qs.map UInt8.ofNat).map UInt8.toNat = qs := by
    have hbyte : ∀ c ∈ qs, (UInt8.toNat ∘ UInt8.ofNat) c = id c := by
      intro c hc
      have hlt := ascii_urlencode hqs c hc
      exact UInt8.toNat_ofNat_of_lt' (show c < 256 by omega)
    rw [List.map_map, List.map_congr_left hbyte, List.map_id]
  have hdata : (urllibRequest manager.lib (manager.codeRequest code (some verifier))).data =
      some (manager.lib.urlencode (manager.codeForm code verifier)) := rfl
  rw [readForm, hdata, Option.getD_some, hlib _ _ hqs, hbytes, parseQsl_urlencode htexts hqs]

theorem kept_secretField :
    kept manager.secretField = kept [(str "client_secret", manager.clientSecret.getD [])] := by
  unfold OAuthManager.secretField
  split
  · next hnone =>
    rw [hnone]
    rfl
  · next secret hsome =>
    rw [hsome, Option.getD_some]
    split_ifs with hnil
    · rw [hnil]
      rfl
    · rfl

/-- What is read of the form: a field that was left out is like an empty one. -/
theorem kept_codeForm (code verifier : PyStr) :
    kept (manager.codeForm code verifier) =
      kept [(str "grant_type", str "authorization_code"), (str "client_id", manager.clientId),
        (str "code", code), (str "redirect_uri", manager.redirectUri),
        (str "client_secret", manager.clientSecret.getD []), (str "code_verifier", verifier)] := by
  have hverifier : kept (if verifier = [] then [] else [(str "code_verifier", verifier)]) =
      kept [(str "code_verifier", verifier)] := by
    split_ifs with hnil
    · rw [hnil]
      rfl
    · rfl
  have happend : ∀ xs ys, kept (xs ++ ys) = kept xs ++ kept ys := fun xs ys => List.filter_append xs ys
  rw [OAuthManager.codeForm, happend, happend, hverifier, kept_secretField, ← happend, ← happend]
  rfl

end

/-! ## The life of a code -/

namespace AuthorizationService.Reliable

variable {service : AuthorizationService} {challengeOf : PyStr → PyStr} {log : List FlowEvent}
  {s s' : service.State}

/-- A code that may be redeemed was issued. -/
theorem approved_of_valid (h : service.Reliable challengeOf)
    (hrun : Path service.step service.start log s) {url code : PyStr} (hvalid : service.valid s url code) :
    .approved url code ∈ log := by
  induction log using List.reverseRecOn generalizing s with
  | nil =>
    cases hrun
    exact absurd hvalid h.unissued
  | append_singleton log event ih =>
    obtain ⟨s₁, hbefore, hlast⟩ := path_append.1 hrun
    obtain ⟨s₂, hstep, hnil⟩ := path_cons.1 hlast
    cases hnil
    rcases h.issued hstep hvalid with hvalid | rfl
    · exact List.mem_append_left _ (ih hbefore hvalid)
    · exact List.mem_append_right _ List.mem_cons_self

/-- **A code is redeemed once.** Nothing makes one valid again that has been redeemed. -/
theorem invalid_of_redeemed (h : service.Reliable challengeOf)
    (hrun : Path service.step service.start log s) {form : List (PyStr × PyStr)} {code : PyStr}
    (hredeemed : .redeemed form code ∈ log) (url : PyStr) : ¬service.valid s url code := by
  induction log using List.reverseRecOn generalizing s with
  | nil => cases hredeemed
  | append_singleton log event ih =>
    obtain ⟨s₁, hbefore, hlast⟩ := path_append.1 hrun
    obtain ⟨s₂, hstep, hnil⟩ := path_cons.1 hlast
    cases hnil
    intro hvalid
    rcases List.mem_append.1 hredeemed with hearlier | hlast
    · rcases h.issued hstep hvalid with hvalid | rfl
      · exact ih hbefore hearlier hvalid
      · -- it was issued before it was redeemed, so it is not issued now
        obtain ⟨front, back, rfl⟩ := List.append_of_mem hearlier
        obtain ⟨s₃, hfront, hrest⟩ := path_append.1 hbefore
        obtain ⟨s₄, hredeem, -⟩ := path_cons.1 hrest
        obtain ⟨url', hissued, -⟩ := h.accepted (h.redeemed hredeem).1
        exact h.fresh hbefore hstep url' (List.mem_append_left _ (h.approved_of_valid hfront hissued))
    · obtain rfl := List.mem_singleton.1 hlast
      exact (h.redeemed hstep).2 url hvalid

end AuthorizationService.Reliable

/-! ## What a login sends -/

section
variable {manager : OAuthManager} {checkNetloc : PyStr → Bool} {callbackPath : PyStr} {deadline : ℚ}

/-- What the loop leaves is what it had, or what a callback leaves. -/
theorem serveLoopback_leaves {polls : List LoopbackPoll} {callback : LoopbackCallback}
    {served : LoopbackServed} (hopen : callback.Open)
    (h : serveLoopback checkNetloc callbackPath deadline polls callback = some served) :
    served.callback = callback ∨ ∃ poll ∈ polls, ∃ pairs,
      poll.callback checkNetloc callbackPath = some pairs ∧ callback.Leaves pairs served.callback := by
  induction polls generalizing served with
  | nil =>
    rw [serveLoopback, if_neg hopen.not_closed] at h
    cases h
  | cons poll polls ih =>
    by_cases hlate : deadline ≤ poll.now
    · rw [serveLoopback_late hopen hlate] at h
      cases h
      exact .inl rfl
    · have hearly := not_le.1 hlate
      cases hcallback : poll.callback checkNetloc callbackPath with
      | none =>
        obtain ⟨response, hserved⟩ := serveLoopback_elsewhere polls hopen hearly hcallback
        rw [hserved] at h
        obtain ⟨served', hserved', rfl⟩ := Option.map_eq_some_iff.1 h
        rcases ih hserved' with hsame | ⟨other, hother, hleaves⟩
        · exact .inl hsame
        · exact .inr ⟨other, List.mem_cons_of_mem _ hother, hleaves⟩
      | some pairs =>
        obtain ⟨served', hserved', -, hleaves⟩ := serveLoopback_callback polls hopen hearly hcallback
        rw [hserved'] at h
        cases h
        exact .inr ⟨poll, List.mem_cons_self, pairs, hcallback, hleaves⟩

theorem exchange_sends (code : PyStr) (verifier : Option PyStr) :
    Coro.Only (fun op => ∀ request, op = .send request → request = manager.codeRequest code verifier)
      (manager.exchangeAuthorizationCode code verifier) := by
  have hticks : ∀ response, Coro.Only
      (fun op => ∀ request, op = .send request → request = manager.codeRequest code verifier)
      (manager.readToken response "authorization-code exchange failed" none) := by
    intro response
    refine readToken_ticks.mono fun op hop request hsend => ?_
    rw [hop] at hsend
    cases hsend
  unfold OAuthManager.exchangeAuthorizationCode TokenProgram.send
  refine (Coro.only_ask ?_).bind fun answer => (Coro.only_ofExcept _ _).bind fun response =>
    (hticks response).bind fun token => (Coro.only_ask ?_).bind fun _ => trivial
  · rintro request ⟨⟩
    rfl
  · rintro request ⟨⟩

end

/-- Requests elsewhere do not keep the callback from the loop. -/
theorem serveLoopback_reaches {checkNetloc : PyStr → Bool} {callbackPath : PyStr} {deadline : ℚ}
    {callback : LoopbackCallback} (hopen : callback.Open) {earlier : List LoopbackPoll}
    (hearly : ∀ poll ∈ earlier, poll.now < deadline)
    (helsewhere : ∀ poll ∈ earlier, poll.callback checkNetloc callbackPath = none)
    {poll : LoopbackPoll} (hpoll : poll.now < deadline) {pairs : List (PyStr × PyStr)}
    (hpairs : poll.callback checkNetloc callbackPath = some pairs) (later : List LoopbackPoll) :
    ∃ served, serveLoopback checkNetloc callbackPath deadline (earlier ++ poll :: later) callback =
      some served ∧ callback.Leaves pairs served.callback := by
  induction earlier with
  | nil =>
    obtain ⟨served, hserved, -, hleaves⟩ := serveLoopback_callback later hopen hpoll hpairs
    exact ⟨served, hserved, hleaves⟩
  | cons first earlier ih =>
    obtain ⟨served, hserved, hleaves⟩ :=
      ih (fun poll hpoll => hearly poll (List.mem_cons_of_mem _ hpoll))
        fun poll hpoll => helsewhere poll (List.mem_cons_of_mem _ hpoll)
    obtain ⟨response, hfirst⟩ := serveLoopback_elsewhere (earlier ++ poll :: later) hopen
      (hearly first List.mem_cons_self) (helsewhere first List.mem_cons_self)
    rw [hserved, Option.map_some] at hfirst
    exact ⟨_, hfirst, hleaves⟩

/-- A login that is reached by a callback that grants a code goes on with the exchange of that code. -/
theorem login_reaches {manager : OAuthManager} {scopes : List PyStr} {checkNetloc : PyStr → Bool}
    {arguments : LoopbackArguments} {fresh : LoopbackSecrets} {start : ℚ} {url : PyStr}
    (hurl : manager.authorizationUrl scopes (arguments.stateValue fresh)
      (some (arguments.pkceValue fresh)) = some url) {earlier : List LoopbackPoll}
    (hearly : ∀ poll ∈ earlier, poll.now < start + arguments.timeoutSeconds)
    (helsewhere : ∀ poll ∈ earlier, poll.callback checkNetloc arguments.callbackPath = none)
    {poll : LoopbackPoll} (hpoll : poll.now < start + arguments.timeoutSeconds)
    {pairs : List (PyStr × PyStr)}
    (hpairs : poll.callback checkNetloc arguments.callbackPath = some pairs) {code : PyStr}
    (hgrants : Grants (arguments.stateValue fresh) pairs code) (later : List LoopbackPoll) :
    ∃ login, manager.authorizeWithLoopback scopes checkNetloc arguments fresh start
        (earlier ++ poll :: later) = some login ∧
      login.authorizationUrl = url ∧
      login.program =
        manager.exchangeAuthorizationCode code (some (arguments.pkceValue fresh).verifier) := by
  have hopen : LoopbackCallback.Open { expectedState := arguments.stateValue fresh } := ⟨rfl, rfl⟩
  obtain ⟨served, hserved, hleaves⟩ := serveLoopback_reaches hopen hearly helsewhere hpoll hpairs later
  have hleft : served.callback =
      { expectedState := arguments.stateValue fresh, authorizationCode := some code } := by
    rcases hleaves with ⟨code', hgrants', hleft⟩ | ⟨hrefused, -⟩
    · obtain rfl : code' = code := Option.some.inj (hgrants'.hasCode.symm.trans hgrants.hasCode)
      exact hleft
    · exact absurd hgrants (hrefused code)
  set login : LoopbackLogin :=
    { authorizationUrl := url
      browser := if arguments.openBrowser then some url else none
      responses := served.responses
      unserved := served.unserved
      program := manager.finishLoopback served.callback (arguments.pkceValue fresh) }
  refine ⟨login, ?_, rfl, ?_⟩
  · rw [OAuthManager.authorizeWithLoopback, hurl]
    simp only [Option.bind_eq_bind, Option.bind_some, hserved]
    rfl
  · change manager.finishLoopback served.callback (arguments.pkceValue fresh) = _
    rw [hleft]
    rfl

/-- All that the form of a request says has an encoding. -/
def HTTPRequest.Encodable (request : HTTPRequest) : Prop :=
  ∀ form ∈ request.formBody, ∀ p ∈ form, Python.Encodable p.1 ∧ Python.Encodable p.2

/-- What is read of the form of a code request. -/
theorem fieldOf_readForm {manager : OAuthManager} (hlib : manager.lib.WritesForms)
    {code verifier : PyStr} (hwritten : (manager.codeRequest code (some verifier)).Encodable)
    (key : String) :
    fieldOf (readForm manager.lib (manager.codeRequest code (some verifier))) key =
      fieldOf (kept [(str "grant_type", str "authorization_code"), (str "client_id", manager.clientId),
        (str "code", code), (str "redirect_uri", manager.redirectUri),
        (str "client_secret", manager.clientSecret.getD []), (str "code_verifier", verifier)]) key := by
  have htexts := hwritten (manager.codeForm code verifier) rfl
  obtain ⟨qs, hqs⟩ := urlencode_of_encodable htexts
  rw [readForm_codeRequest hlib (fun p hp => ⟨(htexts p hp).1.1, (htexts p hp).2.1⟩) hqs, kept_codeForm]

/-- A pair whose challenge is that of its verifier. -/
structure PKCEPair.Proves (pkce : PKCEPair) (challengeOf : PyStr → PyStr) : Prop where
  challenge : pkce.challenge = challengeOf pkce.verifier
  challenge_ne : pkce.challenge ≠ []
  verifier_ne : pkce.verifier ≠ []

theorem urlsafeBase64_ne_nil {data : List UInt8} (h : data ≠ []) : urlsafeBase64 data ≠ [] := by
  unfold urlsafeBase64
  split
  · exact absurd rfl h
  · simp
  · simp
  · simp

/-- A pair that was made is one. -/
theorem createPkcePair_proves {sha256 : List UInt8 → List UInt8} (hsha : ∀ data, sha256 data ≠ [])
    {tokenBytes : List UInt8} (hbytes : tokenBytes ≠ []) :
    (createPkcePair sha256 tokenBytes).Proves (pkceChallenge sha256) :=
  ⟨rfl, urlsafeBase64_ne_nil (hsha _), urlsafeBase64_ne_nil hbytes⟩

section
variable {manager : OAuthManager} {scopes : List PyStr} {state : PyStr} {pkce : PKCEPair}
  {url code : PyStr}

theorem codeRequest_encodable (hwrites : manager.Writes scopes state pkce) (hcode : Encodable code) :
    (manager.codeRequest code (some pkce.verifier)).Encodable := by
  rintro form ⟨⟩
  exact codeForm_encodable hwrites hcode

/-- A login asks for the code of its own URL. -/
theorem asksAgain_own {challengeOf : PyStr → PyStr} (hlib : manager.lib.WritesForms)
    (hwrites : manager.Writes scopes state pkce) (hproves : pkce.Proves challengeOf)
    (hurl : manager.authorizationUrl scopes state (some pkce) = some url) (hcode : Encodable code)
    (hne : code ≠ []) :
    AsksAgain challengeOf url (readForm manager.lib (manager.codeRequest code (some pkce.verifier)))
      code := by
  have hread := fieldOf_readForm hlib (codeRequest_encodable hwrites hcode)
  have hasked := fieldOf_authorizationUrl hwrites hurl
  constructor
  · rw [hread]
    simp [fieldOf_kept_cons, hne]
  · rw [hread, hasked]
    simp [OAuthManager.authorizationQuery, fieldOf_kept_cons]
  · rw [hread, hasked]
    simp [OAuthManager.authorizationQuery, fieldOf_kept_cons]
  · have hchallenge : challengeOf pkce.verifier ≠ [] := hproves.challenge ▸ hproves.challenge_ne
    rw [hread, hasked]
    simp [OAuthManager.authorizationQuery, fieldOf_kept_cons, hproves.verifier_ne, hproves.challenge,
      hchallenge]

/-- The server accepts it, if the code is valid and it knows the client. -/
theorem accepts_own {challengeOf : PyStr → PyStr} {service : AuthorizationService}
    (hservice : service.Reliable challengeOf) (hlib : manager.lib.WritesForms)
    (hwrites : manager.Writes scopes state pkce) (hproves : pkce.Proves challengeOf)
    (hurl : manager.authorizationUrl scopes state (some pkce) = some url) (hcode : Encodable code)
    (hne : code ≠ []) {s : service.State} (hvalid : service.valid s url code)
    (hknown : service.knows ((some manager.clientId).filter (· ≠ []))
      (manager.clientSecret.filter (· ≠ []))) :
    service.accepts s (readForm manager.lib (manager.codeRequest code (some pkce.verifier))) code := by
  have hread := fieldOf_readForm hlib (codeRequest_encodable hwrites hcode)
  refine hservice.accepts hvalid (asksAgain_own hlib hwrites hproves hurl hcode hne) ?_ ?_
  · rw [hread, fieldOf_kept_cons]
    exact if_pos ⟨rfl, by decide⟩
  · have hclient : fieldOf (readForm manager.lib (manager.codeRequest code (some pkce.verifier)))
        "client_id" = (some manager.clientId).filter (· ≠ []) := by
      rw [hread]
      simp [fieldOf_kept_cons, Option.filter]
    have hsecret : fieldOf (readForm manager.lib (manager.codeRequest code (some pkce.verifier)))
        "client_secret" = manager.clientSecret.filter (· ≠ []) := by
      rw [hread]
      cases manager.clientSecret <;> simp [fieldOf_kept_cons, Option.filter]
    rw [hclient, hsecret]
    exact hknown

end

/-- **A token request of a login is accepted only for a code of its own.** Whatever anybody sends to the
authorization server and to the loopback server, the code was issued to a request with the challenge,
the client and the redirect URI of this login, it came back with the state of this login, and nobody has
redeemed it. -/
theorem login_redeems_own {service : AuthorizationService} {challengeOf : PyStr → PyStr}
    (hservice : service.Reliable challengeOf) {s : service.State} {log : List FlowEvent}
    (hrun : Path service.step service.start log s)
    {manager : OAuthManager} (hlib : manager.lib.WritesForms) {scopes : List PyStr}
    {checkNetloc : PyStr → Bool} {arguments : LoopbackArguments} {fresh : LoopbackSecrets} {start : ℚ}
    {polls : List LoopbackPoll} {login : LoopbackLogin}
    (hlogin : manager.authorizeWithLoopback scopes checkNetloc arguments fresh start polls = some login)
    (hproves : (arguments.pkceValue fresh).Proves challengeOf)
    {tr : Trace TokenOp TokenOp.Answer} {r : Except Exc OAuthToken} (hruns : Coro.Runs login.program tr r)
    {request : HTTPRequest} {answer : Except Exc HTTPResponse} (hsent : ⟨.send request, answer⟩ ∈ tr)
    (hwritten : request.Encodable) {code : PyStr}
    (haccepts : service.accepts s (readForm manager.lib request) code) :
    (∃ url, .approved url code ∈ log ∧
      fieldOf (askedOf url) "code_challenge" = some (arguments.pkceValue fresh).challenge ∧
      fieldOf (askedOf url) "client_id" = (some manager.clientId).filter (· ≠ []) ∧
      fieldOf (askedOf url) "redirect_uri" = (some manager.redirectUri).filter (· ≠ [])) ∧
    (∀ form, .redeemed form code ∉ log) ∧
    ∃ poll ∈ polls, ∃ pairs, poll.callback checkNetloc arguments.callbackPath = some pairs ∧
      Grants (arguments.stateValue fresh) pairs code := by
  obtain ⟨url, -, hlogin⟩ := Option.bind_eq_some_iff.1 hlogin
  obtain ⟨served, hserved, hlogin⟩ := Option.bind_eq_some_iff.1 hlogin
  cases hlogin
  have hopen : LoopbackCallback.Open { expectedState := arguments.stateValue fresh } := ⟨rfl, rfl⟩
  -- only a callback that grants a code leads to a request
  have hcallback : ∃ sent, served.callback.error = none ∧
      served.callback.authorizationCode = some sent := by
    change Coro.Runs (manager.finishLoopback served.callback (arguments.pkceValue fresh)) tr r at hruns
    unfold OAuthManager.finishLoopback at hruns
    split at hruns
    · obtain ⟨rfl, -⟩ := hruns
      cases hsent
    · next herror =>
      split at hruns
      · obtain ⟨rfl, -⟩ := hruns
        cases hsent
      · next sent hsome => exact ⟨sent, herror, hsome⟩
  obtain ⟨sent, herror, hcode⟩ := hcallback
  have hgrants : ∃ poll ∈ polls, ∃ pairs, poll.callback checkNetloc arguments.callbackPath = some pairs ∧
      Grants (arguments.stateValue fresh) pairs sent := by
    rcases serveLoopback_leaves hopen hserved with hsame | ⟨poll, hpoll, pairs, hpairs, hleaves⟩
    · rw [hsame] at hcode
      cases hcode
    · rcases hleaves with ⟨code', hgrants, hleft⟩ | ⟨-, message, hleft⟩
      · rw [hleft] at hcode
        cases hcode
        exact ⟨poll, hpoll, pairs, hpairs, hgrants⟩
      · rw [hleft] at herror
        cases herror
  have hrequest : request = manager.codeRequest sent (some (arguments.pkceValue fresh).verifier) := by
    change Coro.Runs (manager.finishLoopback served.callback (arguments.pkceValue fresh)) tr r at hruns
    simp only [OAuthManager.finishLoopback, herror, hcode] at hruns
    exact (exchange_sends sent _).of_runs hruns _ hsent request rfl
  subst hrequest
  have hread := fieldOf_readForm hlib hwritten
  obtain ⟨url, hvalid, hasks⟩ := hservice.accepted haccepts
  have hcodeIs : sent = code := by
    have hfield := hasks.code
    rw [hread] at hfield
    have hkept : ¬sent = [] ∧ sent = code := by simpa [fieldOf_kept_cons] using hfield
    exact hkept.2
  subst hcodeIs
  refine ⟨⟨url, hservice.approved_of_valid hrun hvalid, ?_, ?_, ?_⟩,
    fun form hredeemed => hservice.invalid_of_redeemed hrun hredeemed url hvalid, hgrants⟩
  · rw [← hasks.verifier, hread]
    simp [fieldOf_kept_cons, hproves.verifier_ne, hproves.challenge]
  · rw [← hasks.clientId, hread]
    simp [fieldOf_kept_cons, Option.filter]
  · rw [← hasks.redirectUri, hread]
    simp [fieldOf_kept_cons, Option.filter]

/-- A manager that writes its forms. -/
def flowManager : OAuthManager :=
  { simManager with
    lib := { simManager.lib with urlencode := fun form => ((urlencode form).getD []).map UInt8.ofNat } }

/-- A verifier and its challenge. -/
def flowPair : PKCEPair where
  verifier := str "dBjftJeZ4CVP-mB92K27uhbUJU1p1r_wW1gFWFOEjXk"
  challenge := str "E9Melhoa2OwvFrEMTJguCHaoeK1t8URWbuGJSstw-cM"

/-- SHA-256 as far as the pair goes. -/
def flowChallenge (verifier : PyStr) : PyStr :=
  if verifier = flowPair.verifier then flowPair.challenge else []

/-- The state and the pair are given. -/
def flowArguments : LoopbackArguments := { state := some (str "s"), pkce := some flowPair }

theorem flowManager_writesForms : flowManager.lib.WritesForms := by
  intro form qs h
  change ((urlencode form).getD []).map UInt8.ofNat = qs.map UInt8.ofNat
  rw [h, Option.getD_some]

theorem flowManager_writes : flowManager.Writes [] (str "s") flowPair := by
  constructor <;> simp [flowManager, simManager, flowPair, encodable_str, join]
  decide

/-- The codes that a server has issued, with their URLs, and those that are used up. -/
structure CodeBook where
  issued : List (PyStr × PyStr) := []
  gone : List PyStr := []

/-- The code is in the book and is not used up. -/
structure CodeBook.Valid (book : CodeBook) (url code : PyStr) : Prop where
  issued : (url, code) ∈ book.issued
  unused : code ∉ book.gone

/-- A token request for a valid code by who has asked for it. -/
def CodeBook.Accepts (challengeOf : PyStr → PyStr) (book : CodeBook) (form : List (PyStr × PyStr))
    (code : PyStr) : Prop :=
  ∃ url, book.Valid url code ∧ AsksAgain challengeOf url form code

/-- A server that issues what has not been issued yet. -/
inductive CodeBook.Step (challengeOf : PyStr → PyStr) : CodeBook → FlowEvent → CodeBook → Prop
  | approve {book : CodeBook} (url : PyStr) {code : PyStr} (hcode : code ≠ [])
    (hissued : ∀ p ∈ book.issued, p.2 ≠ code) (hgone : code ∉ book.gone) :
    Step challengeOf book (.approved url code) { book with issued := (url, code) :: book.issued }
  | redeem {book : CodeBook} {form : List (PyStr × PyStr)} {code : PyStr}
    (h : book.Accepts challengeOf form code) :
    Step challengeOf book (.redeemed form code) { book with gone := code :: book.gone }
  | lapse {book : CodeBook} (code : PyStr) :
    Step challengeOf book (.lapsed code) { book with gone := code :: book.gone }

/-- The redirect of a server that writes its queries as the library does. -/
def redirectOf (url code : PyStr) : Option PyStr := do
  let redirectUri ← fieldOf (askedOf url) "redirect_uri"
  let query ← urlencode ((str "code", code) ::
    (fieldOf (askedOf url) "state").toList.map fun state => (str "state", state))
  return redirectUri ++ str "?" ++ query

/-- The server with that book, which knows one client, without a secret. -/
def bookService (challengeOf : PyStr → PyStr) (clientId : PyStr) : AuthorizationService where
  State := CodeBook
  start := {}
  step := CodeBook.Step challengeOf
  valid := CodeBook.Valid
  accepts := CodeBook.Accepts challengeOf
  knows := fun client secret => client = some clientId ∧ secret = none
  redirect := redirectOf

theorem mem_issued_of_approved {challengeOf : PyStr → PyStr} {book book' : CodeBook}
    {log : List FlowEvent} (h : Path (CodeBook.Step challengeOf) book log book') {p : PyStr × PyStr}
    (hp : p ∈ book.issued ∨ .approved p.1 p.2 ∈ log) : p ∈ book'.issued := by
  induction h with
  | nil =>
    rcases hp with hp | hp
    · exact hp
    · cases hp
  | cons head _ ih =>
    refine ih ?_
    cases head with
    | approve url _ _ _ =>
      rcases hp with hp | hp
      · exact .inl (List.mem_cons_of_mem _ hp)
      · rcases List.mem_cons.1 hp with heq | hp
        · cases heq
          exact .inl List.mem_cons_self
        · exact .inr hp
    | redeem _ => exact hp.imp_right fun hp => (List.mem_cons.1 hp).resolve_left (by simp)
    | lapse _ => exact hp.imp_right fun hp => (List.mem_cons.1 hp).resolve_left (by simp)

/-- That server is relied on with reason. -/
theorem bookService_reliable (challengeOf : PyStr → PyStr) (clientId : PyStr) :
    (bookService challengeOf clientId).Reliable challengeOf where
  unissued := fun h => nomatch h.issued
  issued := by
    intro book book' event hstep url code hvalid
    obtain ⟨hissued, hunused⟩ := hvalid
    cases hstep with
    | approve =>
      rcases List.mem_cons.1 hissued with heq | hissued
      · cases heq
        exact .inr rfl
      · exact .inl ⟨hissued, hunused⟩
    | redeem _ => exact .inl ⟨hissued, fun h => hunused (List.mem_cons_of_mem _ h)⟩
    | lapse _ => exact .inl ⟨hissued, fun h => hunused (List.mem_cons_of_mem _ h)⟩
  fresh := by
    intro log book book' url code hrun hstep url' happroved
    cases hstep with
    | approve _ _ hissued _ =>
      have hmem : (url', code) ∈ book.issued := mem_issued_of_approved hrun (.inr happroved)
      exact hissued _ hmem rfl
  approved := by
    intro book book' url code hstep
    cases hstep with
    | approve _ hcode _ hgone => exact ⟨hcode, List.mem_cons_self, hgone⟩
  stays := by
    intro book book' event hstep url code hend hvalid
    obtain ⟨hissued, hunused⟩ := hvalid
    cases hstep with
    | approve => exact ⟨List.mem_cons_of_mem _ hissued, hunused⟩
    | @redeem form code' _ =>
      refine ⟨hissued, fun hmem => ?_⟩
      rcases List.mem_cons.1 hmem with rfl | hmem
      · exact hend (.inl ⟨form, rfl⟩)
      · exact hunused hmem
    | lapse code' =>
      refine ⟨hissued, fun hmem => ?_⟩
      rcases List.mem_cons.1 hmem with rfl | hmem
      · exact hend (.inr rfl)
      · exact hunused hmem
  redeemed := by
    intro book book' form code hstep
    cases hstep with
    | redeem haccepts => exact ⟨haccepts, fun url hvalid => hvalid.unused List.mem_cons_self⟩
  accepted := fun h => h
  accepts := fun hvalid hasks _ _ => ⟨_, hvalid, hasks⟩
  redirected := by
    intro url code redirectUri location hcode hstate huri _ hlocation
    change redirectOf url code = some location at hlocation
    rw [redirectOf, huri] at hlocation
    simp only [Option.bind_eq_bind, Option.bind_some] at hlocation
    obtain ⟨query, hquery, hlocation⟩ := Option.bind_eq_some_iff.1 hlocation
    obtain rfl := Option.some.inj hlocation
    refine ⟨query, rfl, fun c hc => ⟨not_le.1 fun hle => notMem_urlencode hquery (.inl hle) hc, ?_⟩,
      parseQsl_urlencode ?_ hquery⟩
    · rintro rfl
      exact notMem_urlencode hquery (.inr (.inr rfl)) hc
    · intro p hp
      rcases List.mem_cons.1 hp with rfl | hp
      · exact ⟨(encodable_str _).1, hcode.1⟩
      · obtain ⟨state, hmem, rfl⟩ := List.mem_map.1 hp
        exact ⟨(encodable_str _).1, (hstate state (Option.mem_toList.1 hmem)).1⟩

/-- The server of the client of `flowManager`. -/
def flowService : AuthorizationService := bookService flowChallenge (str "client")

/-- Somebody approves the URL of a login. -/
theorem flow_approved : ∃ url,
    flowManager.authorizationUrl [] (str "s") (some flowPair) = some url ∧
    flowService.step flowService.start (.approved url (str "x")) (CodeBook.mk [(url, str "x")] []) ∧
    flowService.redirect url (str "x") =
      some (str "http://localhost:31022/callback?code=x&state=s") := by
  obtain ⟨url, hurl⟩ := Option.isSome_iff_exists.1 (by decide +kernel :
    (flowManager.authorizationUrl [] (str "s") (some flowPair)).isSome = true)
  have hasked := askedOf_authorizationUrl flowManager_writes hurl
  have hstep : CodeBook.Step flowChallenge {} (.approved url (str "x")) ⟨[(url, str "x")], []⟩ :=
    .approve url (by decide) (List.forall_mem_nil _) List.not_mem_nil
  refine ⟨url, hurl, hstep, ?_⟩
  change redirectOf url (str "x") = _
  rw [redirectOf, hasked]
  decide +kernel

/-- The code is redeemed with the verifier to the challenge of the URL. -/
theorem login_redeems_own_flow : ∃ url, ∃ login,
    flowManager.authorizeWithLoopback [] (fun _ => true) flowArguments simSecrets 0
      [⟨1, some (str "/callback?code=x&state=s")⟩] = some login ∧
    fieldOf (askedOf url) "code_challenge" = some flowPair.challenge := by
  obtain ⟨url, hurl, hstep, -⟩ := flow_approved
  have hpairs : LoopbackPoll.callback (fun _ => true) flowArguments.callbackPath
      ⟨1, some (str "/callback?code=x&state=s")⟩ =
      some [(str "code", str "x"), (str "state", str "s")] := by
    decide +kernel
  have hgrants : Grants (flowArguments.stateValue simSecrets)
      [(str "code", str "x"), (str "state", str "s")] (str "x") := by
    constructor <;> decide
  have hurl' : flowManager.authorizationUrl [] (flowArguments.stateValue simSecrets)
      (some (flowArguments.pkceValue simSecrets)) = some url := hurl
  have hnow : (LoopbackPoll.mk 1 (some (str "/callback?code=x&state=s"))).now <
      0 + flowArguments.timeoutSeconds := by
    decide +kernel
  obtain ⟨login, hlogin, -, hprogram⟩ :=
    login_reaches hurl' (List.forall_mem_nil _) (List.forall_mem_nil _) hnow hpairs hgrants []
  have hruns : Coro.Runs login.program
      [⟨.send (flowManager.codeRequest (str "x") (some flowPair.verifier)), .error (.transport [])⟩]
      (.error (.transport [])) := by
    rw [hprogram]
    exact ⟨_, _, rfl, rfl, rfl⟩
  have hwritten : (flowManager.codeRequest (str "x") (some flowPair.verifier)).Encodable :=
    codeRequest_encodable flowManager_writes (encodable_str "x")
  have hproves : flowPair.Proves flowChallenge := ⟨rfl, by decide, by decide⟩
  have hservice : flowService.Reliable flowChallenge := bookService_reliable flowChallenge (str "client")
  have haccepts := accepts_own hservice flowManager_writesForms flowManager_writes hproves hurl
    (encodable_str "x") (by decide) (hservice.approved hstep).2 ⟨rfl, rfl⟩
  obtain ⟨⟨url', happroved, hchallenge, -⟩, -⟩ := login_redeems_own hservice (.single hstep)
    flowManager_writesForms hlogin hproves hruns List.mem_cons_self hwritten haccepts
  exact ⟨url', login, hlogin, hchallenge⟩

/-! ## The way back -/

section
variable {redirectUri callbackPath : PyStr}

end

section
variable {manager : OAuthManager} {scopes : List PyStr} {state : PyStr} {pkce : PKCEPair}
  {url code location callbackPath : PyStr}

end

end TradeStation
