import TradeStation.Auth.Rotation

/-!
# The lifetime of a granted token

Behind a grant the old refresh token is worth nothing, so whatever `expires_in` says, the new one has
to be stored. The conversion of `expires_in` to seconds never fails, but the addition to the time of
issue does, where the sum is no `datetime`.

* `tokenKept_iff`: when a granted token is read, and its refresh goes on to store it.
-/

namespace TradeStation

open Python Foundations

/-- The seconds that an `expires_in` says: those of a text, a number or a truth value that Python
converts, or else the default. -/
def lifetimeSeconds (lib : Library) : Option Json → ℤ
  | none | some .null | some (.arr _) | some (.obj _) => defaultTokenLifetimeSeconds
  | some scalar => (lib.intFloat scalar).getD defaultTokenLifetimeSeconds

/-- Issued at this time, a token expires at a time that is a `datetime`. -/
def Expires (lib : Library) (payload : Json.Dict) (issuedAt : Datetime) : Prop :=
  let expiresAt := issuedAt.wall + lifetimeSeconds lib (Json.get payload (str "expires_in")) * 1000000
  Datetime.minWall ≤ expiresAt ∧ expiresAt ≤ Datetime.maxWall

/-- The refresh token of the response, or else the one that there was; no text is none. -/
structure KeepsRefreshToken (lib : Library) (payload : Json.Dict) (existing : Option PyStr)
    (token : OAuthToken) : Prop where
  given : ∀ value, Json.get payload (str "refresh_token") = some value → value.truthy = true →
    token.refreshToken = some (lib.str value)
  kept : (∀ value, Json.get payload (str "refresh_token") = some value → value.truthy = false) →
    token.refreshToken = existing ∨ existing = some [] ∧ token.refreshToken = none

/-- **A granted token is kept**: it is read from the response, with its refresh token or the one that
there was, and a refresh that got the response goes on to store what it read. -/
structure TokenKept (lib : Library) (redactText : PyStr → PyStr) (payload : Json.Dict)
    (issuedAt : Datetime) : Prop where
  returned : ∀ existing, ∃ token,
    OAuthToken.fromTokenResponse lib redactText payload existing issuedAt = .ok token ∧
      KeepsRefreshToken lib payload existing token
  stored : ∀ manager : OAuthManager, manager.lib = lib → manager.redactText = redactText →
    ∀ (force : Bool) (tr : Trace TokenOp TokenOp.Answer) (r : Except Exc OAuthToken),
      Coro.Runs (manager.refreshAccessToken force) tr r →
      ∀ (refreshToken : PyStr) (response : HTTPResponse)
        (before behind : Trace TokenOp TokenOp.Answer),
        response.statusCode < 400 → decodeTokenPayload response = some payload →
        tr = before ++ ⟨.send (manager.refreshRequest refreshToken), .ok response⟩ ::
          ⟨.now, issuedAt⟩ :: behind →
        ∃ token swapped rest, KeepsRefreshToken lib payload (some refreshToken) token ∧
          behind = ⟨.compareAndSwapRefreshToken (some refreshToken) token, swapped⟩ :: rest

/-! ## Reading the token -/

section
variable {lib : Library} {redactText : PyStr → PyStr} {payload : Json.Dict} {issuedAt : Datetime}
  {existing : Option PyStr}

theorem coerceExpiresInSeconds_eq (value : Option Json) :
    coerceExpiresInSeconds lib value = lifetimeSeconds lib value := by
  cases value with
  | none => rfl
  | some value => cases value <;> rfl

/-- The refresh token is kept in what is read. -/
theorem keepsRefreshToken_of_text {token : OAuthToken}
    (h : token.refreshToken = refreshTokenText lib payload existing) :
    KeepsRefreshToken lib payload existing token := by
  constructor
  · intro value hvalue htruthy
    have hgiven : (Json.get payload (str "refresh_token")).filter Json.truthy = some value := by
      rw [hvalue, Option.filter_some, if_pos htruthy]
    rw [h, refreshTokenText, hgiven]
  · intro hnone
    have hgiven : (Json.get payload (str "refresh_token")).filter Json.truthy = none := by
      rw [Option.filter_eq_none_iff]
      intro value hvalue
      simp [hnone value hvalue]
    rw [h, refreshTokenText, hgiven]
    cases existing with
    | none => exact .inl rfl
    | some text =>
      by_cases htext : text = []
      · subst htext
        exact .inr ⟨rfl, rfl⟩
      · exact .inl (by simp [htext])

/-- Between two points in time there are fewer days than a `timedelta` may have. -/
theorem expiresAt_isSome_iff
    (hissued : Datetime.minWall ≤ issuedAt.wall ∧ issuedAt.wall ≤ Datetime.maxWall) :
    ((timedeltaSeconds (lifetimeSeconds lib (Json.get payload (str "expires_in")))).bind
        issuedAt.add).isSome ↔ Expires lib payload issuedAt := by
  unfold Expires Datetime.minWall Datetime.maxWall at *
  generalize lifetimeSeconds lib (Json.get payload (str "expires_in")) = seconds
  unfold timedeltaSeconds
  by_cases hdays : -999999999 ≤ seconds / 86400 ∧ seconds / 86400 ≤ 999999999
  · rw [if_pos hdays, Option.bind_some, Datetime.add, Datetime.minWall, Datetime.maxWall]
    split_ifs with hwall
    · exact ⟨fun _ => hwall, fun _ => rfl⟩
    · exact ⟨fun h => (nomatch h), fun h => absurd h hwall⟩
  · rw [if_neg hdays]
    constructor
    · intro h
      cases h
    · intro hwall
      exfalso
      omega

/-- With an access token, the response is read exactly when its token expires at some time. -/
theorem fromTokenResponse_isOk_iff {accessToken : PyStr}
    (hissued : Datetime.minWall ≤ issuedAt.wall ∧ issuedAt.wall ≤ Datetime.maxWall)
    (haccess : Json.get payload (str "access_token") = some (.str accessToken)) :
    (∃ token, OAuthToken.fromTokenResponse lib redactText payload existing issuedAt = .ok token ∧
      KeepsRefreshToken lib payload existing token) ↔ Expires lib payload issuedAt := by
  rw [← expiresAt_isSome_iff hissued, ← coerceExpiresInSeconds_eq]
  unfold OAuthToken.fromTokenResponse
  simp only [haccess]
  cases hexpires : (timedeltaSeconds
      (coerceExpiresInSeconds lib (Json.get payload (str "expires_in")))).bind issuedAt.add with
  | none => simp
  | some expiresAt =>
    simp only [Option.isSome_some, iff_true]
    exact ⟨_, rfl, keepsRefreshToken_of_text rfl⟩

end

/-! ## Storing it -/

section
variable {manager : OAuthManager} {tr : Trace TokenOp TokenOp.Answer} {r : Except Exc OAuthToken}

/-- From its request on, a refresh sends nothing more. -/
theorem ExchangeRun.sends_once {refreshToken : PyStr} (h : ExchangeRun manager refreshToken tr r) :
    ∃ answer rest, tr = ⟨.send (manager.refreshRequest refreshToken), answer⟩ :: rest ∧
      ∀ request answer, ⟨.send request, answer⟩ ∉ rest := by
  cases h with
  | raised answer hticks exc => exact ⟨_, _, rfl, fun _ _ => hticks.send_notMem⟩
  | swapped _ hticks => exact ⟨_, _, rfl, fun _ _ => by simp [hticks.send_notMem]⟩
  | overtaken _ hticks => exact ⟨_, _, rfl, fun _ _ => by simp [hticks.send_notMem]⟩
  | lost _ hticks => exact ⟨_, _, rfl, fun _ _ => by simp [hticks.send_notMem]⟩

/-- A refresh under the lock that sends anything ends as an exchange, before which it sends
nothing. -/
theorem exchange_of_send {force : Bool} (h : Coro.Runs (manager.refreshUnderLock force) tr r)
    {request : HTTPRequest} {answer : Except Exc HTTPResponse}
    (hsend : ⟨.send request, answer⟩ ∈ tr) :
    ∃ refreshToken quiet exchange, tr = quiet ++ exchange ∧
      (∀ request answer, ⟨.send request, answer⟩ ∉ quiet) ∧
      Coro.Runs (manager.exchangeRefreshToken refreshToken) exchange r := by
  unfold OAuthManager.refreshUnderLock at h
  rw [Coro.ask_bind, Coro.runs_await] at h
  obtain ⟨stored, rest, rfl, hrest⟩ := h
  cases stored with
  | none =>
    obtain ⟨rfl, -⟩ := hrest
    simp at hsend
  | some current =>
    cases hcurrent : current.refreshToken with
    | none =>
      simp only [hcurrent] at hrest
      obtain ⟨rfl, -⟩ := hrest
      simp at hsend
    | some refreshToken =>
      simp only [hcurrent] at hrest
      cases force with
      | true => exact ⟨refreshToken, [⟨.load, some current⟩], rest, rfl, by simp, hrest⟩
      | false =>
        rcases Coro.runs_answer_bind.1 hrest with
          ⟨now, exc, -, rfl, -⟩ | ⟨now, soon, behind, -, rfl, hbehind⟩
        · simp at hsend
        · cases soon with
          | true =>
            exact ⟨refreshToken, [⟨.load, some current⟩, ⟨.now, now⟩], behind, rfl, by simp, hbehind⟩
          | false =>
            obtain ⟨rfl, -⟩ := hbehind
            simp at hsend

/-- Behind a grant, an exchange looks at the clock, and swaps in what it reads then. -/
theorem swap_of_granted {refreshToken : PyStr} {response : HTTPResponse} {payload : Json.Dict}
    {rest : Trace TokenOp TokenOp.Answer}
    (h : Coro.Runs (manager.exchangeRefreshToken refreshToken)
      (⟨.send (manager.refreshRequest refreshToken), .ok response⟩ :: rest) r)
    (hstatus : response.statusCode < 400) (hpayload : decodeTokenPayload response = some payload) :
    ∃ issuedAt rest', rest = ⟨.now, issuedAt⟩ :: rest' ∧
      ∀ token, OAuthToken.fromTokenResponse manager.lib manager.redactText payload
          (some refreshToken) issuedAt = .ok token →
        ∃ swapped rest'',
          rest' = ⟨.compareAndSwapRefreshToken (some refreshToken) token, swapped⟩ :: rest'' := by
  unfold OAuthManager.exchangeRefreshToken TokenProgram.send at h
  rcases Coro.runs_answer_bind.1 h with
    ⟨answer, exc, hanswer, htrace, -⟩ | ⟨answer, response', behind, hanswer, htrace, hbehind⟩
  · cases htrace
    cases hanswer
  · cases htrace
    cases hanswer
    have hread : manager.readToken response "token refresh failed" (some refreshToken) =
        (Coro.ask TokenOp.now >>= fun issuedAt => Coro.ofExcept
          (OAuthToken.fromTokenResponse manager.lib manager.redactText payload (some refreshToken)
            issuedAt)) := by
      rw [OAuthManager.readToken, hpayload]
      exact if_neg (by omega)
    rw [hread] at hbehind
    rcases Coro.runs_answer_bind.1 hbehind with
      ⟨issuedAt, exc, hraised, rfl, -⟩ | ⟨issuedAt, token, rest', htoken, rfl, hrest⟩
    · refine ⟨issuedAt, [], rfl, fun token htoken => ?_⟩
      rw [hraised] at htoken
      cases htoken
    · refine ⟨issuedAt, rest', rfl, fun token' htoken' => ?_⟩
      obtain rfl : token = token' := Except.ok.inj (htoken.symm.trans htoken')
      obtain ⟨swapped, rest'', rfl, -⟩ := hrest
      exact ⟨swapped, rest'', rfl⟩

theorem refreshRequest_inj {a b : PyStr} (h : manager.refreshRequest a = manager.refreshRequest b) :
    a = b := by
  simpa [OAuthManager.refreshRequest] using h

/-- In a refresh that got a grant and the time, the swap follows. -/
theorem swap_of_refresh {force : Bool} (h : Coro.Runs (manager.refreshAccessToken force) tr r)
    {refreshToken : PyStr} {response : HTTPResponse} {payload : Json.Dict} {issuedAt : Datetime}
    {before behind : Trace TokenOp TokenOp.Answer} (hstatus : response.statusCode < 400)
    (hpayload : decodeTokenPayload response = some payload)
    (htr : tr = before ++ ⟨.send (manager.refreshRequest refreshToken), .ok response⟩ ::
      ⟨.now, issuedAt⟩ :: behind)
    {token : OAuthToken}
    (htoken : OAuthToken.fromTokenResponse manager.lib manager.redactText payload
      (some refreshToken) issuedAt = .ok token) :
    ∃ swapped rest,
      behind = ⟨.compareAndSwapRefreshToken (some refreshToken) token, swapped⟩ :: rest := by
  obtain ⟨under, hunder, hruns⟩ := runs_withLock.1 h
  set sent : Event TokenOp TokenOp.Answer :=
    ⟨.send (manager.refreshRequest refreshToken), .ok response⟩ with hsent
  have hmem : sent ∈ under := by
    have hall : sent ∈ ⟨.acquire, ()⟩ :: (under ++ [⟨.release, ()⟩]) := by
      rw [← hunder, htr]
      simp
    simpa [hsent] using hall
  obtain ⟨refreshToken', quiet, exchange, rfl, hquiet, hexchange⟩ := exchange_of_send hruns hmem
  obtain ⟨answer, rest, rfl, honce⟩ := (exchangeRun_of_runs hexchange).sends_once
  -- the request is the only one of the run, and so it is where the exchange starts
  have hlocked : (⟨.acquire, ()⟩ :: quiet) ++ (⟨.send (manager.refreshRequest refreshToken'), answer⟩ ::
      rest ++ [⟨.release, ()⟩]) = before ++ sent :: ⟨.now, issuedAt⟩ :: behind := by
    rw [← htr, hunder]
    simp
  have hnot : sent ∉ (⟨.acquire, ()⟩ :: quiet : Trace TokenOp TokenOp.Answer) := by
    simp [hsent, hquiet]
  obtain ⟨before', -, hrest⟩ := Trace.behind hnot hlocked
  cases before' with
  | cons first before' =>
    obtain ⟨-, hrest⟩ := List.cons.inj hrest
    have hlate : sent ∈ rest ++ [⟨.release, ()⟩] := by
      have happend : rest ++ [⟨.release, ()⟩] = before' ++ sent :: ⟨.now, issuedAt⟩ :: behind := hrest
      rw [happend]
      simp
    simp [hsent, honce] at hlate
  | nil =>
    obtain ⟨hfirst, hbehind⟩ := List.cons.inj hrest
    rw [hsent] at hfirst
    injection hfirst with hop hanswer
    injection hop with hrequest
    obtain rfl := refreshRequest_inj hrequest
    subst hanswer
    obtain ⟨issuedAt', rest', rfl, hswap⟩ := swap_of_granted hexchange hstatus hpayload
    obtain ⟨hnow, hswapped⟩ := List.cons.inj hbehind
    cases hnow
    obtain ⟨swapped, rest'', rfl⟩ := hswap token htoken
    exact ⟨swapped, _, hswapped.symm⟩

end

/-! ## When a token is kept -/

/-- **A granted token is kept exactly when its lifetime, counted from now, ends at a time that is a
`datetime`.** -/
theorem tokenKept_iff (lib : Library) (redactText : PyStr → PyStr) (payload : Json.Dict)
    (issuedAt : Datetime) (accessToken : PyStr)
    (hissued : Datetime.minWall ≤ issuedAt.wall ∧ issuedAt.wall ≤ Datetime.maxWall)
    (haccess : Json.get payload (str "access_token") = some (.str accessToken)) :
    TokenKept lib redactText payload issuedAt ↔ Expires lib payload issuedAt := by
  constructor
  · intro h
    exact (fromTokenResponse_isOk_iff hissued haccess).1 (h.returned none)
  · intro h
    have hreads : ∀ existing, ∃ token,
        OAuthToken.fromTokenResponse lib redactText payload existing issuedAt = .ok token ∧
          KeepsRefreshToken lib payload existing token := fun existing =>
      (fromTokenResponse_isOk_iff hissued haccess).2 h
    refine ⟨hreads, ?_⟩
    rintro manager rfl rfl force tr r hruns refreshToken response before behind hstatus hpayload htr
    obtain ⟨token, htoken, hkeeps⟩ := hreads (some refreshToken)
    obtain ⟨swapped, rest, hswap⟩ := swap_of_refresh hruns hstatus hpayload htr htoken
    exact ⟨token, swapped, rest, hkeeps, hswap⟩

/-- A library that converts integers. -/
def integerLibrary : Library :=
  { simManager.lib with intFloat := fun value => match value with | .int n => some n | _ => none }

/-- An access token for an hour, with a refresh token. -/
def hourGrant : Json.Dict :=
  [(str "access_token", .str (str "b")), (str "expires_in", .int 3600),
    (str "refresh_token", .str (str "s"))]

theorem tokenKept_iff_hour :
    (Datetime.minWall ≤ (Datetime.utc 0).wall ∧ (Datetime.utc 0).wall ≤ Datetime.maxWall) ∧
    Json.get hourGrant (str "access_token") = some (.str (str "b")) ∧
    lifetimeSeconds integerLibrary (Json.get hourGrant (str "expires_in")) = 3600 ∧
    TokenKept integerLibrary id hourGrant (.utc 0) := by
  have hseconds : lifetimeSeconds integerLibrary (Json.get hourGrant (str "expires_in")) = 3600 := rfl
  refine ⟨by decide, rfl, hseconds, ?_⟩
  refine (tokenKept_iff integerLibrary id hourGrant (.utc 0) (str "b") (by decide) rfl).2 ?_
  rw [Expires, hseconds]
  decide

/-- An access token for a million million seconds. -/
def lastingGrant : Json.Dict :=
  [(str "access_token", .str (str "b")), (str "expires_in", .int 1000000000000)]

/-- In 1970 a token is granted for 31688 years, and lost. -/
theorem lastingGrant_lost : ¬TokenKept integerLibrary id lastingGrant (.utc 0) := by
  rw [tokenKept_iff integerLibrary id lastingGrant (.utc 0) (str "b") (by decide) rfl]
  have hseconds : lifetimeSeconds integerLibrary (Json.get lastingGrant (str "expires_in")) =
      1000000000000 := rfl
  rw [Expires, hseconds]
  decide

end TradeStation
