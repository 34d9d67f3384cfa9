import TradeStation.Auth.TokenWorld

/-!
# No rotation is lost

A refresh loads a token, sends its refresh token to the token endpoint, and swaps the answer in; any
other manager may do the same, or save another token, between any two of these.

* `RefreshRun` lists the runs of `refresh_access_token`, and `refreshRun_of_runs` says that there are
  no others. `refresh_obeys`: it swaps against the refresh token that it sent.
* `refresh_keepsRotation` carries this to a pool of any number of managers and calls.
-/

namespace TradeStation

open Python Foundations

/-! ## The runs of a refresh -/

/-- The token endpoint grants a token. -/
def Granted (response : HTTPResponse) : Prop :=
  response.statusCode < 400 ∧ ∃ payload accessToken, decodeTokenPayload response = some payload ∧
    Json.get payload (str "access_token") = some (.str accessToken)

/-- Nothing but looks at the clock. -/
def Ticks (tr : Trace TokenOp TokenOp.Answer) : Prop := ∀ event ∈ tr, event.op = .now

/-- A run of a refresh, from its request on. -/
inductive ExchangeRun (manager : OAuthManager) (refreshToken : PyStr) :
    Trace TokenOp TokenOp.Answer → Except Exc OAuthToken → Prop
  /-- The transport raises, or the answer is no token. -/
  | raised (answer : Except Exc HTTPResponse) {ticks : Trace TokenOp TokenOp.Answer}
      (hticks : Ticks ticks) (exc : Exc) :
      ExchangeRun manager refreshToken
        (⟨.send (manager.refreshRequest refreshToken), answer⟩ :: ticks) (.error exc)
  | swapped {response : HTTPResponse} (hgranted : Granted response)
      {ticks : Trace TokenOp TokenOp.Answer} (hticks : Ticks ticks) (replacement : OAuthToken) :
      ExchangeRun manager refreshToken
        (⟨.send (manager.refreshRequest refreshToken), .ok response⟩ :: (ticks ++
          [⟨.compareAndSwapRefreshToken (some refreshToken) replacement, true⟩])) (.ok replacement)
  | overtaken {response : HTTPResponse} (hgranted : Granted response)
      {ticks : Trace TokenOp TokenOp.Answer} (hticks : Ticks ticks) (replacement latest : OAuthToken) :
      ExchangeRun manager refreshToken
        (⟨.send (manager.refreshRequest refreshToken), .ok response⟩ :: (ticks ++
          [⟨.compareAndSwapRefreshToken (some refreshToken) replacement, false⟩,
            ⟨.load, some latest⟩])) (.ok latest)
  | lost {response : HTTPResponse} (hgranted : Granted response)
      {ticks : Trace TokenOp TokenOp.Answer} (hticks : Ticks ticks) (replacement : OAuthToken)
      (exc : Exc) :
      ExchangeRun manager refreshToken
        (⟨.send (manager.refreshRequest refreshToken), .ok response⟩ :: (ticks ++
          [⟨.compareAndSwapRefreshToken (some refreshToken) replacement, false⟩,
            ⟨.load, none⟩])) (.error exc)

/-- A run of a refresh under the lock. -/
inductive UnderLockRun (manager : OAuthManager) :
    Trace TokenOp TokenOp.Answer → Except Exc OAuthToken → Prop
  | missing (stored : Option OAuthToken) (exc : Exc) :
    UnderLockRun manager [⟨.load, stored⟩] (.error exc)
  | uncompared (current : OAuthToken) (now : Datetime) (exc : Exc) :
    UnderLockRun manager [⟨.load, some current⟩, ⟨.now, now⟩] (.error exc)
  | fresh (current : OAuthToken) (now : Datetime) :
    UnderLockRun manager [⟨.load, some current⟩, ⟨.now, now⟩] (.ok current)
  | exchanged {current : OAuthToken} {refreshToken : PyStr}
      (hcurrent : current.refreshToken = some refreshToken)
      {ticks tr : Trace TokenOp TokenOp.Answer} (hticks : Ticks ticks) {r : Except Exc OAuthToken}
      (hrun : ExchangeRun manager refreshToken tr r) :
      UnderLockRun manager (⟨.load, some current⟩ :: (ticks ++ tr)) r

/-- A run of `refresh_access_token`. -/
def RefreshRun (manager : OAuthManager) (tr : Trace TokenOp TokenOp.Answer)
    (r : Except Exc OAuthToken) : Prop :=
  ∃ under, tr = ⟨.acquire, ()⟩ :: (under ++ [⟨.release, ()⟩]) ∧ UnderLockRun manager under r

section
variable {manager : OAuthManager} {tr : Trace TokenOp TokenOp.Answer}

/-- What is under a lock runs between taking the lock and giving it back. -/
theorem runs_withLock {α : Type} {body : TokenProgram α} {r : Except Exc α} :
    Coro.Runs (TokenProgram.withLock body) tr r ↔
      ∃ under, tr = ⟨.acquire, ()⟩ :: (under ++ [⟨.release, ()⟩]) ∧ Coro.Runs body under r := by
  unfold TokenProgram.withLock
  simp only [Coro.ask_bind, Coro.pure_eq, Coro.runs_await]
  constructor
  · rintro ⟨⟨⟩, rest, rfl, h⟩
    rcases Coro.runs_bind.1 h with ⟨exc, hcaught, rfl⟩ | ⟨result, under, tail, rfl, hcaught, htail⟩
    · obtain ⟨r', he, -⟩ := Coro.runs_caught.1 hcaught
      cases he
    · obtain ⟨r', he, hbody⟩ := Coro.runs_caught.1 hcaught
      cases he
      obtain ⟨⟨⟩, rest, rfl, hend⟩ := htail
      obtain ⟨rfl, rfl⟩ := Coro.runs_ofExcept.1 hend
      exact ⟨under, rfl, hbody⟩
  · rintro ⟨under, rfl, hbody⟩
    refine ⟨(), _, rfl, Coro.runs_bind.2 (.inr ⟨r, under, _, rfl, ?_, ?_⟩)⟩
    · exact Coro.runs_caught.2 ⟨r, rfl, hbody⟩
    · exact ⟨(), [], rfl, Coro.runs_ofExcept.2 ⟨rfl, rfl⟩⟩

theorem readToken_ticks {response : HTTPResponse} {fallback : String} {existing : Option PyStr} :
    Coro.Only (· = .now) (manager.readToken response fallback existing) := by
  unfold OAuthManager.readToken
  split
  · trivial
  · split_ifs
    · trivial
    · exact Coro.Only.bind ⟨rfl, fun _ => trivial⟩ fun _ => Coro.only_ofExcept _ _

theorem granted_of_readToken {response : HTTPResponse} {fallback : String}
    {existing : Option PyStr} {token : OAuthToken}
    (h : Coro.Runs (manager.readToken response fallback existing) tr (.ok token)) :
    Granted response := by
  unfold OAuthManager.readToken at h
  split at h
  · cases h.2
  · next payload hpayload =>
    split_ifs at h with hstatus
    · cases h.2
    · obtain ⟨issuedAt, rest, rfl, h⟩ := h
      have htoken := (Coro.runs_ofExcept.1 h).2
      unfold OAuthToken.fromTokenResponse at htoken
      split at htoken
      · next accessToken haccess => exact ⟨by omega, payload, accessToken, hpayload, haccess⟩
      · cases htoken

theorem exchangeRun_of_runs {refreshToken : PyStr} {r : Except Exc OAuthToken}
    (h : Coro.Runs (manager.exchangeRefreshToken refreshToken) tr r) :
    ExchangeRun manager refreshToken tr r := by
  unfold OAuthManager.exchangeRefreshToken TokenProgram.send at h
  rcases Coro.runs_answer_bind.1 h with
    ⟨answer, exc, -, rfl, rfl⟩ | ⟨answer, response, behind, rfl, rfl, hbehind⟩
  · exact .raised answer (by simp [Ticks]) exc
  rcases Coro.runs_bind.1 hbehind with
    ⟨exc, hread, rfl⟩ | ⟨replacement, ticks, tail, rfl, hread, htail⟩
  · exact .raised _ (readToken_ticks.of_runs hread) exc
  have hticks : Ticks ticks := readToken_ticks.of_runs hread
  have hgranted := granted_of_readToken hread
  obtain ⟨swapped, rest, rfl, hrest⟩ := htail
  cases swapped with
  | true =>
    obtain ⟨rfl, rfl⟩ := hrest
    exact .swapped hgranted hticks replacement
  | false =>
    obtain ⟨latest, rest, rfl, hlatest⟩ := hrest
    cases latest with
    | none =>
      obtain ⟨rfl, rfl⟩ := hlatest
      exact .lost hgranted hticks replacement _
    | some latest =>
      obtain ⟨rfl, rfl⟩ := hlatest
      exact .overtaken hgranted hticks replacement latest

theorem underLockRun_of_runs {force : Bool} {r : Except Exc OAuthToken}
    (h : Coro.Runs (manager.refreshUnderLock force) tr r) : UnderLockRun manager tr r := by
  unfold OAuthManager.refreshUnderLock at h
  rw [Coro.ask_bind, Coro.runs_await] at h
  obtain ⟨stored, rest, rfl, hrest⟩ := h
  cases stored with
  | none =>
    obtain ⟨rfl, rfl⟩ := hrest
    exact .missing none _
  | some current =>
    cases hcurrent : current.refreshToken with
    | none =>
      simp only [hcurrent] at hrest
      obtain ⟨rfl, rfl⟩ := hrest
      exact .missing (some current) _
    | some refreshToken =>
      simp only [hcurrent] at hrest
      cases force with
      | true =>
        have hnone : Ticks [] := by simp [Ticks]
        exact .exchanged hcurrent hnone (exchangeRun_of_runs hrest)
      | false =>
        rcases Coro.runs_answer_bind.1 hrest with
          ⟨now, exc, -, rfl, rfl⟩ | ⟨now, soon, behind, -, rfl, hbehind⟩
        · exact .uncompared current now exc
        · cases soon with
          | true =>
            have hlook : Ticks [⟨.now, now⟩] := by simp [Ticks]
            exact .exchanged hcurrent hlook (exchangeRun_of_runs hbehind)
          | false =>
            obtain ⟨rfl, rfl⟩ := hbehind
            exact .fresh current now

theorem refreshRun_of_runs {force : Bool} {r : Except Exc OAuthToken}
    (h : Coro.Runs (manager.refreshAccessToken force) tr r) : RefreshRun manager tr r := by
  obtain ⟨under, rfl, hunder⟩ := runs_withLock.1 h
  exact ⟨under, rfl, underLockRun_of_runs hunder⟩

/-! ## What a run says of the store -/

/-- The event says that a token is in the store: it was loaded, or swapped in. -/
def Shows (event : Event TokenOp TokenOp.Answer) (token : OAuthToken) : Prop :=
  event = ⟨.load, some token⟩ ∨
    ∃ expected, event = ⟨.compareAndSwapRefreshToken expected token, true⟩

theorem Ticks.not_stores {ticks : Trace TokenOp TokenOp.Answer} (h : Ticks ticks) :
    ∀ event ∈ ticks, ∀ token, ¬Stores event token := by
  rintro ⟨op, x⟩ hevent token (heq | ⟨expected, heq⟩)
  · cases heq
    cases h _ hevent
  · cases heq
    cases h _ hevent

theorem Ticks.send_notMem {ticks : Trace TokenOp TokenOp.Answer} (h : Ticks ticks)
    {request : HTTPRequest} {answer : Except Exc HTTPResponse} :
    ⟨.send request, answer⟩ ∉ ticks := by
  intro hmem
  cases h _ hmem

/-- A swap is behind the looks at the clock. -/
theorem Ticks.swap_mem {first : Event TokenOp TokenOp.Answer} {ticks tail : Trace TokenOp TokenOp.Answer}
    (hticks : Ticks ticks) {expected : Option PyStr} {replacement : OAuthToken} {swapped : Bool}
    (hfirst : first ≠ ⟨.compareAndSwapRefreshToken expected replacement, swapped⟩)
    (h : ⟨.compareAndSwapRefreshToken expected replacement, swapped⟩ ∈ first :: (ticks ++ tail)) :
    ⟨.compareAndSwapRefreshToken expected replacement, swapped⟩ ∈ tail := by
  rcases List.mem_cons.1 h with heq | h
  · exact absurd heq.symm hfirst
  rcases List.mem_append.1 h with h | h
  · cases hticks _ h
  · exact h

/-- A refresh from its request on that raises stores nothing. -/
theorem ExchangeRun.raises_storing_nothing {refreshToken : PyStr} {exc : Exc}
    (h : ExchangeRun manager refreshToken tr (.error exc)) :
    ∀ event ∈ tr, ∀ token, ¬Stores event token := by
  cases h with
  | raised answer hticks =>
    intro event hevent token
    rcases List.mem_cons.1 hevent with rfl | hevent
    · simp [Stores]
    · exact hticks.not_stores event hevent token
  | lost _ hticks =>
    intro event hevent token
    rcases List.mem_cons.1 hevent with rfl | hevent
    · simp [Stores]
    rcases List.mem_append.1 hevent with hevent | hevent
    · exact hticks.not_stores event hevent token
    · simp only [List.mem_cons, List.not_mem_nil, or_false] at hevent
      rcases hevent with rfl | rfl <;> simp [Stores]

theorem UnderLockRun.raises_storing_nothing {exc : Exc}
    (h : UnderLockRun manager tr (.error exc)) : ∀ event ∈ tr, ∀ token, ¬Stores event token := by
  cases h with
  | missing => simp [Stores]
  | uncompared => simp [Stores]
  | exchanged _ hticks hrun =>
    intro event hevent token
    rcases List.mem_cons.1 hevent with rfl | hevent
    · simp [Stores]
    rcases List.mem_append.1 hevent with hevent | hevent
    · exact hticks.not_stores event hevent token
    · exact hrun.raises_storing_nothing event hevent token

/-- **A refresh that raises stores nothing.** -/
theorem RefreshRun.raises_storing_nothing {exc : Exc} (h : RefreshRun manager tr (.error exc)) :
    ∀ event ∈ tr, ∀ token, ¬Stores event token := by
  obtain ⟨under, rfl, hunder⟩ := h
  intro event hevent token
  simp only [List.mem_cons, List.mem_append, List.not_mem_nil, or_false] at hevent
  rcases hevent with rfl | hevent | rfl
  · simp [Stores]
  · exact hunder.raises_storing_nothing event hevent token
  · simp [Stores]

theorem ExchangeRun.shows {refreshToken : PyStr} {token : OAuthToken}
    (h : ExchangeRun manager refreshToken tr (.ok token)) : ∃ event ∈ tr, Shows event token := by
  cases h with
  | swapped =>
    exact ⟨⟨.compareAndSwapRefreshToken (some refreshToken) token, true⟩, by simp, .inr ⟨_, rfl⟩⟩
  | overtaken => exact ⟨⟨.load, some token⟩, by simp, .inl rfl⟩

theorem UnderLockRun.shows {token : OAuthToken} (h : UnderLockRun manager tr (.ok token)) :
    ∃ event ∈ tr, Shows event token := by
  cases h with
  | fresh now => exact ⟨_, List.mem_cons_self, .inl rfl⟩
  | exchanged hcurrent hticks hrun =>
    obtain ⟨event, hevent, hshows⟩ := hrun.shows
    exact ⟨event, List.mem_cons_of_mem _ (List.mem_append_right _ hevent), hshows⟩

/-- **The token that a refresh returns was in the store** between its first operation and its last. -/
theorem RefreshRun.shows {token : OAuthToken} (h : RefreshRun manager tr (.ok token)) :
    ∃ tr₁ event tr₂, tr = tr₁ ++ event :: tr₂ ∧ tr₂ ≠ [] ∧ Shows event token := by
  obtain ⟨under, rfl, hunder⟩ := h
  obtain ⟨event, hevent, hshows⟩ := hunder.shows
  obtain ⟨under₁, under₂, rfl⟩ := List.append_of_mem hevent
  exact ⟨⟨.acquire, ()⟩ :: under₁, event, under₂ ++ [⟨.release, ()⟩], by simp, by simp, hshows⟩

theorem ExchangeRun.overtaken_of_mem {refreshToken : PyStr} {r : Except Exc OAuthToken}
    (h : ExchangeRun manager refreshToken tr r) {expected : Option PyStr} {replacement : OAuthToken}
    (hswap : ⟨.compareAndSwapRefreshToken expected replacement, false⟩ ∈ tr) :
    ∃ tr₁ stored, tr = tr₁ ++
        [⟨.compareAndSwapRefreshToken expected replacement, false⟩, ⟨.load, stored⟩] ∧
      ∀ latest, stored = some latest → r = .ok latest := by
  cases h with
  | raised answer hticks =>
    rcases List.mem_cons.1 hswap with heq | hmem
    · cases heq
    · cases hticks _ hmem
  | swapped _ hticks =>
    have hlast := hticks.swap_mem (by simp) hswap
    simp at hlast
  | overtaken _ hticks replacement' latest =>
    have hlast := hticks.swap_mem (by simp) hswap
    simp at hlast
    obtain ⟨rfl, rfl⟩ := hlast
    exact ⟨_, some latest, (List.cons_append ..).symm, fun _ hsome => by cases hsome; rfl⟩
  | lost _ hticks replacement' exc =>
    have hlast := hticks.swap_mem (by simp) hswap
    simp at hlast
    obtain ⟨rfl, rfl⟩ := hlast
    exact ⟨_, none, (List.cons_append ..).symm, by simp⟩

/-- A refresh whose swap fails loads once more, and returns what it loads. -/
theorem UnderLockRun.overtaken_of_mem {r : Except Exc OAuthToken} (h : UnderLockRun manager tr r)
    {expected : Option PyStr} {replacement : OAuthToken}
    (hswap : ⟨.compareAndSwapRefreshToken expected replacement, false⟩ ∈ tr) :
    ∃ tr₁ current stored, tr = tr₁ ++
        [⟨.compareAndSwapRefreshToken expected replacement, false⟩, ⟨.load, stored⟩] ∧
      ⟨.load, some current⟩ ∈ tr₁ ∧ ∀ latest, stored = some latest → r = .ok latest := by
  cases h with
  | missing => simp at hswap
  | uncompared => simp at hswap
  | fresh => simp at hswap
  | @exchanged current _ _ ticks _ hticks _ hrun =>
    obtain ⟨tr₁, stored, rfl, hlatest⟩ := hrun.overtaken_of_mem (hticks.swap_mem (by simp) hswap)
    exact ⟨⟨.load, some current⟩ :: (ticks ++ tr₁), current, stored, by simp, by simp, hlatest⟩

/-- **A refresh whose swap fails** loads once more, and returns what it loads. -/
theorem RefreshRun.overtaken_of_mem {r : Except Exc OAuthToken} (h : RefreshRun manager tr r)
    {expected : Option PyStr} {replacement : OAuthToken}
    (hswap : ⟨.compareAndSwapRefreshToken expected replacement, false⟩ ∈ tr) :
    ∃ tr₁ current stored, tr = tr₁ ++ [⟨.compareAndSwapRefreshToken expected replacement, false⟩,
        ⟨.load, stored⟩, ⟨.release, ()⟩] ∧
      ⟨.load, some current⟩ ∈ tr₁ ∧ ∀ latest, stored = some latest → r = .ok latest := by
  obtain ⟨under, rfl, hunder⟩ := h
  have hmem : ⟨.compareAndSwapRefreshToken expected replacement, false⟩ ∈ under := by
    simpa using hswap
  obtain ⟨tr₁, current, stored, rfl, hload, hlatest⟩ := hunder.overtaken_of_mem hmem
  exact ⟨⟨.acquire, ()⟩ :: tr₁, current, stored, by simp, List.mem_cons_of_mem _ hload, hlatest⟩

theorem ExchangeRun.refused {refreshToken : PyStr} {r : Except Exc OAuthToken}
    (h : ExchangeRun manager refreshToken tr r) {request : HTTPRequest} {response : HTTPResponse}
    (hsent : ⟨.send request, .ok response⟩ ∈ tr) (hrefused : ¬Granted response) :
    ∃ exc, r = .error exc := by
  cases h with
  | raised answer hticks exc => exact ⟨exc, rfl⟩
  | swapped hgranted hticks =>
    simp [hticks.send_notMem] at hsent
    exact absurd (hsent.2 ▸ hgranted) hrefused
  | overtaken hgranted hticks =>
    simp [hticks.send_notMem] at hsent
    exact absurd (hsent.2 ▸ hgranted) hrefused
  | lost hgranted hticks _ exc => exact ⟨exc, rfl⟩

/-- **A refresh that is refused raises.** -/
theorem RefreshRun.refused {r : Except Exc OAuthToken} (h : RefreshRun manager tr r)
    {request : HTTPRequest} {response : HTTPResponse}
    (hsent : ⟨.send request, .ok response⟩ ∈ tr) (hrefused : ¬Granted response) :
    ∃ exc, r = .error exc := by
  obtain ⟨under, rfl, hunder⟩ := h
  have hmem : ⟨.send request, .ok response⟩ ∈ under := by simpa using hsent
  cases hunder with
  | missing => simp at hmem
  | uncompared => simp at hmem
  | fresh => simp at hmem
  | exchanged _ hticks hrun =>
    rcases List.mem_cons.1 hmem with heq | hmem
    · cases heq
    rcases List.mem_append.1 hmem with hmem | hmem
    · exact absurd hmem hticks.send_notMem
    · exact hrun.refused hmem hrefused

/-! ## What is swapped -/

/-- A swap is against a refresh token that was sent before, and nothing is saved outright. -/
def SwapsWhatItSent (manager : OAuthManager) (tr : Trace TokenOp TokenOp.Answer) : TokenOp → Prop
  | .compareAndSwapRefreshToken expected _ =>
    ∃ sent answer, expected = some sent ∧ ⟨.send (manager.refreshRequest sent), answer⟩ ∈ tr
  | .save _ => False
  | _ => True

theorem exchangeRefreshToken_obeys (refreshToken : PyStr) :
    Coro.Obeys (SwapsWhatItSent manager) tr (manager.exchangeRefreshToken refreshToken) := by
  refine Coro.Obeys.bind ?_ fun response sent hsent => Coro.Obeys.bind ?_ fun replacement ticks _ => ?_
  · exact (Coro.obeys_ask trivial).bind fun _ _ _ => Coro.obeys_ofExcept _
  · refine readToken_ticks.obeys (fun _ op hop => ?_) _
    subst hop
    trivial
  · obtain ⟨answer, rest, rfl, -⟩ := hsent
    refine ⟨⟨refreshToken, answer, rfl, by simp⟩, fun swapped => ?_⟩
    cases swapped with
    | true => trivial
    | false =>
      refine ⟨trivial, fun latest => ?_⟩
      cases latest <;> trivial

/-- **A refresh swaps against the refresh token that it sent.** -/
theorem refresh_obeys (force : Bool) :
    Coro.Obeys (SwapsWhatItSent manager) [] (manager.refreshAccessToken force) := by
  have hbody : ∀ tr, Coro.Obeys (SwapsWhatItSent manager) tr (manager.refreshUnderLock force) := by
    intro tr
    unfold OAuthManager.refreshUnderLock
    rw [Coro.ask_bind]
    refine ⟨trivial, fun stored => ?_⟩
    cases stored with
    | none => trivial
    | some current =>
      cases hcurrent : current.refreshToken with
      | none =>
        simp only [hcurrent]
        trivial
      | some refreshToken =>
        simp only [hcurrent]
        split_ifs
        · exact exchangeRefreshToken_obeys refreshToken
        · refine Coro.Obeys.bind ?_ fun soon _ _ => ?_
          · exact (Coro.obeys_ask trivial).bind fun _ _ _ => Coro.obeys_ofExcept _
          · split_ifs
            · exact exchangeRefreshToken_obeys refreshToken
            · trivial
  refine (Coro.obeys_ask trivial).bind fun _ _ _ => Coro.Obeys.bind ?_ fun result _ _ => ?_
  · refine Coro.Obeys.tryCatch (Coro.Obeys.bind (hbody _) fun _ _ _ => ?_) fun _ _ _ => ?_ <;> trivial
  · exact (Coro.obeys_ask trivial).bind fun _ _ _ => Coro.obeys_ofExcept result

/-! ## The runs of an exchange -/

/-- A run of `exchange_authorization_code`. -/
inductive CodeRun : Trace TokenOp TokenOp.Answer → Except Exc OAuthToken → Prop
  | raised (request : HTTPRequest) (answer : Except Exc HTTPResponse)
      {ticks : Trace TokenOp TokenOp.Answer} (hticks : Ticks ticks) (exc : Exc) :
      CodeRun (⟨.send request, answer⟩ :: ticks) (.error exc)
  | saved (request : HTTPRequest) {response : HTTPResponse} (hgranted : Granted response)
      {ticks : Trace TokenOp TokenOp.Answer} (hticks : Ticks ticks) (token : OAuthToken) :
      CodeRun (⟨.send request, .ok response⟩ :: (ticks ++ [⟨.save token, ()⟩])) (.ok token)

theorem codeRun_of_runs {authorizationCode : PyStr} {pkceVerifier : Option PyStr}
    {r : Except Exc OAuthToken}
    (h : Coro.Runs (manager.exchangeAuthorizationCode authorizationCode pkceVerifier) tr r) :
    CodeRun tr r := by
  unfold OAuthManager.exchangeAuthorizationCode TokenProgram.send at h
  rcases Coro.runs_answer_bind.1 h with
    ⟨answer, exc, -, rfl, rfl⟩ | ⟨answer, response, behind, rfl, rfl, hbehind⟩
  · exact .raised _ answer (by simp [Ticks]) exc
  rcases Coro.runs_bind.1 hbehind with ⟨exc, hread, rfl⟩ | ⟨token, ticks, tail, rfl, hread, htail⟩
  · exact .raised _ _ (readToken_ticks.of_runs hread) exc
  obtain ⟨_, rest, rfl, rfl, rfl⟩ := htail
  exact .saved _ (granted_of_readToken hread) (readToken_ticks.of_runs hread) token

theorem CodeRun.raises_storing_nothing {exc : Exc} (h : CodeRun tr (.error exc)) :
    ∀ event ∈ tr, ∀ token, ¬Stores event token := by
  cases h with
  | raised request answer hticks =>
    intro event hevent token
    rcases List.mem_cons.1 hevent with rfl | hevent
    · simp [Stores]
    · exact hticks.not_stores event hevent token

theorem CodeRun.refused {r : Except Exc OAuthToken} (h : CodeRun tr r) {request : HTTPRequest}
    {response : HTTPResponse} (hsent : ⟨.send request, .ok response⟩ ∈ tr)
    (hrefused : ¬Granted response) : ∃ exc, r = .error exc := by
  cases h with
  | raised _ _ _ exc => exact ⟨exc, rfl⟩
  | saved _ hgranted hticks =>
    simp [hticks.send_notMem] at hsent
    exact absurd (hsent.2 ▸ hgranted) hrefused

end

/-! ## Any number of managers -/

/-- A call that may write the store. -/
inductive TokenCall
  | refresh (force : Bool)
  | exchange (authorizationCode : PyStr) (pkceVerifier : Option PyStr)

/-- The coroutine of a call. -/
def TokenCall.program (manager : OAuthManager) : TokenCall → TokenProgram OAuthToken
  | .refresh force => manager.refreshAccessToken force
  | .exchange authorizationCode pkceVerifier =>
    manager.exchangeAuthorizationCode authorizationCode pkceVerifier

section
variable {M I : Type} [DecidableEq M] [DecidableEq I]

/-- Any step, whatever the clock does. -/
abbrev AnyStep {α : Type} (owner : I → M) :
    TokenPool M I α → Pool.Label I TokenOp TokenOp.Answer → TokenPool M I α → Prop :=
  TokenStep owner fun _ _ => True

/-- What a run of a pool keeps. The calls are those of `calls`, each of its owner's manager. -/
structure RotationKept (managers : M → OAuthManager) (owner : I → M) (calls : I → TokenCall)
    (s : TokenPool M I OAuthToken) (log : TokenLog I) (s' : TokenPool M I OAuthToken) : Prop where
  /-- What a refresh does to the store is a swap, of a token with the refresh token that it sent. -/
  swapped : ∀ i force before event mid mid', calls i = .refresh force →
    Pool.At (AnyStep owner) s log s' before (some (i, event)) mid mid' →
      (∀ token, ¬Stores event token) ∧ mid'.shared.store = mid.shared.store ∨
      ∃ sent replacement held answer,
        event = ⟨.compareAndSwapRefreshToken (some sent) replacement, true⟩ ∧
        ⟨.send ((managers (owner i)).refreshRequest sent), answer⟩ ∈ Pool.eventsOf i before ∧
        mid.shared.store = some held ∧ held.refreshToken = some sent ∧
        mid'.shared.store = some replacement
  /-- A refresh whose swap fails returns what is stored at the load that follows. -/
  overtaken : ∀ i force r expected replacement, calls i = .refresh force → (s'.task i).Ended r →
    ⟨.compareAndSwapRefreshToken expected replacement, false⟩ ∈ Pool.eventsOf i log →
      ∃ latest before mid mid', r = .ok latest ∧
        Pool.At (AnyStep owner) s log s' before (some (i, ⟨.load, some latest⟩)) mid mid' ∧
        (Pool.eventsOf i before).getLast? =
          some ⟨.compareAndSwapRefreshToken expected replacement, false⟩ ∧
        mid.shared.store = some latest
  /-- What a refresh returns was stored at a moment when it had begun and had not returned. -/
  returned : ∀ i force token, calls i = .refresh force → (s'.task i).Ended (.ok token) →
    ∃ before after mid, log = before ++ after ∧ Path (AnyStep owner) s before mid ∧
      Path (AnyStep owner) mid after s' ∧ mid.shared.store = some token ∧
      Pool.eventsOf i before ≠ [] ∧ Pool.eventsOf i after ≠ []
  /-- A call that raises has not changed the store. -/
  raised : ∀ i exc before event mid mid', (s'.task i).Ended (.error exc) →
    Pool.At (AnyStep owner) s log s' before (some (i, event)) mid mid' →
      mid'.shared.store = mid.shared.store
  /-- An answer that grants no token makes a call raise. -/
  refused : ∀ i r request response, (s'.task i).Ended r →
    ⟨.send request, .ok response⟩ ∈ Pool.eventsOf i log → ¬Granted response → ∃ exc, r = .error exc

variable {managers : M → OAuthManager} {owner : I → M} {calls : I → TokenCall}
  {s s' : TokenPool M I OAuthToken} {log : TokenLog I}

/-- A step at which a call performs an event. -/
theorem performs_of_at {α : Type} {allowed : ℤ → ℤ → Prop} {s s' mid mid' : TokenPool M I α}
    {before : TokenLog I} {i : I} {event : Event TokenOp TokenOp.Answer}
    (h : Pool.At (TokenStep owner allowed) s log s' before (some (i, event)) mid mid') :
    Performs owner i mid.shared event.op event.answer mid'.shared ∧
      ∃ k, mid.task i = .await event.op k := by
  obtain ⟨after, -, -, hstep, -⟩ := h
  cases hstep with
  | perform _ x htask hperform => exact ⟨hperform, _, htask⟩

omit [DecidableEq I] in
/-- An event that shows a token leaves it in the store. -/
theorem Performs.shown {i : I} {w w' : TokenWorld M} {event : Event TokenOp TokenOp.Answer}
    {token : OAuthToken} (h : Performs owner i w event.op event.answer w')
    (hshows : Shows event token) : w'.store = some token := by
  rcases hshows with rfl | ⟨expected, rfl⟩
  · obtain ⟨hstored, rfl⟩ := h.loaded
    exact hstored.symm
  · exact h.swapped.2

omit [DecidableEq M] in
theorem mem_eventsOf_of_at {α : Type} {step : TokenPool M I α → Pool.Label I TokenOp TokenOp.Answer →
    TokenPool M I α → Prop} {s s' mid mid' : TokenPool M I α} {before : TokenLog I} {i : I}
    {event : Event TokenOp TokenOp.Answer}
    (h : Pool.At step s log s' before (some (i, event)) mid mid') :
    event ∈ Pool.eventsOf i log := by
  obtain ⟨after, rfl, -⟩ := h
  simp

/-- A token was loaded, and so there goes on to be one. -/
theorem some_of_loaded {i : I} {mid : TokenPool M I OAuthToken} {before : TokenLog I}
    (h : Path (AnyStep owner) s before mid) {current : OAuthToken}
    (hload : ⟨.load, some current⟩ ∈ Pool.eventsOf i before) : mid.shared.store ≠ none := by
  obtain ⟨tr₁, tr₂, hsplit⟩ := List.append_of_mem hload
  obtain ⟨before₁, before₂, rfl, -, -⟩ := Pool.eventsOf_split hsplit
  obtain ⟨mid₁, mid₁', hat, hrest⟩ := Pool.exists_at h
  have hstored : mid₁'.shared.store = some current := (performs_of_at hat).1.shown (.inl rfl)
  exact path_keeps_some hrest (by simp [hstored])

theorem after_call (hcalls : ∀ i, s.task i = (calls i).program (managers (owner i)))
    (hrun : Path (AnyStep owner) s log s') (i : I) :
    ((calls i).program (managers (owner i))).After (Pool.eventsOf i log) (s'.task i) := by
  rw [← hcalls i]
  exact Pool.after_of_path hrun i

/-- The events of a refresh that has ended are a run of it. -/
theorem refreshRun_of_path (hcalls : ∀ i, s.task i = (calls i).program (managers (owner i)))
    (hrun : Path (AnyStep owner) s log s') {i : I} {force : Bool} {r : Except Exc OAuthToken}
    (hcall : calls i = .refresh force) (hended : (s'.task i).Ended r) :
    RefreshRun (managers (owner i)) (Pool.eventsOf i log) r := by
  have hi := after_call hcalls hrun i
  rw [hcall] at hi
  exact refreshRun_of_runs (hi.runs hended)

theorem codeRun_of_path (hcalls : ∀ i, s.task i = (calls i).program (managers (owner i)))
    (hrun : Path (AnyStep owner) s log s') {i : I} {code : PyStr} {verifier : Option PyStr}
    {r : Except Exc OAuthToken} (hcall : calls i = .exchange code verifier)
    (hended : (s'.task i).Ended r) : CodeRun (Pool.eventsOf i log) r := by
  have hi := after_call hcalls hrun i
  rw [hcall] at hi
  exact codeRun_of_runs (hi.runs hended)

/-- What a refresh does to the store at a step of a run. -/
theorem swaps_at (hcalls : ∀ i, s.task i = (calls i).program (managers (owner i))) {i : I}
    {force : Bool} {before : TokenLog I} {event : Event TokenOp TokenOp.Answer}
    {mid mid' : TokenPool M I OAuthToken} (hcall : calls i = .refresh force)
    (hat : Pool.At (AnyStep owner) s log s' before (some (i, event)) mid mid') :
    (∀ token, ¬Stores event token) ∧ mid'.shared.store = mid.shared.store ∨
      ∃ sent replacement held answer,
        event = ⟨.compareAndSwapRefreshToken (some sent) replacement, true⟩ ∧
        ⟨.send ((managers (owner i)).refreshRequest sent), answer⟩ ∈ Pool.eventsOf i before ∧
        mid.shared.store = some held ∧ held.refreshToken = some sent ∧
        mid'.shared.store = some replacement := by
  obtain ⟨hperforms, k, htask⟩ := performs_of_at hat
  obtain ⟨after, -, hbefore, -⟩ := hat
  have hi := after_call hcalls hbefore i
  rw [hcall, htask] at hi
  have hobeys := (refresh_obeys force).of_after hi
  by_cases hstores : ∃ token, Stores event token
  · obtain ⟨replacement, rfl | ⟨expected, rfl⟩⟩ := hstores
    · exact hobeys.elim
    · obtain ⟨sent, answer, rfl, hsent⟩ := hobeys
      obtain ⟨hmatches, hstored⟩ := hperforms.swapped
      obtain ⟨held, hstore, hheld⟩ := Option.bind_eq_some_iff.1 hmatches
      exact .inr ⟨sent, replacement, held, answer, rfl, hsent, hstore, hheld, hstored⟩
  · exact .inl ⟨not_exists.1 hstores, hperforms.unchanged (not_exists.1 hstores)⟩

/-- What a refresh loads behind a swap that failed is stored then, and is what it returns. -/
theorem overtaken_of_path {manager : OAuthManager} {i : I} {r : Except Exc OAuthToken}
    {expected : Option PyStr} {replacement : OAuthToken} (hrun : Path (AnyStep owner) s log s')
    (hrefresh : RefreshRun manager (Pool.eventsOf i log) r)
    (hswap : ⟨.compareAndSwapRefreshToken expected replacement, false⟩ ∈ Pool.eventsOf i log) :
    ∃ latest before mid mid', r = .ok latest ∧
      Pool.At (AnyStep owner) s log s' before (some (i, ⟨.load, some latest⟩)) mid mid' ∧
      (Pool.eventsOf i before).getLast? =
        some ⟨.compareAndSwapRefreshToken expected replacement, false⟩ ∧
      mid.shared.store = some latest := by
  obtain ⟨tr₁, current, stored, htr, hload, hlatest⟩ := hrefresh.overtaken_of_mem hswap
  have hsplit : Pool.eventsOf i log =
      (tr₁ ++ [⟨.compareAndSwapRefreshToken expected replacement, false⟩]) ++
        ⟨.load, stored⟩ :: [⟨.release, ()⟩] := by
    simp [htr]
  obtain ⟨before, after, rfl, hbefore, -⟩ := Pool.eventsOf_split hsplit
  obtain ⟨mid, mid', hat, -⟩ := Pool.exists_at hrun
  obtain ⟨hperforms, -⟩ := performs_of_at hat
  obtain ⟨hstored, -⟩ := hperforms.loaded
  have hloaded : ⟨.load, some current⟩ ∈ Pool.eventsOf i before := by
    rw [hbefore]
    exact List.mem_append_left _ hload
  have hsome : mid.shared.store ≠ none := by
    obtain ⟨_, -, hpath, -⟩ := hat
    exact some_of_loaded hpath hloaded
  obtain ⟨latest, hlatestStored⟩ := Option.ne_none_iff_exists'.1 hsome
  obtain rfl : stored = some latest := hstored.trans hlatestStored
  exact ⟨latest, before, mid, mid', hlatest latest rfl, hat, by simp [hbefore], hlatestStored⟩

/-- What a refresh returns was in the store behind its first operation and before its last. -/
theorem returned_of_path {manager : OAuthManager} {i : I} {token : OAuthToken}
    (hrun : Path (AnyStep owner) s log s')
    (hrefresh : RefreshRun manager (Pool.eventsOf i log) (.ok token)) :
    ∃ before after mid, log = before ++ after ∧ Path (AnyStep owner) s before mid ∧
      Path (AnyStep owner) mid after s' ∧ mid.shared.store = some token ∧
      Pool.eventsOf i before ≠ [] ∧ Pool.eventsOf i after ≠ [] := by
  obtain ⟨tr₁, event, tr₂, htr, hne, hshows⟩ := hrefresh.shows
  obtain ⟨before, after, rfl, hbefore, hafter⟩ := Pool.eventsOf_split htr
  obtain ⟨mid, mid', hat, hrest⟩ := Pool.exists_at hrun
  have hstored := (performs_of_at hat).1.shown hshows
  obtain ⟨_, -, hpath, hstep, -⟩ := hat
  refine ⟨before ++ [some (i, event)], after, mid', by simp, hpath.append (.single hstep), hrest,
    hstored, by simp, ?_⟩
  rwa [hafter]

/-- **No rotation is lost**, whatever the managers, the calls, their order, the clock, and the answers
of the token endpoint. -/
theorem refresh_keepsRotation (hcalls : ∀ i, s.task i = (calls i).program (managers (owner i)))
    (hrun : Path (AnyStep owner) s log s') :
    RotationKept managers owner calls s log s' := by
  refine ⟨?_, ?_, ?_, ?_, ?_⟩
  · intro i force before event mid mid' hcall hat
    exact swaps_at hcalls hcall hat
  · intro i force r expected replacement hcall hended hswap
    exact overtaken_of_path hrun (refreshRun_of_path hcalls hrun hcall hended) hswap
  · intro i force token hcall hended
    exact returned_of_path hrun (refreshRun_of_path hcalls hrun hcall hended)
  · intro i exc before event mid mid' hended hat
    have hevent := mem_eventsOf_of_at hat
    have hnothing : ∀ token, ¬Stores event token := by
      cases hcall : calls i with
      | refresh force =>
        exact (refreshRun_of_path hcalls hrun hcall hended).raises_storing_nothing event hevent
      | exchange code verifier =>
        exact (codeRun_of_path hcalls hrun hcall hended).raises_storing_nothing event hevent
    exact (performs_of_at hat).1.unchanged hnothing
  · intro i r request response hended hsent hrefused
    cases hcall : calls i with
    | refresh force => exact (refreshRun_of_path hcalls hrun hcall hended).refused hsent hrefused
    | exchange code verifier =>
      exact (codeRun_of_path hcalls hrun hcall hended).refused hsent hrefused

end

/-! ## Two refreshes of one token -/

/-- A manager without a secret. -/
def simManager : OAuthManager where
  lib :=
    { repr := fun _ => [], reprBytes := fun _ => [], dumps := fun _ => [], urlencode := fun _ => []
      float := fun _ => none, parsedate := fun _ => .error .malformed, isoformat := fun _ => []
      canonicalDumps := fun _ => [], sha256 := fun _ => [] }
  clientId := str "client"
  clientSecret := none
  redirectUri := str "http://localhost:31022/callback"

/-- It has expired at time zero. -/
def oldToken : OAuthToken where
  accessToken := str "a"
  refreshToken := some (str "r")
  expiresAt := .utc 0

/-- The answer `{"access_token":"b"}`. -/
def grant : HTTPResponse where
  statusCode := 200
  headers := []
  body := "\x7b\"access_token\":\"b\"\x7d".toList.map fun c => c.toNat.toUInt8

/-- The token of that answer, at time zero. -/
def newToken : OAuthToken where
  accessToken := str "b"
  refreshToken := some (str "r")
  expiresAt := .utc 1200000000

/-- The answer `{"access_token":"c","refresh_token":"s"}`, which rotates the refresh token. -/
def rotatingGrant : HTTPResponse where
  statusCode := 200
  headers := []
  body := "\x7b\"access_token\":\"c\",\"refresh_token\":\"s\"\x7d".toList.map fun c => c.toNat.toUInt8

/-- The token of that answer, at time zero. -/
def rotatedToken : OAuthToken where
  accessToken := str "c"
  refreshToken := some (str "s")
  expiresAt := .utc 1200000000

/-- Calls at time zero, on a store with a token. -/
def startPool {M I α : Type} (stored : OAuthToken) (task : I → TokenProgram α) : TokenPool M I α :=
  ⟨⟨some stored, 0, fun _ => false⟩, task⟩

/-- Two managers refresh one token. The second is granted a token, too, and swaps too late: it returns
what the first has stored. -/
def overtakenLog : TokenLog Bool :=
  [some (false, ⟨.acquire, ()⟩), some (false, ⟨.load, some oldToken⟩),
    some (true, ⟨.acquire, ()⟩), some (true, ⟨.load, some oldToken⟩),
    some (false, ⟨.send (simManager.refreshRequest (str "r")), .ok rotatingGrant⟩),
    some (true, ⟨.send (simManager.refreshRequest (str "r")), .ok grant⟩),
    some (true, ⟨.now, .utc 0⟩), some (false, ⟨.now, .utc 0⟩),
    some (false, ⟨.compareAndSwapRefreshToken (some (str "r")) rotatedToken, true⟩),
    some (true, ⟨.compareAndSwapRefreshToken (some (str "r")) newToken, false⟩),
    some (false, ⟨.release, ()⟩), some (true, ⟨.load, some rotatedToken⟩),
    some (true, ⟨.release, ()⟩)]

theorem overtakes : ∃ s' : TokenPool Bool Bool OAuthToken,
    Path (AnyStep id) (startPool oldToken fun _ => simManager.refreshAccessToken true) overtakenLog s' ∧
      s'.shared.store = some rotatedToken ∧ s'.task true = .ret rotatedToken := by
  apply Exists.intro
  apply And.intro
  · apply Path.cons (tokenStep_of_performs false ⟨.acquire, ()⟩ rfl (.acquire rfl))
    apply Path.cons (tokenStep_of_performs false ⟨.load, some oldToken⟩ rfl (.load _ rfl))
    apply Path.cons (tokenStep_of_performs true ⟨.acquire, ()⟩ rfl (.acquire rfl))
    apply Path.cons (tokenStep_of_performs true ⟨.load, some oldToken⟩ rfl (.load _ rfl))
    apply Path.cons (tokenStep_of_performs false ⟨.send _, .ok rotatingGrant⟩ rfl (.send _ _))
    apply Path.cons (tokenStep_of_performs true ⟨.send _, .ok grant⟩ rfl (.send _ _))
    apply Path.cons (tokenStep_of_performs true ⟨.now, .utc 0⟩ rfl (.now _ rfl))
    apply Path.cons (tokenStep_of_performs false ⟨.now, .utc 0⟩ rfl (.now _ rfl))
    apply Path.cons (tokenStep_of_performs false ⟨.compareAndSwapRefreshToken _ rotatedToken, true⟩ rfl
      (.swap _ _ true _ rfl))
    apply Path.cons (tokenStep_of_performs true ⟨.compareAndSwapRefreshToken _ newToken, false⟩ rfl
      (.swap _ _ false _ rfl))
    apply Path.cons (tokenStep_of_performs false ⟨.release, ()⟩ rfl .release)
    apply Path.cons (tokenStep_of_performs true ⟨.load, some rotatedToken⟩ rfl (.load _ rfl))
    apply Path.single (tokenStep_of_performs true ⟨.release, ()⟩ rfl .release)
  · exact ⟨rfl, rfl⟩

theorem refresh_keepsRotation_overtaken : ∃ s',
    s'.task true = .ret rotatedToken ∧
    RotationKept (fun _ => simManager) id (fun _ : Bool => .refresh true)
      (startPool oldToken fun _ => simManager.refreshAccessToken true) overtakenLog s' := by
  obtain ⟨s', hrun, -, hended⟩ := overtakes
  exact ⟨s', hended, refresh_keepsRotation (fun _ => rfl) hrun⟩

end TradeStation
