import TradeStation.Auth.TokenWorld

/-!
# The stages of `get_access_token`

A call looks twice whether the token expires soon, once before it takes the lock and once under it.
`Stage` says where a call is, and `Stage.next` where an event takes it; `accessMachine` is the
coroutine as a machine over them.
-/

namespace TradeStation

open Python Foundations

/-- Where a call of `get_access_token` is. -/
inductive Stage
  | start
  /-- It has loaded a token, and looks whether that expires soon. -/
  | seen (token : OAuthToken)
  | waiting
  | entered
  /-- It has the lock and a token with a refresh token. -/
  | holding (current : OAuthToken) (sent : PyStr)
  | sending (sent : PyStr)
  | reading (sent : PyStr) (payload : Json.Dict)
  | swapping (sent : PyStr) (replacement : OAuthToken)
  | reloading
  /-- It gives the lock back. -/
  | leaving (r : Except Exc OAuthToken)
  | ended (r : Except Exc PyStr)

namespace Stage

/-- It has the lock. -/
def Inside : Stage → Prop
  | .start | .seen _ | .waiting | .ended _ => False
  | _ => True

/-- It has sent its request and not swapped the answer in. -/
def Exchanging : Stage → Prop
  | .sending _ | .reading _ _ | .swapping _ _ | .reloading => True
  | _ => False

theorem Exchanging.inside {stage : Stage} (h : stage.Exchanging) : stage.Inside := by
  cases stage <;> trivial

variable (manager : OAuthManager)

/-- The swap, and what follows it. -/
def swap (sent : PyStr) (replacement : OAuthToken) : TokenProgram OAuthToken := do
  let swapped : Bool ← Coro.ask (TokenOp.compareAndSwapRefreshToken (some sent) replacement)
  if swapped then return replacement
  else
    let latest : Option OAuthToken ← Coro.ask TokenOp.load
    match latest with
    | none =>
      throw (.authentication 0 (str "TokenStoreRace") (str "token store lost current token") none)
    | some latest => return latest

/-- The second look, and what follows it. -/
def look (current : OAuthToken) (sent : PyStr) : TokenProgram OAuthToken := do
  let soon ← TokenProgram.expiresSoon current
  if soon then manager.exchangeRefreshToken sent else return current

/-- What follows the lock being taken. -/
def inLock (body : TokenProgram OAuthToken) : TokenProgram PyStr := do
  let token ← show TokenProgram OAuthToken from do
    let result ← tryCatch (do return .ok (← body)) fun exc => return .error exc
    let _ : Unit ← Coro.ask TokenOp.release
    Coro.ofExcept result
  return token.accessToken

/-- What a call in a stage has before it. -/
def program : Stage → TokenProgram PyStr
  | .start => manager.getAccessToken
  | .seen token => do
    let soon ← TokenProgram.expiresSoon token
    if soon then
      let token ← manager.refreshAccessToken false
      return token.accessToken
    else return token.accessToken
  | .waiting => do
    let token ← manager.refreshAccessToken false
    return token.accessToken
  | .entered => inLock (manager.refreshUnderLock false)
  | .holding current sent => inLock (look manager current sent)
  | .sending sent => inLock (manager.exchangeRefreshToken sent)
  | .reading sent payload => inLock do
    let issuedAt : Datetime ← Coro.ask TokenOp.now
    let replacement ← Coro.ofExcept (OAuthToken.fromTokenResponse manager.lib manager.redactText
      payload (some sent) issuedAt)
    swap sent replacement
  | .swapping sent replacement => inLock (swap sent replacement)
  | .reloading => inLock do
    let latest : Option OAuthToken ← Coro.ask TokenOp.load
    match latest with
    | none =>
      throw (.authentication 0 (str "TokenStoreRace") (str "token store lost current token") none)
    | some latest => return latest
  | .leaving r => inLock (Coro.ofExcept r)
  | .ended r => Coro.ofExcept r

/-- Where an event takes a call. -/
def next : Stage → Event TokenOp TokenOp.Answer → Stage
  | .start, ⟨.load, none⟩ =>
    .ended (.error (.authentication 0 (str "MissingToken") (str "no OAuth token is available") none))
  | .start, ⟨.load, some token⟩ => .seen token
  | .seen token, ⟨.now, now⟩ =>
    match token.expiresSoon now with
    | .error exc => .ended (.error exc)
    | .ok true => .waiting
    | .ok false => .ended (.ok token.accessToken)
  | .waiting, ⟨.acquire, _⟩ => .entered
  | .entered, ⟨.load, none⟩ => .leaving (.error OAuthManager.missingRefreshToken)
  | .entered, ⟨.load, some current⟩ =>
    match current.refreshToken with
    | none => .leaving (.error OAuthManager.missingRefreshToken)
    | some sent => .holding current sent
  | .holding current sent, ⟨.now, now⟩ =>
    match current.expiresSoon now with
    | .error exc => .leaving (.error exc)
    | .ok true => .sending sent
    | .ok false => .leaving (.ok current)
  | .sending _, ⟨.send _, .error exc⟩ => .leaving (.error exc)
  | .sending sent, ⟨.send _, .ok response⟩ =>
    match decodeTokenPayload response with
    | none => .leaving (.error (tokenError manager.lib manager.redactText none response.statusCode
        "token refresh failed"))
    | some payload =>
      if 400 ≤ response.statusCode then
        .leaving (.error (tokenError manager.lib manager.redactText (some payload)
          response.statusCode "token refresh failed"))
      else .reading sent payload
  | .reading sent payload, ⟨.now, issuedAt⟩ =>
    match OAuthToken.fromTokenResponse manager.lib manager.redactText payload (some sent)
        issuedAt with
    | .error exc => .leaving (.error exc)
    | .ok replacement => .swapping sent replacement
  | .swapping _ replacement, ⟨.compareAndSwapRefreshToken _ _, swapped⟩ =>
    if swapped then .leaving (.ok replacement) else .reloading
  | .reloading, ⟨.load, none⟩ =>
    .leaving (.error (.authentication 0 (str "TokenStoreRace")
      (str "token store lost current token") none))
  | .reloading, ⟨.load, some latest⟩ => .leaving (.ok latest)
  | .leaving r, ⟨.release, _⟩ => .ended (r.map OAuthToken.accessToken)
  | stage, _ => stage

theorem inLock_ofExcept (r : Except Exc OAuthToken) :
    inLock (Coro.ofExcept r) = .await .release fun _ => Coro.ofExcept (r.map OAuthToken.accessToken) := by
  cases r <;> rfl

theorem program_next {stage : Stage} {op : TokenOp} {k : op.Answer → TokenProgram PyStr}
    (x : op.Answer) (h : stage.program manager = .await op k) :
    (stage.next manager ⟨op, x⟩).program manager = k x := by
  cases stage with
  | start =>
    cases h
    cases x <;> rfl
  | seen token =>
    cases h
    simp only [next]
    show _ = Coro.ofExcept (token.expiresSoon x) >>= _
    cases token.expiresSoon x with
    | error exc => rfl
    | ok soon => cases soon <;> rfl
  | waiting =>
    cases h
    rfl
  | entered =>
    cases h
    cases x with
    | none => rfl
    | some current =>
      simp only [next]
      show _ = inLock (match current.refreshToken with
        | none => throw OAuthManager.missingRefreshToken
        | some sent => look manager current sent)
      cases current.refreshToken <;> rfl
  | holding current sent =>
    cases h
    simp only [next]
    show _ = inLock (Coro.ofExcept (current.expiresSoon x) >>= _)
    cases current.expiresSoon x with
    | error exc => rfl
    | ok soon => cases soon <;> rfl
  | sending sent =>
    cases h
    cases x with
    | error exc => rfl
    | ok response =>
      simp only [next]
      show _ = inLock (manager.readToken response "token refresh failed" (some sent) >>= swap sent)
      unfold OAuthManager.readToken
      cases decodeTokenPayload response with
      | none => rfl
      | some payload =>
        simp only
        split_ifs <;> rfl
  | reading sent payload =>
    cases h
    simp only [next]
    show _ = inLock (Coro.ofExcept (OAuthToken.fromTokenResponse manager.lib manager.redactText
      payload (some sent) x) >>= swap sent)
    cases OAuthToken.fromTokenResponse manager.lib manager.redactText payload (some sent) x <;> rfl
  | swapping sent replacement =>
    cases h
    cases x <;> rfl
  | reloading =>
    cases h
    cases x <;> rfl
  | leaving r =>
    rw [program, inLock_ofExcept] at h
    cases h
    rfl
  | ended r => cases r <;> cases h

end Stage

/-- `get_access_token` as a machine. -/
def accessMachine (manager : OAuthManager) : Coro.Machine TokenOp TokenOp.Answer Exc PyStr Stage where
  program := Stage.program manager
  next := Stage.next manager
  program_next := Stage.program_next manager

/-! ## What a call does in its stage -/

/-- In a stage and a world, a call performs an operation; the stage and the world then. -/
inductive Moves (manager : OAuthManager) (w : TokenWorld Unit) :
    Stage → TokenOp → Stage → TokenWorld Unit → Prop
  | absent (exc : Exc) : Moves manager w .start .load (.ended (.error exc)) w
  | found {token : OAuthToken} (hstore : w.store = some token) :
    Moves manager w .start .load (.seen token) w
  | unseen {token : OAuthToken} {exc : Exc} (hsoon : token.expiresSoon w.now = .error exc) :
    Moves manager w (.seen token) .now (.ended (.error exc)) w
  | fresh {token : OAuthToken} (hsoon : token.expiresSoon w.now = .ok false) :
    Moves manager w (.seen token) .now (.ended (.ok token.accessToken)) w
  | stale {token : OAuthToken} (hsoon : token.expiresSoon w.now = .ok true) :
    Moves manager w (.seen token) .now .waiting w
  | enters (hfree : w.locked () = false) :
    Moves manager w .waiting .acquire .entered
      { w with locked := Function.update w.locked () true }
  | missing (hstore : w.store.bind OAuthToken.refreshToken = none) :
    Moves manager w .entered .load (.leaving (.error OAuthManager.missingRefreshToken)) w
  | holds {current : OAuthToken} {sent : PyStr} (hstore : w.store = some current)
      (hsent : current.refreshToken = some sent) :
    Moves manager w .entered .load (.holding current sent) w
  | unlooked {current : OAuthToken} {sent : PyStr} {exc : Exc}
      (hsoon : current.expiresSoon w.now = .error exc) :
    Moves manager w (.holding current sent) .now (.leaving (.error exc)) w
  | keeps {current : OAuthToken} {sent : PyStr} (hsoon : current.expiresSoon w.now = .ok false) :
    Moves manager w (.holding current sent) .now (.leaving (.ok current)) w
  | sends {current : OAuthToken} {sent : PyStr} (hsoon : current.expiresSoon w.now = .ok true) :
    Moves manager w (.holding current sent) .now (.sending sent) w
  | refused {sent : PyStr} (request : HTTPRequest) (exc : Exc) :
    Moves manager w (.sending sent) (.send request) (.leaving (.error exc)) w
  | answered {sent : PyStr} (request : HTTPRequest) (payload : Json.Dict) :
    Moves manager w (.sending sent) (.send request) (.reading sent payload) w
  | unread {sent : PyStr} {payload : Json.Dict} (exc : Exc) :
    Moves manager w (.reading sent payload) .now (.leaving (.error exc)) w
  | reads {sent : PyStr} {payload : Json.Dict} {replacement : OAuthToken}
      (hread : OAuthToken.fromTokenResponse manager.lib manager.redactText payload (some sent)
        w.now = .ok replacement) :
    Moves manager w (.reading sent payload) .now (.swapping sent replacement) w
  | swaps {sent : PyStr} {replacement : OAuthToken}
      (hstore : w.store.bind OAuthToken.refreshToken = some sent) :
    Moves manager w (.swapping sent replacement)
      (.compareAndSwapRefreshToken (some sent) replacement) (.leaving (.ok replacement))
      { w with store := some replacement }
  | overtaken {sent : PyStr} {replacement : OAuthToken}
      (hstore : w.store.bind OAuthToken.refreshToken ≠ some sent) :
    Moves manager w (.swapping sent replacement)
      (.compareAndSwapRefreshToken (some sent) replacement) .reloading w
  | reloads (r : Except Exc OAuthToken) : Moves manager w .reloading .load (.leaving r) w
  | leaves (r : Except Exc OAuthToken) :
    Moves manager w (.leaving r) .release (.ended (r.map OAuthToken.accessToken))
      { w with locked := Function.update w.locked () false }

/-- **A call does nothing else.** -/
theorem moves_of_performs {I : Type} {manager : OAuthManager} {w w' : TokenWorld Unit}
    {stage : Stage} {i : I} {op : TokenOp} {k : op.Answer → TokenProgram PyStr} {x : op.Answer}
    (hawait : (accessMachine manager).program stage = .await op k)
    (h : Performs (fun _ => ()) i w op x w') :
    Moves manager w stage op ((accessMachine manager).next stage ⟨op, x⟩) w' := by
  change stage.program manager = .await op k at hawait
  change Moves manager w stage op (stage.next manager ⟨op, x⟩) w'
  cases stage with
  | start =>
    cases hawait
    obtain ⟨rfl, rfl⟩ := h.loaded
    cases hstore : w'.store with
    | none => exact .absent _
    | some token => exact .found hstore
  | seen token =>
    cases hawait
    cases h with
    | now _ ht =>
      subst ht
      simp only [Stage.next]
      cases hsoon : token.expiresSoon w.now with
      | error exc => exact .unseen hsoon
      | ok soon =>
        cases soon with
        | true => exact .stale hsoon
        | false => exact .fresh hsoon
  | waiting =>
    cases hawait
    cases h with
    | acquire hfree => exact .enters hfree
  | entered =>
    cases hawait
    obtain ⟨rfl, rfl⟩ := h.loaded
    cases hstore : w'.store with
    | none => exact .missing (by simp [hstore])
    | some current =>
      simp only [Stage.next]
      cases hsent : current.refreshToken with
      | none => exact .missing (by simp [hstore, hsent])
      | some sent => exact .holds hstore hsent
  | holding current sent =>
    cases hawait
    cases h with
    | now _ ht =>
      subst ht
      simp only [Stage.next]
      cases hsoon : current.expiresSoon w.now with
      | error exc => exact .unlooked hsoon
      | ok soon =>
        cases soon with
        | true => exact .sends hsoon
        | false => exact .keeps hsoon
  | sending sent =>
    cases hawait
    cases h with
    | send =>
      cases x with
      | error exc => exact .refused _ exc
      | ok response =>
        simp only [Stage.next]
        cases decodeTokenPayload response with
        | none => exact .refused _ _
        | some payload =>
          simp only
          split_ifs
          · exact .refused _ _
          · exact .answered _ payload
  | reading sent payload =>
    cases hawait
    cases h with
    | now _ ht =>
      subst ht
      simp only [Stage.next]
      cases hread : OAuthToken.fromTokenResponse manager.lib manager.redactText payload (some sent)
          w.now with
      | error exc => exact .unread exc
      | ok replacement => exact .reads hread
  | swapping sent replacement =>
    cases hawait
    cases h with
    | swap _ _ _ _ hswap =>
      cases x with
      | true =>
        obtain ⟨hstore, rfl⟩ := compareAndSwap_true hswap
        exact .swaps hstore
      | false =>
        have hstore : w.store.bind OAuthToken.refreshToken ≠ some sent := by
          intro heq
          simp [MemoryTokenStore.compareAndSwapRefreshToken, heq] at hswap
        obtain rfl := compareAndSwap_false hswap
        exact .overtaken hstore
  | reloading =>
    cases hawait
    obtain ⟨rfl, rfl⟩ := h.loaded
    cases w'.store <;> exact .reloads _
  | leaving r =>
    rw [Stage.program, Stage.inLock_ofExcept] at hawait
    cases hawait
    cases h
    exact .leaves r
  | ended r => cases r <;> cases hawait

end TradeStation
