import TradeStation.Auth.Tokens

/-!
# The OAuth manager

The coroutines of `OAuthManager`. What they await are the operations `TokenOp`: the manager's lock,
the token store in its worker thread, the transport, and the clock.
-/

namespace TradeStation

open Python Foundations

/-- What a coroutine of a manager does outside itself. -/
inductive TokenOp
  | acquire
  | release
  | load
  | save (token : OAuthToken)
  | compareAndSwapRefreshToken (expectedRefreshToken : Option PyStr) (replacement : OAuthToken)
  | send (request : HTTPRequest)
  | now

/-- What comes back. -/
abbrev TokenOp.Answer : TokenOp → Type
  | .acquire => Unit
  | .release => Unit
  | .load => Option OAuthToken
  | .save _ => Unit
  | .compareAndSwapRefreshToken _ _ => Bool
  | .send _ => Except Exc HTTPResponse
  | .now => Datetime

/-- A coroutine of a manager. -/
abbrev TokenProgram (α : Type) := Coro TokenOp TokenOp.Answer Exc α

/-- `OAuthManager`, less the parties it talks to. `redact_text` only ends up in its errors. -/
structure OAuthManager where
  lib : Library
  redactText : PyStr → PyStr := id
  clientId : PyStr
  clientSecret : Option PyStr
  redirectUri : PyStr

namespace TokenProgram

/-- `async with lock`: the lock is released however the body ends. -/
def withLock {α : Type} (body : TokenProgram α) : TokenProgram α := do
  let _ : Unit ← Coro.ask TokenOp.acquire
  let result ← tryCatch (do return .ok (← body)) fun exc => return .error exc
  let _ : Unit ← Coro.ask TokenOp.release
  Coro.ofExcept result

/-- `transport.send(request)`. -/
def send (request : HTTPRequest) : TokenProgram HTTPResponse := do
  let answer : Except Exc HTTPResponse ← Coro.ask (TokenOp.send request)
  Coro.ofExcept answer

/-- `token.expires_soon()`. -/
def expiresSoon (token : OAuthToken) : TokenProgram Bool := do
  let now : Datetime ← Coro.ask TokenOp.now
  Coro.ofExcept (token.expiresSoon now)

end TokenProgram

namespace OAuthManager

variable (manager : OAuthManager)

/-- `{"client_secret": …}` where there is one. -/
def secretField : List (PyStr × PyStr) :=
  match manager.clientSecret with
  | none => []
  | some secret => if secret = [] then [] else [(str "client_secret", secret)]

/-- The request for an authorization code. -/
def codeRequest (authorizationCode : PyStr) (pkceVerifier : Option PyStr) : HTTPRequest where
  method := str "POST"
  url := tokenUrl
  formBody := some
    ([(str "grant_type", str "authorization_code"), (str "client_id", manager.clientId),
        (str "code", authorizationCode), (str "redirect_uri", manager.redirectUri)] ++
      manager.secretField ++
      match pkceVerifier with
      | none => []
      | some verifier => if verifier = [] then [] else [(str "code_verifier", verifier)])

/-- The request for a refresh. -/
def refreshRequest (refreshToken : PyStr) : HTTPRequest where
  method := str "POST"
  url := tokenUrl
  formBody := some
    ([(str "grant_type", str "refresh_token"), (str "client_id", manager.clientId),
        (str "refresh_token", refreshToken)] ++ manager.secretField)

/-- What both make of the answer of the token endpoint. -/
def readToken (response : HTTPResponse) (fallback : String)
    (existingRefreshToken : Option PyStr) : TokenProgram OAuthToken := do
  match decodeTokenPayload response with
  | none => throw (tokenError manager.lib manager.redactText none response.statusCode fallback)
  | some payload =>
    if 400 ≤ response.statusCode then
      throw (tokenError manager.lib manager.redactText (some payload) response.statusCode fallback)
    else
      let issuedAt : Datetime ← Coro.ask TokenOp.now
      Coro.ofExcept (OAuthToken.fromTokenResponse manager.lib manager.redactText payload
        existingRefreshToken issuedAt)

/-- `exchange_authorization_code`. -/
def exchangeAuthorizationCode (authorizationCode : PyStr) (pkceVerifier : Option PyStr) :
    TokenProgram OAuthToken := do
  let response ← TokenProgram.send (manager.codeRequest authorizationCode pkceVerifier)
  let token ← manager.readToken response "authorization-code exchange failed" none
  let _ : Unit ← Coro.ask (TokenOp.save token)
  return token

/-- `refresh_access_token` under the lock, from the request on. -/
def exchangeRefreshToken (refreshToken : PyStr) : TokenProgram OAuthToken := do
  let response ← TokenProgram.send (manager.refreshRequest refreshToken)
  let replacement ← manager.readToken response "token refresh failed" (some refreshToken)
  let swapped : Bool ← Coro.ask (TokenOp.compareAndSwapRefreshToken (some refreshToken) replacement)
  if swapped then return replacement
  else
    let latest : Option OAuthToken ← Coro.ask TokenOp.load
    match latest with
    | none =>
      throw (.authentication 0 (str "TokenStoreRace") (str "token store lost current token") none)
    | some latest => return latest

/-- The `AuthenticationError` of a token without a refresh token. -/
def missingRefreshToken : Exc :=
  .authentication 0 (str "MissingRefreshToken") (str "no refresh token is available") none

/-- `refresh_access_token` under the lock. -/
def refreshUnderLock (force : Bool) : TokenProgram OAuthToken := do
  let stored : Option OAuthToken ← Coro.ask TokenOp.load
  match stored with
  | none => throw missingRefreshToken
  | some current =>
    match current.refreshToken with
    | none => throw missingRefreshToken
    | some refreshToken =>
      if force then manager.exchangeRefreshToken refreshToken
      else
        let soon ← TokenProgram.expiresSoon current
        if soon then manager.exchangeRefreshToken refreshToken else return current

/-- `refresh_access_token`. -/
def refreshAccessToken (force : Bool) : TokenProgram OAuthToken :=
  TokenProgram.withLock (manager.refreshUnderLock force)

/-- `get_access_token`. -/
def getAccessToken : TokenProgram PyStr := do
  let stored : Option OAuthToken ← Coro.ask TokenOp.load
  match stored with
  | none =>
    throw (.authentication 0 (str "MissingToken") (str "no OAuth token is available") none)
  | some token =>
    let soon ← TokenProgram.expiresSoon token
    if soon then
      let token ← manager.refreshAccessToken false
      return token.accessToken
    else return token.accessToken

/-- `force_refresh_access_token`. -/
def forceRefreshAccessToken : TokenProgram PyStr := do
  let token ← manager.refreshAccessToken true
  return token.accessToken

end OAuthManager

end TradeStation
