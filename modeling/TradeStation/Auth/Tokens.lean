import TradeStation.Redaction
import TradeStation.Rest.Client

/-!
# Tokens and their store

`OAuthToken`, how one is read from an answer of the token endpoint, and `MemoryTokenStore`, whose
operations are those that any store performs in one step.
-/

namespace TradeStation

open Python

/-- `TOKEN_URL`. -/
def tokenUrl : PyStr := str "https://signin.tradestation.com/oauth/token"

/-- `REFRESH_MARGIN`, in microseconds. -/
def refreshMargin : ℤ := 120000000

/-- `DEFAULT_TOKEN_LIFETIME_SECONDS`. -/
def defaultTokenLifetimeSeconds : ℤ := 1200

/-- `OAuthToken`. -/
structure OAuthToken where
  accessToken : PyStr
  refreshToken : Option PyStr := none
  tokenType : PyStr := str "Bearer"
  expiresAt : Datetime
  scope : Option PyStr := none
  deriving DecidableEq

/-- `_coerce_expires_in_seconds`. -/
def coerceExpiresInSeconds (lib : Library) (value : Option Json) : ℤ :=
  match value with
  | some (.str text) => (lib.intFloat (.str text)).getD defaultTokenLifetimeSeconds
  | some (.int n) => (lib.intFloat (.int n)).getD defaultTokenLifetimeSeconds
  | some (.bool b) => (lib.intFloat (.bool b)).getD defaultTokenLifetimeSeconds
  | some (.float x) => (lib.intFloat (.float x)).getD defaultTokenLifetimeSeconds
  | _ => defaultTokenLifetimeSeconds

/-- `payload.get("refresh_token") or existing_refresh_token`, as the text that becomes of it. -/
def refreshTokenText (lib : Library) (payload : Json.Dict) (existingRefreshToken : Option PyStr) :
    Option PyStr :=
  let given := (Json.get payload (str "refresh_token")).filter Json.truthy
  match given with
  | some value => some (lib.str value)
  | none => existingRefreshToken.filter (· ≠ [])

namespace OAuthToken

/-- `from_token_response` at a time. -/
def fromTokenResponse (lib : Library) (redactText : PyStr → PyStr) (payload : Json.Dict)
    (existingRefreshToken : Option PyStr) (issuedAt : Datetime) : Except Exc OAuthToken :=
  let expiresIn := coerceExpiresInSeconds lib (Json.get payload (str "expires_in"))
  match Json.get payload (str "access_token") with
  | some (.str accessToken) =>
    match (timedeltaSeconds expiresIn).bind issuedAt.add with
    | none => .error .overflow
    | some expiresAt =>
      .ok
        { accessToken
          refreshToken := refreshTokenText lib payload existingRefreshToken
          tokenType := lib.str ((Json.get payload (str "token_type")).getD (.str (str "Bearer")))
          expiresAt
          scope := (Json.get payload (str "scope")).map lib.str }
  | _ =>
    .error (.authentication 0 (str "InvalidTokenResponse") (str "missing access_token")
      (some (redactFields redactText payload)))

/-- `expires_soon` at a time. -/
def expiresSoon (token : OAuthToken) (now : Datetime) : Except Exc Bool :=
  match now.add refreshMargin with
  | none => .error .overflow
  | some limit =>
    if token.expiresAt.aware = limit.aware then
      .ok (token.expiresAt.instant ≤ limit.instant)
    else
      .error (.library (.other (str "can't compare offset-naive and offset-aware datetimes")))

end OAuthToken

/-! ## The store -/

namespace MemoryTokenStore

/-- What a store holds. -/
abbrev Stored := Option OAuthToken

/-- `compare_and_swap_refresh_token`: whether it swaps, and what is stored then. -/
def compareAndSwapRefreshToken (stored : Stored) (expectedRefreshToken : Option PyStr)
    (replacement : OAuthToken) : Bool × Stored :=
  if (stored.bind OAuthToken.refreshToken) ≠ expectedRefreshToken then (false, stored)
  else (true, some replacement)

end MemoryTokenStore

/-! ## Answers of the token endpoint -/

/-- `_decode_token_payload`. -/
def decodeTokenPayload (response : HTTPResponse) : Option Json.Dict :=
  match response.json with
  | some (.obj payload) => some payload
  | _ => none

/-- `_token_error`. -/
def tokenError (lib : Library) (redactText : PyStr → PyStr) (payload : Option Json.Dict)
    (statusCode : ℤ) (fallback : String) : Exc :=
  match payload with
  | none => .authentication statusCode (str "AuthError") (str fallback) none
  | some payload =>
    .authentication statusCode
      (lib.str ((Json.get payload (str "error")).getD (.str (str "AuthError"))))
      (payloadText lib payload (str "error_description") (str "message") (str fallback))
      (some (redactFields redactText payload))

end TradeStation
