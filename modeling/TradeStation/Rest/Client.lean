import TradeStation.Config
import TradeStation.Foundations.Coroutine
import TradeStation.RateLimit
import TradeStation.Transport

/-!
# The REST client

`TradeStationRestClient.request_json` as a coroutine. What it awaits are the operations `Op`: the
token provider, the transport and the sleeper, and the two hidden inputs of a retry delay, the
random number and the clock. Whatever these answer, the coroutine is a finite tree: its loop ends
because each turn but the last uses up an attempt or the single refresh.
-/

namespace TradeStation

open Python Foundations

/-- The methods of `AccessTokenProvider`. -/
inductive ProviderMethod
  | getAccessToken
  | forceRefreshAccessToken
  deriving DecidableEq

/-- What leaves the program. -/
inductive Op
  | provider (method : ProviderMethod)
  | send (request : HTTPRequest)
  | sleep (delaySeconds : ℚ)
  | uniform (low high : ℚ)
  | now
  | exists (path : PyStr)

/-- What comes back. -/
abbrev Op.Answer : Op → Type
  | .provider _ => Except Exc PyStr
  | .send _ => Except Exc HTTPResponse
  | .sleep _ => Except Exc Unit
  | .uniform _ _ => ℚ
  | .now => Datetime
  | .exists _ => Bool

/-- A coroutine of the wrapper. -/
abbrev Program (α : Type) := Coro Op Op.Answer Exc α

namespace Program

/-- Await the token provider. -/
def provider (method : ProviderMethod) : Program PyStr := do
  let answer : Except Exc PyStr ← Coro.ask (Op.provider method)
  Coro.ofExcept answer

/-- `token_provider.get_access_token()`. -/
def getAccessToken : Program PyStr := provider .getAccessToken

/-- `token_provider.force_refresh_access_token()`. -/
def forceRefreshAccessToken : Program PyStr := provider .forceRefreshAccessToken

/-- `transport.send(request)`, with what it raises as a value. -/
def send (request : HTTPRequest) : Program (Except Exc HTTPResponse) := Coro.ask (Op.send request)

/-- `sleeper(delay)`. -/
def sleep (delaySeconds : ℚ) : Program Unit := do
  let answer : Except Exc Unit ← Coro.ask (Op.sleep delaySeconds)
  Coro.ofExcept answer

/-- `datetime.now(UTC)`. -/
def now : Program Datetime := Coro.ask Op.now

/-- `random.uniform(low, high)`. -/
def uniform (low high : ℚ) : Program ℚ := Coro.ask (Op.uniform low high)

section
variable {α : Type} {tr : Trace Op Op.Answer} {r : Except Exc α}

theorem runs_provider {method : ProviderMethod} {f : PyStr → Program α} :
    Coro.Runs (provider method >>= f) tr r ↔
      (∃ exc, tr = [⟨.provider method, .error exc⟩] ∧ r = .error exc) ∨
        ∃ token rest, tr = ⟨.provider method, .ok token⟩ :: rest ∧
          Coro.Runs (f token) rest r := by
  unfold provider
  rw [Coro.runs_answer_bind]
  constructor
  · rintro (⟨_, exc, rfl, rfl, rfl⟩ | ⟨_, token, rest, rfl, rfl, h⟩)
    · exact .inl ⟨exc, rfl, rfl⟩
    · exact .inr ⟨token, rest, rfl, h⟩
  · rintro (⟨exc, rfl, rfl⟩ | ⟨token, rest, rfl, h⟩)
    · exact .inl ⟨.error exc, exc, rfl, rfl, rfl⟩
    · exact .inr ⟨.ok token, token, rest, rfl, rfl, h⟩

theorem runs_send {request : HTTPRequest} {f : Except Exc HTTPResponse → Program α} :
    Coro.Runs (send request >>= f) tr r ↔
      ∃ answer rest, tr = ⟨.send request, answer⟩ :: rest ∧ Coro.Runs (f answer) rest r := Iff.rfl

end

end Program

/-- `TradeStationRestClient`, less the parties it talks to. -/
structure RestClient where
  lib : Library
  config : TradeStationConfig
  retryPolicy : RetryPolicy := {}

/-- The arguments of `request_json`. -/
structure Call where
  method : PyStr
  path : PyStr
  payload : Option Json.Dict := none
  retrySafe : Bool
  ambiguousOperation : Option PyStr := none
  localRequestId : Option PyStr := none

/-- `AMBIGUOUS_WRITE_STATUSES`. -/
def ambiguousWriteStatuses : List ℤ := [408, 500, 502, 503, 504]

/-- `_is_success`. -/
def isSuccess (response : HTTPResponse) : Bool :=
  200 ≤ response.statusCode ∧ response.statusCode < 300

/-- `_is_retryable`. -/
def isRetryable (response : HTTPResponse) : Bool :=
  response.statusCode ∈ [408, 429, 500, 502, 503, 504]

/-- The text of a response as a Python string. -/
def HTTPResponse.pyText (response : HTTPResponse) : PyStr := response.text.map Char.toNat

/-- `_response_payload`. -/
def responsePayload (lib : Library) (response : HTTPResponse) : Json.Dict :=
  match response.json with
  | none => [(str "Message", .str response.pyText)]
  | some (.obj payload) => payload
  | some payload => [(str "Message", .str (lib.str payload))]

/-- `str(payload.get(key, payload.get(key', default)))`. -/
def payloadText (lib : Library) (payload : Json.Dict) (key key' : PyStr) (default : PyStr) :
    PyStr :=
  match Json.get payload key with
  | some value => lib.str value
  | none =>
    match Json.get payload key' with
    | some value => lib.str value
    | none => default

/-- `_api_error`, which raises what the `Retry-After` of a 429 raises. The clock is read only for one that
is a date. -/
def apiError {m : Type → Type} [Monad m] (lib : Library) (now : m Datetime)
    (response : HTTPResponse) : m (Except Exc Exc) := do
  let payload := responsePayload lib response
  let error := payloadText lib payload (str "Error") (str "error") (str "TradeStationAPIError")
  let message := payloadText lib payload (str "Message") (str "message") response.pyText
  if response.statusCode = 401 then
    return .ok (.authentication response.statusCode error message (some payload))
  else if response.statusCode = 429 then
    let retryAfter ← parseRetryAfterSeconds lib now (response.headers.get (str "Retry-After"))
    return retryAfter.map (.rateLimit response.statusCode error message (some payload))
  else return .ok (.api response.statusCode error message (some payload))

/-- `_api_error` where it is called in a coroutine. -/
def Program.apiError (lib : Library) (response : HTTPResponse) : Program Exc := do
  let error ← TradeStation.apiError lib Program.now response
  Coro.ofExcept error

namespace RestClient

variable (client : RestClient)

/-- `_url`. -/
def url (path : PyStr) : PyStr :=
  client.config.baseUrl ++ if startsWith path (str "/") then path else str "/" ++ path

/-- `_sleep`. -/
def sleep (attempt : ℕ) (retryAfter : Option PyStr := none) : Program Unit := do
  match ← client.retryPolicy.delayForAttempt client.lib Program.now Program.uniform attempt
      retryAfter with
  | none => throw .overflow
  | some delay => Program.sleep delay

/-- The request of one turn. -/
def request (call : Call) (token : PyStr) : HTTPRequest where
  method := call.method
  url := client.url call.path
  headers := [(str "Accept", str "application/json"), (str "Authorization", str "Bearer " ++ token)]
  jsonBody := call.payload

/-- `AmbiguousOrderState(ambiguous_operation or method, local_request_id, cause)`. -/
def ambiguous (call : Call) (cause : Exc) : Exc :=
  .ambiguousOrderState
    (match call.ambiguousOperation with
      | some operation => if operation = [] then call.method else operation
      | none => call.method)
    call.localRequestId cause

/-- The decoding of a successful response. -/
def decode (call : Call) (response : HTTPResponse) : Except Exc Json.Dict :=
  match response.json with
  | none =>
    let error : Exc := .api response.statusCode (str "InvalidResponse")
      (str "expected valid JSON object response") (some [(str "response", .str response.pyText)])
    .error (if call.retrySafe then error else ambiguous call error)
  | some (.obj decoded) => .ok decoded
  | some decoded =>
    let error : Exc := .api response.statusCode (str "InvalidResponse")
      (str "expected JSON object response") (some [(str "response", decoded)])
    .error (if call.retrySafe then error else ambiguous call error)

/-- The loop of `request_json`. The two handlers of a failed send have one body. -/
def requestLoop (client : RestClient) (call : Call) (attempt : ℕ) (refreshedAfter401 : Bool) :
    Program Json.Dict := do
  let token ← Program.getAccessToken
  match ← Program.send (client.request call token) with
  | .error exc =>
    if exc.isTransportError = false then throw exc
    else if call.retrySafe = false then throw (ambiguous call exc)
    else if h : client.retryPolicy.maxAttempts ≤ attempt then
      throw (.retryExhausted (transportErrorText client.lib exc))
    else
      client.sleep attempt
      client.requestLoop call (attempt + 1) refreshedAfter401
  | .ok response =>
    if h401 : response.statusCode = 401 ∧ refreshedAfter401 = false then
      let _ ← Program.forceRefreshAccessToken
      client.requestLoop call attempt true
    else if isSuccess response then Coro.ofExcept (decode call response)
    else if call.retrySafe = false ∧ response.statusCode ∈ ambiguousWriteStatuses then
      throw (ambiguous call (← Program.apiError client.lib response))
    else if h : call.retrySafe = true ∧ isRetryable response = true ∧
        attempt < client.retryPolicy.maxAttempts then
      client.sleep attempt (response.headers.get (str "Retry-After"))
      client.requestLoop call (attempt + 1) refreshedAfter401
    else throw (← Program.apiError client.lib response)
termination_by
  ((client.retryPolicy.maxAttempts - attempt).toNat, if refreshedAfter401 then 0 else 1)
decreasing_by
  · exact Prod.Lex.left _ _ (by omega)
  · rw [h401.2]
    exact Prod.Lex.right _ (by simp)
  · exact Prod.Lex.left _ _ (by omega)

/-- `TradeStationRestClient.request_json`. -/
def requestJson (call : Call) : Program Json.Dict := client.requestLoop call 1 false

/-- `get`. -/
def get (path : PyStr) : Program Json.Dict :=
  client.requestJson { method := str "GET", path, retrySafe := true }

/-- `post_read`. -/
def postRead (path : PyStr) (payload : Json.Dict) : Program Json.Dict :=
  client.requestJson { method := str "POST", path, payload := some payload, retrySafe := true }

/-- `post_confirm`. -/
def postConfirm (path : PyStr) (payload : Json.Dict) : Program Json.Dict :=
  client.requestJson { method := str "POST", path, payload := some payload, retrySafe := true }

/-- `post_order_write`. -/
def postOrderWrite (path : PyStr) (payload : Json.Dict) (localRequestId : Option PyStr) :
    Program Json.Dict :=
  client.requestJson
    { method := str "POST", path, payload := some payload, retrySafe := false,
      ambiguousOperation := some (str "submit order"), localRequestId }

/-- `put_order_write`. -/
def putOrderWrite (path : PyStr) (payload : Json.Dict) (localRequestId : Option PyStr) :
    Program Json.Dict :=
  client.requestJson
    { method := str "PUT", path, payload := some payload, retrySafe := false,
      ambiguousOperation := some (str "replace order"), localRequestId }

/-- `delete_order_write`. -/
def deleteOrderWrite (path : PyStr) (localRequestId : Option PyStr) : Program Json.Dict :=
  client.requestJson
    { method := str "DELETE", path, retrySafe := false,
      ambiguousOperation := some (str "cancel order"), localRequestId }

end RestClient

/-- A client for the simulator, over a library that is not asked for anything. -/
def simClient : RestClient where
  lib :=
    { repr := fun _ => [], reprBytes := fun _ => [], dumps := fun _ => [],
      urlencode := fun _ => [], float := fun _ => none, parsedate := fun _ => .error .malformed,
      isoformat := fun _ => [], canonicalDumps := fun _ => [], sha256 := fun _ => [] }
  config := simConfig

end TradeStation
