import TradeStation.Errors
import TradeStation.Python.JsonDecoder
import TradeStation.Python.Library
import TradeStation.Python.Utf8

/-!
# The transport

Requests and responses, and `UrllibAsyncTransport.send` over what `urlopen` can do: answer, raise
an `HTTPError` that is itself an answer, or raise. Reading a body can raise as well, and where it
is read decides what becomes of that: the body of an answer is read inside the `try`, the body of
an `HTTPError` in one of its handlers.
-/

namespace TradeStation

open Python

/-- `HTTPRequest`. -/
structure HTTPRequest where
  method : PyStr
  url : PyStr
  headers : Headers := []
  jsonBody : Option Json.Dict := none
  formBody : Option (List (PyStr × PyStr)) := none
  timeoutSeconds : ℚ := 30

/-- `HTTPResponse`. -/
structure HTTPResponse where
  statusCode : ℤ
  headers : Headers
  body : List UInt8

namespace HTTPResponse

/-- `HTTPResponse.text`. -/
def text (response : HTTPResponse) : List Char := utf8Replace [] response.body

/-- `HTTPResponse.json`; `none` where it raises `ValueError`. -/
def json (response : HTTPResponse) : Option Json :=
  if response.body = [] then some (.obj []) else Json.loads response.text

end HTTPResponse

/-- `str(exc)` of a transport error. -/
def transportErrorText (lib : Library) : Exc → PyStr
  | .transport text | .networkTimeout text => text
  | .streamOpen statusCode _ body =>
    str "stream open failed with HTTP " ++ str (toString statusCode) ++ str ": " ++
      lib.reprBytes body
  | _ => []

/-! ## `UrllibAsyncTransport` -/

/-- `headers.setdefault(name, value)`. -/
def Headers.setDefault (headers : Headers) (name value : PyStr) : Headers :=
  if (headers.get name).isSome then headers else headers ++ [(name, value)]

/-- `urllib.request.Request`. -/
structure UrllibRequest where
  url : PyStr
  data : Option (List UInt8)
  headers : Headers
  method : PyStr

/-- The request as `_send_sync` hands it to `urlopen`. -/
def urllibRequest (lib : Library) (request : HTTPRequest) : UrllibRequest :=
  let contentType := str "Content-Type"
  match request.jsonBody, request.formBody with
  | some body, _ =>
    ⟨request.url, some (lib.dumps body),
      request.headers.setDefault contentType (str "application/json"), upper request.method⟩
  | none, some form =>
    ⟨request.url, some (lib.urlencode form),
      request.headers.setDefault contentType (str "application/x-www-form-urlencoded"),
      upper request.method⟩
  | none, none => ⟨request.url, none, request.headers, upper request.method⟩

/-- What `urlopen` does with a request: it opens an answer, raises an `HTTPError` with the
answer in it, or raises something else. The body of an answer is there only once it is read. -/
inductive UrlopenResult
  | opened (status : ℤ) (headers : Headers) (read : Except LibExc (List UInt8))
  | httpError (code : ℤ) (headers : Option Headers) (read : Except LibExc (List UInt8))
  | raised (e : LibExc)

/-- `urlopen(request, timeout=...)`. -/
abbrev Urlopen := UrllibRequest → ℚ → UrlopenResult

/-- The handlers of `_send_sync` for what is no `HTTPError`. -/
def mapLibExc (e : LibExc) : Exc :=
  match e with
  | .timeout text => .networkTimeout text
  | .osError text => .transport text
  | .httpException _ | .other _ => .library e

/-- `UrllibAsyncTransport._send_sync`. -/
def sendSync (lib : Library) (urlopen : Urlopen) (request : HTTPRequest) :
    Except Exc HTTPResponse :=
  match urlopen (urllibRequest lib request) request.timeoutSeconds with
  | .opened status headers read =>
    match read with
    | .ok body => .ok ⟨status, headers, body⟩
    | .error e => .error (mapLibExc e)
  | .httpError code headers read =>
    -- an exception raised in this handler is not seen by the two below it
    match read with
    | .ok body => .ok ⟨code, headers.getD [], body⟩
    | .error e => .error (.library e)
  | .raised e => .error (mapLibExc e)

end TradeStation
