import Mathlib.Data.Rat.Defs
import TradeStation.Python.Json

/-!
# Exceptions

`Exc` has one constructor for each class of the wrapper's `errors` module that is raised by the
code modelled here, with the data the class holds, and one for each kind of foreign exception
that passes through it. Handlers ask for a class with its subclasses: `isTransportError` and
`isApiError` are the two families that are caught by their base.
-/

namespace TradeStation

open Python

/-- HTTP headers as the wrapper keeps them, a `dict` that is looked up by exact name. -/
abbrev Headers := List (PyStr × PyStr)

/-- `headers.get(name)`. -/
def Headers.get (headers : Headers) (name : PyStr) : Option PyStr :=
  (headers.find? fun h => h.1 = name).map Prod.snd

/-- An exception of the standard library, by the classes that handlers tell apart.
`RemoteDisconnected` is an `OSError`; `httpException` is the rest of `http.client.HTTPException`. -/
inductive LibExc
  | timeout (text : PyStr)
  | osError (text : PyStr)
  | httpException (text : PyStr)
  | other (text : PyStr)

/-- `str(exc)`. -/
def LibExc.text : LibExc → PyStr
  | .timeout text | .osError text | .httpException text | .other text => text

/-- `isinstance(exc, OSError)`; `TimeoutError` is one. -/
def LibExc.isOSError : LibExc → Bool
  | .timeout _ | .osError _ => true
  | .httpException _ | .other _ => false

/-- Why `JsonStreamParser.feed` raised: the bytes were no UTF-8, the buffer was malformed (with
the text of `json`'s own error about it), or a message was no object. -/
inductive ParseFault
  | utf8
  | malformed (buffer : List Char)
  | notObject

/-- An exception. -/
inductive Exc
  | configuration (message : PyStr)
  | requestValidation (message : PyStr)
  | transport (text : PyStr)
  | networkTimeout (text : PyStr)
  | streamOpen (statusCode : ℤ) (headers : Headers) (body : List UInt8)
  | retryExhausted (message : PyStr)
  | api (statusCode : ℤ) (error message : PyStr) (payload : Option Json.Dict)
  | rateLimit (statusCode : ℤ) (error message : PyStr) (payload : Option Json.Dict)
    (retryAfterSeconds : Option ℚ)
  | authentication (statusCode : ℤ) (error message : PyStr) (payload : Option Json.Dict)
  | ambiguousOrderState (operation : PyStr) (localRequestId : Option PyStr) (cause : Exc)
  | streamParse (fault : ParseFault)
  | stream (message : PyStr) (payload : Option Json.Dict)
  | capability (message : PyStr)
  | pagination (message : PyStr)
  | value (message : PyStr)
  | validation
  | overflow
  | library (e : LibExc)
  /-- A `BaseException` that is no `Exception`, such as `CancelledError`. -/
  | base

namespace Exc

/-- `isinstance(exc, TransportError)`. -/
def isTransportError : Exc → Bool
  | .transport _ | .networkTimeout _ | .streamOpen _ _ _ => true
  | _ => false

/-- `isinstance(exc, TradeStationAPIError)`. -/
def isApiError : Exc → Bool
  | .api _ _ _ _ | .rateLimit _ _ _ _ _ | .authentication _ _ _ _ => true
  | _ => false

/-- `isinstance(exc, AmbiguousOrderState)`. -/
def isAmbiguous : Exc → Bool
  | .ambiguousOrderState _ _ _ => true
  | _ => false

/-- `isinstance(exc, RetryExhausted)`. -/
def isRetryExhausted : Exc → Bool
  | .retryExhausted _ => true
  | _ => false

end Exc

end TradeStation
