import TradeStation.Python.Datetime
import TradeStation.Python.Json

/-!
# The parts of the standard library that stay parameters

`Library` collects functions of the standard library, and two of pydantic, whose results only end up
in a text, a number or a payload that is passed on. Nothing is assumed of them.
-/

namespace TradeStation.Python

/-- How `parsedate_to_datetime` fails: with a `TypeError` or a `ValueError`, or with the `OverflowError` of
a year or an offset that does not fit. -/
inductive DateError
  | malformed
  | overflow

/-- Functions of the standard library. -/
structure Library where
  /-- `repr` of a decoded JSON value. -/
  repr : Json → PyStr
  /-- `repr` of bytes. -/
  reprBytes : List UInt8 → PyStr
  /-- `json.dumps(payload, separators=(",", ":"), default=str).encode("utf-8")`. -/
  dumps : Json.Dict → List UInt8
  /-- `urlencode(form).encode("utf-8")`. -/
  urlencode : List (PyStr × PyStr) → List UInt8
  /-- `float(text)`: `none` where it raises `ValueError`, `some none` where it is not finite. -/
  float : PyStr → Option (Option ℚ)
  /-- `int(float(value))` of a `str`, an `int` or a `float`: `none` where it raises `ValueError` or
  `OverflowError`. -/
  intFloat : Json → Option ℤ := fun _ => none
  /-- `parsedate_to_datetime`. -/
  parsedate : PyStr → Except DateError Datetime
  /-- How pydantic writes a `datetime` in JSON. -/
  isoformat : Datetime → PyStr
  /-- How pydantic writes a `dict` of any values in JSON. -/
  dumpDict : Json.Dict → Json.Dict := id
  /-- `datetime.isoformat()`. -/
  datetimeIsoformat : Datetime → PyStr := fun _ => []
  /-- `date.isoformat()`, by the days since 1970. -/
  dateIsoformat : ℤ → PyStr := fun _ => []
  /-- `json.dumps(payload, sort_keys=True, separators=(",", ":"), default=str).encode("utf-8")`. -/
  canonicalDumps : Json.Dict → List UInt8
  /-- `hashlib.sha256(data).hexdigest()`. -/
  sha256 : List UInt8 → PyStr
  /-- `str.isalnum` on one code point beyond ASCII. -/
  isalnum : ℕ → Bool := fun _ => false

namespace Library

/-- `str(value)`. -/
def str (lib : Library) : Json → PyStr
  | .str s => s
  | value => lib.repr value

end Library

end TradeStation.Python
