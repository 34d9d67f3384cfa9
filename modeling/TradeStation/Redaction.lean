import Mathlib.Data.List.Infix
import TradeStation.Python.Json

/-!
# Redaction

`redact` puts a mark in place of what stands under a sensitive key, at every depth, and passes the
other texts through `redact_text`.
-/

namespace TradeStation

open Python

/-- `str.lower` on one code point, exact as far as the result has ASCII letters; the other letters
are left as they are. -/
def lowerChar (c : ℕ) : PyStr :=
  if 0x41 ≤ c ∧ c ≤ 0x5a then [c + 0x20]
  else match c with
    | 0x130 => [0x69, 0x307]
    | 0x212a => [0x6b]
    | c => [c]

/-- `SENSITIVE_KEY_FRAGMENTS`. -/
def sensitiveKeyFragments : List PyStr :=
  [str "access_token", str "accountid", str "account_id", str "authorization", str "client_secret",
    str "orderconfirmid", str "refresh_token", str "token"]

/-- `REDACTION`. -/
def redaction : PyStr := str "[REDACTED]"

/-- A key is sensitive if it holds a fragment, whatever its case and with dashes for underscores. -/
def isSensitive (key : PyStr) : Bool :=
  let normalized := (key.flatMap lowerChar).map fun c => if c = 0x2d then 0x5f else c
  sensitiveKeyFragments.any fun fragment => fragment <:+: normalized

mutual

/-- `redact`, over `redact_text`. -/
def redact (redactText : PyStr → PyStr) : Json → Json
  | .obj fields => .obj (redactFields redactText fields)
  | .arr items => .arr (redactItems redactText items)
  | .str text => .str (redactText text)
  | value => value

/-- `redact` of a `dict`. -/
def redactFields (redactText : PyStr → PyStr) : List (PyStr × Json) → List (PyStr × Json)
  | [] => []
  | (key, item) :: fields =>
    (key, if isSensitive key then .str redaction else redact redactText item) ::
      redactFields redactText fields

/-- `redact` of the items of a list. -/
def redactItems (redactText : PyStr → PyStr) : List Json → List Json
  | [] => []
  | item :: items => redact redactText item :: redactItems redactText items

end

end TradeStation
