import Mathlib.Data.Nat.Digits.Defs
import TradeStation.Python.Json

/-!
# The JSON decoder

`json.JSONDecoder` with its default settings, on decoded text. `rawDecode` reads one value at the
start of a text and gives the text left behind it; `loads` wants one value, with whitespace around
it and nothing else. Both fail where Python raises `JSONDecodeError`. Python's limits on the depth
of nesting and on the digits of an integer are left out.

The decoder accepts what Python's does beyond the JSON standard: `NaN`, `Infinity`, `-Infinity`,
and an escaped surrogate that has no partner.

`sequence` is the common loop of an array and of an object: items between commas, up to a closing
bracket.
-/

namespace TradeStation.Python.Json

/-- JSON whitespace. -/
def isWs (c : Char) : Bool := c = ' ' || c = '\t' || c = '\n' || c = '\r'

/-- Skip whitespace. -/
def skip (s : List Char) : List Char := s.dropWhile isWs

/-- Text of a literal, in characters. -/
def chars (s : String) : List Char := s.toList

/-! ## Strings -/

/-- The character a one-letter escape stands for. -/
def escape (c : Char) : Option ℕ :=
  if c = '"' then some 0x22
  else if c = '\\' then some 0x5c
  else if c = '/' then some 0x2f
  else if c = 'b' then some 0x08
  else if c = 'f' then some 0x0c
  else if c = 'n' then some 0x0a
  else if c = 'r' then some 0x0d
  else if c = 't' then some 0x09
  else none

/-- The value of a hexadecimal digit. -/
def hexDigit (c : Char) : Option ℕ :=
  if '0' ≤ c ∧ c ≤ '9' then some (c.toNat - 0x30)
  else if 'a' ≤ c ∧ c ≤ 'f' then some (c.toNat - 0x57)
  else if 'A' ≤ c ∧ c ≤ 'F' then some (c.toNat - 0x37)
  else none

/-- The value of four hexadecimal digits. -/
def hex4 (a b c d : Char) : Option ℕ := do
  let a ← hexDigit a
  let b ← hexDigit b
  let c ← hexDigit c
  let d ← hexDigit d
  return ((a * 16 + b) * 16 + c) * 16 + d

/-- One character of a string, and the text behind it. -/
def character : List Char → Option (ℕ × List Char)
  | [] => none
  | c :: s =>
    if c = '\\' then
      match s with
      | [] => none
      | e :: s =>
        if e = 'u' then
          match s with
          | a :: b :: c :: d :: s => (hex4 a b c d).map fun n => (n, s)
          | _ => none
        else (escape e).map fun n => (n, s)
    else if c.toNat < 0x20 then none
    else some (c.toNat, s)

/-- The characters of a string up to the closing quote, and the text behind it. -/
def stringBody : ℕ → List Char → Option (PyStr × List Char)
  | _, [] => none
  | 0, _ => none
  | n + 1, c :: s =>
    if c = '"' then some ([], s)
    else do
      let (a, s) ← character (c :: s)
      let (as, s) ← stringBody n s
      return (a :: as, s)

/-- A high surrogate with the low surrogate behind it is one character. -/
def joinSurrogates : PyStr → PyStr
  | h :: l :: s =>
    if 0xd800 ≤ h ∧ h ≤ 0xdbff ∧ 0xdc00 ≤ l ∧ l ≤ 0xdfff then
      (0x10000 + (h - 0xd800) * 0x400 + (l - 0xdc00)) :: joinSurrogates s
    else h :: joinSurrogates (l :: s)
  | s => s

/-- A string behind its opening quote. -/
def scanString (s : List Char) : Option (PyStr × List Char) :=
  (stringBody s.length s).map fun r => (joinSurrogates r.1, r.2)

/-! ## Numbers -/

/-- A decimal digit. -/
def isDigit (c : Char) : Bool := '0' ≤ c && c ≤ '9'

/-- The number that some digits write. -/
def ofDigits (ds : List Char) : ℕ := Nat.ofDigits 10 (ds.reverse.map fun c => c.toNat - 0x30)

/-- The digits of an integer: one zero, or digits that do not start with one. -/
def integer (s : List Char) : Option (List Char × List Char) :=
  match s with
  | [] => none
  | c :: s' =>
    if c = '0' then some ([c], s')
    else if isDigit c then some (s.takeWhile isDigit, s.dropWhile isDigit)
    else none

/-- A point with digits behind it, if there is one: the digits. -/
def fraction (s : List Char) : List Char × List Char :=
  match s with
  | [] => ([], s)
  | c :: s' =>
    if c = '.' ∧ s'.takeWhile isDigit ≠ [] then (s'.takeWhile isDigit, s'.dropWhile isDigit)
    else ([], s)

/-- An optional sign. -/
def sign (s : List Char) : Option Char × List Char :=
  match s with
  | [] => (none, s)
  | c :: s' => if c = '+' ∨ c = '-' then (some c, s') else (none, s)

/-- An exponent, if there is one: its sign and digits. -/
def exponent (s : List Char) : Option (Option Char × List Char) × List Char :=
  match s with
  | [] => (none, s)
  | c :: s' =>
    if (c = 'e' ∨ c = 'E') ∧ (sign s').2.takeWhile isDigit ≠ [] then
      (some ((sign s').1, (sign s').2.takeWhile isDigit), (sign s').2.dropWhile isDigit)
    else (none, s)

/-- The value of a number: an `int` when it has no fraction and no exponent. -/
def numberValue (neg : Bool) (whole frac : List Char)
    (exp : Option (Option Char × List Char)) : Json :=
  match exp with
  | none =>
    if frac = [] then .int (if neg then -(ofDigits whole : ℤ) else ofDigits whole)
    else .float (.decimal neg (ofDigits (whole ++ frac)) (-frac.length))
  | some (sgn, ds) =>
    let e : ℤ := if sgn = some '-' then -(ofDigits ds : ℤ) else ofDigits ds
    .float (.decimal neg (ofDigits (whole ++ frac)) (e - frac.length))

/-- A number without its sign. -/
def unsigned (neg : Bool) (s : List Char) : Option (Json × List Char) := do
  let (whole, s) ← integer s
  let (frac, s) := fraction s
  let (exp, s) := exponent s
  return (numberValue neg whole frac exp, s)

/-- A number. -/
def number (s : List Char) : Option (Json × List Char) :=
  match s with
  | [] => none
  | c :: s' => if c = '-' then unsigned true s' else unsigned false s

/-! ## Values -/

/-- The words that stand for a value. -/
def words : List (List Char × Json) :=
  [(chars "null", .null), (chars "true", .bool true), (chars "false", .bool false),
    (chars "NaN", .float .nan), (chars "Infinity", .float (.inf false)),
    (chars "-Infinity", .float (.inf true))]

/-- A word, or else a number. -/
def scalar (s : List Char) : Option (Json × List Char) :=
  match words.find? fun w => w.1.isPrefixOf s with
  | some w => some (w.2, s.drop w.1.length)
  | none => number s

/-- Items between commas up to a closing bracket, and the text behind it. -/
def sequence {α : Type} (item : List Char → Option (α × List Char)) (close : Char) :
    ℕ → List Char → Option (List α × List Char)
  | 0, _ => none
  | n + 1, s => do
    let (a, s) ← item s
    match skip s with
    | [] => none
    | c :: s =>
      if c = close then return ([a], s)
      else if c = ',' then
        let (as, s) ← sequence item close n (skip s)
        return (a :: as, s)
      else none

/-- A key and its value. -/
def member (value : List Char → Option (Json × List Char)) (s : List Char) :
    Option ((PyStr × Json) × List Char) := do
  match s with
  | [] => none
  | c :: s =>
    if c = '"' then
      let (key, s) ← scanString s
      match skip s with
      | [] => none
      | c :: s =>
        if c = ':' then
          let (v, s) ← value (skip s)
          return ((key, v), s)
        else none
    else none

/-- What stands between two brackets: nothing, or a sequence. -/
def bracketed {α : Type} (item : List Char → Option (α × List Char)) (close : Char) (n : ℕ)
    (s : List Char) : Option (List α × List Char) :=
  match skip s with
  | [] => none
  | c :: s => if c = close then some ([], s) else sequence item close n (c :: s)

/-- A value at the start of a text, with at most `n` brackets and commas one inside the other. -/
def value : ℕ → List Char → Option (Json × List Char)
  | _, [] => none
  | 0, _ => none
  | n + 1, c :: s =>
    if c = '"' then (scanString s).map fun r => (.str r.1, r.2)
    else if c = '[' then (bracketed (value n) ']' n s).map fun r => (.arr r.1, r.2)
    else if c = '{' then (bracketed (member (value n)) '}' n s).map fun r => (.obj (dict r.1), r.2)
    else scalar (c :: s)

/-- `JSONDecoder.raw_decode`. -/
def rawDecode (s : List Char) : Option (Json × List Char) := value s.length s

/-- `json.loads`. -/
def loads (s : List Char) : Option Json :=
  if s.head? = some (Char.ofNat 0xfeff) then none
  else do
    let (v, s) ← rawDecode (skip s)
    if skip s = [] then return v else none

end TradeStation.Python.Json
