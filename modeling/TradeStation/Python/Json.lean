import Mathlib.Algebra.Group.Nat.Defs
import TradeStation.Python.Text

/-!
# JSON values as Python holds them

`Json` is what `json.loads` returns: a `dict`, a `list`, a `str`, an `int`, a `float`, a `bool`
or `None`. A `dict` keeps its keys in insertion order; `Json.dict` builds one from the pairs of
an object text, where a repeated key keeps its first place and takes its last value.
-/

namespace TradeStation.Python

/-- A Python `float`, by the decimal literal it was read from: `±coeff · 10 ^ exp`. -/
inductive PyFloat
  | decimal (neg : Bool) (coeff : ℕ) (exp : ℤ)
  | inf (neg : Bool)
  | nan

/-- `float.__bool__`. A literal of at most `2 ^ (-1075)` is read as zero. -/
def PyFloat.truthy : PyFloat → Bool
  | .decimal _ coeff exp =>
    if exp < 0 then decide (10 ^ (-exp).toNat < coeff * 2 ^ 1075) else coeff != 0
  | .inf _ => true
  | .nan => true

/-- A decoded JSON value. -/
inductive Json
  | null
  | bool (b : Bool)
  | int (n : ℤ)
  | float (x : PyFloat)
  | str (s : PyStr)
  | arr (items : List Json)
  | obj (fields : List (PyStr × Json))

namespace Json

/-- A Python `dict` with `str` keys, in insertion order. -/
abbrev Dict := List (PyStr × Json)

/-- `d[key] = value`. -/
def insert (d : Dict) (key : PyStr) (value : Json) : Dict :=
  match d with
  | [] => [(key, value)]
  | (k, v) :: d => if k = key then (k, value) :: d else (k, v) :: insert d key value

/-- `dict(pairs)`. -/
def dict (pairs : List (PyStr × Json)) : Dict :=
  pairs.foldl (fun d p => insert d p.1 p.2) []

/-- `d.get(key)`, with `none` where there is no such key. -/
def get (d : Dict) (key : PyStr) : Option Json :=
  (d.find? fun p => p.1 = key).map Prod.snd

@[simp] theorem get_append (d d' : Dict) (key : PyStr) :
    get (d ++ d') key = (get d key).or (get d' key) := by
  simp only [get, List.find?_append]
  cases d.find? fun p => p.1 = key <;> rfl

/-- `key in d`. -/
def hasKey (d : Dict) (key : PyStr) : Bool := d.any fun p => p.1 = key

/-- `bool(value)`. -/
def truthy : Json → Bool
  | .null => false
  | .bool b => b
  | .int n => n != 0
  | .float x => x.truthy
  | .str s => !s.isEmpty
  | .arr items => !items.isEmpty
  | .obj fields => !fields.isEmpty

/-- `isinstance(value, dict)`. -/
def asDict : Json → Option Dict
  | .obj fields => some fields
  | _ => none

end Json

end TradeStation.Python
