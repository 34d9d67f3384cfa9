import Mathlib.Algebra.Order.Ring.Rat
import Mathlib.Algebra.Order.Field.Basic
import Mathlib.Tactic.Positivity
import TradeStation.Python.Text

/-!
# Decimals

`decimal.Decimal` for finite numbers: a sign, a coefficient and an exponent, so that `1.50` and
`1.5` are different decimals of the same value. Multiplication is that of the default context: it
keeps 28 digits, rounds half to even, and raises `Overflow` beyond the largest exponent.
-/

namespace TradeStation.Python

/-- A finite `Decimal`, `± coeff · 10 ^ exp`. -/
structure Decimal where
  neg : Bool
  coeff : ℕ
  exp : ℤ
  deriving DecidableEq

namespace Decimal

/-- The value, which is what comparisons look at. -/
def toRat (d : Decimal) : ℚ :=
  (if d.neg then -(d.coeff : ℚ) else d.coeff) * (10 : ℚ) ^ d.exp

/-- `bool(d)`. -/
def truthy (d : Decimal) : Bool := d.coeff != 0

/-- `d == e`. -/
def eq (d e : Decimal) : Bool := d.toRat = e.toRat

/-- `Decimal("n")` for a natural number. -/
def ofNat (n : ℕ) : Decimal := ⟨false, n, 0⟩

/-- The number of decimal digits. -/
def digits (n : ℕ) : ℕ := (toString n).length

/-- Divide by a power of ten and round half to even. -/
def roundDigits (n dropped : ℕ) : ℕ :=
  let unit := 10 ^ dropped
  let q := n / unit
  let r := n % unit
  if 2 * r > unit ∨ (2 * r = unit ∧ q % 2 = 1) then q + 1 else q

/-- Round to the 28 digits and the smallest exponent of the context; `none` on overflow. -/
def round (d : Decimal) : Option Decimal :=
  let dropped := max (digits d.coeff - 28) (-1000026 - d.exp).toNat
  let coeff := roundDigits d.coeff dropped
  let rounded : Decimal :=
    -- rounding up a row of nines gives one digit more
    if digits coeff > 28 then ⟨d.neg, coeff / 10, d.exp + dropped + 1⟩
    else ⟨d.neg, coeff, d.exp + dropped⟩
  if rounded.coeff ≠ 0 ∧ rounded.exp + digits rounded.coeff - 1 > 999999 then none
  else some rounded

/-- `d * e`; `none` where it raises `Overflow`. -/
def mul (d e : Decimal) : Option Decimal :=
  round ⟨d.neg != e.neg, d.coeff * e.coeff, d.exp + e.exp⟩

/-- `format(d, "f")`. -/
def fixedPoint (d : Decimal) : PyStr :=
  let ds := str (toString d.coeff)
  let sign := if d.neg then str "-" else []
  if d.coeff = 0 ∧ d.exp > 0 then sign ++ str "0"
  else if d.exp ≥ 0 then sign ++ ds ++ List.replicate d.exp.toNat 0x30
  else
    let places := (-d.exp).toNat
    if ds.length ≤ places then
      sign ++ str "0." ++ List.replicate (places - ds.length) 0x30 ++ ds
    else sign ++ ds.take (ds.length - places) ++ str "." ++ ds.drop (ds.length - places)

/-- `str(d)`: scientific notation for an exponent above zero or a value below `10 ^ (-6)`. -/
def text (d : Decimal) : PyStr :=
  let ds := str (toString d.coeff)
  let sign := if d.neg then str "-" else []
  let left : ℤ := d.exp + ds.length
  let point : ℤ := if d.exp ≤ 0 ∧ -6 < left then left else 1
  let mantissa :=
    if point ≤ 0 then str "0." ++ List.replicate (-point).toNat 0x30 ++ ds
    else if ds.length ≤ point then ds ++ List.replicate (point - ds.length).toNat 0x30
    else ds.take point.toNat ++ str "." ++ ds.drop point.toNat
  let exponent :=
    if left = point then []
    else str "E" ++ (if point < left then str "+" else []) ++ str (toString (left - point))
  sign ++ mantissa ++ exponent

example : (⟨false, 1, 2⟩ : Decimal).text = str "1E+2" := by decide

/-- `d > e`. -/
def gt (d e : Decimal) : Bool := e.toRat < d.toRat

/-- `d <= 0`, as the validators ask it. -/
def nonpos (d : Decimal) : Bool := d.neg || d.coeff == 0

end Decimal

end TradeStation.Python
