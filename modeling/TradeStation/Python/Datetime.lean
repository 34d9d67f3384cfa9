import Mathlib.Data.Rat.Defs
import Mathlib.Algebra.Order.Ring.Rat

/-!
# Points in time

`Datetime` is a Python `datetime`: what its clock face shows, in microseconds, and its time zone.
A zone is one with a fixed offset, or one that gives none. Arithmetic is exact, as it is in
Python between two times that have an offset.
-/

namespace TradeStation.Python

/-- A `datetime`: the wall clock in microseconds since 1970, and `tzinfo` by its `utcoffset`. -/
structure Datetime where
  wall : ℤ
  tzinfo : Option (Option ℤ)
  deriving DecidableEq

namespace Datetime

/-- `utcoffset()`, in microseconds. -/
def utcoffset (t : Datetime) : Option ℤ := t.tzinfo.join

/-- A time that says when it is. -/
def aware (t : Datetime) : Bool := t.utcoffset.isSome

/-- `tzinfo` with no offset counts as UTC where a time is only compared with its like. -/
def instant (t : Datetime) : ℤ := t.wall - t.utcoffset.getD 0

/-- `t - u` of two aware times, in microseconds. -/
def sub (t u : Datetime) : ℤ := t.instant - u.instant

/-- `replace(tzinfo=UTC)` of a time without a zone. -/
def orUtc (t : Datetime) : Datetime :=
  if t.tzinfo = none then { t with tzinfo := some (some 0) } else t

/-- A time in UTC. -/
def utc (microseconds : ℤ) : Datetime := ⟨microseconds, some (some 0)⟩

/-- `datetime.min`, in microseconds since 1970. -/
def minWall : ℤ := -62135596800000000

/-- `datetime.max`. -/
def maxWall : ℤ := 253402300799999999

/-- `t + delta`; `none` where it raises `OverflowError`. -/
def add (t : Datetime) (microseconds : ℤ) : Option Datetime :=
  if minWall ≤ t.wall + microseconds ∧ t.wall + microseconds ≤ maxWall then
    some { t with wall := t.wall + microseconds }
  else none

end Datetime

/-- `timedelta(seconds=n)`, in microseconds; `none` where it raises `OverflowError`. -/
def timedeltaSeconds (n : ℤ) : Option ℤ :=
  if -999999999 ≤ n / 86400 ∧ n / 86400 ≤ 999999999 then some (n * 1000000) else none

/-- `timedelta.total_seconds()` of some microseconds. -/
def totalSeconds (microseconds : ℤ) : ℚ := microseconds / 1000000

end TradeStation.Python
