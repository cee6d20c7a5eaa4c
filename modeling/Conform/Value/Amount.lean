/-
# `Value.Amount` — numbers without a representation

An unbounded integer or a double, compared without rounding.
-/
import Conform.Fault
import Conform.Value.Number

namespace Conform

/-- The amount that a number stands for. -/
inductive Amount where
  | int (n : Int)
  | float (x : Binary64)
deriving DecidableEq

namespace Amount

/-- Numeric order, without rounding; `none` when one is not a number. -/
def compare? : Amount → Amount → Option Ordering
  | .int a, .int b => some (compare a b)
  | .int a, .float y => (y.compareInt? a).map Ordering.swap
  | .float x, .int b => x.compareInt? b
  | .float x, .float y => x.compare? y

/-- What an amount is worth, whatever represents it: an end of the line, or
a whole number of units. -/
def worth? : Amount → Option (Bool ⊕ Int)
  | .int n => some (.inr (n * Binary64.unitsPerOne))
  | .float .nan => none
  | .float (.infinite s) => some (.inl s)
  | .float (.finite s m) => some (.inr (if s then -(m.units : Int) else m.units))

/-- The double nearest to an amount; an integer beyond the doubles
overflows. -/
def double : Amount → Except Fault Binary64
  | .int n => if (Binary64.ofInt n).isFinite then .ok (.ofInt n) else .error .overflow
  | .float x => .ok x

end Amount

/-- The amount in an array position that holds a number. -/
def Cell.amount? : Cell → Option Amount
  | .int n => some (.int n)
  | .float x => some (.float x)
  | .bool b => some (.int b.toNat)
  | .text _ | .other => none

end Conform
