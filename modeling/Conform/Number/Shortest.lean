/-
# `Number.Shortest` — the fewest digits that read back

A double stands for the interval of reals that round to it.  Its written
form is the shortest decimal in that interval, and of two equally short
ones the nearer.  The search goes from one digit to seventeen: on each
decimal grid only the two neighbours of the value can lie in the interval
without a closer grid point doing so as well.  All comparisons are exact,
in quarters of a unit.
-/
import Conform.Number.Binary64

namespace Conform

/-- The decimal number `digits * 10 ^ exponent`. -/
structure Decimal where
  digits : Nat
  exponent : Int
deriving DecidableEq

namespace Decimal

/-- Moves trailing zeros of the digits into the exponent. -/
def stripZeros (digits : Nat) (exponent : Int) : Decimal :=
  if digits = 0 then ⟨0, 0⟩
  else if digits % 10 = 0 then stripZeros (digits / 10) (exponent + 1)
  else ⟨digits, exponent⟩
termination_by digits
decreasing_by omega

/-- The order of `d` and a number of quarter units. -/
def compareQuarters (d : Decimal) (quarters : Nat) : Ordering :=
  compare (d.digits * 10 ^ d.exponent.toNat * (4 * Binary64.unitsPerOne))
    (quarters * 10 ^ (-d.exponent).toNat)

end Decimal

namespace Binary64

/-- The width of a binary format: significant bits, and the finest grid as a
power of two of units. -/
structure Format where
  precision : Nat
  least : Nat

def Format.double : Format := ⟨53, 0⟩

def Format.single : Format := ⟨24, 925⟩

/-- The distance, as a power of two of units, between neighbours above a
number of `units`. -/
def Format.step (f : Format) (units : Nat) : Nat :=
  max (units.log2 + 1 - f.precision) f.least

/-- Whether `d` lies in the interval of reals that round to `units`.  Its
ends belong to it when the significand is even; just below a power of two
the neighbours are half as far apart. -/
def Format.readsBack (f : Format) (units : Nat) (d : Decimal) : Bool :=
  let step := f.step units
  let significand := units >>> step
  let narrow := significand == 1 <<< (f.precision - 1) && f.least < step
  let low := 4 * units - (if narrow then 1 <<< step else 2 <<< step)
  let high := 4 * units + 2 <<< step
  let closed := significand % 2 == 0
  let below := d.compareQuarters low
  let above := d.compareQuarters high
  (below == .gt || (closed && below == .eq)) && (above == .lt || (closed && above == .eq))

/-- The least `k` with `units < 10 ^ k`, as real numbers. -/
def decimalScale (units : Nat) : Int :=
  let estimate : Int := (((units.log2 : Int) - 1074) * 30103) / 100000
  let isAbove (k : Int) : Bool := (Decimal.mk 1 k).compareQuarters (4 * units) == .gt
  ([estimate - 1, estimate, estimate + 1].find? isAbove).getD (estimate + 2)

/-- The nearer of the two neighbours of `units` on the grid `10 ^ k` that
read back, if any does. -/
def onGrid? (f : Format) (units : Nat) (k : Int) : Option Decimal :=
  let num := units * 10 ^ (-k).toNat
  let den := unitsPerOne * 10 ^ k.toNat
  let low := num / den
  match f.readsBack units ⟨low, k⟩, f.readsBack units ⟨low + 1, k⟩ with
  | false, false => none
  | true, false => some ⟨low, k⟩
  | false, true => some ⟨low + 1, k⟩
  | true, true => some ⟨divNearest num den, k⟩

/-- The shortest decimal that reads back to a positive number of units; the
exact value, should seventeen digits ever not suffice. -/
def shortest (f : Format) (units : Nat) : Decimal :=
  let scale := decimalScale units
  let found := (List.range 17).findSome? fun n => onGrid? f units (scale - (n + 1 : Nat))
  let d := found.getD ⟨units * 5 ^ 1074, -1074⟩
  Decimal.stripZeros d.digits d.exponent

end Binary64

end Conform
