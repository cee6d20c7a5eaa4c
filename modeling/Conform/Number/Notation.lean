/-
# `Number.Notation` — how a number is written

A double is written with the fewest digits that identify it: positionally
from 10 ^ (-4) on and below 10 ^ 16, always with a fractional part, and
otherwise in scientific form with a signed exponent of at least two digits.
The same layout serves single precision, whose digits are chosen on its own
coarser grid.
-/
import Conform.Number.Shortest

namespace Conform

namespace Decimal

def zeros (n : Nat) : String := String.ofList (List.replicate n '0')

/-- The digits, and the exponent of the leading one. -/
def leading (d : Decimal) : List Char × Int :=
  let ds := Nat.toDigits 10 d.digits
  (ds, d.exponent + ds.length - 1)

/-- Positional form: digits, a point, and at least one digit after it. -/
def positional (ds : List Char) (lead : Int) : String :=
  let n : Int := ds.length
  if lead < 0 then "0." ++ zeros (-lead - 1).toNat ++ String.ofList ds
  else if n ≤ lead + 1 then String.ofList ds ++ zeros (lead + 1 - n).toNat ++ ".0"
  else
    let whole := (lead + 1).toNat
    String.ofList (ds.take whole) ++ "." ++ String.ofList (ds.drop whole)

/-- A signed exponent of at least two digits. -/
def exponentText (e : Int) : String :=
  let ds := toString e.natAbs
  (if e < 0 then "-" else "+") ++ (if ds.length < 2 then "0" ++ ds else ds)

/-- Scientific form: one digit, the others after a point if there are any. -/
def scientific (ds : List Char) (lead : Int) : String :=
  let rest := ds.drop 1
  String.ofList (ds.take 1) ++ (if rest.isEmpty then "" else "." ++ String.ofList rest)
    ++ "e" ++ exponentText lead

end Decimal

namespace Binary64

/-- Whether a number of units is written without an exponent. -/
def isPositional (units : Nat) : Bool :=
  unitsPerOne ≤ units * 10 ^ 4 && units < 10 ^ 16 * unitsPerOne

/-- The written form of a positive number of units. -/
def unitsText (f : Format) (units : Nat) : String :=
  let (ds, lead) := (shortest f units).leading
  if isPositional units then Decimal.positional ds lead else Decimal.scientific ds lead

/-- The written form of a number on the grid of `f`. -/
def textIn (f : Format) : Binary64 → String
  | .nan => "nan"
  | .infinite negative => if negative then "-inf" else "inf"
  | .finite negative m =>
      (if negative then "-" else "") ++ (if m.units = 0 then "0.0" else unitsText f m.units)

def text (x : Binary64) : String := x.textIn .double

end Binary64

end Conform
