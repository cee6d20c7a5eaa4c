/-
# `Text.Boundaries` — sets of characters as ascending boundaries

A set of code points is given by the ascending list of the points where
membership changes: the set starts empty, and every boundary flips it.
-/

namespace Conform.Text

/-- Ascending code points at which membership changes. -/
abbrev Boundaries := List Nat

/-- Membership of a code point: it lies past an odd number of boundaries. -/
def Boundaries.holds : Boundaries → Nat → Bool
  | [], _ => false
  | b :: rest, n => if n < b then false else !(holds rest n)

def Boundaries.contains (bounds : Boundaries) (c : Char) : Bool :=
  bounds.holds c.toNat

/-- The first code point of the run that holds `n`. -/
def Boundaries.runStart : Boundaries → Nat → Option Nat
  | [], _ | [_], _ => none
  | first :: stop :: rest, n =>
      if n < first then none else if n < stop then some first else runStart rest n

def Boundaries.runStart? (bounds : Boundaries) (c : Char) : Option Nat :=
  bounds.runStart c.toNat

end Conform.Text
