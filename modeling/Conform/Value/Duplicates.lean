/-
# `Value.Duplicates` — items that occur more than once

Positions of strictly equal items are gathered into groups, in the order of
the first item of each.  Items that can be keys are only looked for among
such items, the others among all.
-/
import Conform.Value.Equality

namespace Conform

namespace Value

/-- Whether an item belongs to the group that `first` opened. -/
def joins (first v : Value) : Bool :=
  if v.hashable then first.hashable && sameType first v && sameKey first v
  else strictEqual first v

/-- Adds a position to the group of its item, or opens one. -/
def place (i : Nat) (v : Value) : List (Value × List Nat) → List (Value × List Nat)
  | [] => [(v, [i])]
  | (first, positions) :: rest =>
      if joins first v then (first, positions ++ [i]) :: rest
      else (first, positions) :: place i v rest

/-- All groups of positions; the first of the items has position `i`. -/
def gather (groups : List (Value × List Nat)) (i : Nat) : List Value → List (Value × List Nat)
  | [] => groups
  | v :: rest => gather (place i v groups) (i + 1) rest

/-- The groups of two positions or more. -/
def duplicateGroups (items : List Value) : List (List Nat) :=
  ((gather [] 0 items).map (·.2)).filter (1 < ·.length)

end Value

end Conform
