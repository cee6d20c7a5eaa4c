/-
# `Value.SetOrder` — the order in which a set yields its numbers

A set keeps its elements in a row of slots, always a power of two of them,
and yields them slot by slot.  A number is put into the slot that its
residue names, or into the next free one within reach; if there is none, a
new place is tried that depends on ever more of the residue.  When three
fifths of the slots are taken, the elements move to a longer row.  Other
elements than numbers have no such order and stay as they came.
-/
import Conform.Value.Equality

namespace Conform

/-- What residues are taken by. -/
def residueModulus : Nat := 2 ^ 61 - 1

/-- The residue of a number of units, halved as often as one has units. -/
def unitsResidue (units : Nat) : Nat := units * 2 ^ 24 % residueModulus

/-- The residue that places a number: equal numbers have the same one.
Nothing has residue -1. -/
def Amount.residue? : Amount → Option Int
  | .int n => some (signed (n < 0) (n.natAbs % residueModulus))
  | .float .nan => none
  | .float (.infinite s) => some (signed s 314159)
  | .float (.finite s m) => some (signed s (unitsResidue m.units))
where
  signed (negative : Bool) (n : Nat) : Int :=
    if negative then (if n = 1 then -2 else -(n : Int)) else n

namespace SetOrder

/-- A row of slots, each with a residue and what was placed by it. -/
abbrev Row (α : Type) := Array (Option (Nat × α))

/-- How many slots after the first are tried in a row. -/
def reach : Nat := 9

/-- The first free slot from a place on, if one is within reach. -/
def freeWithin {α : Type} (row : Row α) (place : Nat) : Option Nat :=
  let tried := if place + reach < row.size then reach + 1 else 1
  ((List.range tried).find? fun j => (row[place + j]?).join.isNone).map (place + ·)

/-- The free slot for a residue of which `rest` is still unused. -/
def freeSlot {α : Type} (row : Row α) : Nat → Nat → Nat → Nat
  | 0, place, _ => place
  | tries + 1, place, rest =>
      match freeWithin row place with
      | some slot => slot
      | none =>
          let rest := rest / 32
          freeSlot row tries ((place * 5 + 1 + rest) % row.size) rest

def put {α : Type} (row : Row α) (entry : Nat × α) : Row α :=
  row.setIfInBounds (freeSlot row (row.size + 13) (entry.1 % row.size) entry.1) (some entry)

def emptyRow {α : Type} (size : Nat) : Row α := Array.replicate size none

/-- The least power of two above a number, eight at least. -/
def rowSize (n : Nat) : Nat := max 8 (2 ^ (n.log2 + 1))

/-- What is in a row, slot by slot. -/
def entries {α : Type} (row : Row α) : List (Nat × α) := row.toList.filterMap id

/-- Puts an entry into a row that holds `n`, and moves to a longer one when
it gets full. -/
def insert {α : Type} (row : Row α) (n : Nat) (entry : Nat × α) : Row α :=
  let row := put row entry
  if (n + 1) * 5 < (row.size - 1) * 3 then row
  else
    let wanted := if 50000 < n + 1 then (n + 1) * 2 else (n + 1) * 4
    (entries row).foldl put (emptyRow (rowSize wanted))

/-- Entries in the order of their slots, when they are put in one by one. -/
def arranged {α : Type} (es : List (Nat × α)) : List α :=
  let (row, _) := es.foldl (fun (row, n) e => (insert row n e, n + 1)) (emptyRow 8, 0)
  (entries row).map (·.2)

end SetOrder

namespace Value

/-- The place of an element in a set, if it is a number. -/
def residue? (v : Value) : Option Nat :=
  (v.amount?.bind Amount.residue?).map fun n => (n % (2 ^ 64 : Int)).toNat

/-- What belongs to the elements of a set, in the order in which the set
yields them. -/
def inSetOrder {α : Type} (items : List Value) (parts : List α) : List α :=
  match items.mapM residue? with
  | some residues => SetOrder.arranged (residues.zip parts)
  | .none => parts

end Value

end Conform
