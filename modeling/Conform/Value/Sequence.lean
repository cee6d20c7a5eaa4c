/-
# `Value.Sequence` — the items of a value

What can be walked through yields its items in order: the characters of a
text, the keys of a dictionary, the rows of an array.
-/
import Conform.Value.Order
import Conform.Value.Entries
import Conform.Value.SetOrder

namespace Conform

/-- What an array holds along its first dimension, as values. -/
def Tensor.items (t : Tensor) : List Value := t.rows.map Tensor.value

/-- Positions of a shape as nested lists of plain values. -/
def Tensor.nested : List Nat → List Cell → List Value
  | [], cells => cells.map Cell.plain
  | n :: shape, cells =>
      let rows := (parts n (volume shape) cells).map (nested shape)
      if shape.isEmpty then rows.flatten else rows.map Value.list

/-- An array as nested lists of plain values. -/
def Tensor.plainItems (t : Tensor) : List Value := nested t.shape t.cells

namespace Value

/-- The items of a value that can be walked through. -/
def items : Value → Except Fault (List Value)
  | .str s | .member ⟨_, _, .text s⟩ => .ok (s.toList.map fun c => .str c.toString)
  | .bytes bs => .ok (bs.map fun b => .int b.toNat)
  | .list items | .tuple items => .ok items
  | .set items | .frozenset items => .ok (inSetOrder items items)
  | .dict entries => .ok (entries.map (·.1))
  | .tensor t => .ok t.items
  | .callable (.ofClass .enum) => .ok []
  | .schema (.multi members) => .ok (members.map fun s => .schema (.single s))
  | _ => .error .typeMismatch

/-- The number of items. -/
def length (v : Value) : Except Fault Nat := return (← v.items).length

/-- Where a value belongs in ascending items, between two positions: after
those that it is not below, found by halving. -/
def insertionPoint (v : Value) (items : List Value) (low high : Nat) : Except Fault Nat :=
  if low < high then
    let middle := low + (high - low) / 2
    match items[middle]? with
    | .none => .ok low
    | some w =>
        match holds .lt v w with
        | .error fault => .error fault
        | .ok true => insertionPoint v items low middle
        | .ok false => insertionPoint v items (middle + 1) high
  else .ok low
termination_by high - low

/-- Puts a value into ascending items. -/
def insertAscending (items : List Value) (v : Value) : Except Fault (List Value) := do
  let n ← insertionPoint v items 0 items.length
  return items.take n ++ v :: items.drop n

/-- The items after `last` as long as each is below the one before it, or as
long as none is, and the others. -/
def takeRun (descending : Bool) (last : Value) : List Value → Except Fault (List Value × List Value)
  | [] => return ([], [])
  | v :: rest => do
      if (← holds .lt v last) == descending then
        let (run, left) ← takeRun descending v rest
        return (v :: run, left)
      else return ([], v :: rest)

/-- The items in ascending order; equal ones keep their places.  Items that
are in order at the front stay so, and the others are put in one by one. -/
def ascending : List Value → Except Fault (List Value)
  | first :: second :: rest => do
      let descending ← holds .lt second first
      let (run, left) ← takeRun descending second rest
      let run := first :: second :: run
      left.foldlM insertAscending (if descending then run.reverse else run)
  | items => return items

/-- The first item that no other exceeds in the sense of the comparison. -/
def extreme (c : Comparison) : List Value → Except Fault Value
  | [] => .error .badValue
  | first :: rest =>
      rest.foldlM (fun best v => return if ← holds c v best then v else best) first

/-- Sizes must lie below this one. -/
def sizeLimit : Nat := 2 ^ 63

/-- The greatest number of items that memory holds. -/
def capacity : Nat := 2 ^ 36

/-- Items one after another, `n` times; `tooMany` is the fault of more items
than can be counted. -/
def repeated {α : Type} (tooMany : Fault) (n : Int) (items : List α) : Except Fault (List α) :=
  if sizeLimit ≤ n ∨ n < -(sizeLimit : Int) then .error .overflow
  else if sizeLimit ≤ items.length * n.toNat then .error tooMany
  else if capacity < items.length * n.toNat then .error .outOfMemory
  else if items.isEmpty then .ok []
  else .ok (List.replicate n.toNat items).flatten

/-- The outcome of an operation on values as numbers. -/
def combined (op : Operation) (a b : Value) : Except Fault Value :=
  return (← (← a.operand).combine op (← b.operand)).value

/-- Whether an operation takes two values as numbers: one is fixed, or both
are plain numbers. -/
def areNumbers (a b : Value) : Bool :=
  a.isFixed || b.isFixed || (a.amount?.isSome && b.amount?.isSome)

/-- The sum of numbers, or one sequence after another. -/
def add (a b : Value) : Except Fault Value :=
  if areNumbers a b then combined .sum a b
  else
    match a, b, a.text?, b.text? with
    | _, _, some s, some t => .ok (.str (s ++ t))
    | .list xs, .list ys, _, _ => .ok (.list (xs ++ ys))
    | .tuple xs, .tuple ys, _, _ => .ok (.tuple (xs ++ ys))
    | .bytes xs, .bytes ys, _, _ => .ok (.bytes (xs ++ ys))
    | _, _, _, _ => .error .typeMismatch

/-- The number of repetitions that a value asks for. -/
def count? : Value → Option Int
  | .bool b | .scalar (.bool b) => some b.toNat
  | .int n | .member ⟨_, _, .number n⟩ | .scalar (.integer _ n) => some n
  | _ => .none

/-- A sequence, repeated. -/
def times (v : Value) (n : Int) : Except Fault Value :=
  match v with
  | .list xs => return .list (← repeated .outOfMemory n xs)
  | .tuple xs => return .tuple (← repeated .outOfMemory n xs)
  | .bytes bs => return .bytes (← repeated .overflow n bs)
  | .str s | .member ⟨_, _, .text s⟩ =>
      return .str (String.ofList (← repeated .overflow n s.toList))
  | _ => .error .typeMismatch

/-- Whether a value is a sequence that can be repeated. -/
def isRepeatable : Value → Bool
  | .list _ | .tuple _ | .bytes _ | .str _ | .member ⟨_, _, .text _⟩ => true
  | _ => false

/-- Whether a value is a number of fixed representation, not an array. -/
def isScalar : Value → Bool
  | .scalar _ => true
  | _ => false

/-- The product of numbers, or a sequence repeated. -/
def mul (a b : Value) : Except Fault Value :=
  if a.isRepeatable && (b.isScalar || !b.isFixed) then repeatedBy b a
  else if b.isRepeatable && (a.isScalar || !a.isFixed) then repeatedBy a b
  else if areNumbers a b then combined .product a b
  else .error .typeMismatch
where
  repeatedBy (n v : Value) : Except Fault Value :=
    match n.count? with
    | some n => v.times n
    | .none => .error .typeMismatch

end Value

end Conform
