/-
# `Value.Order` — comparison and truth of values

Numbers, texts, byte strings and sequences are ordered among themselves,
sets by inclusion; other pairs have no order, and asking for it is a fault.
Fixed numbers and arrays compare position by position.  Every value counts
as true or false, an array only when it has one position.
-/
import Conform.Value.Equality

namespace Conform

def Cell.truthy : Cell → Bool
  | .int n => n != 0
  | .float x => x.signedUnits? != some 0
  | .bool b => b
  | .text s => !s.isEmpty
  | .other => true

/-- A position as a plain value. -/
def Cell.plain : Cell → Value
  | .int n => .int n
  | .float x => .float x
  | .bool b => .bool b
  | .text s => .str s
  | .other => .none

/-- A position of an array of some format as a value. -/
def Value.ofCell (f : ElementFormat) (c : Cell) : Value :=
  match f, c with
  | .integer g, .int n => .scalar (.integer g n)
  | .float64, .float x => .scalar (.float64 x)
  | .float32, .float x => .scalar (.float32 x)
  | .bool, .bool b => .scalar (.bool b)
  | _, c => c.plain

/-- An array as a value; without dimensions it is its only position. -/
def Tensor.value (t : Tensor) : Value :=
  match t.shape, t.cells with
  | [], [c] => .ofCell t.format c
  | _, _ => .tensor t

namespace Value

/-- Comparison of values that are no pair of like sequences. -/
def compareAtoms (c : Comparison) (a b : Value) : Except Fault Value :=
  if a.isFixed || b.isFixed then
    return ((← Operand.compare c (← a.operand) (← b.operand))).value
  else
    match a.amount?, b.amount?, a.text?, b.text? with
    | some x, some y, _, _ => .ok (.bool (c.accepts (x.compare? y)))
    | _, _, some s, some t => .ok (.bool (c.accepts (some (compareTexts s t))))
    | _, _, _, _ =>
        match a, b, a.elements?, b.elements? with
        | .bytes bs, .bytes cs, _, _ =>
            .ok (.bool (c.accepts
              (some (compareNumbers (bs.map UInt8.toNat) (cs.map UInt8.toNat)))))
        | _, _, some xs, some ys =>
            let below := within xs ys
            let above := within ys xs
            .ok (.bool (match c with
              | .lt => below && !above
              | .le => below
              | .gt => above && !below
              | .ge => above))
        | _, _, _, _ => .error .typeMismatch

mutual

/-- The outcome of a comparison. -/
def compareWith (c : Comparison) (a b : Value) : Except Fault Value :=
  match a with
  | .list xs =>
      match b with
      | .list ys => compareItems c xs ys
      | b => compareAtoms c a b
  | .tuple xs =>
      match b with
      | .tuple ys => compareItems c xs ys
      | b => compareAtoms c a b
  | _ => compareAtoms c a b
termination_by structural a

/-- Sequences compare like their first items that differ, else like their
lengths. -/
def compareItems (c : Comparison) (xs ys : List Value) : Except Fault Value :=
  match xs, ys with
  | x :: xs, y :: ys =>
      match equalityFault? x y with
      | some fault => .error fault
      | .none => if equal x y then compareItems c xs ys else compareWith c x y
  | xs, ys => .ok (.bool (c.accepts (some (compare xs.length ys.length))))
termination_by structural xs

end

/-- Whether a value counts as true. -/
def truthy : Value → Except Fault Bool
  | .none | .undefined => .ok false
  | .bool b => .ok b
  | .int n => .ok (n != 0)
  | .float x => .ok (Cell.float x).truthy
  | .str s => .ok !s.isEmpty
  | .bytes bs => .ok !bs.isEmpty
  | .list items | .tuple items | .set items | .frozenset items => .ok !items.isEmpty
  | .dict entries => .ok !entries.isEmpty
  | .member ⟨_, _, .plain _⟩ => .ok true
  | .member ⟨_, _, .number n⟩ => .ok (n != 0)
  | .member ⟨_, _, .text s⟩ => .ok !s.isEmpty
  | .scalar s => .ok s.cell.truthy
  | .tensor t =>
      match t.single? with
      | some c => .ok c.truthy
      | .none => .error .badValue
  | .schema (.multi members) => .ok !members.isEmpty
  | .schema (.single _) | .moment _ | .aliasKey _ | .pattern _ | .object _ | .callable _
  | .code _ => .ok true

/-- Whether a comparison holds, as a test. -/
def holds (c : Comparison) (a b : Value) : Except Fault Bool := do (← compareWith c a b).truthy

end Value

end Conform
