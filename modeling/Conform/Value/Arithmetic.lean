/-
# `Value.Arithmetic` — sums, products and comparisons of numbers

Numbers of different representations meet in a common one.  A plain number
takes the representation of the fixed one it meets, as far as that can hold
it; two plain numbers keep to unbounded integers and doubles, which is what
`mixed` positions do.  Arrays of different shapes are stretched along the
dimensions in which one of them has extent one.
-/
import Conform.Value.Amount
import Conform.Number.Notation

namespace Conform

/-! ## Common representations -/

/-- The format that holds the integers of both, if there is one. -/
def IntegerFormat.join? (f g : IntegerFormat) : Option IntegerFormat :=
  if f.isSigned = g.isSigned then some (if f.bits < g.bits then g else f)
  else
    let (signed, unsigned) := if f.isSigned then (f, g) else (g, f)
    if unsigned.bits < signed.bits then some signed else none

/-- The format in which the contents of two arrays meet. -/
def ElementFormat.join : ElementFormat → ElementFormat → ElementFormat
  | .mixed, _ | _, .mixed => .mixed
  | .text, _ | _, .text => .text
  | .bool, f | f, .bool => f
  | .integer f, .integer g => ((f.join? g).map .integer).getD .float64
  | .float32, .float32 | .float32, .integer .uint8 | .integer .uint8, .float32 => .float32
  | _, _ => .float64

/-- How a number enters an operation: plain, or in a format that it keeps. -/
inductive Stance where
  | flag
  | integer
  | double
  | fixed (format : ElementFormat)
deriving DecidableEq

namespace Stance

/-- The format of a fixed number beside a number of a stance. -/
def beside (f : ElementFormat) : Stance → ElementFormat
  | .fixed g => f.join g
  | .flag => f.join .bool
  | .integer => if f = .bool then .integer .int64 else f
  | .double =>
      match f with
      | .bool | .integer _ => .float64
      | f => f

/-- The format in which two numbers meet. -/
def meet : Stance → Stance → ElementFormat
  | .fixed f, s | s, .fixed f => beside f s
  | _, _ => .mixed

end Stance

/-! ## One position -/

namespace Cell

/-- The double nearest to the number in a position. -/
def double (c : Cell) : Except Fault Binary64 :=
  match c.amount? with
  | some a => a.double
  | none => .error .typeMismatch

/-- The content of a position in a format. -/
def into (f : ElementFormat) (c : Cell) : Except Fault Cell :=
  match f, c with
  | .integer g, .int n => if g.holds n then .ok (.int n) else .error .overflow
  | .integer _, .bool b => .ok (.int b.toNat)
  | .float64, c => return .float (← c.double)
  | .float32, c => return .float (← c.double).toSingle
  | .bool, .bool b => .ok (.bool b)
  | .text, .text s => .ok (.text s)
  | .mixed, c => .ok c
  | _, _ => .error .typeMismatch

/-- The text of a number among texts. -/
def toText : Cell → Cell
  | .int n => .text (toString n)
  | .float x => .text x.text
  | .bool b => .text (if b then "True" else "False")
  | c => c

end Cell

/-- An operation on integers, on doubles, on flags and perhaps on texts. -/
structure Operation where
  onInt : Int → Int → Int
  onFloat : Binary64 → Binary64 → Binary64
  onFlag : Bool → Bool → Bool
  onText? : Option (String → String → String)

namespace Operation

def sum : Operation := ⟨(· + ·), .add, (· || ·), some (· ++ ·)⟩

def product : Operation := ⟨(· * ·), .mul, (· && ·), none⟩

/-- The operation on plain numbers. -/
def onAmounts (op : Operation) (a b : Amount) : Except Fault Cell :=
  match a, b with
  | .int m, .int n => .ok (.int (op.onInt m n))
  | a, b => return .float (op.onFloat (← a.double) (← b.double))

/-- The operation on two positions of a format. -/
def onCells (op : Operation) (f : ElementFormat) (a b : Cell) : Except Fault Cell :=
  match f, a, b with
  | .integer g, .int m, .int n => .ok (.int (g.wrap (op.onInt m n)))
  | .float64, .float x, .float y => .ok (.float (op.onFloat x y))
  | .float32, .float x, .float y => .ok (.float (op.onFloat x y).toSingle)
  | .bool, .bool b, .bool c => .ok (.bool (op.onFlag b c))
  | _, a, b =>
      match a.amount?, b.amount?, a, b, op.onText? with
      | some x, some y, _, _, _ => op.onAmounts x y
      | _, _, .text s, .text t, some joined => .ok (.text (joined s t))
      | _, _, _, _, _ => .error .typeMismatch

end Operation

inductive Comparison where
  | lt
  | le
  | gt
  | ge
deriving DecidableEq

/-- Whether an order satisfies the comparison; without an order it does
not. -/
def Comparison.accepts (c : Comparison) (o : Option Ordering) : Bool :=
  match c, o with
  | .lt, some .lt | .le, some .lt | .le, some .eq | .gt, some .gt | .ge, some .gt
  | .ge, some .eq => true
  | _, _ => false

/-- Lexicographic order of lists of numbers. -/
def compareNumbers : List Nat → List Nat → Ordering
  | [], [] => .eq
  | [], _ :: _ => .lt
  | _ :: _, [] => .gt
  | a :: as, b :: bs => (compare a b).then (compareNumbers as bs)

/-- The order of texts by code points. -/
def compareTexts (s t : String) : Ordering :=
  compareNumbers (s.toList.map Char.toNat) (t.toList.map Char.toNat)

namespace Cell

/-- The order of two positions; amounts compare whatever their size. -/
def order? (a b : Cell) : Except Fault (Option Ordering) :=
  match a.amount?, b.amount?, a, b with
  | some x, some y, _, _ => .ok (x.compare? y)
  | _, _, .text s, .text t => .ok (some (compareTexts s t))
  | _, _, _, _ => .error .typeMismatch

/-- Whether two positions are equal; those without an order are not. -/
def equal (a b : Cell) : Bool :=
  match a.order? b with
  | .ok (some .eq) => true
  | _ => false

end Cell

/-! ## Arrays -/

namespace Tensor

/-- The extents that two shapes are stretched to, both from the last
dimension on. -/
def commonReversed : List Nat → List Nat → Option (List Nat)
  | [], ns => some ns
  | ms, [] => some ms
  | m :: ms, n :: ns => do
      let rest ← commonReversed ms ns
      if m = n || n = 1 then return m :: rest
      else if m = 1 then return n :: rest
      else none

def commonShape (ms ns : List Nat) : Except Fault (List Nat) :=
  match commonReversed ms.reverse ns.reverse with
  | some shape => .ok shape.reverse
  | none => .error .badValue

/-- Positions of a shape stretched to another one of as many dimensions. -/
def stretched : List Nat → List Nat → List Cell → List Cell
  | n :: shape, m :: wanted, cells =>
      let rows := (parts n (volume shape) cells).map (stretched shape wanted)
      if n = m then rows.flatten else (List.replicate m rows.flatten).flatten
  | _, _, cells => cells

/-- An array from arrays along a new first dimension. -/
def stack (rows : List Tensor) : Except Fault Tensor :=
  match rows with
  | [] => .ok ⟨.float64, [0], []⟩
  | first :: rest =>
      if rest.all (·.shape == first.shape) then do
        let format := rest.foldl (fun f t => f.join t.format) first.format
        let cells := rows.flatMap Tensor.cells
        let cells ← if format = .text then pure (cells.map Cell.toText) else cells.mapM (·.into format)
        return ⟨format, rows.length :: first.shape, cells⟩
      else .error .badValue

end Tensor

/-- A number or an array of them, with the stance it takes. -/
structure Operand where
  stance : Stance
  tensor : Tensor

namespace Operand

/-- The format in which two operands meet. -/
def meet (a b : Operand) : ElementFormat := a.stance.meet b.stance

/-- The format in which two operands are compared.  Integers of any two
formats compare as they are, and so do texts. -/
def comparing (a b : Operand) : ElementFormat :=
  match a.stance, b.stance with
  | .fixed (.integer _), .fixed (.integer _) | .fixed (.integer _), .integer
  | .integer, .fixed (.integer _) => .mixed
  | _, _ => if a.meet b = .text then .mixed else a.meet b

/-- Texts meet texts only. -/
def checkText (a b : Operand) : Except Fault Unit :=
  if a.meet b = .text && (a.stance != .fixed .text || b.stance != .fixed .text) then
    .error .formatMismatch
  else .ok ()

/-- The positions of two operands in a format, side by side in one shape. -/
def sideBySide (f : ElementFormat) (a b : Operand) :
    Except Fault (List Nat × List (Cell × Cell)) := do
  let cells ← a.tensor.cells.mapM (·.into f)
  let others ← b.tensor.cells.mapM (·.into f)
  let shape ← Tensor.commonShape a.tensor.shape b.tensor.shape
  return (shape, (stretchedTo a.tensor.shape cells shape).zip
    (stretchedTo b.tensor.shape others shape))
where
  stretchedTo (own : List Nat) (cells : List Cell) (shape : List Nat) : List Cell :=
    Tensor.stretched (List.replicate (shape.length - own.length) 1 ++ own) shape cells

/-- The outcome of an operation on numbers or arrays. -/
def combine (op : Operation) (a b : Operand) : Except Fault Tensor := do
  checkText a b
  if a.meet b = .text && op.onText?.isNone then throw .formatMismatch
  let (shape, pairs) ← sideBySide (a.meet b) a b
  return ⟨a.meet b, shape, ← pairs.mapM fun (c, d) => op.onCells (a.meet b) c d⟩

/-- The outcome of a comparison, position by position. -/
def compare (c : Comparison) (a b : Operand) : Except Fault Tensor := do
  checkText a b
  let (shape, pairs) ← sideBySide (a.comparing b) a b
  return ⟨.bool, shape, ← pairs.mapM fun (x, y) => return .bool (c.accepts (← x.order? y))⟩

/-- The one answer to whether two operands are equal; there is none for
arrays of several positions, or of none. -/
def equal (a b : Operand) : Except Fault Bool := do
  let (_, pairs) ← sideBySide (a.comparing b) a b
  match pairs with
  | [(x, y)] => return x.equal y
  | _ => throw .badValue

end Operand

end Conform
