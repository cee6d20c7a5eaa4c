/-
# `Value.Conversion` — values made from other values

A class makes a value of its own from another: numbers from numbers and
texts, sequences from whatever can be walked through, text from anything.
-/
import Conform.Value.Sequence
import Conform.Schema.Alternatives
import Conform.Number.Reading

namespace Conform

namespace Value

def ofOption {α : Type} (fault : Fault) : Option α → Except Fault α
  | some a => .ok a
  | .none => .error fault

/-- Bytes read as text one by one.  Those beyond seven bits stand for nothing
that a number can hold. -/
def byteText (bs : List UInt8) : String :=
  String.ofList (bs.map fun b => if b < 128 then Char.ofNat b.toNat else Char.ofNat 0xFFFD)

/-- The integer part of an amount. -/
def truncated : Amount → Except Fault Int
  | .int n => .ok n
  | .float .nan => .error .badValue
  | .float x => ofOption .overflow x.truncate?

def toInt (v : Value) : Except Fault Int :=
  match v.amount?, v.text?, v with
  | some a, _, _ => truncated a
  | _, some s, _ => ofOption .badValue (Number.int? s)
  | _, _, .bytes bs => ofOption .badValue (Number.int? (byteText bs))
  | _, _, .tensor t => do
      match ← ofOption .typeMismatch t.single? with
      | .text s => ofOption .badValue (Number.int? s)
      | c => truncated (← ofOption .typeMismatch c.amount?)
  | _, _, _ => .error .typeMismatch

def toFloat (v : Value) : Except Fault Binary64 :=
  match v.amount?, v.text?, v with
  | some a, _, _ => a.double
  | _, some s, _ => ofOption .badValue (Number.float? s)
  | _, _, .bytes bs => ofOption .badValue (Number.float? (byteText bs))
  | _, _, .tensor t => do
      match ← ofOption .typeMismatch t.single? with
      | .text s => ofOption .badValue (Number.float? s)
      | c => c.double
  | _, _, _ => .error .typeMismatch

/-- An entry from a pair of items. -/
def toEntry (v : Value) : Except Fault (Value × Value) := do
  match ← v.items with
  | [k, w] => if k.hashable then return (k, w) else throw .typeMismatch
  | _ => throw .badValue

def toDict (v : Value) : Except Fault Value :=
  match v with
  | .dict entries => .ok (.dict entries)
  | v => return .dict (Entries.ofList (← (← v.items).mapM toEntry))

def toSet (v : Value) : Except Fault Value := do
  let items ← v.items
  if items.all hashable then return .set (dedupe items) else throw .typeMismatch

/-- A byte from a number. -/
def toByte (v : Value) : Except Fault UInt8 := do
  let n ← ofOption .typeMismatch v.count?
  if 0 ≤ n ∧ n < 256 then return UInt8.ofNat n.toNat else throw .badValue

/-- The bytes of a number of some width, the least significant first. -/
def littleEndian : Nat → Nat → List UInt8
  | 0, _ => []
  | width + 1, n => UInt8.ofNat n :: littleEndian width (n / 256)

/-- The bytes of a position of an array. -/
def cellBytes (f : ElementFormat) (width : Nat) (c : Cell) : List UInt8 :=
  match f, c with
  | .integer g, .int n => littleEndian (g.bits / 8) (n % ((1 <<< g.bits : Nat) : Int)).toNat
  | .float32, .float x => littleEndian 4 x.singleBits
  | _, .float x => littleEndian 8 x.bits
  | _, .bool b => [if b then 1 else 0]
  | _, .text s =>
      s.toList.flatMap (fun c => littleEndian 4 c.toNat)
        ++ List.replicate (4 * (width - s.length)) 0
  | _, .int _ | _, .other => []

/-- The bytes of an array, position by position; texts take the room of the
longest. -/
def tensorBytes (t : Tensor) : List UInt8 :=
  t.cells.flatMap (cellBytes t.format t.textWidth)

def toBytes (v : Value) : Except Fault Value :=
  match v with
  | .bytes bs => .ok (.bytes bs)
  | .str _ | .member ⟨_, _, .text _⟩ => .error .typeMismatch
  | .scalar (.float64 x) => .ok (.bytes (cellBytes .float64 0 (.float x)))
  | .scalar (.float32 x) => .ok (.bytes (cellBytes .float32 0 (.float x)))
  | .tensor t => .ok (.bytes (tensorBytes t))
  | v =>
      match v.count? with
      | some n =>
          if n < 0 ∧ -(sizeLimit : Int) ≤ n then .error .badValue
          else return .bytes (← repeated .overflow n [0])
      | .none => return .bytes (← (← v.items).mapM toByte)

/-- An alternative from an item.  A class of schemas has the operations of schemas, but
they need one to work on. -/
def toAlternative : Value → Except Fault Schema
  | .schema s => .ok s
  | .callable (.ofClass .alternatives) | .callable (.ofClass (.schemas _)) => .error .typeMismatch
  | _ => .error .missingAttribute

end Value

/-- The value that a class makes from another. -/
def ClassName.make (c : ClassName) (v : Value) : Except Fault Value :=
  match c with
  | .int => return .int (← v.toInt)
  | .float => return .float (← v.toFloat)
  | .str => return .str (← v.asText)
  | .bool => return .bool (← v.truthy)
  | .list => return .list (← v.items)
  | .tuple => return .tuple (← v.items)
  | .dict => v.toDict
  | .set => v.toSet
  | .bytes => v.toBytes
  | .alternatives => return .schema (.ofAlternatives (← (← v.items).mapM Value.toAlternative))
  | .object | .noneType | .enum | .function | .schemas _ => .error .typeMismatch

end Conform
