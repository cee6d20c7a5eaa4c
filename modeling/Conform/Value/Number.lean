/-
# `Value.Number` — machine numbers and arrays of them

Beside unbounded integers and doubles there are numbers of a fixed
representation, alone (`Scalar`) or in arrays of any number of dimensions
(`Tensor`).  Each has a plain counterpart, which is what digests and
listings use.
-/
import Conform.Number.Binary64

namespace Conform

/-- Integers of a fixed representation. -/
inductive IntegerFormat where
  | int64
  | int32
  | uint8
  | uint64
deriving DecidableEq

/-- Numbers of a fixed representation.  Single precision numbers are kept
as the double they equal. -/
inductive Scalar where
  | integer (format : IntegerFormat) (n : Int)
  | float64 (x : Binary64)
  | float32 (x : Binary64)
  | bool (b : Bool)
deriving DecidableEq

/-- The plain content of one array position. -/
inductive Cell where
  | int (n : Int)
  | float (x : Binary64)
  | bool (b : Bool)
  | text (s : String)
  /-- Something that is neither number nor text. -/
  | other
deriving DecidableEq

/-- What an array holds.  Arrays of anything are `mixed`. -/
inductive ElementFormat where
  | integer (format : IntegerFormat)
  | float64
  | float32
  | bool
  | text
  | mixed
deriving DecidableEq

/-- An array: its extent in each dimension, and its positions in order, the
last dimension running fastest. -/
structure Tensor where
  format : ElementFormat
  shape : List Nat
  cells : List Cell
deriving DecidableEq

namespace IntegerFormat

def name : IntegerFormat → String
  | .int64 => "int64"
  | .int32 => "int32"
  | .uint8 => "uint8"
  | .uint64 => "uint64"

def bits : IntegerFormat → Nat
  | .int64 | .uint64 => 64
  | .int32 => 32
  | .uint8 => 8

def isSigned : IntegerFormat → Bool
  | .int64 | .int32 => true
  | .uint8 | .uint64 => false

/-- The least number of a format. -/
def least (f : IntegerFormat) : Int := if f.isSigned then -((1 <<< (f.bits - 1) : Nat) : Int) else 0

def holds (f : IntegerFormat) (n : Int) : Bool :=
  f.least ≤ n && n < f.least + ((1 <<< f.bits : Nat) : Int)

/-- The number of the format that differs by a multiple of its range. -/
def wrap (f : IntegerFormat) (n : Int) : Int :=
  (n - f.least) % ((1 <<< f.bits : Nat) : Int) + f.least

end IntegerFormat

namespace ElementFormat

/-- The formats that arrays take when none is asked for. -/
def isDefault : ElementFormat → Bool
  | .integer .int64 | .float64 | .bool => true
  | _ => false

def name : ElementFormat → String
  | .integer f => f.name
  | .float64 => "float64"
  | .float32 => "float32"
  | .bool => "bool"
  | .text => "str"
  | .mixed => "object"

end ElementFormat

namespace Scalar

def formatName : Scalar → String
  | .integer f _ => f.name
  | .float64 _ => "float64"
  | .float32 _ => "float32"
  | .bool _ => "bool"

def format : Scalar → ElementFormat
  | .integer f _ => .integer f
  | .float64 _ => .float64
  | .float32 _ => .float32
  | .bool _ => .bool

/-- The plain number that a scalar stands for. -/
def cell : Scalar → Cell
  | .integer _ n => .int n
  | .float64 x | .float32 x => .float x
  | .bool b => .bool b

end Scalar

namespace Tensor

/-- The number of positions of a shape. -/
def volume (shape : List Nat) : Nat := shape.foldl (· * ·) 1

/-- A list cut into `n` parts of a size. -/
def parts {α : Type} (n size : Nat) (items : List α) : List (List α) :=
  match n with
  | 0 => []
  | n + 1 => items.take size :: parts n size (items.drop size)

/-- The arrays along the first dimension. -/
def rows (t : Tensor) : List Tensor :=
  match t.shape with
  | [] => []
  | n :: shape => (parts n (volume shape) t.cells).map fun cells => ⟨t.format, shape, cells⟩

/-- The only position of an array of one. -/
def single? (t : Tensor) : Option Cell :=
  match t.cells with
  | [c] => some c
  | _ => none

end Tensor

end Conform
