/-
# `Value.Class` — what a value counts as

The tests by which options and checks sort values.  Flags are no numbers
here, whatever their representation.
-/
import Conform.Value.Call

namespace Conform

namespace Value

def isBoolean : Value → Bool
  | .bool _ | .scalar (.bool _) => true
  | _ => false

/-- A plain integer, flags included. -/
def isPlainInteger : Value → Bool
  | .bool _ | .int _ | .member ⟨_, _, .number _⟩ => true
  | _ => false

/-- A number: an integer or a double of any representation, but no flag. -/
def isReal : Value → Bool
  | .int _ | .float _ | .member ⟨_, _, .number _⟩ => true
  | .scalar (.integer _ _) | .scalar (.float64 _) | .scalar (.float32 _) => true
  | _ => false

/-- A number without a fractional part. -/
def isInteger : Value → Bool
  | .int _ | .member ⟨_, _, .number _⟩ | .scalar (.integer _ _) => true
  | .float x | .scalar (.float64 x) | .scalar (.float32 x) => x.isIntegral
  | _ => false

def isNaN : Value → Bool
  | .float x | .scalar (.float64 x) | .scalar (.float32 x) => x.isNaN
  | _ => false

def isDict : Value → Bool
  | .dict _ => true
  | _ => false

def isNone : Value → Bool
  | .none => true
  | _ => false

def isUndefined : Value → Bool
  | .undefined => true
  | _ => false

/-- The items of a list or a tuple. -/
def listed? : Value → Option (List Value)
  | .list items | .tuple items => some items
  | _ => .none

/-- The items of an array: a list, a tuple, or an array of one dimension. -/
def arrayItems? : Value → Option (List Value)
  | .list items | .tuple items => some items
  | .tensor t =>
      match t.shape with
      | [_] => some t.plainItems
      | _ => .none
  | _ => .none

/-- What a schema can be compiled from: a dictionary, or several. -/
def isConfiguration : Value → Bool
  | .dict _ => true
  | .list items | .tuple items => !items.isEmpty && items.all isDict
  | _ => false

/-- The name of a value's kind, as documents are told apart. -/
def typeName : Value → String
  | .none => "NoneType"
  | .bool _ => "bool"
  | .int _ => "int"
  | .float _ => "float"
  | .str _ => "str"
  | .bytes _ => "bytes"
  | .list _ => "list"
  | .tuple _ => "tuple"
  | .set _ => "set"
  | .frozenset _ => "frozenset"
  | .dict _ => "dict"
  | .moment m => m.typeName
  | .undefined | .aliasKey _ | .member _ | .pattern _ | .scalar _ | .tensor _ | .object _
  | .callable _ | .code _ | .schema _ => "object"

end Value

/-- Whether a callable goes by a name of its own. -/
def Callable.isNamed (f : Callable) : Bool :=
  match f.name? with
  | some name => name != "" && name != "<lambda>"
  | none => false

end Conform
