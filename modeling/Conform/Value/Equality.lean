/-
# `Value.Equality` — when two values are equal

Numbers are equal across representations, and the flags count as 0 and 1.
A number of fixed representation, or an array, meets its counterpart in
their common format and may equal a list that holds one item; in keys and
sets numbers compare without rounding instead.  Sets and dictionaries are
equal in any order.  Callables other than classes and built-in ones, and
schemas, are equal to no other occurrence.  Strict equality also wants the
same kind of value at the top, so that it tells 1, 1.0 and the true flag
apart.
-/
import Conform.Value.Basic
import Conform.Value.Arithmetic

namespace Conform

namespace Value

/-- The amount of a value that counts as a number. -/
def amount? : Value → Option Amount
  | .bool b => some (.int b.toNat)
  | .int n => some (.int n)
  | .float x => some (.float x)
  | .member ⟨_, _, .number n⟩ => some (.int n)
  | .scalar s => s.cell.amount?
  | _ => .none

/-- The text of a value that counts as text. -/
def text? : Value → Option String
  | .str s => some s
  | .member ⟨_, _, .text s⟩ => some s
  | _ => .none

/-- The elements of a set, changeable or not. -/
def elements? : Value → Option (List Value)
  | .set items | .frozenset items => some items
  | _ => .none

/-! ## Values as operands -/

/-- An integer without dimensions, in the first format that holds it. -/
def integerTensor (n : Int) : Tensor :=
  if IntegerFormat.int64.holds n then ⟨.integer .int64, [], [.int n]⟩
  else if IntegerFormat.uint64.holds n then ⟨.integer .uint64, [], [.int n]⟩
  else ⟨.mixed, [], [.int n]⟩

mutual

/-- A value as an array: sequences give a dimension each, and what is
neither number, text nor sequence is a position by itself. -/
def toTensor (v : Value) : Except Fault Tensor :=
  match v with
  | .bool b => .ok ⟨.bool, [], [.bool b]⟩
  | .int n | .member ⟨_, _, .number n⟩ => .ok (integerTensor n)
  | .float x => .ok ⟨.float64, [], [.float x]⟩
  | .str s | .member ⟨_, _, .text s⟩ => .ok ⟨.text, [], [.text s]⟩
  | .bytes _ => .ok ⟨.text, [], [.other]⟩
  | .list items | .tuple items => do Tensor.stack (← tensors items)
  | .scalar s => .ok ⟨s.format, [], [s.cell]⟩
  | .tensor t => .ok t
  | .callable (.ofClass .enum) => Tensor.stack []
  | _ => .ok ⟨.mixed, [], [.other]⟩
termination_by structural v

def tensors (vs : List Value) : Except Fault (List Tensor) :=
  match vs with
  | [] => .ok []
  | v :: rest => do return (← v.toTensor) :: (← tensors rest)
termination_by structural vs

end

/-- Whether a value has a fixed representation, alone or as an array. -/
def isFixed : Value → Bool
  | .scalar _ | .tensor _ => true
  | _ => false

/-- A value as it enters an operation with numbers. -/
def operand (v : Value) : Except Fault Operand := do
  let t ← v.toTensor
  return ⟨match v with
    | .bool _ => .flag
    | .int _ | .member ⟨_, _, .number _⟩ => .integer
    | .float _ => .double
    | _ => .fixed t.format, t⟩

/-! ## Equality -/

/-- Whether two values are of one kind. -/
def sameType : Value → Value → Bool
  | .none, .none | .undefined, .undefined | .bool _, .bool _ | .int _, .int _
  | .float _, .float _ | .str _, .str _ | .bytes _, .bytes _ | .list _, .list _
  | .tuple _, .tuple _ | .set _, .set _ | .frozenset _, .frozenset _ | .dict _, .dict _
  | .aliasKey _, .aliasKey _ | .pattern _, .pattern _ | .tensor _, .tensor _
  | .object _, .object _ | .callable _, .callable _ | .code _, .code _
  | .schema _, .schema _ => true
  | .member m, .member n => m.family == n.family
  | .moment m, .moment n => m.sameType n
  | .scalar s, .scalar t => s.formatName == t.formatName
  | _, _ => false

/-- Whether two occurrences are certain to be one object: constants, named
things and small integers are. -/
def identical : Value → Value → Bool
  | .none, .none | .undefined, .undefined => true
  | .bool a, .bool b => a == b
  | .int a, .int b => a == b && -5 ≤ a && a ≤ 256
  | .member m, .member n => m == n
  | .aliasKey a, .aliasKey b => a == b
  | .object a, .object b => a == b
  | .callable (.ofClass a), .callable (.ofClass b) => a == b
  | .callable (.builtin a), .callable (.builtin b) => a == b
  | _, _ => false

mutual

/-- Whether two constants of a callable's body are the same: of one kind,
down to the sign of a zero. -/
def sameConstant (a b : Value) : Bool :=
  match a with
  | .int m =>
      match b with
      | .int n => m == n
      | _ => false
  | .float x =>
      match b with
      | .float y => x == y && x.compare? y == some .eq
      | _ => false
  | .str s =>
      match b with
      | .str t => s == t
      | _ => false
  | .bytes s =>
      match b with
      | .bytes t => s == t
      | _ => false
  | .tuple xs =>
      match b with
      | .tuple ys => sameConstants xs ys
      | _ => false
  | .frozenset xs =>
      match b with
      | .frozenset ys => constantsWithin xs ys && ys.all fun y => constantsInclude xs y
      | _ => false
  | .code ⟨instructions, names, locals, constants⟩ =>
      match b with
      | .code c =>
          instructions == c.instructions && names == c.names && locals == c.locals
            && sameConstants constants c.constants
      | _ => false
  | _ => identical a b
termination_by structural a

def sameConstants (xs ys : List Value) : Bool :=
  match xs, ys with
  | [], [] => true
  | x :: xs, y :: ys => sameConstant x y && sameConstants xs ys
  | _, _ => false
termination_by structural xs

/-- Every constant of `xs` is among `ys`. -/
def constantsWithin (xs ys : List Value) : Bool :=
  match xs with
  | [] => true
  | x :: rest => ys.any (fun y => sameConstant x y) && constantsWithin rest ys
termination_by structural xs

/-- Whether a constant is among `xs`. -/
def constantsInclude (xs : List Value) (y : Value) : Bool :=
  match xs with
  | [] => false
  | x :: rest => sameConstant x y || constantsInclude rest y
termination_by structural xs

end

/-- What a value without parts stands for when it is compared as a key:
numbers of one worth and texts of one wording are not told apart. -/
inductive Denoted where
  | none
  | undefined
  | amount (worth : Bool ⊕ Int)
  | text (s : String)
  | bytes (bs : List UInt8)
  | aliasKey (k : AliasKey)
  | member (m : Member)
  | pattern (source : Pattern.Source) (mode : Pattern.Mode)
  | instant (n : Int)
  | moment (m : Moment)
  | object (name : String)
  | ofClass (c : ClassName)
  | builtin (b : Builtin)
deriving DecidableEq

/-- What a value stands for as a key, if it has no parts and a second
occurrence of it would be the same. -/
def denoted? : Value → Option Denoted
  | .none => some .none
  | .undefined => some .undefined
  | .bytes bs => some (.bytes bs)
  | .aliasKey k => some (.aliasKey k)
  | .pattern p => some (.pattern p.source p.mode)
  | .object name => some (.object name)
  | .moment m =>
      match m.instant? with
      | some n => some (.instant n)
      | .none => some (.moment m)
  | .callable (.ofClass c) => some (.ofClass c)
  | .callable (.builtin b) => some (.builtin b)
  | .member ⟨family, name, .plain n⟩ => some (.member ⟨family, name, .plain n⟩)
  | v =>
      match v.amount?, v.text? with
      | some a, _ => a.worth?.map .amount
      | .none, some s => some (.text s)
      | .none, .none => .none

/-- Equality, without rounding, of values that hold no others. -/
def atomEqual (a b : Value) : Bool :=
  match a, b with
  | .code _, .code _ => sameConstant a b
  | _, _ => a.denoted?.isSome && a.denoted? == b.denoted?

mutual

/-- Whether two values are equal as keys and set elements. -/
def sameKey (a b : Value) : Bool :=
  match a with
  | .tuple xs =>
      match b with
      | .tuple ys => sameKeys xs ys
      | _ => false
  | .frozenset xs | .set xs =>
      match b.elements? with
      | some ys => within xs ys && ys.all fun y => includes xs y
      | .none => false
  | _ => atomEqual a b
termination_by structural a

def sameKeys (xs ys : List Value) : Bool :=
  match xs, ys with
  | [], [] => true
  | x :: xs, y :: ys => sameKey x y && sameKeys xs ys
  | _, _ => false
termination_by structural xs

/-- Every element of `xs` is among `ys`. -/
def within (xs ys : List Value) : Bool :=
  match xs with
  | [] => true
  | x :: rest => ys.any (fun y => sameKey x y) && within rest ys
termination_by structural xs

/-- Whether an element is among `xs`. -/
def includes (xs : List Value) (y : Value) : Bool :=
  match xs with
  | [] => false
  | x :: rest => sameKey x y || includes rest y
termination_by structural xs

end

/-- Whether a fixed number or an array equals a value, or why that has no
answer. -/
def answerEqual (a b : Value) : Except Fault Bool := do (← a.operand).equal (← b.operand)

/-- Equality of values that are no pair of like containers; what has no
answer is not equal. -/
def plainEqual (a b : Value) : Bool :=
  if a.isFixed || b.isFixed then
    match answerEqual a b with
    | .ok answer => answer
    | .error _ => false
  else sameKey a b

mutual

def equal (a b : Value) : Bool :=
  match a with
  | .list xs =>
      match b with
      | .list ys => equalAll xs ys
      | b => plainEqual a b
  | .tuple xs =>
      match b with
      | .tuple ys => equalAll xs ys
      | b => plainEqual a b
  | .dict es =>
      match b with
      | .dict fs => entriesWithin es fs && fs.all fun (k, v) => entriesInclude es k v
      | b => plainEqual a b
  | _ => plainEqual a b
termination_by structural a

/-- Equality position by position. -/
def equalAll (xs ys : List Value) : Bool :=
  match xs, ys with
  | [], [] => true
  | x :: xs, y :: ys => equal x y && equalAll xs ys
  | _, _ => false
termination_by structural xs

/-- Every entry of `es` is found under its key in `fs`, with an equal value. -/
def entriesWithin (es fs : List (Value × Value)) : Bool :=
  match es with
  | [] => true
  | (k, v) :: rest =>
      fs.any (fun (k', v') => sameKey k k' && equal v v') && entriesWithin rest fs
termination_by structural es

/-- Whether `es` has an equal value under an equal key. -/
def entriesInclude (es : List (Value × Value)) (key w : Value) : Bool :=
  match es with
  | [] => false
  | (k, v) :: rest => sameKey k key && equal v w || entriesInclude rest key w
termination_by structural es

end

/-- Why the equality of two values that are no pair of like containers has
no answer. -/
def plainFault? (a b : Value) : Option Fault :=
  if a.isFixed || b.isFixed then
    match answerEqual a b with
    | .ok _ => .none
    | .error fault => some fault
  else .none

mutual

/-- Why the equality of two values has no answer, if it has none: the fault
at the first place where one occurs before a difference. -/
def equalityFault? (a b : Value) : Option Fault :=
  match a with
  | .list xs =>
      match b with
      | .list ys => if xs.length = ys.length then firstFault? xs ys else .none
      | b => plainFault? a b
  | .tuple xs =>
      match b with
      | .tuple ys => if xs.length = ys.length then firstFault? xs ys else .none
      | b => plainFault? a b
  | .dict es =>
      match b with
      | .dict fs => if es.length = fs.length then entryFault? es fs else .none
      | b => plainFault? a b
  | _ => plainFault? a b
termination_by structural a

def firstFault? (xs ys : List Value) : Option Fault :=
  match xs, ys with
  | x :: xs, y :: ys =>
      match equalityFault? x y with
      | some fault => some fault
      | .none => if equal x y then firstFault? xs ys else .none
  | _, _ => .none
termination_by structural xs

def entryFault? (es fs : List (Value × Value)) : Option Fault :=
  match es with
  | [] => .none
  | (k, v) :: rest =>
      match fs.find? (fun (k', _) => sameKey k k') with
      | .none => .none
      | some (_, w) =>
          match equalityFault? v w with
          | some fault => some fault
          | .none => if equal v w then entryFault? rest fs else .none
termination_by structural es

end

/-- Equality that tells 1, 1.0 and the true flag apart. -/
def strictEqual (a b : Value) : Bool := sameType a b && equal a b

/-- The position of the first item that is strictly equal to the value. -/
def strictIndex? (items : List Value) (v : Value) : Option Nat :=
  items.findIdx? (strictEqual · v)

/-- The first occurrences among items under strict equality. -/
def dedupeStrict (items : List Value) : List Value :=
  items.foldl (fun kept v => if (strictIndex? kept v).isSome then kept else kept ++ [v]) []

mutual

/-- Whether a value can be a key: nothing in it can change. -/
def hashable : Value → Bool
  | .list _ | .set _ | .dict _ | .tensor _ => false
  | .tuple items => allHashable items
  | _ => true
termination_by structural v => v

def allHashable : List Value → Bool
  | [] => true
  | v :: rest => v.hashable && allHashable rest
termination_by structural vs => vs

end

end Value

end Conform
