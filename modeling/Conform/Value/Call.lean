/-
# `Value.Call` — calling a callable with one value

Transforms and validators are callables of one argument.  A callable that
needs another number of arguments faults.
-/
import Conform.Value.Conversion

namespace Conform

/-- What a rule with the constant `c` makes of a value. -/
def Rule.apply (r : Rule) (c v : Value) : Except Fault Value :=
  match r with
  | .identity => .ok v
  | .const => .ok c
  | .pair => .ok (.tuple [c, v])
  | .add => v.add c
  | .mul => v.mul c
  | .gt => v.compareWith .gt c
  | .lt => v.compareWith .lt c
  | .is => .ok (.bool (v.identical c))
  | .fail => .error .badValue

/-- The nearest integer to a number; a fixed flag has none. -/
def Value.rounded (v : Value) : Except Fault Value :=
  match v, v.amount? with
  | .scalar (.bool _), _ | _, .none => .error .typeMismatch
  | _, some (.int n) => .ok (.int n)
  | _, some (.float .nan) => .error .badValue
  | _, some (.float x) => return .int (← ofOption .overflow x.nearest?)

/-- A position without its sign; integers stay in their format. -/
def Cell.magnitude (f : ElementFormat) (c : Cell) : Except Fault Cell :=
  match f, c with
  | .integer g, .int n => .ok (.int (g.wrap n.natAbs))
  | _, .int n => .ok (.int n.natAbs)
  | _, .float x => .ok (.float x.abs)
  | _, .bool b => .ok (.bool b)
  | .text, _ => .error .formatMismatch
  | _, .text _ | _, .other => .error .typeMismatch

def Value.magnitude (v : Value) : Except Fault Value := do
  match v, v.amount? with
  | .tensor t, _ => return .tensor ⟨t.format, t.shape, ← t.cells.mapM (·.magnitude t.format)⟩
  | .scalar s, _ => return .ofCell s.format (← s.cell.magnitude s.format)
  | _, some (.int n) => return .int n.natAbs
  | _, some (.float x) => return .float x.abs
  | _, .none => throw .typeMismatch

/-- A method of text applied to a value that counts as text. -/
def Value.onText (f : String → String) (v : Value) : Except Fault Value :=
  return .str (f (← ofOption .typeMismatch v.text?))

def Builtin.apply (b : Builtin) (v : Value) : Except Fault Value :=
  match b with
  | .len => return .int (← v.length)
  | .abs => v.magnitude
  | .max => do Value.extreme .gt (← v.items)
  | .min => do Value.extreme .lt (← v.items)
  | .sorted => do return .list (← Value.ascending (← v.items))
  | .round => v.rounded
  | .repr => return .str (← v.literal)
  | .strip => v.onText fun s => String.ofList (Text.trimmed s.toList)
  | .upper => v.onText Text.upper
  | .lower => v.onText Text.lower

/-- Parameters that take an argument by position. -/
def Parameter.isPositional (p : Parameter) : Bool :=
  p.form == .positionalOnly || p.form == .positional

/-- The positional parameters without a default. -/
def requiredPositional (ps : List Parameter) : Nat :=
  ps.countP fun p => p.isPositional && !p.hasDefault

/-- Whether `n` positional arguments are the right number. -/
def acceptsArguments (ps : List Parameter) (n : Nat) : Bool :=
  requiredPositional ps ≤ n
    && (n ≤ ps.countP Parameter.isPositional || ps.any (·.form == .variadic))
    && ps.all fun p => p.form != .keywordOnly || p.hasDefault

/-- Calls a callable with one argument. -/
def Callable.apply (f : Callable) (v : Value) : Except Fault Value :=
  match f with
  | .ofClass c => c.make v
  | .builtin b => b.apply v
  | .ruled rule constant _ _ _ => rule.apply constant v
  | .declared _ ps => if acceptsArguments ps 1 then .ok .none else .error .typeMismatch
  | .unreadable => .ok .none
  | .builder .. | .checker .. | .finisher .. => .error .typeMismatch

/-- What a class gives when it is called without an argument. -/
def ClassName.empty (c : ClassName) : Except Fault Value :=
  match c with
  | .int => .ok (.int 0)
  | .float => .ok (.float (.zero false))
  | .str => .ok (.str "")
  | .bool => .ok (.bool false)
  | .list => .ok (.list [])
  | .tuple => .ok (.tuple [])
  | .dict => .ok (.dict [])
  | .set => .ok (.set [])
  | .bytes => .ok (.bytes [])
  | .object => .ok (.object "object")
  | .noneType => .ok .none
  | .enum | .function | .alternatives | .schemas _ => .error .typeMismatch

/-- Calls a callable without an argument. -/
def Callable.produce (f : Callable) : Except Fault Value :=
  match f with
  | .ofClass c => c.empty
  | .declared _ ps => if acceptsArguments ps 0 then .ok .none else .error .typeMismatch
  | .unreadable => .ok .none
  | .builtin _ | .ruled .. | .builder .. | .checker .. | .finisher .. => .error .typeMismatch

/-- The number of positional parameters without a default; `none` when the
parameters cannot be told. -/
def Callable.argumentCount? : Callable → Option Nat
  | .ofClass c =>
      match c with
      | .float | .list | .tuple | .object => some 0
      | .enum | .alternatives => some 1
      | .function | .schemas _ => some 2
      | .int | .str | .bool | .dict | .set | .bytes | .noneType => none
  | .builtin b => if b = .max || b = .min then none else some 1
  | .ruled .. => some 1
  | .declared _ ps => some (requiredPositional ps)
  | .unreadable => none
  | .builder .. | .finisher .. => some 2
  | .checker .. => some 3

end Conform
