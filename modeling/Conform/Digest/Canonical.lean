/-
# `Digest.Canonical` — one plain tree per value

`canonical` reduces a value to plain data: numbers of fixed representation
to plain ones, arrays and tuples to lists, sets to sorted lists, schemas to
their digests, and everything else to an object that names it.  A callable
is told by its token: the module and name it goes by, and a digest of its
code if it has one.
-/
import Conform.Digest.StableText
import Conform.Digest.Sha256
import Conform.Value.Sequence
import Conform.Value.Literal

namespace Conform

/-! ## Code -/

/-- A list of names between parentheses. -/
def nameTuple (names : List String) : String := (Value.tuple (names.map .str)).spelling

mutual

/-- The digest of a body: its instructions, its names and its constants. -/
def Code.digest : Code → Except Fault String
  | ⟨instructions, names, locals, constants⟩ => do
      return Sha256.hexDigest ("\x1f".intercalate
        (instructions :: nameTuple names :: nameTuple locals :: (← constantTexts constants)))
termination_by structural c => c

/-- The text of a constant; a frozen set has its elements in the order of
their texts. -/
def constantText : Value → Except Fault String
  | .code c => c.digest
  | .frozenset items => do
      let texts ← items.mapM Value.literal
      return (Value.list ((texts.mergeSort fun a b => compareTexts a b != .gt).map .str)).spelling
  | v => v.literal
termination_by structural v => v

def constantTexts : List Value → Except Fault (List String)
  | [] => return []
  | v :: rest => do return (← constantText v) :: (← constantTexts rest)
termination_by structural vs => vs

end

/-! ## Callables -/

/-- The module and the name that tell a callable apart. -/
def Callable.origin (f : Callable) : String × String :=
  match f with
  | .ofClass .enum => ("enum", "Enum")
  | .ofClass c => ("builtins", c.name)
  | .builtin b => if b.isTextMethod then ("", "str." ++ b.name) else ("builtins", b.name)
  | .ruled _ _ name module _ =>
      (module, match name with
        | some name => if name.isEmpty then f.literal else name
        | none => f.literal)
  | .declared name _ => ("__main__", name)
  | .unreadable | .builder .. | .checker .. | .finisher .. => ("__main__", f.literal)

def Callable.qualified (f : Callable) : String :=
  let (module, name) := f.origin
  if module.isEmpty then name else module ++ "." ++ name

/-- The token of a callable.  The class of functions promises a body that it
does not have, and a class of schemas the digest of a schema. -/
def Callable.token (f : Callable) : Except Fault String :=
  match f with
  | .ofClass .function => .error .missingAttribute
  | .ofClass .alternatives | .ofClass (.schemas _) => .error .typeMismatch
  | .ruled _ _ _ _ (some code) => return f.qualified ++ "#" ++ (← code.digest)
  | _ => .ok f.qualified

/-! ## The canonical tree -/

/-- Whether a schema can be asked about values: no attribute that cannot be
called has the name of that operation. -/
def Schema.answers : Schema → Bool
  | .single s =>
      match s.attributes.lookup "error" with
      | some (.callable _) | none => true
      | some _ => false
  | .multi _ => true

namespace Value

/-- An object with one entry. -/
def tagged (name : String) (v : Value) : Value := .dict [(.str name, v)]

def named (v : Value) : Value := tagged "$repr" (.str v.spelling)

/-- The source of a pattern as a value. -/
def ofSource : Pattern.Source → Value
  | .text s => .str s
  | .bytes bs _ => .bytes bs

mutual

def canonical : Value → Except Fault Value
  | .undefined => .ok (tagged "$undefined" (.bool true))
  | .scalar s => .ok s.cell.plain
  | .member m =>
      match m.content with
      | .plain _ => return tagged "$enum" (.str (← m.literal))
      | _ => .ok (.member m)
  | .schema s => .ok (if s.answers then tagged "$schema" (.str s.hash) else named (.schema s))
  | .pattern p => .ok (.dict [(.str "$pattern", ofSource p.source), (.str "flags", .int p.flags)])
  | .dict entries => do return .dict (Entries.ofList (← canonicalEntries entries))
  | .list items | .tuple items => do return .list (← canonicalItems items)
  | .set items | .frozenset items => do
      let texts ← (← canonicalItems items).mapM StableText.ofValue
      let sorted := texts.mergeSort fun a b => compareTexts a b != .gt
      return tagged "$set" (.list (sorted.map .str))
  | .tensor t => .ok (.list t.plainItems)
  | .callable f => do return tagged "$fn" (.str (← f.token))
  | .none => .ok .none
  | .bool b => .ok (.bool b)
  | .int n => .ok (.int n)
  | .float x => .ok (.float x)
  | .str s => .ok (.str s)
  | .bytes bs => .ok (named (.bytes bs))
  | .aliasKey k => .ok (named (.aliasKey k))
  | .object name => .ok (named (.object name))
  | .moment m => .ok (named (.moment m))
  | .code c => .ok (named (.code c))
termination_by structural v => v

def canonicalItems : List Value → Except Fault (List Value)
  | [] => .ok []
  | v :: rest => do return (← canonical v) :: (← canonicalItems rest)
termination_by structural vs => vs

/-- Entries with their keys as texts. -/
def canonicalEntries : List (Value × Value) → Except Fault (List (Value × Value))
  | [] => .ok []
  | (k, v) :: rest => do return (.str (← k.asText), ← canonical v) :: (← canonicalEntries rest)
termination_by structural es => es

end

/-- The text that stands for a value in a digest. -/
def token (v : Value) : Except Fault String :=
  match v with
  | .callable f => f.token
  | v => do StableText.ofValue (← v.canonical)

end Value

end Conform
