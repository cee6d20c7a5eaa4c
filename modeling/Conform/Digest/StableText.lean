/-
# `Digest.StableText` — one text per tree of plain data

Plain data is written as JSON without blanks and with the entries of every
object in the order of their keys, so that trees which differ only in that
order have one text.  Values outside JSON have no text, and neither have
integers with too many digits.
-/
import Conform.Value.Order
import Conform.Number.Digits
import Conform.Number.Notation
import Conform.Text.Quoted

namespace Conform

namespace StableText

/-- One character inside a quoted text. -/
def escapeChar (c : Char) : List Char :=
  if c == '"' || c == '\\' then ['\\', c]
  else if c == '\n' then ['\\', 'n']
  else if c == '\r' then ['\\', 'r']
  else if c == '\t' then ['\\', 't']
  else if c == '\x0c' then ['\\', 'f']
  else if c == '\x08' then ['\\', 'b']
  else if c.toNat < 0x20 then '\\' :: 'u' :: Text.hexPadded 4 c.toNat
  else [c]

def quote (s : String) : String := String.ofList ('"' :: s.toList.flatMap escapeChar ++ ['"'])

def ofFloat (x : Binary64) : String :=
  match x with
  | .nan => "NaN"
  | .infinite negative => if negative then "-Infinity" else "Infinity"
  | .finite .. => x.text

/-- The text of a value without parts. -/
def ofAtom : Value → Except Fault String
  | .none => .ok "null"
  | .bool b => .ok (if b then "true" else "false")
  | .int n | .member ⟨_, _, .number n⟩ => Number.text n
  | .float x | .scalar (.float64 x) => .ok (ofFloat x)
  | .str s | .member ⟨_, _, .text s⟩ => .ok (quote s)
  | _ => .error .typeMismatch

/-- The text of a key, which is quoted whatever it is. -/
def ofKey (k : Value) : Except Fault String :=
  match k.text? with
  | some s => .ok (quote s)
  | none => return quote (← ofAtom k)

/-- Whether the keys have an order: they are texts, or numbers, or there is
only one. -/
def comparable : List Value → Bool
  | [] | [_] => true
  | keys => keys.all (·.text?.isSome) || keys.all (·.amount?.isSome)

/-- The order of keys: texts by code points, numbers by amount. -/
def keyBelow (a b : Value) : Bool :=
  match a.text?, b.text?, a.amount?, b.amount? with
  | some s, some t, _, _ => compareTexts s t != .gt
  | _, _, some x, some y => x.compare? y != some .gt
  | _, _, _, _ => true

/-- An object from its keys and what writing their values comes to. -/
def object (entries : List (Value × Except Fault String)) : Except Fault String := do
  if comparable (entries.map (·.1)) then
    let sorted := entries.mergeSort fun a b => keyBelow a.1 b.1
    let parts ← sorted.mapM fun (k, text) => return (← ofKey k) ++ ":" ++ (← text)
    return "\x7b" ++ ",".intercalate parts ++ "\x7d"
  else throw .typeMismatch

mutual

/-- The text of a tree of plain data. -/
def ofValue : Value → Except Fault String
  | .list items | .tuple items => do return "[" ++ ",".intercalate (← ofItems items) ++ "]"
  | .dict entries => object (ofEntries entries)
  | v => ofAtom v
termination_by structural v => v

def ofItems : List Value → Except Fault (List String)
  | [] => .ok []
  | v :: rest => do return (← ofValue v) :: (← ofItems rest)
termination_by structural vs => vs

def ofEntries : List (Value × Value) → List (Value × Except Fault String)
  | [] => []
  | (k, v) :: rest => (k, ofValue v) :: ofEntries rest
termination_by structural es => es

end

end StableText

end Conform
