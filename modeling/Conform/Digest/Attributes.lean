/-
# `Digest.Attributes` — the digest of a schema's attributes

The digested text has one line per public attribute, its name and its
token, in the order of the names.  Names that start with an underscore are
private and take no part.
-/
import Conform.Digest.Canonical

namespace Conform

abbrev Attributes := List (String × Value)

def isPublic (name : String) : Bool := name.toList.head? != some '_'

namespace Attributes

/-- The public attributes in the order of their names. -/
def sortedPublic (attrs : Attributes) : Attributes :=
  (attrs.filter (isPublic ·.1)).mergeSort fun a b => compareTexts a.1 b.1 != .gt

def line : String × Value → Except Fault String
  | (name, v) => return name ++ "=" ++ (← v.token)

/-- The lines that are digested. -/
def lines (attrs : Attributes) : Except Fault (List String) := attrs.sortedPublic.mapM line

/-- The digest of lines. -/
def hashLines (lines : List String) : String := Sha256.hexDigest ("\n".intercalate lines)

def hash (attrs : Attributes) : Except Fault String := return hashLines (← attrs.lines)

end Attributes

namespace Value

/-- The lines of the entries under these keys, which must be texts. -/
def keyLines (v : Value) : List Value → Except Fault (List String)
  | [] => .ok []
  | key :: rest => do
      let some name := key.text? | throw .missingAttribute
      if isPublic name then
        match v with
        | .dict entries =>
            let some w := Entries.find? entries key | throw .missingKey
            return (← Attributes.line (key.bareSpelling, w)) :: (← keyLines v rest)
        | _ => throw .typeMismatch
      else keyLines v rest

/-- The digest of a dictionary of attributes. -/
def attributesHash (v : Value) : Except Fault String := do
  return Attributes.hashLines (← v.keyLines (← ascending (← v.items)))

/-- The digest of digests in a row. -/
def sequenceHash (v : Value) : Except Fault String := do
  let texts ← (← v.items).mapM fun w =>
    match w.text? with
    | some s => .ok s
    | .none => .error Fault.typeMismatch
  return hashSequence texts

end Value

end Conform
