/-
# `Document.Content` — the value of a tree

Sequences become lists, mappings become dictionaries with the last of equal
keys, and entries under the merge key are taken over from another mapping
where a mapping does not have them itself.
-/
import Conform.Document.Node
import Conform.Value.Entries

namespace Conform

namespace Document

/-- What a tree comes to: nothing where it has no value, and a fault where a
scalar does not have the form of its tag. -/
abbrev Content := OptionT (Except Fault)

namespace Node

def tag : Node → Tag
  | .scalar _ tag | .sequence _ tag | .mapping _ tag => tag

mutual

/-- The entries of a mapping, those taken over first; nothing where what is
to be taken over is not a mapping. -/
def entries? : Node → Option (List (Node × Node))
  | .scalar _ _ | .sequence _ _ => none
  | .mapping entries _ => do
      let (taken, own) ← splitEntries entries
      return taken ++ own

/-- The entries to be taken over, and the others. -/
def splitEntries : List (Node × Node) → Option (List (Node × Node) × List (Node × Node))
  | [] => some ([], [])
  | (key, value) :: rest => do
      if key.tag = .merge then
        let here ← takenOver value
        let (taken, own) ← splitEntries rest
        return (here ++ taken, own)
      else
        let (taken, own) ← splitEntries rest
        return (taken, (key, value) :: own)

/-- What a merge key takes over: a mapping, or several of which the first
has the last word. -/
def takenOver : Node → Option (List (Node × Node))
  | .scalar _ _ => none
  | .sequence items _ => return (← entriesOfAll items).reverse.flatten
  | .mapping entries _ => do
      let (taken, own) ← splitEntries entries
      return taken ++ own

def entriesOfAll : List Node → Option (List (List (Node × Node)))
  | [] => some []
  | item :: rest => return (← entries? item) :: (← entriesOfAll rest)

end

/-- A key; the one of a default content is a text. -/
def asKey : Node → Node
  | .scalar text .default => .scalar text .str
  | key => key

/-! ## Depth, by which values are read -/

mutual

def depth : Node → Nat
  | .scalar _ _ => 1
  | .sequence items _ => 1 + depthAll items
  | .mapping entries _ => 1 + depthEntries entries

def depthAll : List Node → Nat
  | [] => 0
  | item :: rest => max (depth item) (depthAll rest)

def depthEntries : List (Node × Node) → Nat
  | [] => 0
  | (key, value) :: rest => max (max (depth key) (depth value)) (depthEntries rest)

end

/-- The entries of a dictionary; keys must be such. -/
def collect : List (Value × Value) → Entries → Content Entries
  | [], es => return es
  | (key, value) :: rest, es => if key.hashable then collect rest (es.put key value) else failure

/-- The value of a node that is no deeper than the first argument. -/
def valueWithin : Nat → Node → Content Value
  | 0, _ => failure
  | _ + 1, .scalar text tag => OptionT.mk (Scalar.value? text tag)
  | n + 1, .sequence items .seq => return .list (← items.mapM (valueWithin n))
  | n + 1, .sequence items .pairs =>
      return .list (← items.mapM fun item =>
        match item with
        | .mapping [(key, value)] _ =>
            return .tuple [← valueWithin n key, ← valueWithin n value]
        | _ => failure)
  | n + 1, .mapping entries tag => do
      if tag != .map && tag != .set then failure
      let some all := entries? (.mapping entries tag) | failure
      let pairs ← all.mapM fun (key, value) =>
        return (← valueWithin n key.asKey, ← valueWithin n value)
      let es ← collect pairs []
      return if tag = .set then .set (es.map (·.1)) else .dict es
  | _ + 1, .sequence _ _ => failure

def value (node : Node) : Content Value := valueWithin node.depth node

end Node

end Document

end Conform
