/-
# `Schema.Depth` — how deeply schemas are nested

A schema is deeper than every schema that its attributes hold, in whatever
container.  Recursion from a schema to those in its attributes ends by this
measure.
-/
import Conform.Value.Basic

namespace Conform

mutual

/-- The greatest depth of a schema in a value. -/
def Value.depth : Value → Nat
  | .list items | .tuple items | .set items | .frozenset items => Value.depthAll items
  | .dict entries => Value.depthEntries entries
  | .schema s => s.depth
  | _ => 0
termination_by structural v => v

def Value.depthAll : List Value → Nat
  | [] => 0
  | v :: rest => max v.depth (Value.depthAll rest)
termination_by structural vs => vs

def Value.depthEntries : List (Value × Value) → Nat
  | [] => 0
  | (_, v) :: rest => max v.depth (Value.depthEntries rest)
termination_by structural es => es

def Schema.depth : Schema → Nat
  | .single s => s.depth
  | .multi members => Instance.depthAll members + 1
termination_by structural s => s

def Instance.depth : Instance → Nat
  | ⟨_, attributes, _⟩ => Value.depthAttributes attributes + 1
termination_by structural s => s

def Instance.depthAll : List Instance → Nat
  | [] => 0
  | s :: rest => max s.depth (Instance.depthAll rest)
termination_by structural ss => ss

def Value.depthAttributes : List (String × Value) → Nat
  | [] => 0
  | (_, v) :: rest => max v.depth (Value.depthAttributes rest)
termination_by structural attrs => attrs

end

end Conform
