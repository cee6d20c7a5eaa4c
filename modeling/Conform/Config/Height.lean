/-
# `Config.Height` — how deeply configurations are nested

A configuration lies higher than every one that its options hold.  Laying
one over another does not raise it, so compiling ends by this measure.
-/
import Conform.Value.Basic

namespace Conform

mutual

/-- The number of lists and dictionaries around the deepest value. -/
def Value.height : Value → Nat
  | .list items | .tuple items => Value.heightAll items + 1
  | .dict entries => Value.heightEntries entries + 1
  | _ => 0
termination_by structural v => v

def Value.heightAll : List Value → Nat
  | [] => 0
  | v :: rest => max v.height (Value.heightAll rest)
termination_by structural vs => vs

def Value.heightEntries : List (Value × Value) → Nat
  | [] => 0
  | (_, v) :: rest => max v.height (Value.heightEntries rest)
termination_by structural es => es

end

end Conform
