/-
# `Schema.Default` — defaults as they are handed out

A schema keeps its default.  What it hands out instead is a copy when the
default is a list, a dictionary or a set, all the way down, and the default
itself otherwise.  A schema belongs to its registry and cannot be copied.
-/
import Conform.Schema.Attribute

namespace Conform

mutual

/-- Whether a schema would have to be copied along with the value. -/
def Value.holdsSchema : Value → Bool
  | .list items | .tuple items | .set items | .frozenset items => Value.anyHoldsSchema items
  | .dict entries => Value.entriesHoldSchema entries
  | .callable f => f.holdsSchema
  | .schema (.single _) => true
  | .schema (.multi members) => !members.isEmpty
  | _ => false
termination_by structural v => v

def Value.anyHoldsSchema : List Value → Bool
  | [] => false
  | v :: rest => v.holdsSchema || Value.anyHoldsSchema rest
termination_by structural vs => vs

def Value.entriesHoldSchema : List (Value × Value) → Bool
  | [] => false
  | (key, v) :: rest => key.holdsSchema || v.holdsSchema || Value.entriesHoldSchema rest
termination_by structural es => es

def Callable.holdsSchema : Callable → Bool
  | .ruled _ constant _ _ _ => constant.holdsSchema
  | _ => false
termination_by structural f => f

end

namespace Value

/-- Whether a default of this kind is copied when it is handed out. -/
def isCopied : Value → Bool
  | .list _ | .dict _ | .set _ => true
  | _ => false

/-- The default as handed out: the value, or its copy. -/
def freshDefault (v : Value) : Except Fault Value :=
  if v.isCopied && v.holdsSchema then .error .typeMismatch else .ok v

end Value

end Conform
