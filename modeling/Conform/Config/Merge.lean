/-
# `Config.Merge` — a container's configuration and a part's own

The configuration of a part is laid over the one that its container gives
to every part.  Either may be a list of alternatives; then each combination
is one, and the part's own alternatives vary slowest.
-/
import Conform.Value.Conversion
import Conform.Value.Class

namespace Conform

namespace Value

/-- The entries of a configuration; what counts as false is an empty one. -/
def configEntries (v : Value) : Except Fault Entries := do
  if ← v.truthy then
    match ← v.toDict with
    | .dict entries => return entries
    | _ => throw .typeMismatch
  else return []

/-- One configuration over another. -/
def mergeSchemas (general specific : Value) : Except Fault Value := do
  return .dict (Entries.update (← general.configEntries) (← specific.configEntries))

/-- Each configuration of the first list over each of the second, the first
varying slowest. -/
def mergeProducts (specifics generics : List Value) : Except Fault (List Value) := do
  let rows ← specifics.mapM fun s => generics.mapM fun g => mergeSchemas g s
  return rows.flatten

/-- One configuration over another, or the list of all combinations when
one of them is a list. -/
def mergeConfigs (generic specific : Value) : Except Fault Value := do
  match generic.listed?, specific.listed? with
  | .none, .none => mergeSchemas generic specific
  | .none, some specifics => return .list (← mergeProducts specifics [generic])
  | some generics, .none => return .list (← mergeProducts [specific] generics)
  | some generics, some specifics => return .list (← mergeProducts specifics generics)

end Value

end Conform
