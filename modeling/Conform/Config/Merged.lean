/-
# `Config.Merged` — the schema of a part of a container

The alternatives that a merge gives are compiled each on its own, without
the option `required`, which belongs to the container and becomes an
attribute.  A part cannot be required and have a default.
-/
import Conform.Config.Merge
import Conform.Config.Build
import Conform.Schema.Variants

namespace Conform

/-- A configuration without the option `required`, and whether that was
set. -/
def splitRequired (config : Value) : Except Fault (Entries × Bool) := do
  match ← config.toDict with
  | .dict entries =>
      let required ← (Entries.getD entries "required" (.bool false)).truthy
      return (Entries.erase entries (.str "required"), required)
  | _ => throw .typeMismatch

/-- Compiles one alternative of the part under `key`. -/
def compileCandidate (factory : Factory) (key candidate : Value) : Build Schema := do
  let (config, required) ← splitRequired candidate
  let schema ← factory (.dict config) (.dict [(.str "required", .bool required)])
  if ← schema.required then
    if ← schema.hasDefault then throw (.config (.requiredDefault key))
  return schema

/-- One schema for alternatives: the only one left when repeated ones are
dropped, or all together. -/
def Schema.collapse (schemas : List Schema) : Schema :=
  match dropRepeated [] (schemas.flatMap members) with
  | [s] => .single s
  | members => .multi members

/-- Compiles the part under `key` from the configuration that the container
gives to all parts and its own. -/
def compileMerged (factory : Factory) (key generic specific : Value) : Build Schema := do
  let merged ← generic.mergeConfigs specific
  let candidates := merged.listed?.getD [merged]
  let schemas ← candidates.mapM (compileCandidate factory key)
  return .collapse schemas

end Conform
