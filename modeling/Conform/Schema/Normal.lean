/-
# `Schema.Normal` — the normal form of a value

A value that a schema accepts is brought to a normal form: the default
stands in for a missing value, the transform is applied, arrays become
lists, objects lose undeclared keys or gain defaults, and the parts of a
value are normalized by the schemas that govern them.
-/
import Conform.Schema.Default
import Conform.Schema.Verdict

namespace Conform

/-- How a nested schema normalizes. -/
abbrev Normalize := Schema → Value → Outcome Value

/-- The verdict and the normal form that nested schemas give. -/
structure Inner where
  ask : Ask
  normalize : Normalize

namespace Inner

/-- Normalizes with a schema in an attribute. -/
def apply (inner : Inner) (attr v : Value) : Outcome Value :=
  match attr with
  | .schema s => inner.normalize s v
  | _ => throw (.fault .missingAttribute)

/-- The normal form that the first accepting candidate gives. -/
def applySearch (inner : Inner) (search : Search) (v : Value) (kind : ErrorKind) :
    Outcome Value :=
  match search with
  | .found _ t => inner.normalize t v
  | .refused errors => throw (.value (.ofVariants errors "" kind))

end Inner

namespace Instance

def finishTyped (s : Instance) (v : Value) : Outcome Value := do
  let stands ← (← s.get "has_default").truthy
  let v ← if stands && v.isUndefined then (← s.get "default").freshDefault else pure v
  match ← s.get "transform" with
  | .none => return v
  | .callable f => f.apply v
  | _ => throw (.fault .typeMismatch)

def finishItems (inner : Inner) (schema : Value) : List Value → Outcome (List Value)
  | [] => return []
  | v :: rest => do return (← inner.apply schema v) :: (← finishItems inner schema rest)

def finishArray (inner : Inner) (s : Instance) (v : Value) : Outcome Value := do
  let schema ← s.get "schema"
  match v.arrayItems? with
  | some items =>
      if schema.isNone then return .list items else return .list (← finishItems inner schema items)
  | none => if schema.isNone then return .none else throw (.fault .typeMismatch)

/-- The entries of a value, normalized where declared; the others are kept
unless only declared ones are wanted. -/
def finishEntries (inner : Inner) (properties : Entries) (clean : Bool) :
    Entries → Outcome Entries
  | [] => return []
  | (key, v) :: rest => do
      match properties.find? key with
      | some schema =>
          let w ← inner.apply schema v
          return (key, w) :: (← finishEntries inner properties clean rest)
      | none =>
          let others ← finishEntries inner properties clean rest
          return if clean then others else (key, v) :: others

/-- The defaults of declared keys that the value lacks. -/
def fillEntries (inner : Inner) (given : Entries) : Entries → Outcome Entries
  | [] => return []
  | (key, schema) :: rest => do
      if given.contains key then fillEntries inner given rest
      else if ← (← schema.get "has_default").truthy then
        let w ← inner.apply schema (← (← schema.get "default").freshDefault)
        return (key, w) :: (← fillEntries inner given rest)
      else fillEntries inner given rest

def finishObject (inner : Inner) (s : Instance) (v : Value) : Outcome Value := do
  match v with
  | .none => return .none
  | .dict entries =>
      let properties ← s.properties
      let clean ← if entries.isEmpty then pure false else (← s.get "clean").truthy
      let kept ← finishEntries inner properties clean entries
      let filled ← fillEntries inner entries properties
      return .dict (kept ++ filled)
  | _ => throw (.fault .missingAttribute)

def finishOneOf (inner : Inner) (s : Instance) (v : Value) : Outcome Value := do
  inner.applySearch (← searchItems inner.ask (← s.get "one_of") v) v .oneOf

/-- A callable as a normalize step. -/
def finishCall (s : Instance) (f : Callable) (v : Value) : Outcome Value := do
  match f with
  | .finisher rule attributeName constant =>
      let constant ← match attributeName with
        | some name => s.get name
        | none => pure constant
      rule.apply constant v
  | .declared _ ps => if acceptsArguments ps 2 then return .none else throw (.fault .typeMismatch)
  | _ => throw (.fault .typeMismatch)

/-- One normalize step of a schema. -/
def finishStep (inner : Inner) (s : Instance) (v : Value) : Step → Outcome Value
  | .builtin .typed => s.finishTyped v
  | .builtin .array => finishArray inner s v
  | .builtin .object => finishObject inner s v
  | .builtin .oneOf => finishOneOf inner s v
  | .builtin .boolean | .builtin .function | .builtin .number | .builtin .string
  | .builtin .symbol => return v
  | .call f => s.finishCall f v

/-- The normalize steps of a chain, root first. -/
def finishes (s : Instance) : List Step := s.chain.filterMap Layer.finish

/-- The value to normalize: the default, if none was supplied. -/
def supplied (s : Instance) (v : Value) : Outcome Value := do
  if v.isUndefined && (← s.flag "has_default") then (← s.get "default").freshDefault
  else return v

def normalizeWith (inner : Inner) (s : Instance) (v : Value) : Outcome Value := do
  s.require "normalize"
  let v ← s.supplied v
  s.require "validate"
  match ← s.errorWith inner.ask v (.str "") with
  | some info => throw (.value info)
  | none => s.finishes.foldlM (finishStep inner s) v

end Instance

namespace Schema

/-- The normal form of a value, where `inner` answers for the schemas
inside. -/
def normalizeWith (inner : Inner) (s : Schema) (v : Value) : Outcome Value :=
  match s with
  | .single t => t.normalizeWith inner v
  | .multi members => do inner.applySearch (← searchMembers inner.ask members v) v .multi

/-- The normal form of a value that the schema accepts. -/
def normalize (s : Schema) (v : Value) : Outcome Value :=
  s.normalizeWith
    ⟨error, fun t w =>
      if t.depth < s.depth then t.normalize w else throw (.fault .missingAttribute)⟩ v
termination_by s.depth

end Schema

end Conform
