/-
# `Config.Compile` — from a configuration to a schema

A configuration is compiled by the controller that its type names: the
build steps of the controller's chain set the attributes, root first,
attributes that the container adds follow, and the digest of the public
ones completes the schema.  A list of configurations compiles to
alternatives.
-/
import Conform.Config.Options
import Conform.Config.Height
import Conform.Registry.Basic

namespace Conform

/-- Runs the build step of one layer on the attributes so far. -/
def buildLayer (factory : Factory) (owner : String) (config : Entries) (attrs : Attributes)
    (layer : Layer) : Build Attributes := do
  Build.note layer
  attrs.setAll owner (← Options.ofStep factory config layer.build)

/-- Completes the attributes with their digest. -/
def finishInstance (owner : String) (chain : List Layer) (attrs : Attributes) :
    Except Fault Instance := do
  let hash ← attrs.hash
  if ← attrs.frozen then throw (.immutable (Attributes.immutableMessage owner "set" "_hash"))
  -- the operation that gives the digest is not to be replaced
  else if (attrs.lookup "hash").isSome then throw .typeMismatch
  -- nor are the controller's steps
  else if (attrs.lookup "_definition").isSome then throw .missingAttribute
  else return ⟨chain, attrs, hash⟩

/-- Builds a schema of a definition. -/
def buildInstance (factory : Factory) (d : Definition) (config extras : Entries) :
    Build Instance := do
  let owner := schemaClassName d.name
  let attrs ← d.chain.foldlM (buildLayer factory owner config) []
  let attrs ← attrs.setAll owner (← Attributes.ofEntries extras)
  finishInstance owner d.chain attrs

/-- The entries of a configuration with their type, the root controller if
none is named. -/
def typedEntries (config : Entries) : Entries × Value :=
  match config.getD "type" .none with
  | .none => (config.put (.str "type") (.str "typed"), .str "typed")
  | type => (config, type)

/-- The entries of a dictionary, none if it is absent. -/
def givenEntries (refusal : Value → ConfigError) (v : Value) : Outcome Entries :=
  match v with
  | .none => return []
  | .dict entries => return entries
  | v => throw (.config (refusal v))

/-- Compiles a single configuration. -/
def compileSingle (factory : Factory) (r : Registry) (configuration additional : Value) :
    Build Instance := do
  let config ← givenEntries .notADict configuration
  let extras ← givenEntries .additionalNotADict additional
  let (config, type) := typedEntries config
  match r.resolve type with
  | some d => buildInstance factory d config extras
  | none => throw (.config (.unknownType type))

/-- The additional attributes of each of `n` configurations. -/
def additionalFor (additional : Value) (n : Nat) : Outcome (List Value) := do
  let extras ← match additional with
    | .none | .dict _ => pure (List.replicate n additional)
    | v => v.items
  if extras.length = n then return extras else throw (.config .additionalCount)

/-- Compiles a configuration or a list of them, where `factory` compiles
those inside. -/
def compileWith (factory : Factory) (r : Registry) (configuration additional : Value) :
    Build Schema := do
  match configuration.listed? with
  | some configurations =>
      let extras ← additionalFor additional configurations.length
      let schemas ← (configurations.zip extras).mapM fun (c, e) => compileSingle factory r c e
      return .ofAlternatives (schemas.map .single)
  | none =>
      if additional.listed?.isSome then throw (.config .additionalList)
      return .single (← compileSingle factory r configuration additional)

/-- Compiles a configuration with additional attributes against a registry. -/
def compile (r : Registry) (configuration additional : Value) : Build Schema :=
  compileWith
    (fun c a =>
      if c.height < configuration.height then compile r c a else throw (.fault .typeMismatch))
    r configuration additional
termination_by configuration.height

namespace Registry

/-- The schema of a configuration. -/
def compile (r : Registry) (configuration additional : Value) : Outcome Schema :=
  (Conform.compile r configuration additional).outcome.1

/-- The layers whose build steps began when a configuration was compiled. -/
def trace (r : Registry) (configuration additional : Value) : List Layer :=
  (Conform.compile r configuration additional).outcome.2

end Registry

end Conform
