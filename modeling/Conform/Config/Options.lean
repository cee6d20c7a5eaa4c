/-
# `Config.Options` — what the built-in controllers read

The build step of each controller checks the options that it owns and sets
the attributes they stand for.  Options that no controller of the chain
reads are ignored.
-/
import Conform.Config.Merged

namespace Conform

namespace Options

/-- The attributes that a step sets, in order. -/
abbrev Setting := Outcome Attributes

def refuse {α : Type} (name : String) (received : Value) (expects : Expectation) : Outcome α :=
  throw (.config (.badOption name received expects))

/-- Whether an option counts as true. -/
def flag (config : Entries) (name : String) (fallback : Bool) : Except Fault Value :=
  return .bool (← (config.getD name (.bool fallback)).truthy)

/-- An option that must be callable if it is given. -/
def callableOption (config : Entries) (name : String) : Outcome Value := do
  match config.getD name .none with
  | .none => return .none
  | .callable f => return .callable f
  | v => refuse name v "Expected a function."

/-- The listed values of the enumeration, if there is one, each once. -/
def enumOption (config : Entries) : Outcome Value := do
  match config.get? "enum" with
  | none => return .none
  | some v =>
      match v.listed? with
      | some (first :: rest) => return .tuple (Value.dedupeStrict (first :: rest))
      | _ => refuse "enum" v "Expected a non-empty list."

def typed (config : Entries) : Setting := do
  let listed ← enumOption config
  let transform ← callableOption config "transform"
  let validator ← callableOption config "validator"
  let type ← match config.get? "type" with
    | some v => pure v
    | none => throw (.fault .missingKey)
  return [("default", config.getD "default" .undefined), ("enum", listed),
    ("has_default", .bool (config.get? "default").isSome), ("transform", transform),
    ("type", type), ("validator", validator)]

/-- A lower bound: an integer that is not negative. -/
def lowerBound (config : Entries) (name : String) (expects : Expectation) : Outcome Value := do
  match config.get? name with
  | none => return .int 0
  | some v =>
      if !v.isInteger then refuse name v expects
      else if ← Value.holds .lt v (.int 0) then refuse name v expects
      else return v

/-- An upper bound: an integer that is not below the lower one. -/
def upperBound (config : Entries) (name : String) (expects : Expectation) (low : Value) :
    Outcome Value := do
  match config.get? name with
  | none => return .none
  | some v =>
      if !v.isInteger then refuse name v expects
      else if ← Value.holds .lt v low then refuse name v expects
      else return v

/-- A bound as a plain integer, if it is set. -/
def wholeBound (v : Value) : Except Fault Value :=
  match v with
  | .none => .ok .none
  | v => return .int (← v.toInt)

/-- The configuration that a container gives to its parts, if it does. -/
def schemaOption (config : Entries) : Outcome Value := do
  match config.get? "schema" with
  | none => return .none
  | some v =>
      if v.isConfiguration then return v else refuse "schema" v "Must be a dict or a list of dicts."

/-- The schema of that configuration. -/
def partSchema (compile : Value → Build Schema) (configuration : Value) : Build Value :=
  if configuration.isNone then return .none else return .schema (← compile configuration)

def array (factory : Factory) (config : Entries) : Build Attributes := do
  let low ← lowerBound config "min_items"
    "Must be an integer that is greater than or equal to zero."
  let high ← upperBound config "max_items"
    "Must be an integer that is greater than or equal to the min_items." low
  let schema ← partSchema (factory · .none) (← schemaOption config)
  return [("max_items", ← wholeBound high), ("min_items", ← wholeBound low), ("schema", schema),
    ("unique_items", ← flag config "unique_items" false)]

def function (config : Entries) : Setting := do
  let low ← lowerBound config "min_arguments" "Expected a non-negative integer."
  let high ← upperBound config "max_arguments"
    (.bounded "Expected an integer greater than or equal to min_arguments (" low ").") low
  return [("max_arguments", high), ("min_arguments", low), ("named", ← flag config "named" false)]

/-- A bound of numbers, which must be a number if it is given. -/
def numberBound (config : Entries) (name : String) : Outcome Value := do
  match config.get? name with
  | none => return .none
  | some v => if v.isReal then return v else refuse name v "Must be a number."

/-- Bounds that are both set must be in order. -/
def orderBounds (low high : Value) : Outcome Unit := do
  if !low.isNone && !high.isNone then
    if ← Value.holds .gt low high then
      refuse "min" low (.bounded "Must be less than or equal to max (" high ").")

def number (config : Entries) : Setting := do
  let high ← numberBound config "max"
  let low ← numberBound config "min"
  orderBounds low high
  return [("exclusive_max", ← flag config "exclusive_max" false),
    ("exclusive_min", ← flag config "exclusive_min" false),
    ("integer", ← flag config "integer" false), ("max", high), ("min", low)]

/-- The configuration of a property; `none` stands for an empty one. -/
def propertyConfig (v : Value) : Value := if v.isNone then .dict [] else v

/-- Compiles a declared property, with the generic configuration below its
own. -/
def property (factory : Factory) (generic key v : Value) : Build Value :=
  if (propertyConfig v).isConfiguration then
    return .schema (← compileMerged factory key generic (propertyConfig v))
  else throw (.config (.badProperty key))

def properties (factory : Factory) (generic : Value) : Entries → Build Entries
  | [] => return []
  | (key, v) :: rest => do
      let schema ← property factory generic key v
      return (key, schema) :: (← properties factory generic rest)

/-- The configurations of the declared properties. -/
def propertiesOption (config : Entries) : Outcome Entries := do
  match config.get? "properties" with
  | none => return []
  | some (.dict entries) => return entries
  | some v => refuse "properties" v "Must be a dict."

def object (factory : Factory) (config : Entries) : Build Attributes := do
  let declared ← propertiesOption config
  let generic ← schemaOption config
  let compiled ← properties factory generic declared
  let allowNull ← flag config "allow_null" true
  let clean ← flag config "clean" false
  let schema ← partSchema (compileMerged factory (.str "schema") .none) generic
  return [("allow_null", allowNull), ("clean", clean), ("properties", .dict compiled),
    ("schema", schema)]

def oneOf (factory : Factory) (config : Entries) : Build Attributes := do
  match config.get? "one_of" with
  | none => throw (.config .noVariants)
  | some v =>
      match v.listed? with
      | some variants =>
          if !variants.all Value.isDict then throw (.config .badVariants)
          let schemas ← variants.mapM fun variant => factory variant .none
          return [("one_of", .tuple (schemas.map .schema))]
      | none => throw (.config .badVariants)

/-- A pattern, which must be compiled if it is given. -/
def patternOption (config : Entries) : Outcome Value := do
  match config.get? "pattern" with
  | none => return .none
  | some (.pattern p) => return .pattern p
  | some v => refuse "pattern" v "Must be a compiled regular expression."

def string (config : Entries) : Setting := do
  let low ← lowerBound config "min_length"
    "Must be an integer that is greater than or equal to zero."
  let high ← upperBound config "max_length"
    "Must be an integer that is greater than or equal to the min_length." low
  let pattern ← patternOption config
  return [("max_length", ← wholeBound high), ("min_length", ← wholeBound low),
    ("pattern", pattern)]

/-- The attributes that the build step of a controller sets. -/
def ofKind (factory : Factory) (config : Entries) : Kind → Build Attributes
  | .typed => typed config
  | .array => array factory config
  | .function => function config
  | .number => number config
  | .object => object factory config
  | .oneOf => oneOf factory config
  | .string => string config
  | .boolean | .symbol => return []

/-- The attributes that a callable sets as a build step. -/
def ofCall (config : Entries) (f : Callable) : Setting :=
  match f with
  | .builder _ attributes => return attributes.map fun (name, v) => (name, config.getD name v)
  | .declared _ ps => if acceptsArguments ps 2 then return [] else throw (.fault .typeMismatch)
  | _ => throw (.fault .typeMismatch)

/-- The attributes that a build step sets. -/
def ofStep (factory : Factory) (config : Entries) : Step → Build Attributes
  | .builtin kind => ofKind factory config kind
  | .call f => ofCall config f

end Options

end Conform
