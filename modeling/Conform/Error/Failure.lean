/-
# `Error.Failure` — why an operation did not succeed

Configurations and registries are refused for the reasons in
`ConfigError`; each has one message and one kind.  A value is refused with
its `ErrorInfo`.  The classes of errors form a small hierarchy, by which
callers catch them.
-/
import Conform.Error.Info
import Conform.Value.Literal
import Conform.Text.Word
import Conform.Fault

namespace Conform

/-- A controller definition, as a registry shows it. -/
structure Descriptor where
  aliases : List Value
  build : Step
  inherits : List Value
  className : String
  hasCheck : Bool
  hasFinish : Bool
  /-- The names of the definitions in its chain. -/
  chain : List String

/-- What an option should hold, in words, which may mention a bound. -/
inductive Expectation where
  | words (text : String)
  | bounded (before : String) (bound : Value) (after : String)

instance : Coe String Expectation := ⟨.words⟩

def Expectation.text : Expectation → Except Fault String
  | .words text => .ok text
  | .bounded before bound after => return before ++ (← bound.display) ++ after

/-- Why a configuration or a definition is refused.  The refusal keeps what was
received; it is put in words when it is shown. -/
inductive ConfigError where
  | noAlias
  | builderNotCallable (received : Value)
  | inheritsNotList
  /-- The step of this name is no callable. -/
  | stepNotCallable (step : String) (received : Value)
  | aliasNotHashable (key : Value)
  | aliasInUse (key : Value)
  | unknownParent (parent : Value)
  | hasDependents (dependents : List Descriptor)
  | unknownType (type : Value)
  | notADict (received : Value)
  | additionalNotADict (received : Value)
  | additionalList
  | additionalCount
  | badOption (name : String) (received : Value) (expects : Expectation)
  | badProperty (key : Value)
  | requiredDefault (key : Value)
  | noVariants
  | badVariants
  | badPattern (place : String) (source : String)
  | badDocument (file : String)
  | documentNotASchema (file : String) (typeName : String)
  | documentNotACatalog (file : String)

/-- The classes of errors that callers tell apart. -/
inductive ErrorClass where
  | any
  | config
  | unknownType
  | dependency
  | value
deriving DecidableEq

namespace ErrorClass

def name : ErrorClass → String
  | .any => "FullyTypedError"
  | .config => "ConfigError"
  | .unknownType => "UnknownTypeError"
  | .dependency => "DependencyError"
  | .value => "SchemaValueError"

def all : List ErrorClass := [.any, .config, .unknownType, .dependency, .value]

/-- Whether errors of the class are errors of the other one too. -/
def isA : ErrorClass → ErrorClass → Bool
  | _, .any | .unknownType, .config | .dependency, .config => true
  | c, d => c == d

/-- The kind of an error that names none. -/
def defaultKind : ErrorClass → ErrorKind
  | .dependency => .dependency
  | .value => .type
  | .any | .config | .unknownType => .config

/-- One line for an error: its class and its message, if there is one. -/
def headline (c : ErrorClass) (message : String) : String :=
  let text := String.ofList (Text.trimmed message.toList)
  if text.isEmpty then c.name else c.name ++ ": " ++ text

end ErrorClass

/-- What is said of an option that does not hold what it should. -/
def optionMessage (name : String) (received : Value) (expects : String) : Except Fault String :=
  return "Invalid configuration value for property: " ++ name ++ ". " ++ expects ++ " Received: "
    ++ (← received.describe)

/-- What is said of a value that is not what was expected. -/
def valueMessage (v : Value) (expects : String) : Except Fault String := do
  let text := "Invalid value " ++ (← v.describe) ++ "."
  return if expects.isEmpty then text else text ++ " " ++ expects

namespace ConfigError

/-- What is said of a configuration that is refused.  A refusal whose words cannot
be written, because of an integer in them, is a fault instead. -/
def message : ConfigError → Except Fault String
  | .noAlias => return "A controller needs at least one alias."
  | .builderNotCallable v => return "Controller must be callable. Received: " ++ (← v.literal)
  | .inheritsNotList => return "Controller inherits must be a list."
  | .stepNotCallable step v =>
      return "Controller " ++ step ++ " step must be callable. Received: " ++ (← v.literal)
  | .aliasNotHashable key =>
      return "Controller alias must be hashable. Received: " ++ (← key.literal)
  | .aliasInUse key => return "The specified alias is already in use: " ++ (← key.literal)
  | .unknownParent parent =>
      return "Cannot inherit from undefined controller: " ++ (← parent.literal)
  | .hasDependents _ =>
      return "Cannot delete controller definition due to dependencies on this definition."
  | .unknownType type => return "Unknown type: " ++ (← type.literal)
  | .notADict v =>
      return "If provided, the schema configuration must be a dict. Received: " ++ (← v.literal)
  | .additionalNotADict v =>
      return "Additional properties must be a dict. Received: " ++ (← v.literal)
  | .additionalList =>
      return "Additional properties cannot be a list when the configuration is not a list of dicts."
  | .additionalCount =>
      return "The number of additional properties objects must match the number of configurations."
  | .badOption name received expects => do optionMessage name received (← expects.text)
  | .badProperty key =>
      return "Invalid configuration for property: " ++ (← key.display)
        ++ ". Must be a dict or a list of dicts."
  | .requiredDefault key =>
      return "Invalid configuration for property: " ++ (← key.display)
        ++ ". Cannot make required and provide a default value."
  | .noVariants =>
      return "Invalid configuration. Missing required one-of property: one_of. "
        ++ "Must be a list of schema configurations."
  | .badVariants =>
      return "Invalid configuration value for property: one_of. "
        ++ "Must be a list of schema configurations."
  | .badPattern place source =>
      return place ++ ": invalid regular expression " ++ Text.quoted source
  | .badDocument file => return file ++ ": invalid YAML"
  | .documentNotASchema file typeName =>
      return file ++ ": schema configuration must be a mapping or a list, got " ++ typeName
  | .documentNotACatalog file =>
      return file ++ ": schema catalog must be a mapping of name to configuration"

def errorClass : ConfigError → ErrorClass
  | .unknownType _ => .unknownType
  | .hasDependents _ => .dependency
  | _ => .config

def kind : ConfigError → ErrorKind
  | .hasDependents _ => .dependency
  | .requiredDefault _ => .requiredDefault
  | _ => .config

end ConfigError

/-- Why an operation did not succeed. -/
inductive Failure where
  | config (e : ConfigError)
  | value (info : ErrorInfo)
  | fault (f : Fault)

/-- The outcome of an operation that may fail. -/
abbrev Outcome := Except Failure

/-- A fault of an operation on values is a failure of what uses it. -/
instance : MonadLift (Except Fault) (Except Failure) := ⟨Except.mapError .fault⟩

/-- So is a refusal. -/
instance : MonadLift (Except ConfigError) (Except Failure) := ⟨Except.mapError .config⟩

end Conform
