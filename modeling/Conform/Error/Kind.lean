/-
# `Error.Kind` — the catalog of what can be wrong

Every error carries a kind: a short code, an explanation and a summary.
The kinds are listed here by the controller that reports them; those that
several report come first.
-/
import Conform.Value.Basic

namespace Conform

structure ErrorKind where
  code : String
  explanation : String
  summary : String
deriving DecidableEq

namespace ErrorKind

/-! ## Shared kinds -/

def config : ErrorKind :=
  ⟨"ETCFG", "The schema configuration is invalid.", "Invalid schema configuration."⟩

def type : ErrorKind :=
  ⟨"ETTYP", "The value is not of the expected type.", "Invalid type."⟩

def multi : ErrorKind :=
  ⟨"ETMLT", "None of the possible schemas accepted the value.", "No matching schema."⟩

def dependency : ErrorKind :=
  ⟨"ETDEP", "Other controller definitions still inherit from this definition.",
    "Controller has dependents."⟩

/-! ## Kinds of the controllers -/

def notInEnum : ErrorKind :=
  ⟨"ETENM", "The value does not match any of the specified enum values.", "Value not in enum."⟩

def notValidated : ErrorKind :=
  ⟨"ETVLD",
    "The value was run through the validator function supplied in the configuration and did not pass.",
    "Did not pass validation."⟩

def arrayItems : ErrorKind :=
  ⟨"EAITM", "One or more items in the array do not match the specified typed definition.",
    "One or more invalid array items."⟩

def arrayMax : ErrorKind :=
  ⟨"EAMAX", "The array has too many items to meet the maximum requirement.",
    "Too many array items."⟩

def arrayMin : ErrorKind :=
  ⟨"EAMIN", "The array does not have enough items to meet the minimum requirement.",
    "Too few array items."⟩

def arrayUnique : ErrorKind :=
  ⟨"EAUNQ", "The items in the array must be unique.", "Array items must be unique."⟩

def functionMax : ErrorKind :=
  ⟨"EFMAX", "The function signature specifies more arguments than the allowable max.",
    "The function defines too many parameters."⟩

def functionMin : ErrorKind :=
  ⟨"EFMIN", "The function signature specifies fewer arguments than the allowable min.",
    "The function defines too few parameters."⟩

def functionUnnamed : ErrorKind :=
  ⟨"EFNAM", "The function must be named.", "The function must be named."⟩

def numberNotInteger : ErrorKind :=
  ⟨"ENINT", "The number must be an integer.", "Number is not an integer."⟩

def numberMax : ErrorKind :=
  ⟨"ENMAX", "The number is above the allowed maximum.", "Number too large."⟩

def numberMin : ErrorKind :=
  ⟨"ENMIN", "The number is below the allowed minimum.", "Number too small."⟩

def objectNone : ErrorKind :=
  ⟨"EONUL", "The object cannot be None.", "The object cannot be None."⟩

def objectProperties : ErrorKind :=
  ⟨"EOPRP", "One or more properties in the object have errors.",
    "One or more errors in properties."⟩

def objectRequired : ErrorKind :=
  ⟨"EOREQ", "A required property has not been assigned a value.",
    "Missing required property value."⟩

def requiredDefault : ErrorKind :=
  ⟨"EORDF", "A property cannot be required and provide a default value at the same time.",
    "Required property with default."⟩

def oneOf : ErrorKind :=
  ⟨"EONEO", "None of the possible schemas matched the value.", "No matching schema found."⟩

def stringMax : ErrorKind :=
  ⟨"ESMAX", "The string has too many characters to meet the max length requirement.",
    "String too long."⟩

def stringMin : ErrorKind :=
  ⟨"ESMIN", "The string has too few characters to meet the min length requirement.",
    "String too short."⟩

def stringPattern : ErrorKind :=
  ⟨"ESPAT", "The string does not match the regular expression pattern.",
    "String does not match pattern."⟩

/-- The kind that an added controller's code stands for. -/
def ofCode (code : String) : ErrorKind := ⟨code, "explain " ++ code, "sum " ++ code⟩

/-! ## The catalog -/

/-- The kinds that are not one controller's own. -/
def shared : List (String × ErrorKind) :=
  [("CONFIG", config), ("TYPE", type), ("MULTI", multi), ("DEPENDENCY", dependency)]

/-- The kinds that a controller lists as its own. -/
def catalog : Kind → List (String × ErrorKind)
  | .typed =>
      [("config", config), ("enum", notInEnum), ("type", type), ("validate", notValidated)]
  | .array =>
      [("items", arrayItems), ("max", arrayMax), ("min", arrayMin), ("unique", arrayUnique)]
  | .function =>
      [("max_arguments", functionMax), ("min_arguments", functionMin), ("named", functionUnnamed)]
  | .number => [("integer", numberNotInteger), ("max", numberMax), ("min", numberMin)]
  | .object =>
      [("null", objectNone), ("properties", objectProperties), ("required", objectRequired),
        ("required_default", requiredDefault)]
  | .oneOf => [("one_of", oneOf)]
  | .string => [("max", stringMax), ("min", stringMin), ("pattern", stringPattern)]
  | .boolean | .symbol => []

end ErrorKind

end Conform
