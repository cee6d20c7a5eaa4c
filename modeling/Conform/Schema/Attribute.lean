/-
# `Schema.Attribute` — what can be read off a schema

A compiled schema shows its attributes, its controller and its operations.
Several schemas together are required when each of them is, and have a
default when one of them has, which is then the default of the first such.
-/
import Conform.Digest.Attributes
import Conform.Value.Call

namespace Conform

/-- The operations of every schema, by name. -/
def operationNames : List String := ["error", "validate", "normalize", "hash", "to_json"]

/-- An operation as an attribute. -/
def operation? (name : String) : Option Value :=
  if operationNames.contains name then some (.callable (.declared name [])) else none

namespace Instance

/-- An operation cannot be carried out if an attribute has its name. -/
def require (s : Instance) (operation : String) : Except Fault Unit :=
  if (s.attributes.lookup operation).isSome then .error .typeMismatch else .ok ()

/-- The attribute of a name; those that complete a schema come first. -/
def get? (s : Instance) (name : String) : Option Value :=
  if name = "_hash" then some (.str s.hash)
  else if name = "_frozen" then some (.bool true)
  else
    match s.attributes.lookup name with
    | some v => some v
    | none =>
        if name = "controller" then some (.str s.controller)
        else if name = "_factory" then some (.callable .unreadable)
        else operation? name

def get (s : Instance) (name : String) : Except Fault Value :=
  match s.get? name with
  | some v => .ok v
  | none => .error .missingAttribute

/-- Whether an attribute is set and counts as true. -/
def flag (s : Instance) (name : String) : Except Fault Bool :=
  match s.get? name with
  | some v => v.truthy
  | none => .ok false

/-- Whether all of the schemas have the flag. -/
def allFlag (name : String) : List Instance → Except Fault Bool
  | [] => .ok true
  | s :: rest => do if ← s.flag name then allFlag name rest else return false

/-- The first of the schemas that has the flag. -/
def firstFlag (name : String) : List Instance → Except Fault (Option Instance)
  | [] => .ok none
  | s :: rest => do if ← s.flag name then return some s else firstFlag name rest

end Instance

namespace Schema

/-- An operation cannot be carried out if an attribute has its name, which
alternatives do not have. -/
def require (s : Schema) (operation : String) : Except Fault Unit :=
  match s with
  | .single t => t.require operation
  | .multi _ => .ok ()

/-- Whether a value must be supplied. -/
def required : Schema → Except Fault Bool
  | .single s => s.flag "required"
  | .multi members => if members.isEmpty then .ok false else Instance.allFlag "required" members

def hasDefault : Schema → Except Fault Bool
  | .single s => s.flag "has_default"
  | .multi members => return (← Instance.firstFlag "has_default" members).isSome

/-- The default, if there is one. -/
def default : Schema → Except Fault Value
  | .single s => s.get "default"
  | .multi members => do
      match ← Instance.firstFlag "has_default" members with
      | some s => s.get "default"
      | none => return .undefined

def get (s : Schema) (name : String) : Except Fault Value :=
  match s with
  | .single t => t.get name
  | .multi members =>
      if name = "schemas" then .ok (.list (members.map fun t => .schema (.single t)))
      else if name = "_schemas" then .ok (.tuple (members.map fun t => .schema (.single t)))
      else if name = "_hash" then .ok (.str s.hash)
      else if name = "required" then return .bool (← s.required)
      else if name = "has_default" then return .bool (← s.hasDefault)
      else if name = "default" then s.default
      else match operation? name with
        | some v => .ok v
        | none => .error .missingAttribute

/-- The names of the public attributes, in order. -/
def publicNames : Schema → List String
  | .single s => (Attributes.sortedPublic s.attributes).map (·.1)
  | .multi _ => []

end Schema

/-- The attribute of a value, which only schemas have. -/
def Value.get (v : Value) (name : String) : Except Fault Value :=
  match v with
  | .schema s => s.get name
  | _ => .error .missingAttribute

end Conform
