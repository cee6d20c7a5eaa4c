/-
# `Registry.Builtin` — the controllers of this library

The root controller and eight that inherit from it, each under a name and
under the classes of the values it describes.
-/
import Conform.Registry.Basic

namespace Conform

/-- A controller of this library: its aliases, and whether it has a
normalize step of its own. -/
structure BuiltinController where
  kind : Kind
  aliases : List Value
  hasFinish : Bool

private def ofClass (c : ClassName) : Value := .callable (.ofClass c)

/-- The controllers in the order of their registration, the root first. -/
def builtinControllers : List BuiltinController :=
  [⟨.typed, [.str "typed", .aliasKey .typed], true⟩,
   ⟨.array, [.str "array", ofClass .list, ofClass .tuple], true⟩,
   ⟨.boolean, [.str "boolean", ofClass .bool], false⟩,
   ⟨.function, [.str "function", ofClass .function], false⟩,
   ⟨.number, [.str "number", ofClass .int, ofClass .float], false⟩,
   ⟨.object, [.str "object", ofClass .dict], true⟩,
   ⟨.oneOf, [.str "one-of", .aliasKey .oneOf], true⟩,
   ⟨.string, [.str "string", ofClass .str], false⟩,
   ⟨.symbol, [.str "symbol", ofClass .enum], false⟩]

/-- What is registered: all but the root inherit from it. -/
def BuiltinController.candidate (c : BuiltinController) : Candidate :=
  let step := Step.builtin c.kind
  { aliases := c.aliases
    build := step
    inherits := if c.kind = .typed then [] else [.str "typed"]
    check := some step
    finish := if c.hasFinish then some step else none }

namespace Registry

/-- Registers one controller of this library. -/
def defineBuiltin (r : Registry) (c : BuiltinController) :
    Outcome (Registry × Definition) :=
  r.defineCandidate c.candidate

/-- Registers controllers until one is refused; those before it stay. -/
def defineBuiltins (r : Registry) : List BuiltinController → Registry × Option Failure
  | [] => (r, none)
  | c :: rest =>
      match r.defineBuiltin c with
      | .ok (r', _) => defineBuiltins r' rest
      | .error e => (r, some e)

/-- Registers the controllers of this library. -/
def registerBuiltins (r : Registry) : Registry × Option Failure :=
  r.defineBuiltins builtinControllers

/-- The registry with the controllers of this library and no others. -/
def builtin : Registry := (registerBuiltins empty).1

end Registry

end Conform
