/-
# `Registry.InPlace` — changing a registry where it stands

A registry is changed by single writes to its tables.  Nothing takes a write
back: a change that is refused on the way leaves what it wrote before.  So a
change reads all that could refuse it before its first write, and the
registration of several controllers keeps those before a refused one.
-/
import Conform.Config.Compile
import Conform.Registry.Builtin

namespace Conform

/-- A change of a registry in place.  One that is refused leaves what it
wrote. -/
abbrev Edit := ExceptT Failure (StateM Registry)

/-- What a change of this registry comes to, and the registry after it. -/
def Edit.on {α : Type} (x : Edit α) (r : Registry) : Outcome α × Registry := x.run.run r

namespace Registry.InPlace

/-! ## Reading -/

/-- The definition under a key that is known to be there. -/
def stored (key : Value) : Edit Definition := do
  match (← get).resolve key with
  | some d => return d
  | none => throw (.fault (if key.hashable then .missingKey else .typeMismatch))

/-- No definition has this alias, and it can be a key. -/
def requireAlias (key : Value) : Edit Unit := do
  if !key.hashable then throw (.config (.aliasNotHashable key))
  if (← get).contains key then throw (.config (.aliasInUse key))

/-- This parent is live. -/
def requireParent (parent : Value) : Edit Unit := do
  if !(← get).contains parent then throw (.config (.unknownParent parent))

/-- The layers of all parents, each once. -/
def gatherChain (inherits : List Value) : Edit (List Layer) :=
  inherits.foldlM (fun chain parent => do return addLayers chain (← stored parent).chain) []

/-! ## Writing -/

/-- Puts a definition under a key: in the place of what is under an equal
key, or at the end. -/
def putUnder (d : Definition) (key : Value) :
    List (Value × Definition) → List (Value × Definition)
  | [] => [(key, d)]
  | (k, e) :: rest =>
      if Value.sameKey k key then (k, d) :: rest else (k, e) :: putUnder d key rest

def enter (d : Definition) (key : Value) : Edit Unit :=
  modify fun r => { r with store := putUnder d key r.store }

/-- Enters a definition among the dependents of a parent. -/
def enterDependent (d : Definition) (parent : Value) : Edit Unit := do
  let e ← stored parent
  modify fun r => { r with dependents := addDependent e.id d r.dependents }

/-- Takes out all keys of a definition. -/
def strike (d : Definition) : Edit Unit :=
  modify fun r => { r with store := r.store.filter fun (_, e) => e.id != d.id }

/-- Strikes one mention of a definition among the dependents of a parent. -/
def strikeDependent (d : Definition) (parent : Value) : Edit Unit := do
  match find? (← get).store parent with
  | some e => modify fun r => { r with dependents := dropDependent e.id d r.dependents }
  | none => return

/-! ## Changes -/

/-- All that can refuse a definition.  What is left is the chain of its
ancestors. -/
def examine (c : Candidate) : Edit (List Layer) := do
  c.aliases.forM requireAlias
  c.inherits.forM requireParent
  let ancestors ← gatherChain c.inherits
  Definition.checkName (Definition.nameOf c.aliases)
  return ancestors

/-- Writes a definition to the tables. -/
def write (d : Definition) : Edit Unit := do
  modify fun r => { r with count := r.count + 1 }
  d.aliases.forM (enter d)
  d.inherits.forM (enterDependent d)

/-- Defines a controller whose parts are what they should be. -/
def defineCandidate (c : Candidate) : Edit Definition := do
  let ancestors ← examine c
  let layer : Layer :=
    ⟨(← get).count, Definition.nameOf c.aliases, c.build, c.check, c.finish⟩
  let d : Definition :=
    { aliases := c.aliases, layer, inherits := c.inherits, chain := ancestors ++ [layer] }
  write d
  return d

def define (p : Proposal) : Edit Definition := do
  defineCandidate (← p.read)

/-- Deletes the definition with this alias, if there is one. -/
def delete (key : Value) : Edit Unit := do
  match (← get).resolve key with
  | none => return
  | some d =>
      let dependents := (← get).dependentsOf d
      if !dependents.isEmpty then
        throw (.config (.hasDependents (dependents.map Definition.descriptor)))
      strike d
      d.inherits.forM (strikeDependent d)

def defineBuiltin (c : BuiltinController) : Edit Unit := do
  let _ ← defineCandidate c.candidate

/-- Registers the controllers of this library, one after another. -/
def registerBuiltins : Edit Unit := builtinControllers.forM defineBuiltin

/-! ## Operations -/

/-- What can be asked of a registry. -/
inductive Operation where
  | define (p : Proposal)
  | delete (key : Value)
  | registerBuiltins
  | get (key : Value)
  | has (key : Value)
  | list
  | compile (configuration additional : Value)

inductive Answer where
  | done
  | described (d : Descriptor)
  | found (d : Option Descriptor)
  | holds (b : Bool)
  | listed (ds : List Descriptor)
  | compiled (s : Schema)

def Operation.perform : Operation → Edit Answer
  | .define p => return .described (← InPlace.define p).descriptor
  | .delete key => do
      InPlace.delete key
      return .done
  | .registerBuiltins => do
      InPlace.registerBuiltins
      return .done
  | .get key => return .found (((← MonadState.get).resolve key).map Definition.descriptor)
  | .has key => return .holds ((← MonadState.get).contains key)
  | .list => return .listed ((← MonadState.get).definitions.map Definition.descriptor)
  | .compile configuration additional =>
      return .compiled (← (← MonadState.get).compile configuration additional)

/-- The outcomes of operations, one after another, and the registry after
them. -/
def session (r : Registry) : List Operation → List (Outcome Answer) × Registry
  | [] => ([], r)
  | op :: rest =>
      let (first, s) := op.perform.on r
      let (later, t) := session s rest
      (first :: later, t)

/-- The registry after operations on an empty one. -/
def reached (ops : List Operation) : Registry := (session empty ops).2

end Registry.InPlace

end Conform
