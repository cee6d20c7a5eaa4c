/-
# `Registry.Basic` — controllers by their aliases

A registry maps alias keys to controller definitions.  An alias belongs to
one live definition at most, parents are defined before their children, and
a definition stays as long as another one inherits from it.  The chain of a
definition is the chains of its parents, one after another and each member
once, and the definition itself.
-/
import Conform.Error.Failure
import Conform.Value.Class

namespace Conform

/-- A controller as it is registered. -/
structure Definition where
  aliases : List Value
  layer : Layer
  inherits : List Value
  /-- The layers of its ancestors, each after its own, and its own layer. -/
  chain : List Layer

/-- What a definition is made from. -/
structure Proposal where
  aliases : Value
  build : Value
  inherits : Value
  check : Value
  finish : Value

structure Registry where
  /-- The number of definitions so far, live or not. -/
  count : Nat
  /-- Each alias with its definition, in the order of registration. -/
  store : List (Value × Definition)
  /-- For a definition that others inherit from, by number: the others, once
  for every parent that names it. -/
  dependents : List (Nat × List Definition)

namespace Definition

def id (d : Definition) : Nat := d.layer.id

def name (d : Definition) : String := d.layer.name

def descriptor (d : Definition) : Descriptor :=
  { aliases := d.aliases
    build := d.layer.build
    inherits := d.inherits
    className := schemaClassName d.name
    hasCheck := d.layer.check.isSome
    hasFinish := d.layer.finish.isSome
    chain := d.chain.map Layer.name }

/-- The name that aliases give: the first text among them. -/
def nameOf (aliases : List Value) : String := (aliases.findSome? Value.text?).getD "anonymous"

/-- The schemas of a controller form a class that is named after it, and the
name of a class holds no null character. -/
def checkName (name : String) : Except Fault Unit :=
  if name.toList.contains '\x00' then .error .badValue else .ok ()

end Definition

/-- A proposal whose parts are what they should be. -/
structure Candidate where
  aliases : List Value
  build : Step
  inherits : List Value
  check : Option Step
  finish : Option Step

/-- A step that may be absent. -/
def optionalStep (role : String) (v : Value) : Except ConfigError (Option Step) :=
  match v with
  | .none => .ok none
  | .callable f => .ok (some (.call f))
  | _ => .error (.stepNotCallable role v)

/-- What a proposal says, without regard to a registry. -/
def Proposal.read (p : Proposal) : Outcome Candidate := do
  let aliases := p.aliases.listed?.getD [p.aliases]
  if aliases.isEmpty then throw (.config .noAlias)
  match p.build, p.inherits.listed? with
  | .callable f, some inherits =>
      let check ← optionalStep "error" p.check
      let finish ← optionalStep "normalize" p.finish
      return ⟨aliases, .call f, inherits, check, finish⟩
  | .callable _, none => throw (.config .inheritsNotList)
  | v, _ => throw (.config (.builderNotCallable v))

namespace Registry

def empty : Registry := ⟨0, [], []⟩

/-! ## Looking up -/

/-- The definition that is stored under a key. -/
def find? (store : List (Value × Definition)) (key : Value) : Option Definition :=
  (store.find? fun (k, _) => Value.sameKey k key).map (·.2)

/-- The live definition with this alias.  A value that cannot be a key is no
alias. -/
def resolve (r : Registry) (key : Value) : Option Definition :=
  if key.hashable then find? r.store key else none

def contains (r : Registry) (key : Value) : Bool := (r.resolve key).isSome

/-- The definitions, each at its first alias. -/
def distinct (seen : List Nat) : List (Value × Definition) → List Definition
  | [] => []
  | (_, d) :: rest =>
      if seen.contains d.id then distinct seen rest else d :: distinct (d.id :: seen) rest

/-- Every live definition once, in the order of registration. -/
def definitions (r : Registry) : List Definition := distinct [] r.store

/-- Those who inherit from a definition. -/
def dependentsOf (r : Registry) (d : Definition) : List Definition :=
  (r.dependents.lookup d.id).getD []

/-! ## Defining -/

/-- Adds the layers that are not there yet. -/
def addLayers (chain : List Layer) (layers : List Layer) : List Layer :=
  layers.foldl (fun acc l => if acc.any (·.id == l.id) then acc else acc ++ [l]) chain

/-- The layers of all parents, each once. -/
def inheritedChain (r : Registry) (parents : List Value) : List Layer :=
  parents.foldl (fun acc p => addLayers acc ((r.resolve p).map Definition.chain |>.getD [])) []

/-- No alias is taken, and each can be a key. -/
def checkAliases (r : Registry) : List Value → Except ConfigError Unit
  | [] => .ok ()
  | key :: rest =>
      if !key.hashable then .error (.aliasNotHashable key)
      else if r.contains key then .error (.aliasInUse key)
      else checkAliases r rest

/-- Every parent is live. -/
def checkParents (r : Registry) : List Value → Except ConfigError Unit
  | [] => .ok ()
  | parent :: rest =>
      if r.contains parent then checkParents r rest else .error (.unknownParent parent)

/-- Stores a definition under its aliases; an alias that is given twice is
stored once. -/
def storeUnder (d : Definition) : List Value → List (Value × Definition) → List (Value × Definition)
  | [], store => store
  | key :: rest, store =>
      storeUnder d rest (if (find? store key).isSome then store else store ++ [(key, d)])

/-- Enters a definition among the dependents of another. -/
def addDependent (parent : Nat) (d : Definition) :
    List (Nat × List Definition) → List (Nat × List Definition)
  | [] => [(parent, [d])]
  | (n, ds) :: rest =>
      if n = parent then (n, ds ++ [d]) :: rest else (n, ds) :: addDependent parent d rest

/-- Enters a definition that passed all checks. -/
def insert (r : Registry) (aliases : List Value) (layer : Layer) (inherits : List Value) :
    Registry × Definition :=
  let d : Definition :=
    { aliases, layer, inherits, chain := r.inheritedChain inherits ++ [layer] }
  let store := storeUnder d aliases r.store
  let dependents := inherits.foldl (fun acc p =>
    match find? store p with
    | some parent => addDependent parent.id d acc
    | none => acc) r.dependents
  (⟨r.count + 1, store, dependents⟩, d)

/-- Defines a controller whose parts are what they should be. -/
def defineCandidate (r : Registry) (c : Candidate) : Outcome (Registry × Definition) := do
  r.checkAliases c.aliases
  r.checkParents c.inherits
  let name := Definition.nameOf c.aliases
  Definition.checkName name
  return r.insert c.aliases ⟨r.count, name, c.build, c.check, c.finish⟩ c.inherits

/-- Defines a controller, or says why it cannot be. -/
def define (r : Registry) (p : Proposal) : Outcome (Registry × Definition) := do
  r.defineCandidate (← p.read)

/-! ## Deleting -/

/-- Strikes one mention of a definition among the dependents of another. -/
def dropDependent (parent : Nat) (d : Definition) (dependents : List (Nat × List Definition)) :
    List (Nat × List Definition) :=
  dependents.filterMap fun (n, ds) =>
    if n = parent then
      let left := ds.eraseP (·.id == d.id)
      if left.isEmpty then none else some (n, left)
    else some (n, ds)

/-- Takes a definition out of the registry. -/
def remove (r : Registry) (d : Definition) : Registry :=
  let store := r.store.filter fun (_, e) => e.id != d.id
  let dependents := d.inherits.foldl (fun acc p =>
    match find? store p with
    | some parent => dropDependent parent.id d acc
    | none => acc) r.dependents
  ⟨r.count, store, dependents⟩

/-- Deletes the definition with this alias, unless others inherit from it.
An unknown alias changes nothing. -/
def delete (r : Registry) (key : Value) : Except ConfigError Registry :=
  match r.resolve key with
  | none => .ok r
  | some d =>
      match r.dependentsOf d with
      | [] => .ok (r.remove d)
      | ds => .error (.hasDependents (ds.map Definition.descriptor))

end Registry

end Conform
