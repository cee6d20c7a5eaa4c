/-
# `Schema.Sharing` — what a holder of a normal form can change

A normal form is built anew, except that it takes over what no schema looks
into.  What it was made from can therefore share containers with it: a
default that is a list, a dictionary or a set is copied first, but the lists
inside a tuple are the schema's own.  Here somebody changes the containers
of a normal form, and the schema and the value that it came from are
followed through the change.
-/
import Conform.Schema.Normal

namespace Conform

/-- What somebody does to the containers of a value. -/
structure Change where
  /-- What is done to a list, a dictionary or a set: the container as it is
  afterwards. -/
  act : Value → Value
  /-- Whether the containers in a tuple are changed too. -/
  opensTuples : Bool

namespace Change

/-- The container with one more item. -/
def grown : Value → Value
  | .list items => .list (items ++ [.str "mutated"])
  | .dict entries => .dict (Entries.put entries (.str "mutated") (.bool true))
  | .set items => .set (Value.dedupe (items ++ [.str "mutated"]))
  | v => v

/-- The change that puts one more item into every container. -/
def grow : Change := ⟨grown, true⟩

/-- The same, but for the containers in tuples. -/
def growOutside : Change := ⟨grown, false⟩

end Change

mutual

/-- A value after a change of all containers in it.  The elements of sets and the
keys of dictionaries hold none. -/
def Value.changed (change : Change) : Value → Value
  | .list items => change.act (.list (Value.changedAll change items))
  | .dict entries => change.act (.dict (Value.changedEntries change entries))
  | .set items => change.act (.set items)
  | .tuple items =>
      if change.opensTuples then .tuple (Value.changedAll change items) else .tuple items
  | v => v
termination_by structural v => v

def Value.changedAll (change : Change) : List Value → List Value
  | [] => []
  | v :: rest => v.changed change :: Value.changedAll change rest
termination_by structural vs => vs

def Value.changedEntries (change : Change) : List (Value × Value) → List (Value × Value)
  | [] => []
  | (key, v) :: rest => (key, v.changed change) :: Value.changedEntries change rest
termination_by structural es => es

end

/-- What becomes of a schema and of a value that it accepts, once the
containers of the normal form are changed. -/
abbrev Follow := Schema → Value → Outcome (Schema × Value)

namespace Instance

/-- The schema with another value in an attribute. -/
def put (s : Instance) (name : String) (v : Value) : Instance :=
  { s with attributes := s.attributes.map fun (n, w) => if n = name then (n, v) else (n, w) }

end Instance

namespace Schema

/-- The schema with another default, where it has one. -/
def putDefault (s : Schema) (v : Value) : Except Fault Schema := do
  match s with
  | .single t => return .single (t.put "default" v)
  | .multi members => return .multi (← go members)
where
  go : List Instance → Except Fault (List Instance)
    | [] => return []
    | t :: rest => do
        if ← t.flag "has_default" then return t.put "default" v :: rest
        else return t :: (← go rest)

/-- The schema after its default was handed out, normalized and changed. -/
def followDefault (follow : Follow) (s : Schema) : Outcome Schema := do
  let v ← s.default
  let (t, w) ← follow s (← v.freshDefault)
  if v.isCopied then return t else t.putDefault w

end Schema

namespace Instance

def followItems (follow : Follow) : Value → List Value → Outcome (Value × List Value)
  | schema, [] => return (schema, [])
  | .schema s, v :: rest => do
      let (t, w) ← follow s v
      let (schema, others) ← followItems follow (.schema t) rest
      return (schema, w :: others)
  | _, _ => throw (.fault .missingAttribute)

/-- An array takes over its items, in a list of its own. -/
def followArray (change : Change) (follow : Follow) (s : Instance) (v : Value) :
    Outcome (Instance × Value) := do
  let schema ← s.get "schema"
  let items : List Value → Outcome (Value × List Value) := fun items =>
    if schema.isNone then return (schema, Value.changedAll change items)
    else followItems follow schema items
  match v with
  | .list vs => do
      let (schema, ws) ← items vs
      return (s.put "schema" schema, .list ws)
  | .tuple vs => do
      let (schema, ws) ← items vs
      return (s.put "schema" schema, .tuple ws)
  | _ => return (s, v)

/-- The entries of an object; the schemas of the properties come along. -/
def followEntries (change : Change) (follow : Follow) (clean : Bool) (properties : Entries) :
    Entries → Outcome (Entries × Entries)
  | [] => return (properties, [])
  | (key, v) :: rest => do
      match properties.find? key with
      | some (.schema s) =>
          let (t, w) ← follow s v
          let (properties, others) ←
            followEntries change follow clean (properties.put key (.schema t)) rest
          return (properties, (key, w) :: others)
      | some _ => throw (.fault .missingAttribute)
      | none =>
          let (properties, others) ← followEntries change follow clean properties rest
          return (properties, (key, if clean then v else v.changed change) :: others)

/-- The properties, where the absent ones with a default gave it away. -/
def followFilled (follow : Follow) (given : Entries) : Entries → Outcome Entries
  | [] => return []
  | (key, .schema s) :: rest => do
      let t ←
        if !given.contains key && (← s.hasDefault) then s.followDefault follow else pure s
      return (key, .schema t) :: (← followFilled follow given rest)
  | _ :: _ => throw (.fault .missingAttribute)

/-- An object takes over undeclared entries, in a dictionary of its own. -/
def followObject (change : Change) (follow : Follow) (s : Instance) (v : Value) :
    Outcome (Instance × Value) := do
  match v with
  | .dict entries =>
      let clean ← (← s.get "clean").truthy
      let (properties, others) ← followEntries change follow clean (← s.properties) entries
      let properties ← followFilled follow entries properties
      return (s.put "properties" (.dict properties), .dict others)
  | _ => return (s, v)

/-- The alternative that accepts, followed in its place. -/
def followFirst (follow : Follow) (v : Value) (candidates : List Value) :
    Outcome (List Value × Value) := do
  match ← Search.run Schema.error v 0 candidates with
  | .found position s =>
      let (t, w) ← follow s v
      return (candidates.set position (.schema t), w)
  | .refused _ => return (candidates, v)

def followOneOf (follow : Follow) (s : Instance) (v : Value) : Outcome (Instance × Value) := do
  let (candidates, w) ← followFirst follow v (← (← s.get "one_of").items)
  return (s.put "one_of" (.tuple candidates), w)

/-- Whether a normalize step takes the value apart. -/
def takesApart : Step → Bool
  | .builtin .array | .builtin .object | .builtin .oneOf => true
  | _ => false

def isAdded : Step → Bool
  | .call _ => true
  | .builtin _ => false

/-- A value followed through the normalize steps.  What a transform or an
added step returns counts as new. -/
def followGiven (change : Change) (follow : Follow) (s : Instance) (v : Value) :
    Outcome (Instance × Value) := do
  let steps := s.finishes
  if !((s.get? "transform").getD .none).isNone || steps.any isAdded then return (s, v)
  else
    match steps.find? takesApart with
    | some (.builtin .array) => s.followArray change follow v
    | some (.builtin .object) => s.followObject change follow v
    | some (.builtin .oneOf) => s.followOneOf follow v
    | _ => return (s, v.changed change)

end Instance

namespace Schema

def followWith (change : Change) (follow : Follow) (s : Schema) (v : Value) :
    Outcome (Schema × Value) := do
  match s with
  | .single t =>
      if v.isUndefined && (← t.flag "has_default") then
        let ask : Follow := fun _ w => do
          let (u, w) ← t.followGiven change follow w
          return (.single u, w)
        return (← s.followDefault ask, v)
      else
        let (u, w) ← t.followGiven change follow v
        return (.single u, w)
  | .multi members =>
      let (candidates, w) ←
        Instance.followFirst follow v (members.map fun t => .schema (.single t))
      return (.multi (candidates.flatMap single?), w)
where
  single? : Value → List Instance
    | .schema (.single t) => [t]
    | _ => []

/-- The same, down to a number of schemas inside one another. -/
def followWithin (change : Change) : Nat → Follow
  | 0, _, _ => throw (.fault .missingAttribute)
  | depth + 1, s, v => s.followWith change (followWithin change depth) v

/-- What becomes of a schema and of a value that it accepts, once the
containers of the normal form are changed. -/
def follow (change : Change) (s : Schema) (v : Value) : Outcome (Schema × Value) :=
  followWithin change s.depth s v

/-- The normal form for a missing value after an earlier one was changed,
and the default as the schema then keeps it. -/
def normalizeAgain (change : Change) (s : Schema) : Outcome (Value × Value) := do
  let _ ← s.normalize .undefined
  let (t, _) ← s.follow change .undefined
  return (← t.normalize .undefined, ← t.default)

end Schema

end Conform
