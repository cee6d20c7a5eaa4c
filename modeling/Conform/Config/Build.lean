/-
# `Config.Build` — building with a record of the layers

Compiling a configuration runs the build steps of its layers one after
another, some of which compile configurations inside.  `Build` is such a
run: it may fail, and it keeps the layers whose steps began, in order, also
when it fails.
-/
import Conform.Error.Failure
import Conform.Digest.Attributes

namespace Conform

/-- A run that may fail, with the layers whose build steps began. -/
structure Build (α : Type) where
  outcome : Outcome α × List Layer

namespace Build

/-- One run after another; what began before a failure stays on record. -/
instance : Monad Build where
  pure a := ⟨(.ok a, [])⟩
  bind b f :=
    match b.outcome with
    | (.ok a, layers) => ⟨((f a).outcome.1, layers ++ (f a).outcome.2)⟩
    | (.error e, layers) => ⟨(.error e, layers)⟩

instance : MonadExceptOf Failure Build where
  throw e := ⟨(.error e, [])⟩
  tryCatch b f :=
    match b.outcome with
    | (.ok a, layers) => ⟨(.ok a, layers)⟩
    | (.error e, layers) => ⟨((f e).outcome.1, layers ++ (f e).outcome.2)⟩

instance : MonadLift (Except Failure) Build := ⟨fun x => ⟨(x, [])⟩⟩

/-- Records that the step of a layer begins. -/
def note (layer : Layer) : Build Unit := ⟨(.ok (), [layer])⟩

end Build

/-- How a configuration inside another is compiled, with its additional
attributes. -/
abbrev Factory := Value → Value → Build Schema

namespace Attributes

/-- Sets an attribute in place, or as the last. -/
def put (attrs : Attributes) (name : String) (v : Value) : Attributes :=
  match attrs with
  | [] => [(name, v)]
  | (n, w) :: rest => if n = name then (n, v) :: rest else (n, w) :: put rest name v

/-- What is said when a finished schema is to be changed. -/
def immutableMessage (owner action name : String) : String :=
  owner ++ " is immutable; cannot " ++ action ++ " " ++ Text.quoted name

/-- Whether the attributes are marked as finished. -/
def frozen (attrs : Attributes) : Except Fault Bool :=
  match attrs.lookup "_frozen" with
  | some v => v.truthy
  | none => .ok false

/-- Attributes from a dictionary, whose keys must be texts. -/
def ofEntries (es : Entries) : Except Fault Attributes :=
  es.mapM fun (k, v) =>
    match k.text? with
    | some name => .ok (name, v)
    | none => .error .typeMismatch

/-- Sets an attribute of a schema that is being built.  The controller and
the references to the schema are not to be set, nor what kind of thing it
is; all attributes at once can be. -/
def set (owner : String) (attrs : Attributes) (name : String) (v : Value) :
    Except Fault Attributes := do
  if ← attrs.frozen then throw (.immutable (immutableMessage owner "set" name))
  else if name = "controller" || name = "__weakref__" then throw .missingAttribute
  else if name = "__class__" then throw .typeMismatch
  else if name = "__dict__" then
    match v with
    | .dict es => ofEntries es
    | _ => throw .typeMismatch
  else return attrs.put name v

/-- Sets attributes in order. -/
def setAll (owner : String) (attrs : Attributes) (more : Attributes) : Except Fault Attributes :=
  more.foldlM (fun acc (name, v) => acc.set owner name v) attrs

end Attributes

end Conform
