/-
# `Schema.Rendering` — schemas as plain data

For inspection a schema is written out as a dictionary of its attributes:
nested schemas in full, callables and patterns by what names them, and an
absent value as nothing.
-/
import Conform.Schema.Attribute

namespace Conform

/-- The name that stands for a callable. -/
def Callable.shownName (f : Callable) : String :=
  match f.name? with
  | some name => if name.isEmpty then "anonymous" else name
  | none => "anonymous"

/-- What stands for the type of a schema: a text as it is, a callable by its
name, and otherwise the controller. -/
def shownType (controller : String) (type : Option Value) : Option Value :=
  match type with
  | some (.callable f) =>
      some (.str (match f.name? with
        | some name => if name.isEmpty then controller else name
        | none => controller))
  | some v => if v.text?.isSome then none else some (.str controller)
  | none => some (.str controller)

/-- Text-keyed entries with one more, in place of an equal key. -/
def withType (options : Entries) (type : Option Value) : Entries :=
  match type with
  | some v => options.put (.str "type") v
  | none => options

/-- What is shown of a pattern: the text that it was compiled from, or else the
pattern as it is. -/
def Pattern.shown (p : Pattern) : Value :=
  match p.text? with
  | some s => .str s
  | none => .pattern p

/-- What is shown of a schema whose operation for it is replaced by something
that cannot be called: its pattern if it can also be searched, or else the
schema as it is. -/
def Instance.shownBare (s : Instance) : Value :=
  match s.attributes.lookup "pattern" with
  | some v =>
      if v.text?.isSome && (s.attributes.lookup "search").isSome then v else .schema (.single s)
  | none => .schema (.single s)

/-- Whether the operation that writes a schema out is one, or can at least be called. -/
def Instance.writesOut (s : Instance) : Bool :=
  match s.attributes.lookup "to_json" with
  | some (.callable _) | none => true
  | some _ => false

mutual

/-- The plain form of a value. -/
def Value.render : Value → Except Fault Value
  | .schema s => s.render
  | .dict entries => do return .dict (← Value.renderEntries entries)
  | .list items | .tuple items => do return .list (← Value.renderAll items)
  | .undefined => return .none
  | .pattern p => return p.shown
  | .callable f => return .str f.shownName
  | v => return v
termination_by structural v => v

def Value.renderAll : List Value → Except Fault (List Value)
  | [] => return []
  | v :: rest => do return (← v.render) :: (← Value.renderAll rest)
termination_by structural vs => vs

def Value.renderEntries : List (Value × Value) → Except Fault (List (Value × Value))
  | [] => return []
  | (k, v) :: rest => do return (k, ← v.render) :: (← Value.renderEntries rest)
termination_by structural es => es

def Schema.render : Schema → Except Fault Value
  | .single s => if s.writesOut then s.render else return s.shownBare
  | .multi members => do return .list (← Instance.renderAll members)
termination_by structural s => s

/-- The public attributes of a schema, with the type by its name, unless an
attribute has the name of the operation that gives them. -/
def Instance.render : Instance → Except Fault Value
  | ⟨chain, attributes, _⟩ =>
      match attributes.lookup "to_json" with
      | none => do
          let controller := (chain.getLast?.map Layer.name).getD ""
          return .dict (withType (← Value.renderAttributes attributes)
            (shownType controller (attributes.lookup "type")))
      | some (.callable f) => f.produce
      | some _ => .error .typeMismatch
termination_by structural s => s

def Instance.renderAll : List Instance → Except Fault (List Value)
  | [] => return []
  | s :: rest => do return (← s.render) :: (← Instance.renderAll rest)
termination_by structural ss => ss

def Value.renderAttributes : List (String × Value) → Except Fault (List (Value × Value))
  | [] => return []
  | (name, v) :: rest => do
      if isPublic name then
        return (.str name, ← v.render) :: (← Value.renderAttributes rest)
      else Value.renderAttributes rest
termination_by structural attrs => attrs

end

/-- The plain form that a schema itself gives. -/
def Schema.rendered (s : Schema) : Except Fault Value :=
  match s with
  | .single t => t.render
  | .multi _ => s.render

end Conform
