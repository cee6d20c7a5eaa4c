/-
# `Proofs.Schema.Inside` — the schemas inside a schema

A schema keeps the schemas of its parts in attributes: those of properties
under their keys, the one of all parts, and the alternatives.  They are read
off the attributes here, so that the notion makes sense of any schema; for
a plan they are the parts of its demand.
-/
import Conform.Proofs.Schema.Plan

namespace Conform

def Value.schema? : Value → Option Schema
  | .schema s => some s
  | _ => .none

/-- The schemas kept in an attribute. -/
def Value.schemas : Value → List Schema
  | .schema s => [s]
  | .tuple items => items.filterMap Value.schema?
  | .dict entries => entries.filterMap fun e => e.2.schema?
  | _ => []

/-- The schemas kept under a name. -/
def Instance.nested (s : Instance) (name : String) : List Schema :=
  ((s.attributes.lookup name).map Value.schemas).getD []

/-- The schemas that a schema asks about parts of a value. -/
def Instance.parts (s : Instance) : List Schema :=
  s.nested "properties" ++ s.nested "schema" ++ s.nested "one_of"

/-- A schema inside another, at any depth. -/
inductive Schema.Inside (s : Schema) : Schema → Prop
  | self : Inside s s
  | part {t : Instance} {u : Schema} : Inside s (.single t) → u ∈ t.parts → Inside s u
  | member {members : List Instance} {t : Instance} :
      Inside s (.multi members) → t ∈ members → Inside s (.single t)

theorem Schema.Inside.trans {s t u : Schema} (hst : s.Inside t) (htu : t.Inside u) :
    s.Inside u := by
  induction htu with
  | self => exact hst
  | part _ hu ih => exact .part ih hu
  | member _ ht ih => exact .member ih ht

theorem schemas_tuple (ts : List Schema) : (Value.tuple (ts.map .schema)).schemas = ts := by
  show (ts.map Value.schema).filterMap Value.schema? = ts
  rw [List.filterMap_map]
  exact List.filterMap_some

theorem schemas_entries (properties : List (Value × Schema)) :
    (Value.dict (Demand.entries properties)).schemas = properties.map (·.2) := by
  show (Demand.entries properties).filterMap (fun e => e.2.schema?) = _
  rw [Demand.entries, List.filterMap_map, ← List.filterMap_eq_map]
  rfl

theorem schemas_optional (t : Option Schema) : (optional .schema t).schemas = t.toList := by
  cases t <;> rfl

/-- The properties of a demand, of an object only. -/
def Demand.properties : Demand → List (Value × Schema)
  | object _ _ properties _ => properties
  | _ => []

namespace Plan

variable (p : Plan) (hash : String)

theorem lookup_demand {name : String} (h : name ∉ commonNames) (h' : name ≠ "required") :
    p.attributes.lookup name = p.demand.attributes.lookup name := by
  simp only [commonNames, List.mem_cons, List.not_mem_nil, or_false, not_or] at h
  have ne : ∀ m : String, name ≠ m → (name == m) = false := fun m hm => by simpa using hm
  cases hr : p.required <;>
    simp [attributes, common, added, List.lookup_cons, List.lookup_append, ne, h, h', hr]

theorem nested_properties :
    (p.toInstance hash).nested "properties" = p.demand.properties.map (·.2) := by
  simp only [Instance.nested, toInstance, p.lookup_demand (by decide : "properties" ∉ commonNames)
    (by decide)]
  cases p.demand with
  | object => exact schemas_entries _
  | _ => simp [Demand.attributes, Demand.properties, List.lookup_cons]

theorem parts_toInstance : (p.toInstance hash).parts = p.demand.parts := by
  have one := p.lookup_demand (by decide : "one_of" ∉ commonNames) (by decide)
  have item := p.lookup_demand (by decide : "schema" ∉ commonNames) (by decide)
  rw [Instance.parts, nested_properties]
  simp only [Instance.nested, toInstance, one, item]
  cases p.demand with
  | array most least item unique =>
      simp [Demand.attributes, Demand.properties, Demand.parts, List.lookup_cons, schemas_optional]
  | object allowNull clean properties generic =>
      simp [Demand.attributes, Demand.properties, Demand.parts, List.lookup_cons, schemas_optional]
  | oneOf variants =>
      simp [Demand.attributes, Demand.properties, Demand.parts, List.lookup_cons, schemas_tuple]
  | _ => simp [Demand.attributes, Demand.properties, Demand.parts, List.lookup_cons]

/-- What is inside a plan is the plan itself, or inside one of its parts. -/
theorem inside_cases {u : Schema} (h : (Schema.single (p.toInstance hash)).Inside u) :
    u = .single (p.toInstance hash) ∨ ∃ t ∈ p.demand.parts, t.Inside u := by
  induction h with
  | self => exact .inl rfl
  | @part s u _ hu ih =>
      rcases ih with heq | ⟨t, ht, hin⟩
      · obtain rfl := Schema.single.inj heq
        rw [p.parts_toInstance hash] at hu
        exact .inr ⟨u, hu, .self⟩
      · exact .inr ⟨t, ht, .part hin hu⟩
  | member _ hs ih =>
      rcases ih with heq | ⟨t, ht, hin⟩
      · cases heq
      · exact .inr ⟨t, ht, .member hin hs⟩

/-- Nothing else is inside a plan without parts. -/
theorem eq_of_inside {u : Schema} (hparts : p.demand.parts = [])
    (h : (Schema.single (p.toInstance hash)).Inside u) : u = .single (p.toInstance hash) := by
  rcases p.inside_cases hash h with heq | ⟨t, ht, -⟩
  · exact heq
  · rw [hparts] at ht
    cases ht

theorem properties_subset : p.demand.properties.map (·.2) ⊆ p.demand.parts := by
  cases p.demand with
  | object => exact List.subset_append_left _ _
  | _ => exact List.nil_subset _

end Plan

end Conform
