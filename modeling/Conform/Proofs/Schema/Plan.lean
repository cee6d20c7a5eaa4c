/-
# `Proofs.Schema.Plan` — what the attributes of a compiled schema say

A schema keeps what it was compiled to as named values.  A `Plan` is the
same information with its types: what the root controller checks, and the
`Demand` of the controller of the kind.  `Plan.toInstance` writes a plan
down as attributes; the lemmas read it back by name.
-/
import Conform.Schema.Normal
import Conform.Registry.Builtin

namespace Conform

/-- A value that may be absent, as an attribute. -/
def optional {α : Type} (f : α → Value) : Option α → Value
  | none => .none
  | some a => f a

theorem optional_eq_none {α : Type} {f : α → Value} (hf : ∀ a, f a ≠ .none) {x : Option α}
    (h : optional f x = .none) : x = none := by
  cases x with
  | none => rfl
  | some a => exact absurd h (hf a)

theorem Value.callable_ne_none (f : Callable) : Value.callable f ≠ .none := Value.noConfusion

/-- What is kept under a name, where no name occurs twice. -/
theorem Attributes.lookup_iff {attrs : Attributes} {name : String} {v : Value}
    (hnames : (attrs.map (·.1)).Nodup) :
    attrs.lookup name = some v ↔ (name, v) ∈ attrs := by
  induction attrs with
  | nil => exact ⟨nofun, nofun⟩
  | cons e rest ih =>
      obtain ⟨n, w⟩ := e
      rw [List.map_cons, List.nodup_cons] at hnames
      rw [List.lookup_cons, List.mem_cons, ← ih hnames.2]
      by_cases hn : name = n
      · subst hn
        have hfresh : rest.lookup name ≠ some v := by
          intro hv
          rw [ih hnames.2] at hv
          exact hnames.1 (List.mem_map.mpr ⟨_, hv, rfl⟩)
        simp [hfresh, eq_comm]
      · simp [hn, beq_eq_false_iff_ne.mpr hn]

/-- What the controller of a kind demands of a value. -/
inductive Demand where
  | typed
  | boolean
  | symbol
  | number (exclusiveMax exclusiveMin integer : Bool) (most least : Option Value)
  | string (most : Option Int) (least : Int) (pattern : Option Pattern)
  | function (most : Option Value) (least : Value) (named : Bool)
  | array (most : Option Int) (least : Int) (item : Option Schema) (unique : Bool)
  | object (allowNull clean : Bool) (properties : List (Value × Schema)) (generic : Option Schema)
  | oneOf (variants : List Schema)

namespace Demand

def kind : Demand → Kind
  | typed => .typed
  | boolean => .boolean
  | symbol => .symbol
  | number .. => .number
  | string .. => .string
  | function .. => .function
  | array .. => .array
  | object .. => .object
  | oneOf _ => .oneOf

/-- The properties as they are kept. -/
def entries (properties : List (Value × Schema)) : Entries :=
  properties.map fun (key, t) => (key, .schema t)

/-- The attributes that the build step of the kind sets. -/
def attributes : Demand → Attributes
  | typed | boolean | symbol => []
  | number exclusiveMax exclusiveMin integer most least =>
      [("exclusive_max", .bool exclusiveMax), ("exclusive_min", .bool exclusiveMin),
        ("integer", .bool integer), ("max", optional id most), ("min", optional id least)]
  | string most least pattern =>
      [("max_length", optional .int most), ("min_length", .int least),
        ("pattern", optional .pattern pattern)]
  | function most least named =>
      [("max_arguments", optional id most), ("min_arguments", least), ("named", .bool named)]
  | array most least item unique =>
      [("max_items", optional .int most), ("min_items", .int least),
        ("schema", optional .schema item), ("unique_items", .bool unique)]
  | object allowNull clean properties generic =>
      [("allow_null", .bool allowNull), ("clean", .bool clean),
        ("properties", .dict (entries properties)), ("schema", optional .schema generic)]
  | oneOf variants => [("one_of", .tuple (variants.map .schema))]

/-- The schemas that parts of a value are handed to. -/
def parts : Demand → List Schema
  | array _ _ item _ => item.toList
  | object _ _ properties generic => properties.map (·.2) ++ generic.toList
  | oneOf variants => variants
  | _ => []

/-- The schema that governs a key: its own, or else the one of all parts. -/
def governing (properties : List (Value × Schema)) (generic : Option Schema) (key : Value) :
    Option Schema :=
  ((properties.find? fun e => Value.sameKey e.1 key).map (·.2)).or generic

end Demand

/-- What a configuration of a controller of this library came to. -/
structure Plan where
  default : Value
  enum : Option (List Value)
  hasDefault : Bool
  transform : Option Callable
  type : Value
  validator : Option Callable
  demand : Demand
  /-- Whether a value is required, if a container said so. -/
  required : Option Bool

namespace Kind

/-- The place in the order of registration. -/
def position : Kind → Nat
  | .typed => 0
  | .array => 1
  | .boolean => 2
  | .function => 3
  | .number => 4
  | .object => 5
  | .oneOf => 6
  | .string => 7
  | .symbol => 8

def label : Kind → String
  | .typed => "typed"
  | .array => "array"
  | .boolean => "boolean"
  | .function => "function"
  | .number => "number"
  | .object => "object"
  | .oneOf => "one-of"
  | .string => "string"
  | .symbol => "symbol"

/-- Whether the controller has a normalize step of its own. -/
def finishes : Kind → Bool
  | .typed | .array | .object | .oneOf => true
  | .boolean | .function | .number | .string | .symbol => false

def layer (k : Kind) : Layer :=
  ⟨k.position, k.label, .builtin k, some (.builtin k), if k.finishes then some (.builtin k) else none⟩

/-- The layers of a kind, the root first. -/
def chain (k : Kind) : List Layer :=
  match k with
  | .typed => [layer .typed]
  | k => [layer .typed, k.layer]

end Kind

namespace Plan

/-- The attributes that the root controller sets. -/
def common (p : Plan) : Attributes :=
  [("default", p.default), ("enum", optional .tuple p.enum), ("has_default", .bool p.hasDefault),
    ("transform", optional .callable p.transform), ("type", p.type),
    ("validator", optional .callable p.validator)]

/-- The attribute that a container adds. -/
def added (p : Plan) : Attributes := p.required.toList.map fun b => ("required", .bool b)

def attributes (p : Plan) : Attributes := p.common ++ p.demand.attributes ++ p.added

def toInstance (p : Plan) (hash : String) : Instance := ⟨p.demand.kind.chain, p.attributes, hash⟩

variable (p : Plan) (hash : String)

/-! ## Reading attributes back -/

@[simp] theorem get_enum : (p.toInstance hash).get "enum" = .ok (optional .tuple p.enum) := by
  simp [Instance.get, Instance.get?, toInstance, attributes, common, List.lookup_cons]

@[simp] theorem get_default : (p.toInstance hash).get "default" = .ok p.default := by
  simp [Instance.get, Instance.get?, toInstance, attributes, common]

@[simp] theorem get_hasDefault :
    (p.toInstance hash).get "has_default" = .ok (.bool p.hasDefault) := by
  simp [Instance.get, Instance.get?, toInstance, attributes, common, List.lookup_cons]

@[simp] theorem get_transform :
    (p.toInstance hash).get "transform" = .ok (optional .callable p.transform) := by
  simp [Instance.get, Instance.get?, toInstance, attributes, common, List.lookup_cons]

theorem transform_eq_none (h : (p.toInstance hash).get "transform" = .ok .none) :
    p.transform = none := by
  rw [get_transform, Except.ok.injEq] at h
  exact optional_eq_none Value.callable_ne_none h

@[simp] theorem get_validator :
    (p.toInstance hash).get "validator" = .ok (optional .callable p.validator) := by
  simp [Instance.get, Instance.get?, toInstance, attributes, common, List.lookup_cons]

@[simp] theorem flag_hasDefault : (p.toInstance hash).flag "has_default" = .ok p.hasDefault := by
  simp [Instance.flag, Instance.get?, toInstance, attributes, common, List.lookup_cons,
    Value.truthy]

/-- The names that every plan has, and those that complete a schema. -/
def commonNames : List String :=
  ["default", "enum", "has_default", "transform", "type", "validator", "_hash", "_frozen"]

/-- What the controller of the kind set is found under its name. -/
theorem get_demand {name : String} {v : Value} (hname : name ∉ commonNames)
    (hv : p.demand.attributes.lookup name = some v) : (p.toInstance hash).get name = .ok v := by
  simp only [commonNames, List.mem_cons, List.not_mem_nil, or_false, not_or] at hname
  have ne : ∀ m : String, name ≠ m → (name == m) = false := fun m hm => by simpa using hm
  simp [Instance.get, Instance.get?, toInstance, attributes, common, List.lookup_cons,
    List.lookup_append, ne, hname, hv]

variable {p} in
theorem get_of_demand {d : Demand} (hd : p.demand = d) (name : String) {w : Value}
    (hname : name ∉ commonNames) (hw : d.attributes.lookup name = some w) :
    (p.toInstance hash).get name = .ok w := p.get_demand hash hname (hd ▸ hw)

section object

variable {allowNull clean : Bool} {properties : List (Value × Schema)} {generic : Option Schema}

variable {p} in
theorem properties_of_demand (hd : p.demand = .object allowNull clean properties generic) :
    (p.toInstance hash).properties = .ok (Demand.entries properties) := by
  rw [Instance.properties, get_of_demand hash hd "properties" (by decide) rfl]
  rfl

variable {p} in
theorem genericFor_of_demand (hd : p.demand = .object allowNull clean properties generic)
    (x : Value × Value) (es : Entries) :
    (p.toInstance hash).genericFor (x :: es) = .ok (optional .schema generic) :=
  get_of_demand hash hd "schema" (by decide) rfl

end object

theorem lookup_required : p.attributes.lookup "required" = p.required.map .bool := by
  have none : p.demand.attributes.lookup "required" = .none := by
    cases p.demand <;> simp [Demand.attributes, List.lookup_cons]
  cases h : p.required <;>
    simp [attributes, common, added, List.lookup_cons, List.lookup_append, none, h]

@[simp] theorem flag_required :
    (p.toInstance hash).flag "required" = .ok (p.required.getD false) := by
  cases h : p.required <;>
    simp [Instance.flag, Instance.get?, toInstance, lookup_required, h, operation?,
      operationNames, Value.truthy]

/-- Every name that a plan can use. -/
def attributeNames : List String :=
  ["default", "enum", "has_default", "transform", "type", "validator", "exclusive_max",
    "exclusive_min", "integer", "max", "min", "max_length", "min_length", "pattern",
    "max_arguments", "min_arguments", "named", "max_items", "min_items", "schema",
    "unique_items", "allow_null", "clean", "properties", "one_of", "required"]

theorem names_subset : p.attributes.map (·.1) ⊆ attributeNames := by
  have common : p.common.map (·.1) ⊆ attributeNames := by
    simp [common, attributeNames]
  have demand : p.demand.attributes.map (·.1) ⊆ attributeNames := by
    cases p.demand <;> simp [Demand.attributes, attributeNames]
  have added : p.added.map (·.1) ⊆ attributeNames := by
    cases h : p.required <;> simp [Plan.added, h, attributeNames]
  simp only [attributes, List.map_append, List.append_subset]
  exact ⟨⟨common, demand⟩, added⟩

theorem isPublic_of_mem_attributeNames : ∀ name ∈ attributeNames, isPublic name = true := by
  decide

theorem names_nodup : (p.attributes.map (·.1)).Nodup := by
  have names : ∀ (d : Demand) (r : Option Bool),
      (["default", "enum", "has_default", "transform", "type", "validator"]
        ++ d.attributes.map (·.1) ++ r.toList.map fun _ => "required").Nodup := by
    intro d r
    cases d <;> cases r <;> simp [Demand.attributes]
  simpa [attributes, Plan.common, Plan.added, Function.comp_def] using names p.demand p.required

/-- Attributes with names of plans have nothing under another name. -/
theorem lookup_of_names {attrs : Attributes} (hnames : attrs.map (·.1) ⊆ attributeNames)
    {name : String} (h : name ∉ attributeNames) : attrs.lookup name = none := by
  rw [List.lookup_eq_none_iff]
  intro e he
  have : name ≠ e.1 := fun heq => h (heq ▸ hnames (List.mem_map_of_mem he))
  simpa using this

theorem lookup_eq_none {name : String} (h : name ∉ attributeNames) :
    p.attributes.lookup name = none :=
  lookup_of_names p.names_subset h

/-- No attribute of a plan has the name of an operation. -/
@[simp] theorem require_toInstance {operation : String} (h : operation ∈ operationNames) :
    (p.toInstance hash).require operation = .ok () := by
  have apart : ∀ n ∈ operationNames, n ∉ attributeNames := by decide
  simp [Instance.require, toInstance, p.lookup_eq_none (apart operation h)]

/-! ## The steps of a plan -/

theorem checks_toInstance :
    (p.toInstance hash).checks
      = .builtin .typed :: if p.demand.kind = .typed then [] else [.builtin p.demand.kind] := by
  simp only [Instance.checks, toInstance]
  cases p.demand.kind <;> rfl

theorem finishes_toInstance :
    (p.toInstance hash).finishes
      = .builtin .typed ::
        if p.demand.kind ≠ .typed ∧ p.demand.kind.finishes then [.builtin p.demand.kind] else [] := by
  simp only [Instance.finishes, toInstance]
  cases p.demand.kind <;> rfl

end Plan

/-! ## Properties under their keys -/

namespace Demand

theorem find?_entries (properties : List (Value × Schema)) (key : Value) :
    Entries.find? (entries properties) key
      = ((properties.find? fun e => Value.sameKey e.1 key).map (·.2)).map .schema := by
  induction properties with
  | nil => rfl
  | cons e rest ih =>
      simp only [entries, List.map_cons, Entries.find?, List.find?_cons] at ih ⊢
      cases Value.sameKey e.1 key <;> simp [ih]

theorem getD_find?_entries (properties : List (Value × Schema)) (generic : Option Schema)
    (key : Value) :
    (Entries.find? (entries properties) key).getD (optional .schema generic)
      = optional .schema (governing properties generic key) := by
  rw [find?_entries, governing]
  cases properties.find? fun e => Value.sameKey e.1 key <;> simp [optional]

theorem mem_of_governing {properties : List (Value × Schema)} {generic : Option Schema}
    {key : Value} {t : Schema} (h : governing properties generic key = some t) :
    t ∈ properties.map (·.2) ++ generic.toList := by
  unfold governing at h
  rw [Option.or_eq_some_iff] at h
  rcases h with h | ⟨-, h⟩
  · obtain ⟨e, he, rfl⟩ := Option.map_eq_some_iff.mp h
    exact List.mem_append_left _ (List.mem_map_of_mem (List.mem_of_find?_eq_some he))
  · exact List.mem_append_right _ (by simp [h])

end Demand

/-! ## Depth of parts -/

theorem Value.depth_le_of_mem {v : Value} : ∀ {vs : List Value}, v ∈ vs → v.depth ≤ Value.depthAll vs
  | w :: rest, h => by
      rw [Value.depthAll]
      cases h with
      | head => exact Nat.le_max_left _ _
      | tail _ h' => exact Nat.le_trans (depth_le_of_mem h') (Nat.le_max_right _ _)

theorem Value.depth_le_of_mem_entries {k v : Value} :
    ∀ {es : Entries}, (k, v) ∈ es → v.depth ≤ Value.depthEntries es
  | (_, w) :: rest, h => by
      rw [Value.depthEntries]
      cases h with
      | head => exact Nat.le_max_left _ _
      | tail _ h' => exact Nat.le_trans (depth_le_of_mem_entries h') (Nat.le_max_right _ _)

theorem Value.depth_le_of_mem_attributes {name : String} {v : Value} :
    ∀ {attrs : Attributes}, (name, v) ∈ attrs → v.depth ≤ Value.depthAttributes attrs
  | (_, w) :: rest, h => by
      rw [Value.depthAttributes]
      cases h with
      | head => exact Nat.le_max_left _ _
      | tail _ h' => exact Nat.le_trans (depth_le_of_mem_attributes h') (Nat.le_max_right _ _)

theorem Instance.depth_le_of_mem {s : Instance} :
    ∀ {ss : List Instance}, s ∈ ss → s.depth ≤ Instance.depthAll ss
  | t :: rest, h => by
      rw [Instance.depthAll]
      cases h with
      | head => exact Nat.le_max_left _ _
      | tail _ h' => exact Nat.le_trans (depth_le_of_mem h') (Nat.le_max_right _ _)

/-- A part is found in some attribute. -/
theorem Demand.depth_of_mem_parts {d : Demand} {t : Schema} (h : t ∈ d.parts) :
    ∃ name v, (name, v) ∈ d.attributes ∧ t.depth ≤ v.depth := by
  cases d with
  | array most least item unique =>
      obtain rfl := Option.mem_toList.mp h
      exact ⟨"schema", .schema t, by simp [attributes, optional], Nat.le_refl _⟩
  | object allowNull clean properties generic =>
      rcases List.mem_append.mp h with h | h
      · obtain ⟨⟨key, t'⟩, hm, rfl⟩ := List.mem_map.mp h
        refine ⟨"properties", .dict (entries properties), by simp [attributes], ?_⟩
        exact Value.depth_le_of_mem_entries (k := key)
          (List.mem_map.mpr ⟨(key, t'), hm, rfl⟩ : (key, Value.schema t') ∈ entries properties)
      · obtain rfl := Option.mem_toList.mp h
        exact ⟨"schema", .schema t, by simp [attributes, optional], Nat.le_refl _⟩
  | oneOf variants =>
      exact ⟨"one_of", .tuple (variants.map .schema), by simp [attributes],
        Value.depth_le_of_mem (List.mem_map_of_mem (f := Value.schema) h)⟩
  | _ => simp [parts] at h

theorem Plan.depth_lt {p : Plan} {hash : String} {t : Schema} (h : t ∈ p.demand.parts) :
    t.depth < (Schema.single (p.toInstance hash)).depth := by
  obtain ⟨name, v, hm, hle⟩ := Demand.depth_of_mem_parts h
  have : (name, v) ∈ p.attributes :=
    List.mem_append_left _ (List.mem_append_right _ hm)
  exact Nat.lt_succ_of_le (Nat.le_trans hle (Value.depth_le_of_mem_attributes this))

theorem Schema.depth_member_lt {s : Instance} {members : List Instance} (h : s ∈ members) :
    (Schema.single s).depth < (Schema.multi members).depth :=
  Nat.lt_succ_of_le (Instance.depth_le_of_mem h)

/-! ## Compiled schemas -/

/-- Every member of a schema records whether it is required. -/
def Schema.IsMarked (t : Schema) : Prop :=
  ∀ s ∈ t.members, ∃ b : Bool, s.attributes.lookup "required" = some (.bool b)

/-- What compiling guarantees of a demand. -/
def Demand.Proper : Demand → Prop
  | number _ _ _ most least =>
      (∀ b, most = some b → b.isReal = true) ∧ ∀ b, least = some b → b.isReal = true
  | function most least _ => (∀ b, most = some b → b.isInteger = true) ∧ least.isInteger = true
  | object _ _ properties _ => ∀ e ∈ properties, e.2.IsMarked
  | _ => True

/-- The values that refusals show beside what is refused. -/
def Demand.shown : Demand → List Value
  | number _ _ _ most least => most.toList ++ least.toList
  | function most least _ => most.toList ++ [least]
  | string most least _ => most.toList.map .int ++ [.int least]
  | array most least _ _ => most.toList.map .int ++ [.int least]
  | object _ _ properties _ => properties.map (·.1)
  | typed | boolean | symbol | oneOf _ => []

/-- The pattern that texts have to match. -/
def Demand.pattern? : Demand → Option Pattern
  | string _ _ pattern => pattern
  | _ => none

/-- What is shown of a demand can be written, and its pattern can be asked about texts. -/
structure Demand.Legible (d : Demand) : Prop where
  shown : ∀ w ∈ d.shown, w.hasDisplay = true
  pattern : ∀ q, d.pattern? = some q → ∃ s, q.text? = some s

/-- A demand of which nothing is shown. -/
theorem Demand.Legible.of_nil {d : Demand} (hshown : d.shown = []) (hpattern : d.pattern? = none) :
    d.Legible where
  shown w hw := by
    rw [hshown] at hw
    cases hw
  pattern q hq := by
    rw [hpattern] at hq
    cases hq

structure Plan.Proper (p : Plan) : Prop where
  enum : ∀ items, p.enum = some items →
    ∃ listed, listed ≠ [] ∧ items = Value.dedupeStrict listed
  default : p.hasDefault = false → p.default = .undefined
  /-- The type is an alias of the kind. -/
  type : ∃ c ∈ builtinControllers, c.kind = p.demand.kind ∧
    ∃ a ∈ c.aliases, Value.sameKey a p.type = true
  demand : p.demand.Proper
  legible : p.demand.Legible

/-- What compiling against the controllers of this library gives. -/
inductive Schema.Compiled : Schema → Prop where
  | single (p : Plan) (hash : String) (proper : p.Proper)
      (digest : p.attributes.hash = .ok hash) (parts : ∀ t ∈ p.demand.parts, Compiled t) :
      Compiled (.single (p.toInstance hash))
  | multi (members : List Instance) (each : ∀ s ∈ members, Compiled (.single s)) :
      Compiled (.multi members)

/-- A schema carries the digest of its attributes. -/
theorem Schema.Compiled.hash_attributes {s : Instance} (h : (Schema.single s).Compiled) :
    Attributes.hash s.attributes = .ok s.hash := by
  cases h with
  | single p hash proper digest => exact digest

theorem Schema.compiled_iff {t : Schema} :
    t.Compiled ↔ ∀ s ∈ t.members, Schema.Compiled (.single s) := by
  constructor
  · intro h s hs
    cases t with
    | single u =>
        obtain rfl := List.mem_singleton.mp hs
        exact h
    | multi members =>
        cases h with
        | multi _ each => exact each s hs
  · intro h
    cases t with
    | single u => exact h u (List.mem_singleton.mpr rfl)
    | multi members => exact .multi members h

end Conform
