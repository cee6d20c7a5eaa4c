/-
# `Proofs.Config.Options` — what the build steps read

Each option of a dictionary is read as one of a few things, and so is what a
build step makes of them: it sets the attributes that a demand is written
down as.  The schemas that a step takes in come from compiling the
configurations inside, with whatever compiles them, and `Reads` says which
configuration each part comes from.
-/
import Conform.Proofs.Config.Height
import Conform.Proofs.Schema.Plan
import Conform.Proofs.Value.Key

namespace Conform

open Value (sameKey)

/-! ## The controllers of this library -/

namespace BuiltinController

/-- The definition that a controller of this library has. -/
def definition (c : BuiltinController) : Definition :=
  { aliases := c.aliases, layer := c.kind.layer
    inherits := if c.kind = .typed then [] else [.str "typed"], chain := c.kind.chain }

end BuiltinController

namespace Registry

theorem store_builtin :
    builtin.store = builtinControllers.flatMap fun c => c.aliases.map (·, c.definition) := rfl

theorem resolve_builtin {type : Value} {d : Definition} (h : builtin.resolve type = some d) :
    ∃ c ∈ builtinControllers, d = c.definition ∧ ∃ a ∈ c.aliases, sameKey a type = true := by
  simp only [resolve] at h
  split at h
  · simp only [find?, Option.map_eq_some_iff] at h
    obtain ⟨⟨k, e⟩, he, rfl⟩ := h
    have hm := List.mem_of_find?_eq_some he
    rw [store_builtin, List.mem_flatMap] at hm
    obtain ⟨c, hc, hm⟩ := hm
    obtain ⟨a, ha, heq⟩ := List.mem_map.mp hm
    obtain ⟨rfl, rfl⟩ := Prod.mk.inj heq
    exact ⟨c, hc, rfl, a, ha, by simpa using List.find?_some he⟩
  · simp at h

end Registry

/-! ## The schemas inside -/

/-- A factory whose schemas are compiled, and marked if a container asks. -/
structure Factory.Compiles (f : Factory) : Prop where
  plain : ∀ {c t}, (f c .none).result = .ok t → t.Compiled
  marked : ∀ {c b t}, (f (.dict c) (.dict [(.str "required", .bool b)])).result = .ok t →
    t.Compiled ∧ t.IsMarked

theorem dropRepeated_sublist :
    ∀ (ss : List Instance) (seen : List String), (Schema.dropRepeated seen ss).Sublist ss
  | [], _ => List.Sublist.refl _
  | s :: rest, seen => by
      simp only [Schema.dropRepeated]
      split
      · exact (dropRepeated_sublist rest seen).cons s
      · exact (dropRepeated_sublist rest _).cons_cons s

/-- The members of single schemas, one after another, are those schemas. -/
theorem flatMap_members_single (ss : List Instance) :
    (ss.map Schema.single).flatMap Schema.members = ss := by
  rw [List.flatMap_map]
  exact List.flatMap_singleton' ss

theorem ofAlternatives_single (ss : List Instance) :
    Schema.ofAlternatives (ss.map .single) = .multi (Schema.dropRepeated [] ss) := by
  rw [Schema.ofAlternatives, flatMap_members_single]

theorem members_collapse (schemas : List Schema) :
    (Schema.collapse schemas).members = Schema.dropRepeated [] (schemas.flatMap Schema.members) := by
  unfold Schema.collapse
  split
  · rename_i s hs
    exact hs.symm
  · rfl

theorem members_collapse_single (ss : List Instance) :
    (Schema.collapse (ss.map .single)).members = Schema.dropRepeated [] ss := by
  rw [members_collapse, flatMap_members_single]

theorem compileCandidate_ok {f : Factory} (hf : f.Compiles) {key : Value} {es : Entries}
    {t : Schema} (h : (compileCandidate f key (.dict es)).result = .ok t) :
    t.Compiled ∧ t.IsMarked := by
  simp only [compileCandidate, splitRequired_eq, Build.result_bind, Build.result_lift_fault,
    bind_eq_ok, lift_eq_ok, pure_eq_ok] at h
  obtain ⟨_, ⟨b, -, rfl⟩, schema, hschema, required, -, h⟩ := h
  have ht : schema = t := by
    split at h
    · simp only [Build.result_bind, Build.result_lift_fault, bind_eq_ok, lift_eq_ok] at h
      obtain ⟨hasDefault, -, h⟩ := h
      split at h
      · simp at h
      · exact Except.ok.inj h
    · exact Except.ok.inj h
  exact ht ▸ hf.marked hschema

theorem compileMerged_ok {f : Factory} (hf : f.Compiles) {key generic specific : Value}
    (hg : generic.IsPartOption) (hs : specific.IsPartOption) {t : Schema}
    (h : (compileMerged f key generic specific).result = .ok t) : t.Compiled ∧ t.IsMarked := by
  rw [compileMerged_eq f key hg hs] at h
  simp only [Build.result_bind, Build.result_lift_fault, Build.result_mapM, Build.result_pure,
    bind_eq_ok, lift_eq_ok, mapM_eq_ok] at h
  obtain ⟨candidates, hmerge, schemas, hschemas, h⟩ := h
  obtain rfl := Except.ok.inj h
  have below := Value.mergeProducts_below
    (fun s hm => ⟨(hs.alternatives s hm).1, Nat.le_trans (hs.alternatives s hm).2
      (Nat.le_max_left _ generic.height)⟩)
    (fun g hm => ⟨(hg.alternatives g hm).1, Nat.le_trans (hg.alternatives g hm).2
      (Nat.le_max_right specific.height _)⟩) hmerge
  have each : ∀ s ∈ schemas, s.Compiled ∧ s.IsMarked := by
    intro s hs
    obtain ⟨c, hc, hcs⟩ := forall₂_mem_right hschemas hs
    obtain ⟨es, rfl, -⟩ := below c hc
    exact compileCandidate_ok hf hcs
  have members : ∀ u ∈ (Schema.collapse schemas).members, ∃ s ∈ schemas, u ∈ s.members := by
    intro u hu
    rw [members_collapse] at hu
    exact List.mem_flatMap.mp ((dropRepeated_sublist _ _).subset hu)
  constructor
  · refine Schema.compiled_iff.mpr fun u hu => ?_
    obtain ⟨s, hs, hus⟩ := members u hu
    exact Schema.compiled_iff.mp (each s hs).1 u hus
  · intro u hu
    obtain ⟨s, hs, hus⟩ := members u hu
    exact (each s hs).2 u hus

/-! ## What each build step sets -/

namespace Options

theorem flag_ok {config : Entries} {name : String} {fallback : Bool} {v : Value}
    (h : flag config name fallback = .ok v) : ∃ b, v = .bool b := by
  simp only [flag, bind_eq_ok, pure_eq_ok] at h
  obtain ⟨b, -, rfl⟩ := h
  exact ⟨b, rfl⟩

theorem callableOption_ok {config : Entries} {name : String} {v : Value}
    (h : callableOption config name = .ok v) : ∃ f, v = optional .callable f := by
  unfold callableOption at h
  split at h
  · exact ⟨none, (Except.ok.inj h).symm⟩
  · exact ⟨some _, (Except.ok.inj h).symm⟩
  · simp [refuse] at h

theorem enumOption_ok {config : Entries} {v : Value} (h : enumOption config = .ok v) :
    ∃ enum, v = optional .tuple enum ∧
      ∀ items, enum = some items → ∃ listed, listed ≠ [] ∧ items = Value.dedupeStrict listed := by
  unfold enumOption at h
  split at h
  · exact ⟨none, (Except.ok.inj h).symm, fun _ hi => by cases hi⟩
  · split at h
    · rename_i first rest _
      refine ⟨some _, (Except.ok.inj h).symm, fun items hi => ?_⟩
      exact ⟨first :: rest, by simp, (Option.some.inj hi).symm⟩
    · simp [refuse] at h

theorem typed_ok {config : Entries} {attrs : Attributes} (h : typed config = .ok attrs)
    (demand : Demand) (required : Option Bool) :
    ∃ p : Plan, p.demand = demand ∧ p.required = required ∧ attrs = p.common ∧
      config.get? "type" = some p.type ∧ p.hasDefault = (config.get? "default").isSome ∧
      (p.hasDefault = false → p.default = .undefined) ∧
      ∀ items, p.enum = some items → ∃ listed, listed ≠ [] ∧ items = Value.dedupeStrict listed := by
  simp only [typed, bind_eq_ok] at h
  obtain ⟨_, henum, _, htransform, _, hvalidator, h⟩ := h
  obtain ⟨enum, rfl, hlisted⟩ := enumOption_ok henum
  obtain ⟨transform, rfl⟩ := callableOption_ok htransform
  obtain ⟨validator, rfl⟩ := callableOption_ok hvalidator
  cases htype : config.get? "type" with
  | none => simp [htype] at h
  | some type =>
      simp only [htype] at h
      refine ⟨⟨config.getD "default" .undefined, enum, (config.get? "default").isSome, transform,
        type, validator, demand, required⟩, rfl, rfl, (Except.ok.inj h).symm, rfl, rfl, ?_, hlisted⟩
      intro hdefault
      simp only [Option.isSome_eq_false_iff, Option.isNone_iff_eq_none] at hdefault
      simp [Entries.getD, hdefault]

/-- A bound of a number is absent, or given and real. -/
theorem numberBound_cases {config : Entries} {name : String} {v : Value}
    (h : numberBound config name = .ok v) :
    config.get? name = none ∧ v = .none ∨ config.get? name = some v ∧ v.isReal = true := by
  unfold numberBound at h
  split at h
  · exact .inl ⟨‹_›, (Except.ok.inj h).symm⟩
  · split at h
    · obtain rfl := Except.ok.inj h
      exact .inr ⟨‹_›, ‹_›⟩
    · simp [refuse] at h

theorem numberBound_ok {config : Entries} {name : String} {v : Value}
    (h : numberBound config name = .ok v) :
    ∃ bound, v = optional id bound ∧ ∀ b, bound = some b → b.isReal = true := by
  rcases numberBound_cases h with ⟨-, rfl⟩ | ⟨-, hreal⟩
  · exact ⟨none, rfl, fun _ hb => by cases hb⟩
  · exact ⟨some v, rfl, fun b hb => Option.some.inj hb ▸ hreal⟩

/-- A bound of integers: what stands for one that is not given, or an integer that is
given and not below the lowest. -/
theorem bound_cases {config : Entries} {name : String} {expects : Expectation}
    {absent low v : Value}
    (h : (do
      match config.get? name with
      | none => return absent
      | some w =>
          if !w.isInteger then refuse name w expects
          else if ← Value.holds .lt w low then refuse name w expects
          else return w) = Except.ok v) :
    config.get? name = none ∧ v = absent ∨
      config.get? name = some v ∧ v.isInteger = true ∧ v.holds .lt low = .ok false := by
  cases hget : config.get? name with
  | none =>
      rw [hget] at h
      exact .inl ⟨rfl, (Except.ok.inj h).symm⟩
  | some w =>
      rw [hget] at h
      cases hint : w.isInteger with
      | false => simp [hint, refuse] at h
      | true =>
          simp only [hint, Bool.not_true, Bool.false_eq_true, if_false, bind_eq_ok, lift_eq_ok] at h
          obtain ⟨below, hbelow, h⟩ := h
          cases below with
          | true => simp [refuse] at h
          | false =>
              obtain rfl := Except.ok.inj h
              exact .inr ⟨rfl, hint, hbelow⟩

/-- A lower bound is zero, or given and not below that. -/
theorem lowerBound_cases {config : Entries} {name : String} {expects : Expectation} {v : Value}
    (h : lowerBound config name expects = .ok v) :
    config.get? name = none ∧ v = .int 0 ∨
      config.get? name = some v ∧ v.isInteger = true ∧ v.holds .lt (.int 0) = .ok false :=
  bound_cases h

/-- An upper bound is absent, or given and not below the lower one. -/
theorem upperBound_cases {config : Entries} {name : String} {expects : Expectation} {low v : Value}
    (h : upperBound config name expects low = .ok v) :
    config.get? name = none ∧ v = .none ∨
      config.get? name = some v ∧ v.isInteger = true ∧ v.holds .lt low = .ok false :=
  bound_cases h

theorem lowerBound_ok {config : Entries} {name : String} {expects : Expectation} {v : Value}
    (h : lowerBound config name expects = .ok v) : v.isInteger = true := by
  rcases lowerBound_cases h with ⟨-, rfl⟩ | ⟨-, hint, -⟩
  · rfl
  · exact hint

theorem upperBound_ok {config : Entries} {name : String} {expects : Expectation} {low v : Value}
    (h : upperBound config name expects low = .ok v) :
    ∃ bound, v = optional id bound ∧ ∀ b, bound = some b → b.isInteger = true := by
  rcases upperBound_cases h with ⟨-, rfl⟩ | ⟨-, hint, -⟩
  · exact ⟨none, rfl, fun _ hb => by cases hb⟩
  · exact ⟨some v, rfl, fun b hb => Option.some.inj hb ▸ hint⟩

theorem none_or_of_optional {P : Value → Prop} {v : Value}
    (h : ∃ bound, v = optional id bound ∧ ∀ b, bound = some b → P b) : v = .none ∨ P v := by
  obtain ⟨bound, rfl, hbound⟩ := h
  cases bound with
  | none => exact .inl rfl
  | some b => exact .inr (hbound b rfl)

theorem wholeBound_integer {v w : Value} (hv : v.isInteger = true) (h : wholeBound v = .ok w) :
    ∃ n, w = .int n := by
  unfold wholeBound at h
  split at h
  · simp [Value.isInteger] at hv
  · simp only [bind_eq_ok, pure_eq_ok] at h
    obtain ⟨n, -, rfl⟩ := h
    exact ⟨n, rfl⟩

theorem wholeBound_optional {bound : Option Value} {w : Value}
    (hb : ∀ b, bound = some b → b.isInteger = true) (h : wholeBound (optional id bound) = .ok w) :
    ∃ most, w = optional .int most := by
  cases bound with
  | none => exact ⟨none, (Except.ok.inj h).symm⟩
  | some b =>
      obtain ⟨n, rfl⟩ := wholeBound_integer (hb b rfl) h
      exact ⟨some n, rfl⟩

/-- A pattern is absent, or given and compiled. -/
theorem patternOption_cases {config : Entries} {v : Value} (h : patternOption config = .ok v) :
    config.get? "pattern" = none ∧ v = .none ∨
      config.get? "pattern" = some v ∧ ∃ r, v = .pattern r := by
  unfold patternOption at h
  split at h
  · exact .inl ⟨‹_›, (Except.ok.inj h).symm⟩
  · obtain rfl := Except.ok.inj h
    exact .inr ⟨‹_›, _, rfl⟩
  · simp [refuse] at h

theorem patternOption_ok {config : Entries} {v : Value} (h : patternOption config = .ok v) :
    ∃ pattern, v = optional .pattern pattern := by
  rcases patternOption_cases h with ⟨-, rfl⟩ | ⟨-, r, rfl⟩
  · exact ⟨none, rfl⟩
  · exact ⟨some r, rfl⟩

/-- What a build step of a kind below the root sets. -/
def Demanded (kind : Kind) (attrs : Attributes) : Prop :=
  ∃ d : Demand, d.kind = kind ∧ attrs = d.attributes ∧ d.Proper ∧ ∀ t ∈ d.parts, t.Compiled

variable {f : Factory} {config : Entries} {attrs : Attributes}

theorem number_ok (h : number config = .ok attrs) : Demanded .number attrs := by
  simp only [number, bind_eq_ok, lift_eq_ok, pure_eq_ok] at h
  obtain ⟨_, hmost, _, hleast, _, -, _, hmax, _, hmin, _, hint, rfl⟩ := h
  obtain ⟨most, rfl, hmost'⟩ := numberBound_ok hmost
  obtain ⟨least, rfl, hleast'⟩ := numberBound_ok hleast
  obtain ⟨exclusiveMax, rfl⟩ := flag_ok hmax
  obtain ⟨exclusiveMin, rfl⟩ := flag_ok hmin
  obtain ⟨integer, rfl⟩ := flag_ok hint
  exact ⟨.number exclusiveMax exclusiveMin integer most least, rfl, rfl, ⟨hmost', hleast'⟩,
    List.forall_mem_nil _⟩

theorem string_ok (h : string config = .ok attrs) : Demanded .string attrs := by
  simp only [string, bind_eq_ok, lift_eq_ok, pure_eq_ok] at h
  obtain ⟨low, hlow, _, hhigh, _, hpattern, _, hmost, _, hleast, rfl⟩ := h
  obtain ⟨high, rfl, hhigh'⟩ := upperBound_ok hhigh
  obtain ⟨pattern, rfl⟩ := patternOption_ok hpattern
  obtain ⟨most, rfl⟩ := wholeBound_optional hhigh' hmost
  obtain ⟨least, rfl⟩ := wholeBound_integer (lowerBound_ok hlow) hleast
  exact ⟨.string most least pattern, rfl, rfl, trivial, List.forall_mem_nil _⟩

theorem function_ok (h : function config = .ok attrs) : Demanded .function attrs := by
  simp only [function, bind_eq_ok, lift_eq_ok, pure_eq_ok] at h
  obtain ⟨least, hlow, _, hhigh, _, hnamed, rfl⟩ := h
  obtain ⟨most, rfl, hmost⟩ := upperBound_ok hhigh
  obtain ⟨named, rfl⟩ := flag_ok hnamed
  exact ⟨.function most least named, rfl, rfl, ⟨hmost, lowerBound_ok hlow⟩,
    List.forall_mem_nil _⟩

/-- The schema of the parts is absent, or what the compiler gives. -/
theorem partSchema_ok {compile : Value → Build Schema} {generic v : Value}
    (h : (partSchema compile generic).result = .ok v) :
    ∃ item, v = optional .schema item ∧
      ∀ t, item = some t → generic.isNone = false ∧ (compile generic).result = .ok t := by
  unfold partSchema at h
  split at h
  · exact ⟨none, (Except.ok.inj h).symm, fun _ hi => by cases hi⟩
  · rename_i hnone
    simp only [Build.result_bind, bind_eq_ok] at h
    obtain ⟨t, ht, h⟩ := h
    refine ⟨some t, (Except.ok.inj h).symm, fun u hu => ?_⟩
    exact Option.some.inj hu ▸ ⟨by simpa using hnone, ht⟩

/-- The configurations that the parts of a demand come from. -/
def Reads (f : Factory) (config : Entries) : Demand → Prop
  | .array _ _ item unique =>
      ∃ generic, schemaOption config = .ok generic ∧
        flag config "unique_items" false = .ok (.bool unique) ∧
        (partSchema (f · .none) generic).result = .ok (optional .schema item)
  | .object _ _ props item =>
      ∃ declared generic, propertiesOption config = .ok declared ∧
        schemaOption config = .ok generic ∧
        List.Forall₂ (fun e e' => e.1 = e'.1 ∧
          (property f generic e.1 e.2).result = .ok (.schema e'.2)) declared props ∧
        (partSchema (compileMerged f (.str "schema") .none) generic).result
          = .ok (optional .schema item)
  | .oneOf variants =>
      ∃ v listed, config.get? "one_of" = some v ∧ v.listed? = some listed ∧
        listed.all Value.isDict = true ∧
        List.Forall₂ (fun w t => (f w .none).result = .ok t) listed variants
  | _ => True

theorem array_reads (h : (array f config).result = .ok attrs) :
    ∃ most least item unique, attrs = (Demand.array most least item unique).attributes ∧
      Reads f config (.array most least item unique) := by
  simp only [array, Build.result_bind, Build.result_lift, Build.result_lift_fault,
    Build.result_pure, bind_eq_ok, lift_eq_ok] at h
  obtain ⟨low, hlow, _, hhigh, generic, hgeneric, _, hschema, _, hmost, _, hleast, _, hunique, h⟩ :=
    h
  obtain rfl := Except.ok.inj h
  obtain ⟨high, rfl, hhigh'⟩ := upperBound_ok hhigh
  obtain ⟨item, rfl, -⟩ := partSchema_ok hschema
  obtain ⟨most, rfl⟩ := wholeBound_optional hhigh' hmost
  obtain ⟨least, rfl⟩ := wholeBound_integer (lowerBound_ok hlow) hleast
  obtain ⟨unique, rfl⟩ := flag_ok hunique
  exact ⟨most, least, item, unique, rfl, generic, hgeneric, hunique, hschema⟩

theorem property_ok {generic key v w : Value} (h : (property f generic key v).result = .ok w) :
    ∃ t, w = .schema t ∧ (propertyConfig v).isConfiguration = true ∧
      (compileMerged f key generic (propertyConfig v)).result = .ok t := by
  unfold property at h
  split at h
  · rename_i hconf
    simp only [Build.result_bind, Build.result_pure, bind_eq_ok] at h
    obtain ⟨t, ht, h⟩ := h
    exact ⟨t, (Except.ok.inj h).symm, hconf, ht⟩
  · simp at h

theorem properties_reads {generic : Value} :
    ∀ {declared compiled : Entries}, (properties f generic declared).result = .ok compiled →
      ∃ props : List (Value × Schema), compiled = Demand.entries props ∧
        List.Forall₂ (fun e e' => e.1 = e'.1 ∧
          (property f generic e.1 e.2).result = .ok (.schema e'.2)) declared props
  | [], compiled, h => ⟨[], (Except.ok.inj h).symm, .nil⟩
  | (key, v) :: rest, compiled, h => by
      simp only [properties, Build.result_bind, Build.result_pure, bind_eq_ok] at h
      obtain ⟨w, hw, others, hothers, h⟩ := h
      obtain rfl := Except.ok.inj h
      obtain ⟨props, rfl, hprops⟩ := properties_reads hothers
      obtain ⟨t, rfl, -, -⟩ := property_ok hw
      exact ⟨(key, t) :: props, rfl, .cons ⟨rfl, hw⟩ hprops⟩

theorem object_reads (h : (object f config).result = .ok attrs) :
    ∃ allowNull clean props item, attrs = (Demand.object allowNull clean props item).attributes ∧
      Reads f config (.object allowNull clean props item) := by
  simp only [object, Build.result_bind, Build.result_lift, Build.result_lift_fault,
    Build.result_pure, bind_eq_ok, lift_eq_ok] at h
  obtain ⟨declared, hdeclared, generic, hgeneric, compiled, hcompiled, _, hnull, _, hclean, _,
    hschema, h⟩ := h
  obtain rfl := Except.ok.inj h
  obtain ⟨props, rfl, hprops⟩ := properties_reads hcompiled
  obtain ⟨allowNull, rfl⟩ := flag_ok hnull
  obtain ⟨clean, rfl⟩ := flag_ok hclean
  obtain ⟨item, rfl, -⟩ := partSchema_ok hschema
  exact ⟨allowNull, clean, props, item, rfl, declared, generic, hdeclared, hgeneric, hprops, hschema⟩

theorem oneOf_reads (h : (oneOf f config).result = .ok attrs) :
    ∃ variants, attrs = (Demand.oneOf variants).attributes ∧ Reads f config (.oneOf variants) := by
  unfold oneOf at h
  split at h
  · simp at h
  · rename_i v hv
    split at h
    · rename_i listed hlisted
      split at h
      · simp at h
      · rename_i hdicts
        simp only [Build.result_bind, Build.result_mapM, Build.result_pure, bind_eq_ok,
          mapM_eq_ok] at h
        obtain ⟨schemas, hschemas, h⟩ := h
        obtain rfl := Except.ok.inj h
        exact ⟨schemas, rfl, v, listed, hv, hlisted, by simpa using hdicts, hschemas⟩
    · simp at h

/-- What the parts of a demand were compiled from makes them compiled. -/
theorem Reads.parts (hf : f.Compiles) {d : Demand} (h : Reads f config d) :
    ∀ t ∈ d.parts, t.Compiled := by
  cases d with
  | array most least item unique =>
      obtain ⟨generic, -, -, hitem⟩ := h
      obtain ⟨item', heq, hitem'⟩ := partSchema_ok hitem
      intro t ht
      obtain rfl : item = some t := Option.mem_toList.mp ht
      cases item' with
      | none => cases heq
      | some u =>
          obtain rfl := Value.schema.inj heq
          exact hf.plain (hitem' t rfl).2
  | object allowNull clean props item =>
      obtain ⟨declared, generic, -, hgeneric, hprops, hitem⟩ := h
      obtain ⟨hg, -⟩ := schemaOption_ok hgeneric
      obtain ⟨item', heq, hitem'⟩ := partSchema_ok hitem
      intro t ht
      rcases List.mem_append.mp ht with ht | ht
      · obtain ⟨e', he', rfl⟩ := List.mem_map.mp ht
        obtain ⟨e, -, -, hproperty⟩ := forall₂_mem_right hprops he'
        obtain ⟨t, hw, hconf, hmerged⟩ := property_ok hproperty
        obtain rfl := Value.schema.inj hw
        exact (compileMerged_ok hf hg (.inr hconf) hmerged).1
      · obtain rfl : item = some t := Option.mem_toList.mp ht
        cases item' with
        | none => cases heq
        | some u =>
            obtain rfl := Value.schema.inj heq
            exact (compileMerged_ok hf (.inl rfl) hg (hitem' t rfl).2).1
  | oneOf variants =>
      obtain ⟨v, listed, -, -, -, hvariants⟩ := h
      intro t ht
      obtain ⟨w, -, hw⟩ := forall₂_mem_right hvariants ht
      exact hf.plain hw
  | _ => exact List.forall_mem_nil _

/-- Properties are marked. -/
theorem Reads.marked (hf : f.Compiles) {allowNull clean : Bool} {props : List (Value × Schema)}
    {item : Option Schema} (h : Reads f config (.object allowNull clean props item)) :
    ∀ e ∈ props, e.2.IsMarked := by
  obtain ⟨declared, generic, -, hgeneric, hprops, -⟩ := h
  intro e' he'
  obtain ⟨e, -, -, hproperty⟩ := forall₂_mem_right hprops he'
  obtain ⟨t, hw, hconf, hmerged⟩ := property_ok hproperty
  obtain rfl := Value.schema.inj hw
  exact (compileMerged_ok hf (schemaOption_ok hgeneric).1 (.inr hconf) hmerged).2

/-- What the build step of a kind adds to the attributes of the root. -/
def own (f : Factory) (config : Entries) (k : Kind) : Outcome Attributes :=
  if k = .typed then .ok [] else (ofKind f config k).result

/-- The attributes of a kind are those of a demand, whose parts come from the
configurations inside. -/
theorem own_reads {k : Kind} (h : own f config k = .ok attrs) :
    ∃ d : Demand, d.kind = k ∧ attrs = d.attributes ∧ Reads f config d ∧
      (f.Compiles → d.Proper) := by
  by_cases hk : k = .typed
  · subst hk
    exact ⟨.typed, rfl, (Except.ok.inj h).symm, trivial, fun _ => trivial⟩
  · rw [own, if_neg hk] at h
    cases k with
    | typed => exact absurd rfl hk
    | array =>
        obtain ⟨most, least, item, unique, rfl, hreads⟩ := array_reads h
        exact ⟨_, rfl, rfl, hreads, fun _ => trivial⟩
    | object =>
        obtain ⟨allowNull, clean, props, item, rfl, hreads⟩ := object_reads h
        exact ⟨_, rfl, rfl, hreads, fun hf => hreads.marked hf⟩
    | oneOf =>
        obtain ⟨variants, rfl, hreads⟩ := oneOf_reads h
        exact ⟨_, rfl, rfl, hreads, fun _ => trivial⟩
    | boolean => exact ⟨.boolean, rfl, (Except.ok.inj h).symm, trivial, fun _ => trivial⟩
    | symbol => exact ⟨.symbol, rfl, (Except.ok.inj h).symm, trivial, fun _ => trivial⟩
    | number =>
        obtain ⟨d, hd, rfl, hproper, -⟩ := number_ok h
        cases d <;> cases hd
        exact ⟨_, rfl, rfl, trivial, fun _ => hproper⟩
    | string =>
        obtain ⟨d, hd, rfl, hproper, -⟩ := string_ok h
        cases d <;> cases hd
        exact ⟨_, rfl, rfl, trivial, fun _ => hproper⟩
    | function =>
        obtain ⟨d, hd, rfl, hproper, -⟩ := function_ok h
        cases d <;> cases hd
        exact ⟨_, rfl, rfl, trivial, fun _ => hproper⟩

end Options

end Conform
