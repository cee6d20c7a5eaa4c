/-
# `Proofs.Config.Nested` — the configurations inside a configuration

`HasPart` goes from a configuration to those that compiling it compiles next:
the listed ones, the one of the items, the alternatives, and for an object
the merged pairs of every property and of the generic configuration.
`Nested` is its closure, so "at any depth" can be said of a configuration
without compiling it.

Two facts carry properties of configurations over to schemas.  A
configuration that compiles has only parts that compile, and every schema
inside the result is what one of the nested dictionaries compiles to.
-/
import Mathlib.Logic.Relation
import Conform.Proofs.Config.Pairs
import Conform.Proofs.Schema.Inside

namespace Conform

/-! ## Parts of configurations -/

/-- The configuration that a container gives to its parts. -/
def Entries.generic (config : Entries) : Value := config.getD "schema" .none

namespace Value

/-- The second configuration is compiled next when the first is. -/
inductive HasPart : Value → Value → Prop
  | absent : HasPart .none (.dict [])
  | listed {c w : Value} {items : List Value} : c.listed? = some items → w ∈ items → HasPart c w
  | items {config : Entries} {generic : Value} : config.kind? = some .array →
      config.get? "schema" = some generic → HasPart (.dict config) generic
  | variant {config : Entries} {v w : Value} {variants : List Value} :
      config.kind? = some .oneOf → config.get? "one_of" = some v → v.listed? = some variants →
      w ∈ variants → HasPart (.dict config) w
  | property {config declared pair : Entries} {key v : Value} : config.kind? = some .object →
      config.get? "properties" = some (.dict declared) → (key, v) ∈ declared →
      pair ∈ config.generic.pairs (Options.propertyConfig v) →
      HasPart (.dict config) (.dict (pair.erase (.str "required")))
  | generic {config pair : Entries} {v : Value} : config.kind? = some .object →
      config.get? "schema" = some v → pair ∈ Value.none.pairs v →
      HasPart (.dict config) (.dict (pair.erase (.str "required")))

/-- The second configuration is inside the first, at any depth. -/
def Nested : Value → Value → Prop := Relation.ReflTransGen HasPart

theorem Nested.refl (c : Value) : c.Nested c := Relation.ReflTransGen.refl

theorem Nested.part {c w : Value} (h : c.HasPart w) : c.Nested w := .single h

theorem Nested.trans {c d e : Value} (h : c.Nested d) (h' : d.Nested e) : c.Nested e :=
  Relation.ReflTransGen.trans h h'

end Value

/-! ## What a dictionary that compiles was read as -/

/-- A plan that a dictionary was read as. -/
structure Plan.ReadFrom (p : Plan) (config : Entries) (required : Option Bool) : Prop where
  kind : config.kind? = some p.demand.kind
  required : p.required = required
  common : Options.typed (typedEntries config).1 = .ok p.common
  reads : Options.Reads (compile .builtin) (typedEntries config).1 p.demand
  proper : p.Proper
  parts : ∀ t ∈ p.demand.parts, t.Compiled

/-- A dictionary that compiles was read as a plan. -/
theorem plan_of_compile {config : Entries} {required : Option Bool} {s : Schema}
    (h : (compile .builtin (.dict config) (mark required)).result = .ok s) :
    ∃ (p : Plan) (hash : String), s = .single (p.toInstance hash) ∧ p.ReadFrom config required ∧
      p.attributes.hash = .ok hash := by
  obtain ⟨t, k, rfl, hkind, hread⟩ := compile_dict_ok.mp h
  obtain ⟨p, hash, rfl, rfl, hrequired, hcommon, hreads, -, hproper, hhash⟩ :=
    Options.readInstance_ok compiles_compile hkind hread
  exact ⟨p, hash, rfl,
    ⟨hkind, hrequired, hcommon, hreads, hproper, hreads.parts compiles_compile⟩, hhash⟩

/-! ## Merged pairs that compile -/

theorem compilesAlone_of_candidate {key : Value} {pair : Entries} {t : Schema}
    (h : (compileCandidate (compile .builtin) key (.dict pair)).result = .ok t) :
    ∃ s, t = .single s ∧ CompilesAlone pair s := by
  simp only [compileCandidate, splitRequired_eq, Build.result_bind, Build.result_lift_fault,
    bind_eq_ok, lift_eq_ok, pure_eq_ok] at h
  obtain ⟨_, ⟨b, hb, rfl⟩, schema, hschema, required, hrequired, h⟩ := h
  have hmark : (compile .builtin (.dict (pair.erase (.str "required"))) (mark (some b))).result
      = .ok schema := hschema
  obtain ⟨s, -, rfl, -, -⟩ := compile_dict_ok.mp hmark
  obtain ⟨-, hb', hdefault⟩ := flags_of_compile hschema
  have hget : (pair.erase (.str "required")).get? "default" = pair.get? "default" :=
    Entries.find?_erase_of_ne rfl
  rw [hget] at hdefault
  obtain rfl : b = required := Except.ok.inj (hb'.symm.trans hrequired)
  cases b with
  | false =>
      obtain rfl := Except.ok.inj h
      exact ⟨s, rfl, false, hb, hschema, fun hboth => Bool.false_ne_true hboth.1⟩
  | true =>
      simp only [if_true, Build.result_bind, Build.result_lift_fault, Schema.hasDefault, hdefault,
        lift_ok, ok_bind] at h
      split at h
      · cases h
      · rename_i hno
        obtain rfl := Except.ok.inj h
        exact ⟨s, rfl, true, hb, hschema, fun hboth => hno hboth.2⟩

/-- A part compiles exactly when each of its merged pairs does. -/
theorem compileMerged_ok_iff {key generic specific : Value} (hg : generic.IsPartOption)
    (hs : specific.IsPartOption) {u : Schema} :
    (compileMerged (compile .builtin) key generic specific).result = .ok u ↔
      ∃ ts, List.Forall₂ CompilesAlone (generic.pairs specific) ts ∧
        u = .collapse (ts.map .single) := by
  constructor
  · intro h
    rw [compileMerged_eq _ key hg hs, Value.mergeProducts_pairs hg hs] at h
    simp only [Build.result_bind, Build.result_lift_fault, lift_ok, ok_bind, Build.result_mapM,
      Build.result_pure, bind_eq_ok, mapM_eq_ok, List.forall₂_map_left_iff] at h
    obtain ⟨schemas, hschemas, h⟩ := h
    obtain rfl := Except.ok.inj h
    have each : ∀ (pairs : List Entries) (schemas : List Schema),
        List.Forall₂ (fun pair t =>
          (compileCandidate (compile .builtin) key (.dict pair)).result = .ok t) pairs schemas →
        ∃ ts, List.Forall₂ CompilesAlone pairs ts ∧ schemas = ts.map .single := by
      intro pairs schemas hall
      induction hall with
      | nil => exact ⟨[], .nil, rfl⟩
      | cons hpair _ ih =>
          obtain ⟨s, rfl, hs⟩ := compilesAlone_of_candidate hpair
          obtain ⟨ts, hts, rfl⟩ := ih
          exact ⟨s :: ts, .cons hs hts, rfl⟩
    obtain ⟨ts, hts, rfl⟩ := each _ _ hschemas
    exact ⟨ts, hts, rfl⟩
  · rintro ⟨ts, hts, rfl⟩
    exact compileMerged_pairs key hg hs hts

theorem mem_of_mem_collapse {ts : List Instance} {t : Instance}
    (h : t ∈ (Schema.collapse (ts.map .single)).members) : t ∈ ts := by
  rw [members_collapse_single] at h
  exact (dropRepeated_sublist _ _).subset h

/-! ## Reading the options of a container -/

/-- The configuration that a container gives to its parts, and the schema of
the parts: both are there, or none is. -/
theorem generic_cases {f : Value → Build Schema} {config : Entries} {generic : Value}
    {item : Option Schema} (hg : Options.schemaOption (typedEntries config).1 = .ok generic)
    (hi : (Options.partSchema f generic).result = .ok (optional .schema item)) :
    generic = config.generic ∧
      ((generic = .none ∧ config.get? "schema" = none ∧ item = none) ∨
        ∃ t, generic.isConfiguration = true ∧ config.get? "schema" = some generic ∧
          item = some t ∧ (f generic).result = .ok t) := by
  have hget := get?_typedEntries_of_ne config (by decide : "schema" ≠ "type")
  unfold Options.schemaOption at hg
  rw [hget] at hg
  unfold Entries.generic Entries.getD
  cases hv : config.get? "schema" with
  | none =>
      rw [hv] at hg
      obtain rfl := Except.ok.inj hg
      refine ⟨rfl, .inl ⟨rfl, rfl, ?_⟩⟩
      cases item with
      | none => rfl
      | some t => cases Except.ok.inj hi
  | some v =>
      rw [hv] at hg
      dsimp only at hg
      split at hg
      · rename_i hconf
        obtain rfl := Except.ok.inj hg
        have hnone : v.isNone = false := by
          cases v <;> first | rfl | cases hconf
        simp only [Options.partSchema, hnone, Bool.false_eq_true, if_false, Build.result_bind,
          Build.result_pure, bind_eq_ok] at hi
        obtain ⟨t, ht, hi⟩ := hi
        refine ⟨rfl, .inr ⟨t, hconf, rfl, ?_, ht⟩⟩
        cases item with
        | none => cases Except.ok.inj hi
        | some u =>
            obtain rfl := Value.schema.inj (Except.ok.inj hi)
            rfl
      · simp [Options.refuse] at hg

/-- The configurations of the declared properties of an object. -/
def Entries.declared (config : Entries) : Entries :=
  match config.get? "properties" with
  | some (.dict entries) => entries
  | _ => []

theorem declared_of_get? {config declared : Entries}
    (h : config.get? "properties" = some (.dict declared)) : config.declared = declared := by
  simp only [Entries.declared, h]

theorem get?_of_mem_declared {config : Entries} {e : Value × Value} (h : e ∈ config.declared) :
    config.get? "properties" = some (.dict config.declared) := by
  unfold Entries.declared at h ⊢
  split at h
  · rename_i hget
    rw [hget]
  · cases h

theorem propertiesOption_eq {config declared : Entries}
    (h : Options.propertiesOption (typedEntries config).1 = .ok declared) :
    declared = config.declared := by
  unfold Options.propertiesOption at h
  rw [get?_typedEntries_of_ne config (by decide)] at h
  unfold Entries.declared
  split at h
  · rename_i hv
    rw [hv, ← Except.ok.inj h]
  · rename_i entries hv
    rw [hv, ← Except.ok.inj h]
  · simp [Options.refuse] at h

namespace Plan.ReadFrom

variable {p : Plan} {config : Entries} {required : Option Bool}

theorem array (h : p.ReadFrom config required) (hkind : config.kind? = some .array) :
    ∃ most least item unique, p.demand = .array most least item unique ∧
      (config.getD "unique_items" (.bool false)).truthy = .ok unique ∧
      ((config.get? "schema" = none ∧ item = none) ∨
        ∃ t, config.get? "schema" = some config.generic ∧ item = some t ∧
          (compile .builtin config.generic .none).result = .ok t) := by
  have hk : p.demand.kind = .array := Option.some.inj (h.kind.symm.trans hkind)
  have hreads := h.reads
  cases hd : p.demand with
  | array most least item unique =>
      rw [hd] at hreads
      obtain ⟨generic, hgeneric, hunique, hitem⟩ := hreads
      refine ⟨most, least, item, unique, rfl, ?_, ?_⟩
      · simp only [Options.flag, Entries.getD,
          get?_typedEntries_of_ne config (by decide : "unique_items" ≠ "type"), bind_eq_ok,
          pure_eq_ok, Value.bool.injEq] at hunique
        obtain ⟨b, hb, rfl⟩ := hunique
        exact hb
      · obtain ⟨rfl, ⟨-, hget, rfl⟩ | ⟨t, -, hget, rfl, ht⟩⟩ := generic_cases hgeneric hitem
        · exact .inl ⟨hget, rfl⟩
        · exact .inr ⟨t, hget, rfl, ht⟩
  | _ => rw [hd] at hk; cases hk

theorem oneOf (h : p.ReadFrom config required) (hkind : config.kind? = some .oneOf) :
    ∃ variants v listed, p.demand = .oneOf variants ∧ config.get? "one_of" = some v ∧
      v.listed? = some listed ∧
      List.Forall₂ (fun w t => (compile .builtin w .none).result = .ok t) listed variants := by
  have hk : p.demand.kind = .oneOf := Option.some.inj (h.kind.symm.trans hkind)
  have hreads := h.reads
  cases hd : p.demand with
  | oneOf variants =>
      rw [hd] at hreads
      obtain ⟨v, listed, hget, hlisted, -, hvariants⟩ := hreads
      rw [get?_typedEntries_of_ne config (by decide)] at hget
      exact ⟨variants, v, listed, rfl, hget, hlisted, hvariants⟩
  | _ => rw [hd] at hk; cases hk

theorem object (h : p.ReadFrom config required) (hkind : config.kind? = some .object) :
    ∃ allowNull clean props item, p.demand = .object allowNull clean props item ∧
      config.generic.IsPartOption ∧
      List.Forall₂ (fun e e' => e.1 = e'.1 ∧
          (Options.propertyConfig e.2).isConfiguration = true ∧
          ∃ ts, List.Forall₂ CompilesAlone
              (config.generic.pairs (Options.propertyConfig e.2)) ts ∧
            e'.2 = .collapse (ts.map .single))
        config.declared props ∧
      ((config.get? "schema" = none ∧ item = none) ∨
        ∃ ts, config.get? "schema" = some config.generic ∧
          List.Forall₂ CompilesAlone (Value.none.pairs config.generic) ts ∧
          item = some (.collapse (ts.map .single))) := by
  have hk : p.demand.kind = .object := Option.some.inj (h.kind.symm.trans hkind)
  have hreads := h.reads
  cases hd : p.demand with
  | object allowNull clean props item =>
      rw [hd] at hreads
      obtain ⟨declared, generic, hdeclared, hgeneric, hprops, hitem⟩ := hreads
      have hpart : generic.IsPartOption := (Options.schemaOption_ok hgeneric).1
      obtain rfl := propertiesOption_eq hdeclared
      obtain ⟨rfl, hcases⟩ := generic_cases hgeneric hitem
      refine ⟨allowNull, clean, props, item, rfl, hpart, hprops.imp ?_, ?_⟩
      · rintro e e' ⟨hkey, hproperty⟩
        obtain ⟨u, hu, hconf, hmerged⟩ := Options.property_ok hproperty
        obtain rfl := Value.schema.inj hu
        exact ⟨hkey, hconf, (compileMerged_ok_iff hpart (.inr hconf)).mp hmerged⟩
      · rcases hcases with ⟨-, hget, rfl⟩ | ⟨t, -, hget, rfl, ht⟩
        · exact .inl ⟨hget, rfl⟩
        · obtain ⟨ts, hts, rfl⟩ := (compileMerged_ok_iff (.inl rfl) hpart).mp ht
          exact .inr ⟨ts, hget, hts, rfl⟩
  | _ => rw [hd] at hk; cases hk

end Plan.ReadFrom

/-! ## Parts of what compiles, compile -/

/-- A configuration that compiles, marked perhaps by a container. -/
def Compilable (c : Value) : Prop :=
  ∃ required s, (c.listed?.isSome = true → required = none) ∧
    (compile .builtin c (mark required)).result = .ok s

/-- What is compiled on its own is a dictionary, or none stands for an empty one. -/
theorem dict_of_compileSingle {f : Factory} {c additional : Value} {t : Instance}
    (h : (compileSingle f .builtin c additional).result = .ok t) :
    c.listed? = none ∧ ∃ config : Entries, c.Nested (.dict config) ∧
      (compileSingle f .builtin (.dict config) additional).result = .ok t := by
  rcases compileSingle_cases c with rfl | ⟨config, rfl⟩ | ⟨e, he⟩
  · exact ⟨rfl, [], .part .absent, h⟩
  · exact ⟨rfl, config, .refl _, h⟩
  · cases (he f additional).symm.trans h

theorem compile_of_single {c : Value} {required : Option Bool} {t : Instance}
    (h : (compileSingle (compile .builtin) .builtin c (mark required)).result = .ok t) :
    (compile .builtin c (mark required)).result = .ok (.single t) := by
  rw [compile_eq, compileWith_unlisted _ (dict_of_compileSingle h).1, h]
  rfl

theorem compile_listed_ok {c : Value} {items : List Value} {s : Schema}
    (hlisted : c.listed? = some items) (h : (compile .builtin c .none).result = .ok s) :
    ∃ ts, List.Forall₂ (fun w t =>
        (compileSingle (compile .builtin) .builtin w (mark none)).result = .ok t) items ts ∧
      s = .ofAlternatives (ts.map .single) := by
  rw [compile_eq, compileWith_listed _ hlisted, map_eq_ok] at h
  obtain ⟨ts, hts, rfl⟩ := h
  exact ⟨ts, mapM_eq_ok.mp hts, rfl⟩

theorem Compilable.of_single {c : Value} {required : Option Bool} {t : Instance}
    (h : (compileSingle (compile .builtin) .builtin c (mark required)).result = .ok t) :
    Compilable c := by
  refine ⟨required, .single t, fun hsome => ?_, compile_of_single h⟩
  rw [(dict_of_compileSingle h).1] at hsome
  cases hsome

theorem Compilable.of_compile {c : Value} {s : Schema}
    (h : (compile .builtin c .none).result = .ok s) : Compilable c :=
  ⟨none, s, fun _ => rfl, h⟩

theorem Compilable.of_pair {pair : Entries} {t : Instance} (h : CompilesAlone pair t) :
    Compilable (.dict (pair.erase (.str "required"))) := by
  obtain ⟨b, -, hcompile, -⟩ := h
  exact ⟨some b, _, nofun, hcompile⟩

/-- A dictionary that compiles has been read. -/
theorem Compilable.plan {config : Entries} (h : Compilable (.dict config)) :
    ∃ p required, Plan.ReadFrom p config required := by
  obtain ⟨required, s, -, hs⟩ := h
  obtain ⟨p, -, -, hread, -⟩ := plan_of_compile hs
  exact ⟨p, required, hread⟩

theorem Compilable.part {c w : Value} (h : Compilable c) (hpart : c.HasPart w) : Compilable w := by
  cases hpart with
  | absent =>
      obtain ⟨required, s, hmark, hs⟩ := h
      rw [compile_eq, compileWith_unlisted _ rfl, map_eq_ok] at hs
      obtain ⟨t, ht, -⟩ := hs
      exact .of_single (c := .dict []) ht
  | listed hlisted hw =>
      obtain ⟨required, s, hmark, hs⟩ := h
      obtain rfl := hmark (by rw [hlisted]; rfl)
      obtain ⟨ts, hts, -⟩ := compile_listed_ok hlisted hs
      obtain ⟨t, -, ht⟩ := forall₂_mem_left hts hw
      exact .of_single ht
  | items hkind hget =>
      obtain ⟨p, required, hread⟩ := h.plan
      obtain ⟨-, -, -, -, -, -, ⟨hnone, -⟩ | ⟨t, hsome, -, ht⟩⟩ := hread.array hkind
      · cases hget.symm.trans hnone
      · obtain rfl := Option.some.inj (hget.symm.trans hsome)
        exact .of_compile ht
  | variant hkind hget hlisted hw =>
      obtain ⟨p, required, hread⟩ := h.plan
      obtain ⟨variants, v, listed, -, hget', hlisted', hvariants⟩ := hread.oneOf hkind
      obtain rfl := Option.some.inj (hget.symm.trans hget')
      obtain rfl := Option.some.inj (hlisted.symm.trans hlisted')
      obtain ⟨t, -, ht⟩ := forall₂_mem_left hvariants hw
      exact .of_compile ht
  | property hkind hget hmem hpair =>
      obtain ⟨p, required, hread⟩ := h.plan
      obtain ⟨_, _, _, _, -, -, hprops, -⟩ := hread.object hkind
      obtain ⟨e', -, -, -, ts, hts, -⟩ := forall₂_mem_left hprops (declared_of_get? hget ▸ hmem)
      obtain ⟨t, -, ht⟩ := forall₂_mem_left hts hpair
      exact .of_pair ht
  | generic hkind hget hpair =>
      obtain ⟨p, required, hread⟩ := h.plan
      obtain ⟨-, -, -, -, -, -, -, ⟨hnone, -⟩ | ⟨ts, hsome, hts, -⟩⟩ := hread.object hkind
      · cases hget.symm.trans hnone
      · obtain rfl := Option.some.inj (hget.symm.trans hsome)
        obtain ⟨t, -, ht⟩ := forall₂_mem_left hts hpair
        exact .of_pair ht

theorem Compilable.nested {c w : Value} (h : Compilable c) (hw : c.Nested w) : Compilable w := by
  induction hw with
  | refl => exact h
  | tail _ hpart ih => exact ih.part hpart

/-! ## What is inside a schema, is compiled from inside -/

/-- A schema that one of the dictionaries inside a configuration compiles to. -/
def Value.Makes (c : Value) (t : Instance) : Prop :=
  ∃ config required, c.Nested (.dict config) ∧
    (compile .builtin (.dict config) (mark required)).result = .ok (.single t)

theorem Value.Makes.mono {c w : Value} {t : Instance} (h : w.Makes t) (hw : c.Nested w) :
    c.Makes t := by
  obtain ⟨config, required, hnested, hcompile⟩ := h
  exact ⟨config, required, hw.trans hnested, hcompile⟩

theorem makes_of_single {c : Value} {required : Option Bool} {t : Instance}
    (h : (compileSingle (compile .builtin) .builtin c (mark required)).result = .ok t) :
    c.Makes t := by
  obtain ⟨-, config, hnested, hsingle⟩ := dict_of_compileSingle h
  exact ⟨config, required, hnested, compile_of_single hsingle⟩

theorem makes_of_pair {pair : Entries} {t : Instance} (h : CompilesAlone pair t) :
    (Value.dict (pair.erase (.str "required"))).Makes t := by
  obtain ⟨b, -, hcompile, -⟩ := h
  exact ⟨_, some b, .refl _, hcompile⟩

/-- Each member comes from the configuration, or from one of those that it lists. -/
theorem single_of_member {c : Value} {s : Schema} (h : (compile .builtin c .none).result = .ok s)
    {t : Instance} (ht : t ∈ s.members) : ∃ w ∈ c.listed?.getD [c],
      (compileSingle (compile .builtin) .builtin w (mark none)).result = .ok t := by
  cases hlisted : c.listed? with
  | some items =>
      obtain ⟨ts, hts, rfl⟩ := compile_listed_ok hlisted h
      rw [ofAlternatives_single] at ht
      obtain ⟨w, hw, hsingle⟩ := forall₂_mem_right hts ((dropRepeated_sublist _ _).subset ht)
      exact ⟨w, hw, hsingle⟩
  | none =>
      rw [compile_eq] at h
      rw [show Value.none = mark none from rfl, compileWith_unlisted _ hlisted, map_eq_ok] at h
      obtain ⟨u, hu, rfl⟩ := h
      obtain rfl := List.mem_singleton.mp ht
      exact ⟨c, List.mem_singleton.mpr rfl, hu⟩

/-- The members of what a configuration compiles to. -/
theorem makes_members {c : Value} {s : Schema} (h : (compile .builtin c .none).result = .ok s) :
    ∀ t ∈ s.members, c.Makes t := by
  intro t ht
  obtain ⟨w, hw, hsingle⟩ := single_of_member h ht
  obtain rfl | ⟨items, hlisted, hw⟩ := Value.eq_or_mem_listed hw
  · exact makes_of_single hsingle
  · exact (makes_of_single hsingle).mono (.part (.listed hlisted hw))

/-- What a dictionary makes of its items, of a variant, of a property, or of the
configuration that all properties share. -/
inductive Entries.MakesPart (config : Entries) : Schema → Prop
  | items {u : Schema} : config.kind? = some .array →
      config.get? "schema" = some config.generic →
      (compile .builtin config.generic .none).result = .ok u → MakesPart config u
  | variant {u : Schema} {v w : Value} {variants : List Value} : config.kind? = some .oneOf →
      config.get? "one_of" = some v → v.listed? = some variants → w ∈ variants →
      (compile .builtin w .none).result = .ok u → MakesPart config u
  | property {e : Value × Value} {ts : List Instance} : config.kind? = some .object →
      e ∈ config.declared →
      List.Forall₂ CompilesAlone (config.generic.pairs (Options.propertyConfig e.2)) ts →
      MakesPart config (.collapse (ts.map .single))
  | generic {ts : List Instance} : config.kind? = some .object →
      config.get? "schema" = some config.generic →
      List.Forall₂ CompilesAlone (Value.none.pairs config.generic) ts →
      MakesPart config (.collapse (ts.map .single))

/-- A plan that was read has no other parts. -/
theorem Plan.ReadFrom.makesPart {p : Plan} {config : Entries} {required : Option Bool} {u : Schema}
    (h : p.ReadFrom config required) (hu : u ∈ p.demand.parts) : config.MakesPart u := by
  have hkind : ∀ k, p.demand.kind = k → config.kind? = some k := fun _ hk => hk ▸ h.kind
  cases hd : p.demand with
  | array =>
      have harray := hkind .array (by rw [hd]; rfl)
      obtain ⟨most, least, item, unique, heq, -, hitem⟩ := h.array harray
      rw [heq] at hu
      obtain rfl : item = some u := Option.mem_toList.mp hu
      obtain ⟨-, hnone⟩ | ⟨t, hget, hsome, hcompile⟩ := hitem
      · cases hnone
      · exact .items harray hget (Option.some.inj hsome ▸ hcompile)
  | oneOf =>
      have hchoice := hkind .oneOf (by rw [hd]; rfl)
      obtain ⟨variants, v, listed, heq, hget, hlisted, hvariants⟩ := h.oneOf hchoice
      rw [heq] at hu
      obtain ⟨w, hw, hcompile⟩ := forall₂_mem_right hvariants hu
      exact .variant hchoice hget hlisted hw hcompile
  | object =>
      have hobject := hkind .object (by rw [hd]; rfl)
      obtain ⟨allowNull, clean, props, item, heq, -, hprops, hitem⟩ := h.object hobject
      rw [heq] at hu
      rcases List.mem_append.mp hu with hu | hu
      · obtain ⟨e', he', rfl⟩ := List.mem_map.mp hu
        obtain ⟨e, he, -, -, ts, hts, hcollapse⟩ := forall₂_mem_right hprops he'
        exact hcollapse ▸ .property hobject he hts
      · obtain rfl : item = some u := Option.mem_toList.mp hu
        obtain ⟨-, hnone⟩ | ⟨ts, hget, hts, hsome⟩ := hitem
        · cases hnone
        · exact Option.some.inj hsome ▸ .generic hobject hget hts
  | _ => rw [hd] at hu; cases hu

/-- The members of a part of a schema. -/
theorem makes_parts {p : Plan} {config : Entries} {required : Option Bool}
    (h : p.ReadFrom config required) :
    ∀ u ∈ p.demand.parts, ∀ t ∈ u.members, (Value.dict config).Makes t := by
  intro u hu t ht
  cases h.makesPart hu with
  | items hkind hget hcompile =>
      exact (makes_members hcompile t ht).mono (.part (.items hkind hget))
  | variant hkind hget hlisted hw hcompile =>
      exact (makes_members hcompile t ht).mono (.part (.variant hkind hget hlisted hw))
  | property hkind he hts =>
      obtain ⟨pair, hpair, hcompile⟩ := forall₂_mem_right hts (mem_of_mem_collapse ht)
      exact (makes_of_pair hcompile).mono
        (.part (.property hkind (get?_of_mem_declared he) he hpair))
  | generic hkind hget hts =>
      obtain ⟨pair, hpair, hcompile⟩ := forall₂_mem_right hts (mem_of_mem_collapse ht)
      exact (makes_of_pair hcompile).mono (.part (.generic hkind hget hpair))

/-- Every schema inside what a configuration compiles to, compiles from a
dictionary inside it. -/
theorem makes_inside {c : Value} {s u : Schema} (h : (compile .builtin c .none).result = .ok s)
    (hu : s.Inside u) : ∀ t ∈ u.members, c.Makes t := by
  induction hu with
  | self => exact makes_members h
  | @part t u _ hpart ih =>
      obtain ⟨config, required, hnested, hcompile⟩ := ih t (List.mem_singleton.mpr rfl)
      obtain ⟨p, hash, heq, hread, -⟩ := plan_of_compile hcompile
      obtain rfl := Schema.single.inj heq
      rw [p.parts_toInstance hash] at hpart
      exact fun m hm => (makes_parts hread u hpart m hm).mono hnested
  | member _ ht ih =>
      intro m hm
      obtain rfl := List.mem_singleton.mp hm
      exact ih m ht

end Conform
