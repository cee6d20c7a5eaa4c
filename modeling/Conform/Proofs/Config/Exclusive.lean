/-
# `Proofs.Config.Exclusive` — a part is not both required and given a default

Whether a part is required is lifted out of each merged pair, and whether it
has a default is read off the same pair, so the check is made once for every
pair.  It carries over to the schema of the part, although that one is
required when all of its members are and has a default when one of them has:
a member with a default would be required as well.

In the other direction, one pair with both options anywhere inside is enough
for the whole configuration not to compile, because every part of what
compiles, compiles.  With what it fails depends on what is compiled before:
`compileOptional` fails in the same way, unless it is the refusal.
-/
import Conform.Proofs.Config.Waived
import Conform.Proofs.Value.Everywhere

namespace Conform

/-! ## Schemas that are not both -/

/-- The schema says whether it is required and whether it has a default, and
does not say both. -/
def Schema.Exclusive (u : Schema) : Prop :=
  ∃ r d, u.required = .ok r ∧ u.hasDefault = .ok d ∧ ¬ (r = true ∧ d = true)

theorem CompilesAlone.exclusive {pair : Entries} {t : Instance} (h : CompilesAlone pair t) :
    (Schema.single t).Exclusive := by
  obtain ⟨b, hb, hrequired, hdefault⟩ := h.flags
  obtain ⟨b', hb', -, hconflict⟩ := h
  obtain rfl := Except.ok.inj (hb.symm.trans hb')
  exact ⟨b, (pair.get? "default").isSome, hrequired, hdefault, hconflict⟩

/-- All members are required and one has a default: that one is both. -/
theorem Schema.Exclusive.of_members {u : Schema}
    (h : ∀ m ∈ u.members, (Schema.single m).Exclusive) : u.Exclusive := by
  have flags : ∀ m ∈ u.members, m.flag "required" = .ok (m.flagged "required") ∧
      m.flag "has_default" = .ok (m.flagged "has_default") ∧
      ¬ (m.flagged "required" = true ∧ m.flagged "has_default" = true) := by
    intro m hm
    obtain ⟨r, d, hr, hd, hboth⟩ := h m hm
    have hr : m.flag "required" = .ok r := hr
    have hd : m.flag "has_default" = .ok d := hd
    simp only [Instance.flagged, hr, hd]
    exact ⟨trivial, trivial, hboth⟩
  have hdefault := hasDefault_eq fun m hm => (flags m hm).2.1
  by_cases hne : u.members = []
  · have hrequired : u.required = .ok false := by
      cases u with
      | single s => cases hne
      | multi ms =>
          obtain rfl : ms = [] := hne
          rfl
    exact ⟨false, _, hrequired, hdefault, fun hboth => Bool.false_ne_true hboth.1⟩
  · refine ⟨_, _, required_eq hne fun m hm => (flags m hm).1, hdefault, ?_⟩
    rintro ⟨hall, hany⟩
    obtain ⟨m, hm, hdefault⟩ := List.any_eq_true.mp hany
    exact (flags m hm).2.2 ⟨List.all_eq_true.mp hall m hm, hdefault⟩

/-- The schemas of the properties of a dictionary that was read. -/
theorem Plan.ReadFrom.exclusive {p : Plan} {config : Entries} {required : Option Bool}
    (h : p.ReadFrom config required) :
    ∀ e ∈ p.demand.properties, ∀ m ∈ e.2.members, (Schema.single m).Exclusive := by
  intro e he m hm
  cases hd : p.demand with
  | object =>
      have hkind : config.kind? = some .object := by rw [h.kind, hd]; rfl
      obtain ⟨_, _, props, _, heq, -, hprops, -⟩ := h.object hkind
      rw [heq] at he
      obtain ⟨_, -, -, -, ts, hts, hcollapse⟩ := forall₂_mem_right hprops he
      rw [hcollapse] at hm
      obtain ⟨pair, -, hpair⟩ := forall₂_mem_right hts (mem_of_mem_collapse hm)
      exact hpair.exclusive
  | _ => rw [hd] at he; cases he

/-! ## Configurations with a conflict -/

namespace Value

/-- A merged pair of a property, at any depth, is required and has a
default. -/
def Conflicting (c : Value) : Prop :=
  ∃ config : Entries, c.Nested (.dict config) ∧ config.kind? = some .object ∧
    ∃ e ∈ config.declared, ∃ pair ∈ config.generic.pairs (Options.propertyConfig e.2),
      (pair.getD "required" (.bool false)).truthy = .ok true ∧
        (pair.get? "default").isSome = true

end Value

theorem Compilable.not_conflicting {c : Value} (h : Compilable c) : ¬ c.Conflicting := by
  rintro ⟨config, hnested, hkind, e, he, pair, hpair, hrequired, hdefault⟩
  obtain ⟨p, required, hread⟩ := (h.nested hnested).plan
  obtain ⟨_, _, _, _, -, -, hprops, -⟩ := hread.object hkind
  obtain ⟨_, -, -, -, ts, hts, -⟩ := forall₂_mem_left hprops he
  obtain ⟨t, -, b, hb, -, hboth⟩ := forall₂_mem_left hts hpair
  obtain rfl := Except.ok.inj (hrequired.symm.trans hb)
  exact hboth ⟨rfl, hdefault⟩

/-- A part of what compiles is not both required and given a default, nor is
any of its alternatives; and one conflicting pair makes compiling fail, with
the refusal unless it fails before as it fails without the check. -/
theorem required_excludes_default (c : Value) :
    (∀ s, Registry.builtin.compile c .none = .ok s → ∀ t, s.Inside (.single t) →
      ∀ u ∈ t.nested "properties", u.Exclusive ∧ ∀ m ∈ u.members, (Schema.single m).Exclusive) ∧
    (c.Conflicting → ∃ e, Registry.builtin.compile c .none = .error e ∧
      ((∃ refusal : ConfigError, e = .config refusal ∧ refusal.kind.code = "EORDF") ∨
        (compileOptional c .none).result = .error e)) := by
  constructor
  · intro s hs t ht u hu
    obtain ⟨config, required, -, hcompile⟩ := makes_inside hs ht t (List.mem_singleton.mpr rfl)
    obtain ⟨p, hash, heq, hread, -⟩ := plan_of_compile hcompile
    obtain rfl := Schema.single.inj heq
    rw [p.nested_properties] at hu
    obtain ⟨e, he, rfl⟩ := List.mem_map.mp hu
    have hmembers := hread.exclusive e he
    exact ⟨.of_members hmembers, hmembers⟩
  · intro hconflict
    have hwaives := compile_waives c
    cases hresult : (compile .builtin c .none).result with
    | ok s => exact absurd hconflict (Compilable.of_compile hresult).not_conflicting
    | error e =>
        rw [hresult] at hwaives
        refine ⟨e, hresult, ?_⟩
        rcases hwaives with ⟨key, rfl⟩ | h
        · exact .inl ⟨_, rfl, rfl⟩
        · exact .inr h

/-! ## A conflict in the second property -/

/-- An object whose second property is required and has a default, and whose
first has this option `required`. -/
def twoProperties (first : Value) : Entries :=
  [(.str "type", .str "object"),
    (.str "properties", .dict [(.str "a", .dict [(.str "required", first)]),
      (.str "b", .dict [(.str "required", .bool true), (.str "default", .int 1)])])]

theorem conflicting_twoProperties (first : Value) : (Value.dict (twoProperties first)).Conflicting :=
  ⟨_, .refl _, rfl, _, List.mem_cons_of_mem _ List.mem_cons_self, _, List.mem_cons_self, rfl, rfl⟩

/-- The first property is not even compiled. -/
theorem properties_twoProperties {first : Value} {e : Fault} (h : first.truthy = .error e) :
    (Options.object (compile .builtin) (twoProperties first)).result = .error (.fault e) := by
  have hsplit : splitRequired (.dict [(.str "required", first)]) = .error e := by
    rw [splitRequired_eq]
    show (first.truthy >>= _) = _
    rw [h]
    rfl
  have hcandidate : (compileCandidate (compile .builtin) (.str "a")
      (.dict [(.str "required", first)])).result = .error (.fault e) := by
    rw [compileCandidate, hsplit]
    rfl
  have hpairs : Value.none.pairs (.dict [(.str "required", first)]) = [[(.str "required", first)]] :=
    rfl
  have hmerged : (compileMerged (compile .builtin) (.str "a") .none
      (.dict [(.str "required", first)])).result = .error (.fault e) := by
    rw [compileMerged_eq _ _ (.inl rfl) (.inr rfl), Value.mergeProducts_pairs (.inl rfl) (.inr rfl),
      hpairs]
    simp only [Build.result_bind, Build.result_lift_fault, lift_ok, ok_bind, Build.result_mapM,
      List.map_cons, List.mapM_cons, hcandidate, error_bind]
  have hproperty : (Options.property (compile .builtin) .none (.str "a")
      (.dict [(.str "required", first)])).result = .error (.fault e) := by
    show (compileMerged _ _ _ (.dict [(.str "required", first)]) >>= _ : Build Value).result = _
    rw [Build.result_bind, hmerged, error_bind]
  show (Options.properties (compile .builtin) .none _ >>= _ : Build Attributes).result = _
  rw [Build.result_bind, Options.properties, Build.result_bind, hproperty]
  rfl

theorem compile_twoProperties {first : Value} {e : Fault} (h : first.truthy = .error e) :
    Registry.builtin.compile (.dict (twoProperties first)) .none = .error (.fault e) := by
  show (compile .builtin (.dict (twoProperties first)) (mark none)).result = _
  rw [compile_eq, compileWith_unlisted _ rfl, compileSingle_dict]
  have hkind : (twoProperties first).kind? = some .object := rfl
  have htyped : ∃ common, Options.typed (twoProperties first) = .ok common := ⟨_, rfl⟩
  obtain ⟨common, hcommon⟩ := htyped
  have hown : Options.own (compile .builtin) (twoProperties first) .object = .error (.fault e) :=
    properties_twoProperties h
  rw [hkind]
  show Schema.single <$> Options.readInstance _ (twoProperties first) .object none = _
  rw [Options.readInstance, Options.readAttributes, hcommon, ok_bind, hown]
  rfl

theorem required_excludes_default_container :
    (∃ s t u, Registry.builtin.compile (.dict (Schema.containerOptions (.int 1))) .none = .ok s ∧
      s.Inside (.single t) ∧ u ∈ t.nested "properties" ∧ u.Exclusive) ∧
    (Value.dict (twoProperties (.bool true))).Conflicting ∧
      ∃ e, Registry.builtin.compile (.dict (twoProperties (.bool true))) .none = .error e := by
  obtain ⟨hash, -, hproperty⟩ := Schema.compile_supplied (d := .int 1) ⟨_, Value.token_ok rfl rfl⟩
  obtain ⟨hash', hs⟩ := Schema.compile_container hproperty
  have hmem : Schema.single ((Schema.suppliedPlan (.int 1)).toInstance hash)
      ∈ ((Schema.containerPlan (.int 1) hash).toInstance hash').nested "properties" := by
    rw [Plan.nested_properties]
    exact List.mem_cons_self
  have hconflict := conflicting_twoProperties (.bool true)
  refine ⟨⟨_, _, _, hs, .self, hmem, ?_⟩, hconflict, ?_⟩
  · exact ((required_excludes_default _).1 _ hs _ .self _ hmem).1
  · obtain ⟨e, he, -⟩ := (required_excludes_default _).2 hconflict
    exact ⟨e, he⟩

theorem conflict_behind_fault :
    (Value.dict (twoProperties .twoNumbers)).Conflicting ∧
      Registry.builtin.compile (.dict (twoProperties .twoNumbers)) .none
        = .error (.fault .badValue) :=
  ⟨conflicting_twoProperties _, compile_twoProperties rfl⟩

end Conform
