/-
# `Proofs.Config.Reordered` — compiling does not see an order

Two configurations that are the same but for the order of entries and of
elements compile to twins, or both do not compile.  Lists keep their order:
variants are matched place by place, and so are the pairs of a merge.

`Factory.Indifferent` says this of the compiler of the configurations
inside.  A build step hands parts of one configuration and the same parts of
its reordering to it, so indifference goes from a factory to the compiler
that uses it, and by induction on the height to every compiler.
-/
import Conform.Proofs.Config.Carried
import Conform.Proofs.Schema.Agreement

namespace Conform

/-! ## Configurations of parts -/

namespace Value.Reordered

variable {R : Schema → Schema → Prop} {v w generic generic' : Value}

theorem nil : Reordered R (.dict []) (.dict []) := dict_of_get? .nil .nil fun _ => .none

theorem entries_isDict (h : Reordered R v w) (hv : v.isDict = true) :
    Reordered R (.dict v.entries) (.dict w.entries) := by
  cases h with
  | dict hnames horder h => exact .dict hnames horder h
  | @atom v h =>
      cases v <;> first | exact absurd hv Bool.false_ne_true | exact absurd h Bool.false_ne_true
  | _ => cases hv

/-- The alternatives of a configuration keep their places. -/
theorem alternatives (h : Reordered R v w) (hv : v.IsPartOption) :
    List.Forall₂ (fun es es' : Entries => Reordered R (.dict es) (.dict es'))
      v.alternatives w.alternatives := by
  rcases hv with rfl | hv
  · rw [h.eq_of_atom rfl]
    exact .cons nil .nil
  · have hlisted := h.listed?
    have several : ∀ {xs ys : List Value}, List.Forall₂ (Reordered R) xs ys → xs.all isDict = true →
        List.Forall₂ (fun es es' : Entries => Reordered R (.dict es) (.dict es'))
          (xs.map entries) (ys.map entries) := by
      intro xs ys hall hdicts
      rw [List.forall₂_map_left_iff, List.forall₂_map_right_iff]
      exact forall₂_imp (fun x hx _ _ hxy => hxy.entries_isDict (List.all_eq_true.mp hdicts x hx)) hall
    have hsecond : ∀ {b c : Bool}, (b && c) = true → c = true := fun h => (Bool.and_eq_true _ _ ▸ h).2
    cases h with
    | list h => exact several (forall₂_iff_pairs.mpr ⟨_, rfl, rfl, h⟩) (hsecond hv)
    | tuple h => exact several (forall₂_iff_pairs.mpr ⟨_, rfl, rfl, h⟩) (hsecond hv)
    | dict hnames horder h => exact .cons (.dict hnames horder h) .nil
    | @atom v h =>
      cases v <;> first | exact absurd hv Bool.false_ne_true | exact absurd h Bool.false_ne_true
    | _ => cases hv

theorem isPartOption (h : Reordered R v w) (hv : v.IsPartOption) : w.IsPartOption := by
  rcases hv with rfl | hv
  · exact .inl (h.eq_of_atom rfl)
  · exact .inr (h.isConfiguration_eq ▸ hv)

/-- The merged pairs keep their places. -/
theorem pairs (hg : Reordered R generic generic') (hv : Reordered R v w)
    (hgeneric : generic.IsPartOption) (hspecific : v.IsPartOption) :
    List.Forall₂ (fun es es' : Entries => Reordered R (.dict es) (.dict es'))
      (generic.pairs v) (generic'.pairs w) := by
  refine List.rel_flatMap (hv.alternatives hspecific) fun s s' hs => ?_
  exact List.rel_map (fun g g' hg => hg.update hs) (hg.alternatives hgeneric)

/-- The configuration of a property, where `none` stands for an empty one. -/
theorem propertyConfig (h : Reordered R v w) :
    Reordered R (Options.propertyConfig v) (Options.propertyConfig w) := by
  unfold Options.propertyConfig
  rw [h.isNone_eq]
  split
  · exact nil
  · exact h

end Value.Reordered

/-- What is compiled from a configuration and from a reordering of it are
twins. -/
structure Factory.Indifferent (f : Factory) : Prop where
  plain : ∀ {c c' : Value}, c.Reordered Eq c' →
    Carries Schema.Twin (f c .none).result (f c' .none).result
  marked : ∀ {es es' : Entries} (b : Bool), (Value.dict es).Reordered Eq (.dict es') →
    Carries Schema.Twin (f (.dict es) (mark (some b))).result (f (.dict es') (mark (some b))).result

namespace Options

variable {f : Factory} {config config' : Entries} {generic generic' : Value}

/-! ## Merged parts -/

theorem candidate_carries (hf : f.Indifferent) (key : Value) {es es' : Entries}
    (h : (Value.dict es).Reordered Eq (.dict es')) :
    Carries Schema.Twin (compileCandidate f key (.dict es)).result
      (compileCandidate f key (.dict es')).result := by
  have htruthy := (h.getD "required" (rfl : (Value.bool false).isAtom = true)).truthy_eq
  simp only [compileCandidate, splitRequired_eq, htruthy, Build.result_bind,
    Build.result_lift_fault]
  cases (es'.getD "required" (.bool false)).truthy with
  | error e => exact .failed
  | ok b =>
      refine (hf.marked b (h.erase "required")).bind fun t u htu => ?_
      rw [htu.alike.required]
      refine .bind_same fun required => ?_
      cases required with
      | false => exact .ok htu
      | true =>
          simp only [if_true, Build.result_bind, Build.result_lift_fault, htu.hasDefault]
          refine .bind_same fun hasDefault => ?_
          cases hasDefault with
          | false => exact .ok htu
          | true => exact .failed

theorem merged_carries (hf : f.Indifferent) (key : Value) {v w : Value}
    (hg : generic.Reordered Eq generic') (hv : v.Reordered Eq w) (hgeneric : generic.IsPartOption)
    (hspecific : v.IsPartOption) :
    Carries Schema.Twin (compileMerged f key generic v).result
      (compileMerged f key generic' w).result := by
  have hpairs := hg.pairs hv hgeneric hspecific
  rw [compileMerged_eq f key hgeneric hspecific,
    compileMerged_eq f key (hg.isPartOption hgeneric) (hv.isPartOption hspecific),
    Value.mergeProducts_pairs hgeneric hspecific,
    Value.mergeProducts_pairs (hg.isPartOption hgeneric) (hv.isPartOption hspecific)]
  simp only [Build.result_bind, Build.result_lift_fault, lift_ok, ok_bind, Build.result_mapM,
    List.mapM_map]
  exact (Carries.mapM hpairs fun es es' h => candidate_carries hf key h).bind fun ts us htus =>
    .ok (.collapse htus)

theorem partSchema_carries {compile : Value → Build Schema} (hg : generic.Reordered Eq generic')
    (h : Carries Schema.Twin (compile generic).result (compile generic').result) :
    Carries (Value.Reordered Schema.Same) (partSchema compile generic).result
      (partSchema compile generic').result := by
  unfold partSchema
  rw [hg.isNone_eq]
  split
  · exact .ok (.atom rfl)
  · simp only [Build.result_bind]
    exact h.bind fun t u htu => .ok (.schema (.inr htu))

theorem property_carries (hf : f.Indifferent) (key : Value) {v w : Value}
    (hg : generic.Reordered Eq generic') (hv : v.Reordered Eq w) (hgeneric : generic.IsPartOption) :
    Carries (Value.Reordered Schema.Same) (property f generic key v).result
      (property f generic' key w).result := by
  have hconfig := hv.propertyConfig
  unfold property
  rw [← hconfig.isConfiguration_eq]
  split
  · rename_i hconf
    simp only [Build.result_bind]
    exact (merged_carries hf key hg hconfig hgeneric (.inr hconf)).bind fun t u htu =>
      .ok (.schema (.inr htu))
  · exact .failed

theorem properties_eq_ok {declared compiled : Entries} :
    (properties f generic declared).result = .ok compiled ↔
      List.Forall₂ (fun e e' => e'.1 = e.1 ∧ (property f generic e.1 e.2).result = .ok e'.2)
        declared compiled := by
  induction declared generalizing compiled with
  | nil => cases compiled <;> simp [properties]
  | cons e rest ih =>
      simp only [properties, Build.result_bind, Build.result_pure, bind_eq_ok, ih]
      constructor
      · rintro ⟨v, hv, others, hothers, h⟩
        exact Except.ok.inj h ▸ .cons ⟨rfl, hv⟩ hothers
      · intro h
        cases h with
        | @cons _ c _ others hc hothers => exact ⟨c.2, hc.2, others, hothers, by rw [← hc.1]⟩

/-- Every property is compiled in its place, from the configuration under its
name. -/
theorem properties_carries (hf : f.Indifferent) {declared declared' : Entries}
    (hg : generic.Reordered Eq generic') (hgeneric : generic.IsPartOption)
    (h : (Value.dict declared).Reordered Eq (.dict declared')) :
    Carries (fun es es' => (Value.dict es).Reordered Schema.Same (.dict es'))
      (properties f generic declared).result (properties f generic' declared').result := by
  generalize hv : Value.dict declared = v, hw : Value.dict declared' = w at h
  cases h with
  | @dict zs zs' hnames horder h =>
      obtain rfl := Value.dict.inj hv
      obtain rfl := Value.dict.inj hw
      intro compiled hcompiled
      rw [properties_eq_ok, List.forall₂_map_left_iff] at hcompiled
      -- what both came to under each name, in the order of the first
      have hpaired : ∀ z ∈ zs, ∃ u : String × Value × Value, u.1 = z.1 ∧
          (property f generic (.str z.1) z.2.1).result = .ok u.2.1 ∧
          (property f generic' (.str z.1) z.2.2).result = .ok u.2.2 ∧
          u.2.1.Reordered Schema.Same u.2.2 := by
        intro z hz
        obtain ⟨c, -, -, hc⟩ := forall₂_mem_left hcompiled hz
        obtain ⟨d, hd, hcd⟩ := property_carries hf (.str z.1) hg (h z hz) hgeneric c.2 hc
        exact ⟨(z.1, c.2, d), rfl, hc, hd, hcd⟩
      obtain ⟨us, hus⟩ := exists_forall₂ hpaired
      obtain ⟨us', hus', hperm⟩ := List.perm_comp_forall₂ horder.symm hus
      have hunames : (us.map Prod.fst).Nodup := by
        have heq : us.map Prod.fst = zs.map Prod.fst :=
          map_eq_of_forall₂ hus.flip fun _ _ h => h.1
        exact heq ▸ hnames
      have heq : compiled = us.map fun u => (.str u.1, u.2.1) := by
        rw [← List.forall₂_eq_eq_eq, List.forall₂_map_right_iff]
        refine forall₂_trans ?_ hcompiled hus
        intro z c _ u _ hc hu
        exact Prod.ext (hc.1.trans (congrArg Value.str hu.1.symm))
          (Except.ok.inj (hc.2.symm.trans hu.2.1))
      refine ⟨us'.map fun u => (.str u.1, u.2.2), ?_, ?_⟩
      · rw [properties_eq_ok, List.forall₂_map_left_iff, List.forall₂_map_right_iff]
        exact hus'.imp fun z u hu => ⟨congrArg Value.str hu.1, hu.2.2.1⟩
      · rw [heq]
        refine .dict hunames hperm.symm fun u hu => ?_
        obtain ⟨z, -, -, -, -, hreordered⟩ := forall₂_mem_right hus hu
        exact hreordered
  | atom hatom =>
      subst hv
      cases hatom
  | _ => cases hv

/-! ## Kinds with parts -/

section kinds

variable (h : (Value.dict config).Reordered Eq (.dict config'))
include h

theorem schemaOption_carries :
    Carries (Value.Reordered Eq) (schemaOption config) (schemaOption config') := by
  have hget := h.get? "schema"
  unfold schemaOption
  generalize config.get? "schema" = x, config'.get? "schema" = y at hget
  cases hget with
  | none => exact .ok (.atom rfl)
  | some hvw =>
      dsimp only
      rw [← hvw.isConfiguration_eq]
      split
      · exact .ok hvw
      · exact .failed

theorem propertiesOption_carries :
    Carries (fun es es' => (Value.dict es).Reordered Eq (.dict es')) (propertiesOption config)
      (propertiesOption config') := by
  have hget := h.get? "properties"
  unfold propertiesOption
  generalize config.get? "properties" = x, config'.get? "properties" = y at hget
  cases hget with
  | none => exact .ok .nil
  | @some v w hvw =>
      cases hvw with
      | dict hnames horder h => exact .ok (.dict hnames horder h)
      | atom hv => cases v <;> first | exact .failed | exact absurd hv Bool.false_ne_true
      | _ => exact .failed

theorem array_carries (hf : f.Indifferent) :
    Carries (Attributes.Reordered Schema.Same) (array f config).result (array f config').result := by
  simp only [array, Build.result_bind, Build.result_lift, Build.result_lift_fault]
  refine (lowerBound_carries h "min_items" _).bind fun low _ hlow => ?_
  obtain ⟨rfl, -⟩ := hlow
  refine (upperBound_carries h "max_items" _ low).bind fun high _ hhigh => ?_
  obtain ⟨rfl, -⟩ := hhigh
  refine (schemaOption_carries h).bind fun generic generic' hg => ?_
  refine (partSchema_carries hg (hf.plain hg)).bind fun item item' hitem => ?_
  refine (wholeBound_carries high).bind fun most _ hmost => ?_
  refine (wholeBound_carries low).bind fun least _ hleast => ?_
  refine (flag_carries h "unique_items" false).bind fun unique _ hunique => ?_
  exact .ok (.cons ⟨rfl, hmost.kept⟩ (.cons ⟨rfl, hleast.kept⟩ (.cons ⟨rfl, hitem⟩
    (.cons ⟨rfl, hunique.kept⟩ .nil))))

theorem object_carries (hf : f.Indifferent) :
    Carries (Attributes.Reordered Schema.Same) (object f config).result
      (object f config').result := by
  simp only [object, Build.result_bind, Build.result_lift, Build.result_lift_fault]
  refine (propertiesOption_carries h).bind fun declared declared' hdeclared => ?_
  have hgeneric := schemaOption_carries h
  cases hoption : schemaOption config with
  | error e => exact .failed
  | ok generic =>
      have hg := (schemaOption_ok hoption).1
      obtain ⟨generic', hoption', hgg⟩ := hgeneric generic hoption
      rw [hoption', ok_bind, ok_bind]
      refine (properties_carries hf hgg hg hdeclared).bind fun compiled compiled' hcompiled => ?_
      refine (flag_carries h "allow_null" true).bind fun allowNull _ hnull => ?_
      refine (flag_carries h "clean" false).bind fun clean _ hclean => ?_
      have hmerged := merged_carries hf (.str "schema") (.atom rfl) hgg (.inl rfl) hg
      refine (partSchema_carries hgg hmerged).bind fun item item' hitem => ?_
      exact .ok (.cons ⟨rfl, hnull.kept⟩ (.cons ⟨rfl, hclean.kept⟩ (.cons ⟨rfl, hcompiled⟩
        (.cons ⟨rfl, hitem⟩ .nil))))

theorem oneOf_carries (hf : f.Indifferent) :
    Carries (Attributes.Reordered Schema.Same) (oneOf f config).result (oneOf f config').result := by
  have hget := h.get? "one_of"
  unfold oneOf
  generalize config.get? "one_of" = x, config'.get? "one_of" = y at hget
  cases hget with
  | none => exact .failed
  | @some v w hvw =>
      have hlisted := hvw.listed?
      dsimp only
      generalize v.listed? = xs, w.listed? = ys at hlisted
      cases hlisted with
      | none => exact .failed
      | @some xs ys hall =>
          dsimp only
          rw [Value.Reordered.all_isDict_eq hall]
          split
          · exact .failed
          · simp only [Build.result_bind, Build.result_mapM]
            refine (Carries.mapM hall fun x y hxy => hf.plain hxy).bind fun ts us htus => ?_
            refine .ok (.cons ⟨rfl, Value.Reordered.tuple_iff.mpr ⟨_, rfl, ?_⟩⟩ .nil)
            rw [List.forall₂_map_left_iff, List.forall₂_map_right_iff]
            exact htus.imp fun t u htu => .schema (.inr htu)

theorem own_carries (hf : f.Indifferent) (k : Kind) :
    Carries (Attributes.Reordered Schema.Same) (own f config k) (own f config' k) := by
  cases k with
  | array => exact array_carries h hf
  | object => exact object_carries h hf
  | oneOf => exact oneOf_carries h hf
  | number => exact number_carries h
  | string => exact string_carries h
  | function => exact function_carries h
  | typed | boolean | symbol => exact .ok .nil

/-- The same lines are digested, so the digests are one. -/
theorem readInstance_carries (hf : f.Indifferent) (k : Kind) (required : Option Bool) :
    Carries (fun s t => s.chain = t.chain ∧
        Attributes.Reordered Schema.Same s.attributes t.attributes)
      (readInstance f config k required) (readInstance f config' k required) := by
  unfold readInstance readAttributes
  simp only [bind_assoc]
  refine (typed_carries h).bind fun common common' hcommon => ?_
  refine (own_carries h hf k).bind fun more more' hmore => ?_
  have hmarks : Attributes.Reordered Schema.Same (marks required) (marks required) := by
    cases required with
    | none => exact .nil
    | some b => exact .cons ⟨rfl, .atom rfl⟩ .nil
  have hattrs : Attributes.Reordered Schema.Same (common ++ more ++ marks required)
      (common' ++ more' ++ marks required) := List.rel_append (List.rel_append hcommon hmore) hmarks
  have hhash : Carries Eq (liftM (Attributes.hash (common ++ more ++ marks required)) : Outcome String)
      (liftM (Attributes.hash (common' ++ more' ++ marks required))) := by
    intro hash hhash
    obtain ⟨ls, hls, hhash⟩ := bind_eq_ok.mp (lift_eq_ok.mp hhash)
    refine ⟨hash, lift_eq_ok.mpr ?_, rfl⟩
    rw [Attributes.hash, hattrs.lines Schema.Same.outline hls]
    exact hhash
  exact hhash.bind fun hash _ _ => .ok ⟨rfl, hattrs⟩

end kinds

end Options

/-! ## The kind that a type names -/

/-- Only what has nothing inside names a controller. -/
theorem Registry.isAtom_of_alias {c : BuiltinController} {a type : Value}
    (hc : c ∈ builtinControllers) (ha : a ∈ c.aliases) (hsame : Value.sameKey a type = true) :
    type.isAtom = true := by
  have hforms : ∀ c ∈ builtinControllers, ∀ a ∈ c.aliases, a.isAlias = true := by decide
  have halias := hforms c hc a ha
  unfold Value.isAlias at halias
  split at halias
  · cases type <;> first | rfl | exact absurd hsame Bool.false_ne_true
  · cases type <;> first | rfl | exact absurd hsame Bool.false_ne_true
  · cases type <;> first | rfl | exact absurd hsame Bool.false_ne_true
  · cases halias

theorem Registry.isAtom_of_kindOf {type : Value} {k : Kind} (h : kindOf type = some k) :
    type.isAtom = true := by
  obtain ⟨c, hc, -, -, a, ha, hsame⟩ := resolve_of_kindOf h
  exact isAtom_of_alias hc ha hsame

section typed

variable {config config' : Entries} (h : (Value.dict config).Reordered Eq (.dict config'))
include h

theorem typedEntries_reordered :
    (Value.dict (typedEntries config).1).Reordered Eq (.dict (typedEntries config').1) ∧
      (typedEntries config).2.Reordered Eq (typedEntries config').2 := by
  have htype := h.getD "type" (rfl : Value.none.isAtom = true)
  unfold typedEntries
  generalize config.getD "type" .none = v, config'.getD "type" .none = w at htype
  split
  · rw [htype.eq_of_atom rfl]
    exact ⟨h.put (.atom rfl), .atom rfl⟩
  · rename_i hne
    split
    · exact absurd ((htype.symm fun _ _ => Eq.symm).eq_of_atom rfl) hne
    · exact ⟨h, htype⟩

theorem kind?_reordered {k : Kind} (hk : config.kind? = some k) : config'.kind? = some k := by
  have htype := (typedEntries_reordered h).2
  unfold Entries.kind? at hk ⊢
  rw [htype.eq_of_atom (Registry.isAtom_of_kindOf hk)]
  exact hk

end typed

/-! ## Compilers -/

section compilers

variable {f : Factory} (hf : f.Compiles) (hi : f.Indifferent)
include hf hi

theorem compileSingle_carries {c c' : Value} (h : c.Reordered Eq c') (required : Option Bool) :
    Carries Instance.Twin (compileSingle f .builtin c (mark required)).result
      (compileSingle f .builtin c' (mark required)).result := by
  have hdict : ∀ {config config' : Entries}, (Value.dict config).Reordered Eq (.dict config') →
      Carries Instance.Twin (compileSingle f .builtin (.dict config) (mark required)).result
        (compileSingle f .builtin (.dict config') (mark required)).result := by
    intro config config' h
    have hread : Carries (fun s t => s.chain = t.chain ∧
          Attributes.Reordered Schema.Same s.attributes t.attributes)
        (compileSingle f .builtin (.dict config) (mark required)).result
        (compileSingle f .builtin (.dict config') (mark required)).result := by
      rw [compileSingle_dict, compileSingle_dict]
      cases hk : config.kind? with
      | none => exact .failed
      | some k =>
          rw [kind?_reordered h hk]
          exact Options.readInstance_carries (typedEntries_reordered h).1 hi k required
    refine hread.imp _ fun s t hs ht hst => ?_
    exact Instance.twin_of_attributes (compileSingle_ok hf hs) (compileSingle_ok hf ht)
      hst.1 hst.2
  intro s hs
  rcases compileSingle_cases c with rfl | ⟨config, rfl⟩ | ⟨e, he⟩
  · rw [h.eq_of_atom rfl]
    exact hdict .nil s hs
  · obtain ⟨config', rfl, -⟩ := Value.Reordered.dict_iff.mp h
    exact hdict h s hs
  · cases (he f (mark required)).symm.trans hs

theorem compileWith_carries {c c' : Value} (h : c.Reordered Eq c') :
    Carries Schema.Twin (compileWith f .builtin c .none).result
      (compileWith f .builtin c' .none).result := by
  have hlisted := h.listed?
  cases hitems : c.listed? with
  | none =>
      have hitems' : c'.listed? = none := by
        rw [hitems] at hlisted
        generalize c'.listed? = ys at hlisted
        cases hlisted
        rfl
      show Carries _ (compileWith f .builtin c (mark none)).result
        (compileWith f .builtin c' (mark none)).result
      rw [compileWith_unlisted f hitems, compileWith_unlisted f hitems']
      exact (compileSingle_carries hf hi h none).map fun s t hst => .single hst
  | some items =>
      obtain ⟨items', hitems', hall⟩ : ∃ items', c'.listed? = some items' ∧
          List.Forall₂ (Value.Reordered Eq) items items' := by
        rw [hitems] at hlisted
        generalize c'.listed? = ys at hlisted
        cases hlisted with
        | some hall => exact ⟨_, rfl, hall⟩
      rw [compileWith_listed f hitems, compileWith_listed f hitems']
      refine (Carries.mapM hall fun w w' hw => compileSingle_carries hf hi hw none).map ?_
      intro ts us htus
      refine .ofAlternatives ?_
      rw [List.forall₂_map_left_iff, List.forall₂_map_right_iff]
      exact htus.imp fun _ _ h => .single h

end compilers

theorem indifferent_below (n : Nat) : (Factory.below (compile .builtin) n).Indifferent := by
  induction n using Nat.strongRecOn with
  | ind n ih =>
      constructor
      · intro c c' h
        unfold Factory.below
        rw [← h.height_eq]
        split
        · rename_i hc
          rw [compile, compile, ← h.height_eq]
          exact compileWith_carries (compiles_below _) (ih c.height hc) h
        · exact .failed
      · intro es es' b h
        unfold Factory.below
        rw [← h.height_eq]
        split
        · rename_i hc
          rw [compile, compile, ← h.height_eq, compileWith_unlisted _ rfl,
            compileWith_unlisted _ rfl]
          exact (compileSingle_carries (compiles_below _) (ih _ hc) h (some b)).map
            fun s t hst => .single hst
        · exact .failed

/-- Reordered configurations compile to twins. -/
theorem compile_carries {c c' : Value} (h : c.Reordered Eq c') :
    Carries Schema.Twin (Registry.builtin.compile c .none) (Registry.builtin.compile c' .none) := by
  show Carries _ (compile .builtin c .none).result (compile .builtin c' .none).result
  rw [compile, compile, ← h.height_eq]
  exact compileWith_carries (compiles_below _) (indifferent_below _) h

/-- The order of entries and of elements decides neither whether a configuration
compiles nor what its schema is taken for and accepts. -/
theorem compile_reordered {c c' : Value} (h : c.Reordered Eq c') :
    ((∃ s, Registry.builtin.compile c .none = .ok s) ↔
      ∃ t, Registry.builtin.compile c' .none = .ok t) ∧
    ∀ s t, Registry.builtin.compile c .none = .ok s → Registry.builtin.compile c' .none = .ok t →
      (∃ text, s.digested = .ok text ∧ t.digested = .ok text) ∧ s.hash = t.hash ∧
      ∀ v, s.error v (.str "") = .ok none ↔ t.error v (.str "") = .ok none := by
  have carries := compile_carries h
  have back := compile_carries (h.symm fun _ _ => Eq.symm)
  refine ⟨⟨fun ⟨s, hs⟩ => ?_, fun ⟨t, ht⟩ => ?_⟩, fun s t hs ht => ?_⟩
  · obtain ⟨t, ht, -⟩ := carries s hs
    exact ⟨t, ht⟩
  · obtain ⟨s, hs, -⟩ := back t ht
    exact ⟨s, hs⟩
  · obtain ⟨u, hu, htwin⟩ := carries s hs
    obtain rfl := Except.ok.inj (ht.symm.trans hu)
    obtain ⟨text, htext, -⟩ := htwin.compiled.digested_ok
    refine ⟨⟨text, htext, htwin.digested ▸ htext⟩, htwin.hash, fun v => ?_⟩
    rw [← Schema.accepts_eq_true, ← Schema.accepts_eq_true, htwin.alike.accepts]

/-! ## An object and its default, the other way round -/

namespace Value.Reordered

variable {R : Schema → Schema → Prop} {a b : String} {v v' w w' : Value}

theorem entry (a : String) (hv : v.Reordered R v') :
    Reordered R (.dict [(.str a, v)]) (.dict [(.str a, v')]) :=
  @dict R [(a, v, v')] _ (List.nodup_singleton a) (.refl _) (List.forall_mem_singleton.mpr hv)

theorem swap (hab : a ≠ b) (hv : v.Reordered R v') (hw : w.Reordered R w') :
    Reordered R (.dict [(.str a, v), (.str b, w)]) (.dict [(.str b, w'), (.str a, v')]) := by
  have hnames : ([(a, v, v'), (b, w, w')].map Prod.fst).Nodup :=
    List.nodup_cons.mpr ⟨fun h => hab (List.mem_singleton.mp h), List.nodup_singleton b⟩
  refine @dict R _ [(b, w, w'), (a, v, v')] hnames (.swap _ _ []) fun z hz => ?_
  rcases List.mem_pair.mp hz with rfl | rfl
  · exact hv
  · exact hw

end Value.Reordered

/-- A property whose default lists `y` last, and the same with everything turned
round. -/
theorem compile_reordered_container :
    ∃ s t, Registry.builtin.compile
        (.dict (Schema.containerOptions (.dict [(.str "x", .int 1), (.str "y", .int 2)]))) .none
          = .ok s ∧
      Registry.builtin.compile
        (.dict [(.str "properties", .dict [(.str "a", .dict
            [(.str "default", .dict [(.str "y", .int 2), (.str "x", .int 1)])])]),
          (.str "type", .str "object")]) .none = .ok t ∧
      (∃ text, s.digested = .ok text ∧ t.digested = .ok text) ∧ s.hash = t.hash ∧
      ∀ v, s.error v (.str "") = .ok none ↔ t.error v (.str "") = .ok none := by
  have hdefault : Value.Reordered Eq (.dict [(.str "x", .int 1), (.str "y", .int 2)])
      (.dict [(.str "y", .int 2), (.str "x", .int 1)]) :=
    .swap (by decide) (.atom rfl) (.atom rfl)
  have hconfig := Value.Reordered.swap (by decide : "type" ≠ "properties")
    (.atom (rfl : (Value.str "object").isAtom = true)) ((hdefault.entry "default").entry "a")
  have number : ∀ n : Int, Number.isWritable n = true → ∃ u, (Value.int n).outline = .ok u :=
    fun n hn => ⟨_, StableText.intTree_ok hn⟩
  obtain ⟨one, hone⟩ := number 1 rfl
  obtain ⟨two, htwo⟩ := number 2 rfl
  have hentries : List.Forall₂
      (fun (e : Value × Value) (u : String × Tree) => e.1 = .str u.1 ∧ e.2.outline = .ok u.2)
      [(.str "x", .int 1), (.str "y", .int 2)] [("x", one), ("y", two)] :=
    .cons ⟨rfl, hone⟩ (.cons ⟨rfl, htwo⟩ .nil)
  have houtline := Value.outline_dict hentries (by decide : ["x", "y"].Nodup)
  obtain ⟨hash, -, hproperty⟩ := Schema.compile_supplied ⟨_, Value.token_ok rfl houtline⟩
  obtain ⟨hash', hs⟩ := Schema.compile_container hproperty
  obtain ⟨hcompiles, hsame⟩ := compile_reordered hconfig
  obtain ⟨t, ht⟩ := hcompiles.mp ⟨_, hs⟩
  exact ⟨_, t, hs, ht, hsame _ t hs ht⟩

end Conform
