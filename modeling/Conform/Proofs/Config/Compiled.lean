/-
# `Proofs.Config.Compiled` — what compiling can come to

Against the controllers of this library every configuration that compiles
gives a schema with a plan.  A dictionary is read as one, whatever compiles
the configurations inside, as long as that gives schemas with plans; and
these configurations are lower, so the claim goes through by induction on
the height.
-/
import Conform.Proofs.Config.Reading
import Conform.Proofs.Schema.Legible

namespace Conform

open Value (sameKey sameKey_symm sameKey_trans)

/-! ## What a schema is built of -/

/-- A configuration with its type has that type among its options. -/
theorem get?_typedEntries (config : Entries) :
    (typedEntries config).1.get? "type" = some (typedEntries config).2 := by
  unfold typedEntries
  split
  · exact Entries.find?_put_self (by decide)
  · rename_i hne
    unfold Entries.getD at hne ⊢
    cases h : config.get? "type" with
    | none => exact absurd (by simp [h]) hne
    | some type => rfl

namespace Entries

/-- An entry under another key is not what is looked up. -/
theorem find?_put_of_ne {key other v : Value} (h : sameKey key other = false) :
    ∀ {es : Entries}, (es.put key v).find? other = es.find? other
  | [] => by simp [put, find?, h]
  | (k, w) :: rest => by
      simp only [put]
      split
      · rename_i hk
        have hne : sameKey k other = false := by
          rw [← Bool.not_eq_true] at h ⊢
          exact fun ho => h (sameKey_trans key (sameKey_symm k hk) ho)
        simp [find?, hne]
      · simp only [find?, find?_put_of_ne h]

theorem find?_erase_of_ne {key other : Value} (h : sameKey key other = false) :
    ∀ {es : Entries}, (es.erase key).find? other = es.find? other
  | [] => rfl
  | (k, w) :: rest => by
      have ih : (erase rest key).find? other = find? rest other := find?_erase_of_ne h
      simp only [erase, List.filter_cons] at ih ⊢
      by_cases hk : sameKey k key = true
      · have hne : sameKey k other = false := by
          rw [← Bool.not_eq_true] at h ⊢
          exact fun ho => h (sameKey_trans key (sameKey_symm k hk) ho)
        simp [hk, find?, hne, ih]
      · simp [hk, find?, ih]

end Entries

/-- The type is the only option that is put in. -/
theorem get?_typedEntries_of_ne (config : Entries) {name : String} (h : name ≠ "type") :
    (typedEntries config).1.get? name = config.get? name := by
  unfold typedEntries
  split
  · exact Entries.find?_put_of_ne (Value.sameKey_str_ne h.symm)
  · rfl

/-- Whatever compiles the configurations inside, a dictionary is read as a plan. -/
theorem Options.readInstance_ok {f : Factory} (hf : f.Compiles) {config : Entries} {k : Kind}
    {required : Option Bool} {s : Instance} (hkind : config.kind? = some k)
    (h : readInstance f (typedEntries config).1 k required = .ok s) :
    ∃ (p : Plan) (hash : String), s = p.toInstance hash ∧ p.demand.kind = k ∧
      p.required = required ∧ typed (typedEntries config).1 = .ok p.common ∧
      Reads f (typedEntries config).1 p.demand ∧
      p.hasDefault = (config.get? "default").isSome ∧ p.Proper ∧ p.attributes.hash = .ok hash := by
  simp only [readInstance, readAttributes, bind_eq_ok, lift_eq_ok, pure_eq_ok] at h
  obtain ⟨_, ⟨common, hcommon, more, hmore, rfl⟩, hash, hhash, rfl⟩ := h
  obtain ⟨d, rfl, rfl, hreads, hproper⟩ := own_reads hmore
  obtain ⟨p, rfl, rfl, rfl, htype, hgiven, hdefault, henum⟩ := typed_ok hcommon d required
  obtain ⟨c, hc, hck, -, halias⟩ := Registry.resolve_of_kindOf hkind
  have hptype : p.type = (typedEntries config).2 :=
    Option.some.inj (htype.symm.trans (get?_typedEntries config))
  have hlegible : p.demand.Legible := p.legible_of_hash (hproper hf) hhash
  refine ⟨p, hash, rfl, rfl, rfl, hcommon, hreads, ?_,
    ⟨henum, hdefault, ?_, hproper hf, hlegible⟩, hhash⟩
  · rw [hgiven, get?_typedEntries_of_ne config (by decide)]
  · exact ⟨c, hc, hck, hptype ▸ halias⟩

theorem compileSingle_dict_ok {f : Factory} (hf : f.Compiles) {config : Entries}
    {required : Option Bool} {s : Instance}
    (h : (compileSingle f .builtin (.dict config) (mark required)).result = .ok s) :
    Schema.Compiled (.single s) ∧
      s.attributes.lookup "has_default" = some (.bool (config.get? "default").isSome) ∧
      ∀ b, required = some b → s.attributes.lookup "required" = some (.bool b) := by
  rw [compileSingle_dict] at h
  cases hkind : config.kind? with
  | none =>
      rw [hkind] at h
      cases h
  | some k =>
      rw [hkind] at h
      obtain ⟨p, hash, rfl, -, rfl, -, hreads, hgiven, hproper, hhash⟩ :=
        Options.readInstance_ok hf hkind h
      refine ⟨.single p hash hproper hhash (hreads.parts hf), ?_, fun b hb => ?_⟩
      · rw [← hgiven]
        rfl
      · show p.attributes.lookup "required" = _
        rw [p.lookup_required, hb]
        rfl

theorem compileSingle_ok {f : Factory} (hf : f.Compiles) {configuration : Value}
    {required : Option Bool} {s : Instance}
    (h : (compileSingle f .builtin configuration (mark required)).result = .ok s) :
    Schema.Compiled (.single s) := by
  rcases compileSingle_cases configuration with rfl | ⟨config, rfl⟩ | ⟨e, he⟩
  · -- what stands for an empty dictionary
    exact (@compileSingle_dict_ok f hf [] required s h).1
  · exact (compileSingle_dict_ok hf h).1
  · cases (he f (mark required)).symm.trans h

theorem compileWith_ok {f : Factory} (hf : f.Compiles) {configuration : Value} {t : Schema}
    (h : (compileWith f .builtin configuration (mark none)).result = .ok t) : t.Compiled := by
  cases hlisted : configuration.listed? with
  | none =>
      rw [compileWith_unlisted f hlisted, map_eq_ok] at h
      obtain ⟨s, hs, rfl⟩ := h
      exact compileSingle_ok hf hs
  | some items =>
      obtain ⟨ss, hss, rfl⟩ := map_eq_ok.mp ((compileWith_listed f hlisted).symm.trans h)
      rw [ofAlternatives_single]
      refine .multi _ fun s hs => ?_
      obtain ⟨w, -, hw⟩ :=
        forall₂_mem_right (mapM_eq_ok.mp hss) ((dropRepeated_sublist _ _).subset hs)
      exact compileSingle_ok hf hw

theorem compileWith_marked_ok {f : Factory} (hf : f.Compiles) {c : Entries} {b : Bool} {t : Schema}
    (h : (compileWith f .builtin (.dict c) (mark (some b))).result = .ok t) :
    t.Compiled ∧ t.IsMarked := by
  rw [compileWith_unlisted f rfl, map_eq_ok] at h
  obtain ⟨s, hs, rfl⟩ := h
  obtain ⟨hcompiled, -, hmark⟩ := compileSingle_dict_ok hf hs
  refine ⟨hcompiled, fun u hu => ⟨b, ?_⟩⟩
  rw [List.mem_singleton.mp hu]
  exact hmark b rfl

/-- What is lower than a bound, compiled by a compiler. -/
def Factory.below (g : Factory) (n : Nat) : Factory := fun c a =>
  if c.height < n then g c a else throw (.fault .typeMismatch)

/-- A compiler that hands itself to the build steps, for all that is lower than
what it was given.  It may put another mark in the place of a mark. -/
theorem Factory.Compiles.below {g : Factory} {m : Value → Value}
    (hstep : ∀ c a, g c a = compileWith (g.below c.height) .builtin c (m a))
    (hnone : m .none = .none)
    (hmark : ∀ b, ∃ b', m (.dict [(.str "required", .bool b)]) = .dict (markEntries (some b')))
    (n : Nat) : (g.below n).Compiles := by
  induction n using Nat.strongRecOn with
  | ind n ih =>
      constructor
      · intro c t h
        unfold Factory.below at h
        split at h
        · rename_i hc
          rw [hstep, hnone] at h
          exact compileWith_ok (ih c.height hc) h
        · simp at h
      · intro c b t h
        unfold Factory.below at h
        split at h
        · rename_i hc
          obtain ⟨b', hb⟩ := hmark b
          rw [hstep, hb] at h
          exact compileWith_marked_ok (ih (Value.dict c).height hc) h
        · simp at h

/-- The factory that compiling hands to the build steps. -/
theorem compiles_below (n : Nat) : (Factory.below (compile .builtin) n).Compiles :=
  .below (m := id) (fun c a => by rw [compile]; rfl) rfl (fun b => ⟨b, rfl⟩) n

/-- What compiles against the controllers of this library has a plan. -/
theorem compiled_of_compile {configuration : Value} {t : Schema}
    (h : Registry.builtin.compile configuration .none = .ok t) : t.Compiled := by
  unfold Registry.compile at h
  rw [compile] at h
  exact compileWith_ok (compiles_below configuration.height) h

/-- Compiling hands itself to the build steps. -/
theorem compiles_compile : Factory.Compiles (compile .builtin) where
  plain h := compiled_of_compile h
  marked {c b t} h := by
    rw [compile] at h
    exact compileWith_marked_ok (compiles_below _) h

/-- A container's mark on a configuration is kept, and so is whether there is
a default. -/
theorem flags_of_compile {config : Entries} {b : Bool} {t : Instance}
    (h : Registry.builtin.compile (.dict config) (.dict (markEntries (some b))) = .ok (.single t)) :
    (Schema.single t).Compiled ∧ t.flag "required" = .ok b ∧
      t.flag "has_default" = .ok (config.get? "default").isSome := by
  change (compile .builtin (.dict config) (mark (some b))).result = _ at h
  rw [compile_eq, compileWith_unlisted _ rfl, map_eq_ok] at h
  obtain ⟨s, hs, heq⟩ := h
  obtain rfl := Schema.single.inj heq
  obtain ⟨hcompiled, hdefault, hmark⟩ := compileSingle_dict_ok compiles_compile hs
  refine ⟨hcompiled, ?_, ?_⟩
  · simp [Instance.flag, Instance.get?, hmark b rfl, Value.truthy]
  · simp [Instance.flag, Instance.get?, hdefault, Value.truthy]

end Conform
