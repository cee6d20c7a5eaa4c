/-
# `Proofs.Config.Unread` — options that nothing reads

A build step reads the options that it owns, by name.  Two dictionaries that hold
the same under all names that the chain of their type reads are therefore compiled
alike, run for run: what they hold besides has no influence, whether it was put
there on purpose or came from a container that hands the same options to all its
parts.

One option of a part is not read by its chain and counts nevertheless: `required`,
which the container takes out and turns into a mark.  The mark is an attribute, so
it enters the digest, and a part with it must have no default; but the schema never
looks at it, and what it says about values is as before.  Of several alternatives
those with one digest are one, so the marks also decide which of them remain.
-/
import Conform.Proofs.Config.Exclusive
import Conform.Proofs.Schema.Marked
import Conform.Proofs.Schema.OneOf
import Conform.Proofs.Schema.Transparent
import Conform.Proofs.Value.Reordered

namespace Conform

/-! ## What is read -/

/-- The options that the build step of a controller reads. -/
def Kind.options : Kind → List String
  | .typed => ["default", "enum", "transform", "type", "validator"]
  | k => k.optionNames

def Step.options : Step → List String
  | .builtin k => k.options
  | .call _ => []

/-- The options that the build steps of its chain read. -/
def Kind.reads (k : Kind) : List String := k.chain.flatMap fun l => l.build.options

/-- No build step of the chain reads an option under this key. -/
def Kind.Ignores (k : Kind) (key : Value) : Prop :=
  ∀ name ∈ k.reads, Value.sameKey key (.str name) = false

instance (k : Kind) (key : Value) : Decidable (k.Ignores key) :=
  inferInstanceAs (Decidable (∀ name ∈ k.reads, Value.sameKey key (.str name) = false))

/-- Two dictionaries hold the same under these names. -/
def Entries.AgreeOn (names : List String) (c c' : Entries) : Prop :=
  ∀ name ∈ names, c'.get? name = c.get? name

/-- Two dictionaries of one kind that hold the same under all names that are read. -/
def Entries.ReadAlike (c c' : Entries) : Prop :=
  ∃ k, c.kind? = some k ∧ c.AgreeOn k.reads c'

namespace Entries

variable {c c' : Entries} {k : Kind}

theorem AgreeOn.mono {names names' : List String} (h : c.AgreeOn names c') (hsub : names' ⊆ names) :
    c.AgreeOn names' c' := fun name hname => h name (hsub hname)

theorem AgreeOn.put {names : List String} (h : c.AgreeOn names c') (key x : Value) :
    (c.put key x).AgreeOn names (c'.put key x) := by
  intro name hname
  have hsame : c'.find? (.str name) = c.find? (.str name) := h name hname
  rw [get?, get?, find?_put, find?_put, hsame]

/-- What agrees, agrees with the same entries over it. -/
theorem AgreeOn.update {names : List String} (h : c.AgreeOn names c') (es : Entries) :
    (c.update es).AgreeOn names (c'.update es) := by
  induction es generalizing c c' with
  | nil => exact h
  | cons e rest ih => exact ih (h.put e.1 e.2)

theorem agreeOn_put {names : List String} {key : Value}
    (hkey : ∀ name ∈ names, Value.sameKey key (.str name) = false) (x : Value) :
    c.AgreeOn names (c.put key x) := fun name hname => find?_put_of_ne (hkey name hname)

/-- An entry in the upper dictionary shows under its own key only. -/
theorem agreeOn_update_put {names : List String} {key : Value}
    (hkey : ∀ name ∈ names, Value.sameKey key (.str name) = false) (x : Value) (es : Entries) :
    (c.update es).AgreeOn names (c.update (es.put key x)) := by
  induction es generalizing c with
  | nil => exact agreeOn_put hkey x
  | cons e rest ih =>
      obtain ⟨k, v⟩ := e
      rw [Entries.put]
      split
      · rename_i hsame
        have hk : ∀ name ∈ names, Value.sameKey k (.str name) = false := fun name hname => by
          rw [Value.sameKey_congr hsame, hkey name hname]
        have hput : (c.put k v).AgreeOn names (c.put k x) := fun name hname => by
          rw [get?, get?, find?_put_of_ne (hk name hname), find?_put_of_ne (hk name hname)]
        exact hput.update rest
      · exact ih

theorem ReadAlike.put {key x : Value} (hkind : c.kind? = some k) (hkey : k.Ignores key) :
    c.ReadAlike (c.put key x) :=
  ⟨k, hkind, agreeOn_put hkey x⟩

end Entries

theorem Kind.options_subset_reads {k j : Kind} (h : j.layer ∈ k.chain) : j.options ⊆ k.reads :=
  fun _ hname => List.mem_flatMap.mpr ⟨j.layer, h, hname⟩

theorem Kind.type_mem_reads (k : Kind) : "type" ∈ k.reads := by
  cases k <;> decide

theorem Kind.required_not_mem_reads (k : Kind) : "required" ∉ k.reads := by
  cases k <;> decide

namespace Options

variable {f : Factory} {c c' : Entries}

/-- A build step makes the same of the same options. -/
theorem ofKind_congr {k : Kind} (h : c.AgreeOn k.options c') : ofKind f c' k = ofKind f c k := by
  cases k with
  | typed =>
      have hdefault : c'.get? "default" = c.get? "default" := h _ (by decide)
      have henum : c'.get? "enum" = c.get? "enum" := h _ (by decide)
      have htransform : c'.get? "transform" = c.get? "transform" := h _ (by decide)
      have htype : c'.get? "type" = c.get? "type" := h _ (by decide)
      have hvalidator : c'.get? "validator" = c.get? "validator" := h _ (by decide)
      simp only [ofKind, typed, enumOption, callableOption, Entries.getD, hdefault, henum,
        htransform, htype, hvalidator]
  | boolean | symbol => rfl
  | array =>
      have hmost : c'.get? "max_items" = c.get? "max_items" := h _ (by decide)
      have hleast : c'.get? "min_items" = c.get? "min_items" := h _ (by decide)
      have hschema : c'.get? "schema" = c.get? "schema" := h _ (by decide)
      have hunique : c'.get? "unique_items" = c.get? "unique_items" := h _ (by decide)
      simp only [ofKind, array, lowerBound, upperBound, schemaOption, flag, Entries.getD, hmost,
        hleast, hschema, hunique]
  | function =>
      have hmost : c'.get? "max_arguments" = c.get? "max_arguments" := h _ (by decide)
      have hleast : c'.get? "min_arguments" = c.get? "min_arguments" := h _ (by decide)
      have hnamed : c'.get? "named" = c.get? "named" := h _ (by decide)
      simp only [ofKind, function, lowerBound, upperBound, flag, Entries.getD, hmost, hleast, hnamed]
  | number =>
      have habove : c'.get? "exclusive_max" = c.get? "exclusive_max" := h _ (by decide)
      have hbelow : c'.get? "exclusive_min" = c.get? "exclusive_min" := h _ (by decide)
      have hinteger : c'.get? "integer" = c.get? "integer" := h _ (by decide)
      have hmost : c'.get? "max" = c.get? "max" := h _ (by decide)
      have hleast : c'.get? "min" = c.get? "min" := h _ (by decide)
      simp only [ofKind, number, numberBound, flag, Entries.getD, habove, hbelow, hinteger, hmost,
        hleast]
  | object =>
      have hnull : c'.get? "allow_null" = c.get? "allow_null" := h _ (by decide)
      have hclean : c'.get? "clean" = c.get? "clean" := h _ (by decide)
      have hproperties : c'.get? "properties" = c.get? "properties" := h _ (by decide)
      have hschema : c'.get? "schema" = c.get? "schema" := h _ (by decide)
      simp only [ofKind, object, propertiesOption, schemaOption, flag, Entries.getD, hnull, hclean,
        hproperties, hschema]
  | oneOf =>
      have hvariants : c'.get? "one_of" = c.get? "one_of" := h _ (by decide)
      simp only [ofKind, oneOf, hvariants]
  | string =>
      have hmost : c'.get? "max_length" = c.get? "max_length" := h _ (by decide)
      have hleast : c'.get? "min_length" = c.get? "min_length" := h _ (by decide)
      have hpattern : c'.get? "pattern" = c.get? "pattern" := h _ (by decide)
      simp only [ofKind, string, lowerBound, upperBound, patternOption, hmost, hleast, hpattern]

end Options

/-! ## Compiling -/

section compile

variable {f : Factory} {c c' : Entries} {k : Kind}

theorem Kind.mem_chain {k : Kind} {l : Layer} (h : l ∈ k.chain) : ∃ j, l = Kind.layer j := by
  cases k <;> simp only [chain, List.mem_cons, List.not_mem_nil, or_false] at h <;>
    first | exact ⟨_, h⟩ | exact h.elim (fun h => ⟨_, h⟩) fun h => ⟨_, h⟩

theorem typedEntries_agree (htype : c'.get? "type" = c.get? "type") :
    (typedEntries c').2 = (typedEntries c).2 := by
  unfold typedEntries
  rw [Entries.getD, Entries.getD, htype]
  split <;> rfl

theorem kind?_agree (htype : c'.get? "type" = c.get? "type") : c'.kind? = c.kind? := by
  rw [Entries.kind?, Entries.kind?, typedEntries_agree htype]

theorem Entries.AgreeOn.typedEntries {names : List String} (htype : c'.get? "type" = c.get? "type")
    (h : c.AgreeOn names c') :
    AgreeOn names (Conform.typedEntries c).1 (Conform.typedEntries c').1 := by
  intro name hname
  by_cases hne : name = "type"
  · subst hne
    rw [get?_typedEntries, get?_typedEntries, typedEntries_agree htype]
  · rw [get?_typedEntries_of_ne c' hne, get?_typedEntries_of_ne c hne, h name hname]

theorem buildInstance_congr (h : c.AgreeOn k.reads c') {d : BuiltinController} (hd : d.kind = k)
    (extras : Entries) :
    buildInstance f d.definition c' extras = buildInstance f d.definition c extras := by
  subst hd
  have hlayer : ∀ owner attrs, ∀ l ∈ d.kind.chain,
      buildLayer f owner c' attrs l = buildLayer f owner c attrs l := by
    intro owner attrs l hl
    obtain ⟨j, rfl⟩ := Kind.mem_chain hl
    have hstep : Options.ofStep f c' (Kind.layer j).build = Options.ofStep f c (Kind.layer j).build :=
      Options.ofKind_congr (h.mono (Kind.options_subset_reads hl))
    simp only [buildLayer, hstep]
  have hchain := fun owner => Build.parallel_eq.foldlM (hlayer owner) []
  simp only [buildInstance, BuiltinController.definition, hchain]

theorem compileSingle_eq (c : Entries) (additional : Value) :
    compileSingle f .builtin (.dict c) additional
      = (liftM (givenEntries .additionalNotADict additional) : Build Entries) >>= fun extras =>
          match Registry.builtin.resolve (typedEntries c).2 with
          | some d => buildInstance f d (typedEntries c).1 extras
          | none => throw (.config (.unknownType (typedEntries c).2)) := by
  rfl

theorem compileWith_dict (c : Entries) (additional : Value) :
    compileWith f .builtin (.dict c) additional = do
      if additional.listed?.isSome then throw (.config .additionalList)
      return .single (← compileSingle f .builtin (.dict c) additional) := rfl

/-- Dictionaries that are read alike are compiled alike. -/
theorem Entries.ReadAlike.compile (h : c.ReadAlike c') (additional : Value) :
    compile .builtin (.dict c') additional = compile .builtin (.dict c) additional := by
  obtain ⟨k, hkind, hagree⟩ := h
  have htype := hagree "type" k.type_mem_reads
  obtain ⟨d, -, hd, hresolve, -⟩ := Registry.resolve_of_kindOf hkind
  have hsingle : compileSingle (Conform.compile .builtin) .builtin (.dict c') additional
      = compileSingle (Conform.compile .builtin) .builtin (.dict c) additional := by
    have hbuild := buildInstance_congr (f := Conform.compile .builtin)
      (hagree.typedEntries htype) hd
    rw [compileSingle_eq, compileSingle_eq, typedEntries_agree htype, hresolve]
    exact congrArg _ (funext hbuild)
  rw [compile_eq, compile_eq, compileWith_dict, compileWith_dict, hsingle]

end compile

/-! ## Merged configurations -/

section merged

variable {c c' : Entries} {pairs pairs' : List Entries} {key generic specific : Value}

theorem compileCandidate_dict (f : Factory) (key : Value) (c : Entries) :
    compileCandidate f key (.dict c)
      = (liftM (c.getD "required" (.bool false)).truthy : Build Bool) >>= fun required =>
          f (.dict (c.erase (.str "required"))) (mark (some required)) >>= fun schema => do
            if ← schema.required then
              if ← schema.hasDefault then throw (.config (.requiredDefault key))
            return schema := by
  rw [compileCandidate, splitRequired_eq]
  cases (c.getD "required" (.bool false)).truthy <;> rfl

theorem Entries.ReadAlike.erase_required (h : c.ReadAlike c') :
    ReadAlike (c.erase (.str "required")) (c'.erase (.str "required")) := by
  obtain ⟨k, hkind, hagree⟩ := h
  have hget : ∀ (d : Entries) (name : String), name ≠ "required" →
      (d.erase (.str "required")).get? name = d.get? name :=
    fun d name hname => find?_erase_of_ne (Value.sameKey_str_ne hname.symm)
  refine ⟨k, ?_, fun name hname => ?_⟩
  · rw [kind?_agree (hget c "type" (by decide)), hkind]
  · have hne : name ≠ "required" := fun heq => k.required_not_mem_reads (heq ▸ hname)
    rw [hget c' name hne, hget c name hne, hagree name hname]

/-- Alternatives that are read alike, and marked alike, are compiled alike. -/
theorem Entries.ReadAlike.candidate (h : c.ReadAlike c')
    (hrequired : c'.get? "required" = c.get? "required") (key : Value) :
    compileCandidate (Conform.compile .builtin) key (.dict c')
      = compileCandidate (Conform.compile .builtin) key (.dict c) := by
  rw [compileCandidate_dict, compileCandidate_dict, getD, getD, hrequired]
  simp only [h.erase_required.compile]

theorem mapM_candidates {f g : Entries → Build Schema}
    (h : List.Forall₂ (fun c c' => g c' = f c) pairs pairs') : pairs'.mapM g = pairs.mapM f := by
  induction h with
  | nil => rfl
  | cons hc _ ih => rw [List.mapM_cons, List.mapM_cons, hc, ih]

theorem compileMerged_congr {generic' specific' : Value} (hg : generic.IsPartOption)
    (hs : specific.IsPartOption) (hg' : generic'.IsPartOption) (hs' : specific'.IsPartOption)
    (h : List.Forall₂ (fun c c' => c.ReadAlike c' ∧ c'.get? "required" = c.get? "required")
      (generic.pairs specific) (generic'.pairs specific')) (key : Value) :
    compileMerged (compile .builtin) key generic' specific'
      = compileMerged (compile .builtin) key generic specific := by
  rw [compileMerged_eq_pairs _ key hg hs, compileMerged_eq_pairs _ key hg' hs']
  rw [mapM_candidates (h.imp fun c c' hc => hc.1.candidate hc.2 key)]

end merged

/-! ## The mark -/

/-- How two runs for the part under a key compare, when the first may be refused because
of `P`, and the second because of `P'`: apart from that, both fail alike, or both
succeed. -/
inductive RefusedOr {α β : Type} (key : Value) (P P' : Prop) (R : α → β → Prop) :
    Outcome α → Outcome β → Prop
  | first (h : P) (y : Outcome β) : RefusedOr key P P' R (.error (.config (.requiredDefault key))) y
  | second (h : P') (x : Outcome α) :
      RefusedOr key P P' R x (.error (.config (.requiredDefault key)))
  | failed (e : Failure) : RefusedOr key P P' R (.error e) (.error e)
  | done {a : α} {b : β} (h : R a b) : RefusedOr key P P' R (.ok a) (.ok b)

/-- An alternative that is required and has a default. -/
def Entries.Conflicts (pair : Entries) : Prop :=
  (pair.getD "required" (.bool false)).truthy = .ok true ∧ (pair.get? "default").isSome = true

namespace RefusedOr

variable {α β γ δ : Type} {key : Value} {P P' Q Q' : Prop} {R : α → β → Prop} {S : γ → δ → Prop}
  {x : Outcome α} {y : Outcome β}

theorem mono (h : RefusedOr key P P' R x y) (hP : P → Q) (hP' : P' → Q') :
    RefusedOr key Q Q' R x y := by
  cases h with
  | first h y => exact .first (hP h) y
  | second h x => exact .second (hP' h) x
  | failed e => exact .failed e
  | done h => exact .done h

theorem bind {f : α → Outcome γ} {g : β → Outcome δ} (h : RefusedOr key P P' R x y)
    (hfg : ∀ a b, R a b → RefusedOr key P P' S (f a) (g b)) :
    RefusedOr key P P' S (x >>= f) (y >>= g) := by
  cases h with
  | first h y => exact .first h _
  | second h x => exact .second h _
  | failed e => exact .failed e
  | done h => exact hfg _ _ h

end RefusedOr

section mark

variable {c c' : Entries} {pairs pairs' : List Entries} {key generic specific : Value} {b b' : Bool}

theorem hash_marks (attrs : Attributes) (b b' : Bool) :
    (∃ hash hash', Attributes.hash (attrs ++ Options.marks (some b)) = .ok hash ∧
        Attributes.hash (attrs ++ Options.marks (some b')) = .ok hash') ∨
      ∃ e, Attributes.hash (attrs ++ Options.marks (some b)) = .error e ∧
        Attributes.hash (attrs ++ Options.marks (some b')) = .error e := by
  have htoken : ∀ b : Bool, ∃ s, (Value.bool b).token = .ok s := fun b =>
    ⟨_, Value.token_ok rfl rfl⟩
  exact Attributes.hash_cases (List.rel_append (Options.AttributesRelated.refl attrs)
    (.cons ⟨rfl, .inl ⟨htoken b, htoken b'⟩⟩ .nil))

/-- A dictionary is read as the same plan whatever its mark, or fails alike. -/
theorem readInstance_remarked (f : Factory) (c : Entries) (k : Kind) (b b' : Bool) :
    (∃ e, Options.readInstance f c k (some b) = .error e ∧
        Options.readInstance f c k (some b') = .error e) ∨
      ∃ s t : Instance, Options.readInstance f c k (some b) = .ok s ∧
        Options.readInstance f c k (some b') = .ok t ∧ s.SameButMark t := by
  simp only [Options.readInstance, Options.readAttributes]
  cases hcommon : Options.typed c with
  | error e => exact .inl ⟨e, rfl, rfl⟩
  | ok common =>
      cases hmore : Options.own f c k with
      | error e => exact .inl ⟨e, rfl, rfl⟩
      | ok more =>
          simp only [ok_bind, pure_eq]
          rcases hash_marks (common ++ more) b b' with ⟨hash, hash', hh, hh'⟩ | ⟨e, he, he'⟩
          · obtain ⟨d, rfl, rfl, -, -⟩ := Options.own_reads hmore
            obtain ⟨p, rfl, hrequired, rfl, -⟩ := Options.typed_ok hcommon d (some b)
            have hmark : Options.marks (some b) = p.added := by rw [Plan.added, hrequired]; rfl
            refine .inr ⟨p.toInstance hash, (p.remark (some b')).toInstance hash', ?_, ?_,
              Plan.sameButMark_remark (by rw [hrequired]; rfl)⟩
            · rw [hh, hmark]
              rfl
            · rw [hh']
              rfl
          · refine .inl ⟨.fault e, ?_, ?_⟩
            · rw [he]
              rfl
            · rw [he']
              rfl

theorem compile_remarked (c : Entries) (b b' : Bool) :
    (∃ e, (compile .builtin (.dict c) (mark (some b))).result = .error e ∧
        (compile .builtin (.dict c) (mark (some b'))).result = .error e) ∨
      ∃ s t : Instance, (compile .builtin (.dict c) (mark (some b))).result = .ok (.single s) ∧
        (compile .builtin (.dict c) (mark (some b'))).result = .ok (.single t) ∧
        s.SameButMark t := by
  simp only [compile_eq, compileWith_unlisted _ (rfl : (Value.dict c).listed? = none),
    compileSingle_dict]
  cases c.kind? with
  | none => exact .inl ⟨_, rfl, rfl⟩
  | some k =>
      rcases readInstance_remarked (compile .builtin) (typedEntries c).1 k b b' with
        ⟨e, he, he'⟩ | ⟨s, t, hs, ht, hsame⟩
      · exact .inl ⟨e, congrArg (Schema.single <$> ·) he, congrArg (Schema.single <$> ·) he'⟩
      · exact .inr ⟨s, t, congrArg (Schema.single <$> ·) hs, congrArg (Schema.single <$> ·) ht, hsame⟩

/-- An alternative is compiled without the option `required`, and refused if it was set
and there is a default. -/
theorem candidate_result (hb : (c.getD "required" (.bool false)).truthy = .ok b) (key : Value) :
    (compileCandidate (compile .builtin) key (.dict c)).result
      = (compile .builtin (.dict (c.erase (.str "required"))) (mark (some b))).result >>= fun u =>
          if b = true ∧ (c.get? "default").isSome = true then
            .error (.config (.requiredDefault key))
          else .ok u := by
  rw [compileCandidate_dict, Build.result_bind, Build.result_lift_fault, hb, lift_ok, ok_bind,
    Build.result_bind]
  cases hresult : (compile .builtin (.dict (c.erase (.str "required"))) (mark (some b))).result with
  | error e => rfl
  | ok schema =>
      obtain ⟨s, -, rfl, -, -⟩ := compile_dict_ok.mp hresult
      obtain ⟨-, hrequired, hdefault⟩ := flags_of_compile hresult
      have hget : (c.erase (.str "required")).get? "default" = c.get? "default" :=
        Entries.find?_erase_of_ne rfl
      rw [hget] at hdefault
      simp only [ok_bind, Schema.required, Schema.hasDefault, hrequired, hdefault, Build.result_bind,
        Build.result_lift_fault, lift_ok]
      cases b with
      | false => rfl
      | true => cases (c.get? "default").isSome <;> rfl

/-- Alternatives that are read alike, whatever their marks. -/
theorem Entries.ReadAlike.remarked (h : c.ReadAlike c')
    (hb : (c.getD "required" (.bool false)).truthy = .ok b)
    (hb' : (c'.getD "required" (.bool false)).truthy = .ok b') (key : Value) :
    RefusedOr key c.Conflicts c'.Conflicts
      (fun u u' => ∃ s t, u = .single s ∧ u' = .single t ∧ CompilesAlone c s ∧ CompilesAlone c' t ∧
        s.SameButMark t)
      (compileCandidate (Conform.compile .builtin) key (.dict c)).result
      (compileCandidate (Conform.compile .builtin) key (.dict c')).result := by
  have hsame := compile_remarked (c.erase (.str "required")) b b'
  rw [← h.erase_required.compile (mark (some b'))] at hsame
  rw [candidate_result hb, candidate_result hb']
  rcases hsame with ⟨e, he, he'⟩ | ⟨s, t, hs, ht, hsame⟩
  · rw [he, he']
    exact .failed e
  · rw [hs, ht, ok_bind, ok_bind]
    split
    · rename_i hconflict
      exact .first ⟨by rw [hb, hconflict.1], hconflict.2⟩ _
    · rename_i hfirst
      split
      · rename_i hconflict
        exact .second ⟨by rw [hb', hconflict.1], hconflict.2⟩ _
      · rename_i hsecond
        exact .done ⟨s, t, rfl, rfl, ⟨b, hb, hs, hfirst⟩, ⟨b', hb', ht, hsecond⟩, hsame⟩

/-- Pairs of alternatives that differ, as far as they are read, in their marks only. -/
def Entries.Remarked (c c' : Entries) : Prop :=
  c.ReadAlike c' ∧ (∃ b, (c.getD "required" (.bool false)).truthy = .ok b) ∧
    ∃ b', (c'.getD "required" (.bool false)).truthy = .ok b'

theorem mapM_remarked (h : List.Forall₂ Entries.Remarked pairs pairs') (key : Value) :
    RefusedOr key (∃ c ∈ pairs, c.Conflicts) (∃ c' ∈ pairs', c'.Conflicts)
      (fun us us' => ∃ ss ts : List Instance, us = ss.map .single ∧ us' = ts.map .single ∧
        List.Forall₂ CompilesAlone pairs ss ∧ List.Forall₂ CompilesAlone pairs' ts ∧
        List.Forall₂ Instance.SameButMark ss ts)
      (pairs.mapM fun c => (compileCandidate (compile .builtin) key (.dict c)).result)
      (pairs'.mapM fun c' => (compileCandidate (compile .builtin) key (.dict c')).result) := by
  induction h with
  | nil => exact .done ⟨[], [], rfl, rfl, .nil, .nil, .nil⟩
  | @cons c c' rest rest' hc _ ih =>
      obtain ⟨halike, ⟨b, hb⟩, b', hb'⟩ := hc
      rw [List.mapM_cons, List.mapM_cons]
      refine ((halike.remarked hb hb' key).mono (fun hc => ⟨c, List.mem_cons_self, hc⟩)
        fun hc => ⟨c', List.mem_cons_self, hc⟩).bind ?_
      rintro _ _ ⟨s, t, rfl, rfl, hs, ht, hsame⟩
      refine (ih.mono (fun ⟨d, hd, h⟩ => ⟨d, List.mem_cons_of_mem _ hd, h⟩)
        fun ⟨d, hd, h⟩ => ⟨d, List.mem_cons_of_mem _ hd, h⟩).bind ?_
      rintro _ _ ⟨ss, ts, rfl, rfl, hss, hts, hall⟩
      exact .done ⟨s :: ss, t :: ts, rfl, rfl, .cons hs hss, .cons ht hts, .cons hsame hall⟩

theorem compileMerged_remarked {generic' specific' : Value} (hg : generic.IsPartOption)
    (hs : specific.IsPartOption) (hg' : generic'.IsPartOption) (hs' : specific'.IsPartOption)
    (h : List.Forall₂ Entries.Remarked (generic.pairs specific) (generic'.pairs specific'))
    (key : Value) :
    RefusedOr key (∃ c ∈ generic.pairs specific, c.Conflicts)
      (∃ c' ∈ generic'.pairs specific', c'.Conflicts)
      (fun u u' => ∃ ss ts : List Instance, u = .collapse (ss.map .single) ∧
        u' = .collapse (ts.map .single) ∧ List.Forall₂ CompilesAlone (generic.pairs specific) ss ∧
        List.Forall₂ CompilesAlone (generic'.pairs specific') ts ∧
        List.Forall₂ Instance.SameButMark ss ts)
      (compileMerged (compile .builtin) key generic specific).result
      (compileMerged (compile .builtin) key generic' specific').result := by
  rw [compileMerged_eq_pairs _ key hg hs, compileMerged_eq_pairs _ key hg' hs']
  simp only [Build.result_bind, Build.result_mapM, Build.result_pure]
  refine (mapM_remarked h key).bind ?_
  rintro _ _ ⟨ss, ts, rfl, rfl, hss, hts, hall⟩
  exact .done ⟨ss, ts, rfl, rfl, hss, hts, hall⟩

end mark

/-! ## Options without influence -/

/-- **Options that nothing reads have no influence.**  A dictionary is compiled as it is
with another option that no build step of its chain reads.  So is a part, whether the
option comes with the part or from its container, and altogether when its merged
alternatives are read alike and hold the same under `required`.

Whatever they hold there, if it counts as true or false, the part compiles to the same
but for the marks and the digests, and the alternatives that these tell apart; or it
fails alike, unless an alternative is required and has a default. -/
theorem unread_ignored :
    (∀ (c : Entries) (k : Kind) (key : Value), c.kind? = some k → k.Ignores key →
      ∀ x additional : Value, Registry.builtin.compile (.dict (c.put key x)) additional
        = Registry.builtin.compile (.dict c) additional) ∧
    (∀ (g s : Entries) (k : Kind) (key : Value), Entries.kind? (g.update s) = some k →
      k.Ignores key → Value.sameKey key (.str "required") = false → ∀ name x : Value,
        (compileMerged (compile .builtin) name (.dict g) (.dict (s.put key x))).result
            = (compileMerged (compile .builtin) name (.dict g) (.dict s)).result ∧
          (compileMerged (compile .builtin) name (.dict (g.put key x)) (.dict s)).result
            = (compileMerged (compile .builtin) name (.dict g) (.dict s)).result) ∧
    ∀ generic specific generic' specific' : Value, generic.IsPartOption → specific.IsPartOption →
      generic'.IsPartOption → specific'.IsPartOption →
      (List.Forall₂ (fun c c' => c.ReadAlike c' ∧ c'.get? "required" = c.get? "required")
        (generic.pairs specific) (generic'.pairs specific') → ∀ name : Value,
        (compileMerged (compile .builtin) name generic' specific').result
          = (compileMerged (compile .builtin) name generic specific).result) ∧
      (List.Forall₂ Entries.Remarked (generic.pairs specific) (generic'.pairs specific') →
        ∀ name : Value, RefusedOr name (∃ c ∈ generic.pairs specific, c.Conflicts)
          (∃ c' ∈ generic'.pairs specific', c'.Conflicts)
          (fun u u' => ∃ ss ts : List Instance, u = .collapse (ss.map .single) ∧
            u' = .collapse (ts.map .single) ∧
            List.Forall₂ CompilesAlone (generic.pairs specific) ss ∧
            List.Forall₂ CompilesAlone (generic'.pairs specific') ts ∧
            List.Forall₂ Instance.SameButMark ss ts)
          (compileMerged (compile .builtin) name generic specific).result
          (compileMerged (compile .builtin) name generic' specific').result) := by
  refine ⟨fun c k key hkind hkey x additional => ?_, fun g s k key hkind hkey hrequired name x => ?_,
    fun generic specific generic' specific' hg hs hg' hs' => ⟨fun h name => ?_, fun h name => ?_⟩⟩
  · exact congrArg Build.result ((Entries.ReadAlike.put hkind hkey).compile additional)
  · have hnames : ∀ read ∈ "required" :: k.reads, Value.sameKey key (.str read) = false :=
      List.forall_mem_cons.mpr ⟨hrequired, hkey⟩
    have halone : ∀ {g' s' : Entries}, (g.update s).AgreeOn ("required" :: k.reads) (g'.update s') →
        (compileMerged (compile .builtin) name (.dict g') (.dict s')).result
          = (compileMerged (compile .builtin) name (.dict g) (.dict s)).result := by
      intro g' s' hagree
      have hpairs : List.Forall₂
          (fun c c' => c.ReadAlike c' ∧ c'.get? "required" = c.get? "required")
          ((Value.dict g).pairs (.dict s)) ((Value.dict g').pairs (.dict s')) :=
        .cons ⟨⟨k, hkind, hagree.mono (List.subset_cons_self _ _)⟩, hagree _ List.mem_cons_self⟩ .nil
      rw [compileMerged_congr (.inr rfl) (.inr rfl) (.inr rfl) (.inr rfl) hpairs]
    exact ⟨halone (Entries.agreeOn_update_put hnames x s),
      halone ((Entries.agreeOn_put hnames x).update s)⟩
  · rw [compileMerged_congr hg hs hg' hs' h]
  · exact compileMerged_remarked hg hs hg' hs' h name

/-! ## Options from a container, and marks -/

/-- The bound of an array does not show in a part that is none, and a mark does not in
what the part says about values. -/
theorem unread_ignored_bound :
    (∃ s, Registry.builtin.compile (.dict []) .none = .ok s ∧
      Registry.builtin.compile (.dict [(.str "min_items", .int 3)]) .none = .ok s) ∧
    ∃ s t : Instance, (compileMerged (compile .builtin) (.str "a") (.dict []) (.dict [])).result
        = .ok (.single s) ∧
      (compileMerged (compile .builtin) (.str "a") (.dict [(.str "min_items", .int 3)])
        (.dict [])).result = .ok (.single s) ∧
      (compileMerged (compile .builtin) (.str "a") (.dict [])
        (.dict [(.str "required", .bool true)])).result = .ok (.single t) ∧ s.SameButMark t := by
  have hignores : Kind.Ignores .typed (.str "min_items") := by decide
  have hrequired : Kind.Ignores .typed (.str "required") := by decide
  obtain ⟨hash, hempty⟩ := Schema.compile_empty
  have halone := compilesAlone_validator (rfl : (optional Value.callable none).token = .ok "null")
  have hpair : List.Forall₂ CompilesAlone ((Value.dict []).pairs (.dict [])) [_] :=
    .cons halone .nil
  have hmerged := compileMerged_pairs (.str "a") (.inr rfl) (.inr rfl) hpair
  obtain ⟨hoption, hpart, hparts⟩ := unread_ignored
  refine ⟨⟨_, hempty, (hoption [] .typed _ rfl hignores (.int 3) .none).trans hempty⟩, ?_⟩
  have hgeneric := (hpart [] [] .typed _ rfl hignores rfl (.str "a") (.int 3)).2.trans hmerged
  have hpairs : List.Forall₂ Entries.Remarked ((Value.dict []).pairs (.dict []))
      ((Value.dict []).pairs (.dict [(.str "required", .bool true)])) :=
    .cons ⟨.put rfl hrequired, ⟨false, rfl⟩, true, rfl⟩ .nil
  have hresult := (hparts (.dict []) (.dict []) (.dict []) (.dict [(.str "required", .bool true)])
    (.inr rfl) (.inr rfl) (.inr rfl) (.inr rfl)).2 hpairs (.str "a")
  rw [hmerged] at hresult
  generalize hmarked : (compileMerged (compile .builtin) (.str "a") (.dict [])
    (.dict [(.str "required", .bool true)])).result = outcome at hresult
  cases hresult with
  | second hconflict =>
      obtain ⟨c', hc', -, hdefault⟩ := hconflict
      obtain rfl : c' = [(.str "required", .bool true)] := List.mem_singleton.mp hc'
      cases hdefault
  | done hsame =>
      obtain ⟨ss, ts, hs, rfl, hss, hts, hsame⟩ := hsame
      obtain ⟨s, _, -, hnil, rfl⟩ := List.forall₂_cons_left_iff.mp hss
      obtain rfl := List.forall₂_nil_left_iff.mp hnil
      obtain ⟨t, _, hst, hnil, rfl⟩ := List.forall₂_cons_left_iff.mp hsame
      obtain rfl := List.forall₂_nil_left_iff.mp hnil
      obtain rfl := Schema.single.inj hs
      exact ⟨_, t, hmerged, hgeneric, rfl, hst⟩

/-! ## What a mark decides

A mark that counts neither as true nor as false makes compiling fail.  And of two
alternatives that differ in nothing else, one remains once they are marked alike, and
its error is its own and no list of errors. -/

def markedPlan (b : Bool) : Plan := (listedPlan (.int 1)).remark (some b)

def markedLines (b : Bool) : List String :=
  ["default=\x7b\"$undefined\":true\x7d", "enum=[1]", "has_default=false",
    "required=" ++ (if b then "true" else "false"), "transform=null", "type=\"typed\"",
    "validator=null"]

def markedOptions (b : Bool) : Entries := listedOptions (.int 1) ++ [(.str "required", .bool b)]

theorem sortedPublic_markedPlan (b : Bool) :
    (markedPlan b).attributes.sortedPublic
      = [("default", .undefined), ("enum", .tuple [.int 1]), ("has_default", .bool false),
          ("required", .bool b), ("transform", .none), ("type", .str "typed"),
          ("validator", .none)] := Plan.sortedPublic_typed rfl rfl

theorem hash_markedPlan (b : Bool) :
    (markedPlan b).attributes.hash = .ok (Attributes.hashLines (markedLines b)) := by
  have hundefined : Value.undefined.token = .ok "\x7b\"$undefined\":true\x7d" :=
    Value.token_ok rfl Value.outline_undefined
  have hflag : (Value.bool b).token = .ok (if b then "true" else "false") := by cases b <;> rfl
  rw [Attributes.hash, Attributes.lines, sortedPublic_markedPlan]
  simp only [List.mapM_cons, List.mapM_nil, Attributes.line, hundefined, hflag, ok_bind]
  rfl

/-- The schema of an alternative that lists one number. -/
def markedInstance (b : Bool) : Instance :=
  (markedPlan b).toInstance (Attributes.hashLines (markedLines b))

theorem compilesAlone_marked {c : Entries} {b : Bool}
    (hc : c.erase (.str "required") = listedOptions (.int 1))
    (hb : (c.getD "required" (.bool false)).truthy = .ok b) (hdefault : c.get? "default" = none) :
    CompilesAlone c (markedInstance b) := by
  refine ⟨b, hb, ?_, fun hboth => ?_⟩
  · rw [hc]
    exact Plan.compile_eq_plan (p := markedPlan b) (listedOptions (.int 1))
      ⟨.typed, [.str "typed", .aliasKey .typed], true⟩ rfl rfl rfl (absurd rfl) (hash_markedPlan b)
  · rw [hdefault] at hboth
    cases hboth.2

/-- Two alternatives that list the same number, of which the first is marked. -/
def markedAlternatives : Value := .list [.dict (markedOptions true), .dict (listedOptions (.int 1))]

/-- With one digest they are one, with two they are two. -/
theorem collapse_pair (s t : Instance) :
    Schema.collapse [.single s, .single t]
      = if s.hash = t.hash then .single s else .multi [s, t] := by
  have hcontains : [s.hash].contains t.hash = decide (s.hash = t.hash) := by
    simp [eq_comm]
  simp only [Schema.collapse, List.flatMap_cons, List.flatMap_nil, Schema.members, List.append_nil,
    List.cons_append, List.nil_append, Schema.dropRepeated, List.contains_nil, hcontains]
  by_cases hhash : s.hash = t.hash <;> simp [hhash]

theorem compile_markedAlternatives {specific : Value} {b : Bool} (hs : specific.IsPartOption)
    (hpairs : List.Forall₂ CompilesAlone (markedAlternatives.pairs specific)
      [markedInstance b, markedInstance false]) :
    (compileMerged (compile .builtin) (.str "a") markedAlternatives specific).result
      = .ok (if b then .multi [markedInstance true, markedInstance false]
        else .single (markedInstance false)) := by
  have hdigests : (markedInstance true).hash ≠ (markedInstance false).hash := by
    show Attributes.hashLines (markedLines true) ≠ Attributes.hashLines (markedLines false)
    decide +kernel
  rw [compileMerged_pairs (.str "a") (.inr rfl) hs hpairs]
  show Except.ok (Schema.collapse [.single (markedInstance b), .single (markedInstance false)]) = _
  rw [collapse_pair]
  cases b with
  | true => rw [if_neg hdigests, if_pos rfl]
  | false => rw [if_pos rfl, if_neg Bool.false_ne_true]

theorem error_markedInstance (b : Bool) :
    ∃ e, (Schema.single (markedInstance b)).error (.int 2) (.str "") = .ok (some e) ∧
      e.kind = .notInEnum := by
  have hmark : (Schema.single (markedInstance b)).error (.int 2) (.str "")
      = (Schema.single ((listedPlan (.int 1)).toInstance "")).error (.int 2) (.str "") :=
    Schema.error_remark _ _
  rw [hmark, Schema.error_single]
  exact ⟨_, rfl, rfl⟩

/-- A mark decides more than whether a value is required: whether the part compiles at
all, and which alternatives remain. -/
theorem required_decides :
    ((∃ u, (compileMerged (compile .builtin) (.str "a") .none (.dict [])).result = .ok u) ∧
      (compileMerged (compile .builtin) (.str "a") .none
        (.dict [(.str "required", .twoNumbers)])).result = .error (.fault .badValue)) ∧
    ∃ u u' e e', (compileMerged (compile .builtin) (.str "a") markedAlternatives .none).result
        = .ok u ∧
      (compileMerged (compile .builtin) (.str "a") markedAlternatives
        (.dict [(.str "required", .bool false)])).result = .ok u' ∧
      u.error (.int 2) (.str "") = .ok (some e) ∧ u'.error (.int 2) (.str "") = .ok (some e') ∧
      e.kind = .multi ∧ e'.kind = .notInEnum := by
  refine ⟨⟨?_, ?_⟩, ?_⟩
  · have halone := compilesAlone_validator (rfl : (optional Value.callable none).token = .ok "null")
    have hpair : List.Forall₂ CompilesAlone (Value.none.pairs (.dict [])) [_] := .cons halone .nil
    exact ⟨_, compileMerged_pairs (.str "a") (.inl rfl) (.inr rfl) hpair⟩
  · rw [compileMerged_eq_pairs _ _ (.inl rfl) (.inr rfl)]
    rfl
  · have hmarked : List.Forall₂ CompilesAlone (markedAlternatives.pairs .none)
        [markedInstance true, markedInstance false] :=
      .cons (compilesAlone_marked rfl rfl rfl) (.cons (compilesAlone_marked rfl rfl rfl) .nil)
    have hunmarked : List.Forall₂ CompilesAlone
        (markedAlternatives.pairs (.dict [(.str "required", .bool false)]))
        [markedInstance false, markedInstance false] :=
      .cons (compilesAlone_marked rfl rfl rfl) (.cons (compilesAlone_marked rfl rfl rfl) .nil)
    obtain ⟨d, hd, -⟩ := error_markedInstance true
    obtain ⟨e, he, hkind⟩ := error_markedInstance false
    have hmulti : (Schema.multi [markedInstance true, markedInstance false]).error (.int 2) (.str "")
        = .ok (some (.ofVariants [d, e] "" .multi)) :=
      error_multi_refused.mpr ⟨_, rfl, .cons hd (.cons he .nil)⟩
    exact ⟨_, _, _, e, compile_markedAlternatives (.inl rfl) hmarked,
      compile_markedAlternatives (.inr rfl) hunmarked, hmulti, he, rfl, hkind⟩

end Conform
