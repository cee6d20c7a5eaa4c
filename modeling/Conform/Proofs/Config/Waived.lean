/-
# `Proofs.Config.Waived` — compiling without the check of required parts

A part must not be required and have a default.  To say that a failure is
this refusal, or another failure that comes first, one has to know which
failures come without the check.  `compileOptional` compiles every part as
an optional one, so that the check never refuses; apart from that it does
what `compile` does, step by step.

`Waives` relates the two.  A success of `compile` is a success without the
check, and a failure is the refusal or the same failure without the check.
The relation passes through every step of a run; the digests that come out
differ, but a digest exists for both or for none.
-/
import Conform.Proofs.Config.Nested
import Conform.Proofs.Schema.Agreement

namespace Conform

/-! ## Failures with and without the check -/

/-- The refusal of a part that is required and has a default. -/
def Failure.IsConflict (e : Failure) : Prop := ∃ key, e = .config (.requiredDefault key)

/-- The second outcome is the first without the check. -/
def Waives {α β : Type} (R : α → β → Prop) (x : Outcome α) (y : Outcome β) : Prop :=
  match x with
  | .ok a => ∃ b, y = .ok b ∧ R a b
  | .error e => e.IsConflict ∨ y = .error e

namespace Waives

variable {α β γ δ : Type} {R : α → β → Prop} {S : γ → δ → Prop} {x : Outcome α} {y : Outcome β}

theorem ok {a : α} {b : β} (h : R a b) : Waives R (.ok a) (.ok b) := ⟨b, rfl, h⟩

theorem failed (e : Failure) : Waives R (.error e) (.error e) := .inr rfl

theorem imp (T : α → β → Prop) (h : Waives R x y)
    (himp : ∀ a b, x = .ok a → y = .ok b → R a b → T a b) : Waives T x y := by
  cases x with
  | error e => exact h
  | ok a =>
      obtain ⟨b, rfl, hab⟩ := h
      exact ⟨b, rfl, himp a b rfl rfl hab⟩

theorem bind {f : α → Outcome γ} {g : β → Outcome δ} (h : Waives R x y)
    (hfg : ∀ a b, R a b → Waives S (f a) (g b)) : Waives S (x >>= f) (y >>= g) := by
  cases x with
  | error e =>
      rcases h with h | rfl
      · exact .inl h
      · exact .inr rfl
  | ok a =>
      obtain ⟨b, rfl, hab⟩ := h
      exact hfg a b hab

theorem map {f : α → γ} {g : β → δ} (h : Waives R x y) (hfg : ∀ a b, R a b → S (f a) (g b)) :
    Waives S (f <$> x) (g <$> y) := by
  rw [← bind_pure_comp, ← bind_pure_comp]
  exact h.bind fun a b hab => ok (hfg a b hab)

/-- A step that is the same for both. -/
theorem bind_same {x : Outcome α} {f : α → Outcome γ} {g : α → Outcome δ}
    (h : ∀ a, x = .ok a → Waives S (f a) (g a)) : Waives S (x >>= f) (x >>= g) := by
  cases x with
  | error e => exact .inr rfl
  | ok a => exact h a rfl

theorem mapM {f : α → Outcome γ} {g : α → Outcome δ} (xs : List α)
    (h : ∀ x ∈ xs, Waives S (f x) (g x)) : Waives (List.Forall₂ S) (xs.mapM f) (xs.mapM g) := by
  induction xs with
  | nil => exact ok .nil
  | cons x rest ih =>
      rw [List.mapM_cons, List.mapM_cons]
      refine (h x List.mem_cons_self).bind fun c d hcd => ?_
      refine (ih fun z hz => h z (List.mem_cons_of_mem _ hz)).bind fun cs ds hcds => ?_
      exact ok (.cons hcd hcds)

end Waives

/-! ## Digests of both -/

namespace Value

/-- Both values have a token, or for both asking for one comes to the same. -/
def BothHaveToken (v w : Value) : Prop :=
  ((∃ s, v.token = .ok s) ∧ ∃ s, w.token = .ok s) ∨ v.token = w.token

theorem token_schema {t : Schema} (h : t.Compiled) : ∃ s, (Value.schema t).token = .ok s :=
  ⟨_, token_ok rfl (outline_schema h.answers)⟩

theorem token_schemas {ts : List Schema} (h : ∀ t ∈ ts, t.Compiled) :
    ∃ s, (Value.tuple (ts.map .schema)).token = .ok s := by
  have houtline : (Value.tuple (ts.map .schema)).outline = .ok (.list (ts.map Schema.mark)) := by
    rw [outline_tuple]
    refine outline_list.mpr ⟨_, rfl, ?_⟩
    rw [List.forall₂_map_left_iff, List.forall₂_map_right_iff, List.forall₂_same]
    exact fun t ht => outline_schema (h t ht).answers
  exact ⟨_, token_ok rfl houtline⟩

/-- Putting digests under texts one after another leaves digests under texts. -/
theorem exists_ofList_marks (us : List (String × String)) :
    ∃ vs : List (String × String),
      Entries.ofList (us.map fun u => (.str u.1, tagged "$schema" (.str u.2)))
        = vs.map fun u => (.str u.1, tagged "$schema" (.str u.2)) := by
  have put : ∀ (vs : List (String × String)) (u : String × String), ∃ ws : List (String × String),
      Entries.put (vs.map fun u => (.str u.1, tagged "$schema" (.str u.2))) (.str u.1)
          (tagged "$schema" (.str u.2))
        = ws.map fun u => (.str u.1, tagged "$schema" (.str u.2)) := by
    intro vs u
    induction vs with
    | nil => exact ⟨[u], rfl⟩
    | cons v rest ih =>
        obtain ⟨ws, hws⟩ := ih
        simp only [List.map_cons, Entries.put]
        split
        · exact ⟨(v.1, u.2) :: rest, rfl⟩
        · exact ⟨v :: ws, by rw [hws, List.map_cons]⟩
  have update : ∀ (us vs : List (String × String)), ∃ ws : List (String × String),
      Entries.update (vs.map fun u => (.str u.1, tagged "$schema" (.str u.2)))
          (us.map fun u => (.str u.1, tagged "$schema" (.str u.2)))
        = ws.map fun u => (.str u.1, tagged "$schema" (.str u.2)) := by
    intro us
    induction us with
    | nil => exact fun vs => ⟨vs, rfl⟩
    | cons u rest ih =>
        intro vs
        obtain ⟨ws, hws⟩ := put vs u
        obtain ⟨ws', hws'⟩ := ih ws
        refine ⟨ws', ?_⟩
        rw [← hws', ← hws]
        rfl
  exact update us []

theorem token_properties {props : List (Value × Schema)} (h : ∀ e ∈ props, e.2.Compiled)
    (hkeys : ∀ e ∈ props, e.1.hasDisplay = true) :
    ∃ s, (Value.dict (Demand.entries props)).token = .ok s := by
  obtain ⟨vs, hvs⟩ := exists_ofList_marks (props.map fun e => (e.1.textSpelling, e.2.hash))
  rw [List.map_map] at hvs
  have htrees : ∀ us : List (String × String),
      StableText.entryTrees (us.map fun u => (.str u.1, tagged "$schema" (.str u.2)))
        = (us.map fun u => (u.1, Tree.object [("$schema", .text u.2)])).map
            StableText.textEntry := by
    intro us
    rw [StableText.entryTrees_eq, List.map_map, List.map_map]
    exact List.map_congr_left fun u _ => congrArg _ (tree_tagged ..)
  have houtline : (Value.dict (Demand.entries props)).outline
      = .ok (.object ((vs.map fun u => (u.1, Tree.object [("$schema", .text u.2)])).mergeSort
          fun a b => textBelow a.1 b.1)) := by
    rw [outline, canonical, canonicalEntries_schemas (fun e he => (h e he).answers) hkeys, ok_bind,
      pure_eq, ok_bind]
    show StableText.tree (.dict (Entries.ofList (props.map _))) = _
    rw [show props.map (fun e => (Value.str e.1.textSpelling, tagged "$schema" (.str e.2.hash)))
        = props.map ((fun u : String × String => (Value.str u.1, tagged "$schema" (.str u.2)))
          ∘ fun e => (e.1.textSpelling, e.2.hash)) from rfl, hvs, StableText.tree, htrees,
      StableText.objectTree_texts]
  exact ⟨_, token_ok rfl houtline⟩

/-- A key that cannot be written leaves its dictionary without a token. -/
theorem token_unwritable_key {props : List (Value × Schema)} {e : Value × Schema} (he : e ∈ props)
    (hkey : e.1.hasDisplay = false) :
    (Value.dict (Demand.entries props)).token = .error .badValue := by
  have hentries : ∀ {rest : List (Value × Schema)}, e ∈ rest →
      canonicalEntries (Demand.entries rest) = .error .badValue := by
    intro rest hmem
    induction rest with
    | nil => cases hmem
    | cons f rest ih =>
        rw [Demand.entries, List.map_cons, canonicalEntries]
        cases hf : f.1.hasDisplay with
        | false => rw [asText_error hf, error_bind]
        | true =>
            have hrest : e ∈ rest := by
              rcases List.mem_cons.mp hmem with rfl | hrest
              · cases hkey.symm.trans hf
              · exact hrest
            have hfails := ih hrest
            rw [Demand.entries] at hfails
            rw [asText_ok hf, ok_bind, canonical, ok_bind, hfails]
            rfl
  have hcanonical : (Value.dict (Demand.entries props)).canonical = .error .badValue := by
    rw [canonical, hentries he]
    rfl
  exact congrArg (· >>= StableText.ofValue) hcanonical

/-- So under the same keys schemas have a token or have none. -/
theorem bothHaveToken_properties {props props' : List (Value × Schema)}
    (hkeys : props.map (·.1) = props'.map (·.1)) (h : ∀ e ∈ props, e.2.Compiled)
    (h' : ∀ e ∈ props', e.2.Compiled) :
    (Value.dict (Demand.entries props)).BothHaveToken (.dict (Demand.entries props')) := by
  by_cases hwritten : ∀ key ∈ props.map (·.1), key.hasDisplay = true
  · have hwritten' := hwritten
    rw [hkeys] at hwritten'
    exact .inl ⟨token_properties h (List.forall_mem_map.mp hwritten),
      token_properties h' (List.forall_mem_map.mp hwritten')⟩
  · have hunwritten : ∃ key ∈ props.map (·.1), key.hasDisplay = false := by simpa using hwritten
    obtain ⟨key, hmem, hkey⟩ := hunwritten
    obtain ⟨e, he, rfl⟩ := List.mem_map.mp hmem
    obtain ⟨e', he', heq⟩ := List.mem_map.mp (hkeys ▸ hmem)
    exact .inr ((token_unwritable_key he hkey).trans
      (token_unwritable_key he' (heq ▸ hkey)).symm)

end Value

/-- Attributes under the same names, with tokens for both or for none, have digests
or fail alike. -/
theorem Attributes.hash_cases {attrs attrs' : Attributes}
    (h : List.Forall₂ (fun e e' => e.1 = e'.1 ∧ e.2.BothHaveToken e'.2) attrs attrs') :
    (∃ hash hash', attrs.hash = .ok hash ∧ attrs'.hash = .ok hash') ∨
      ∃ e, attrs.hash = .error e ∧ attrs'.hash = .error e := by
  have hlines : ∀ es es' : Attributes,
      List.Forall₂ (fun e e' => e.1 = e'.1 ∧ e.2.BothHaveToken e'.2) es es' →
      (∃ ls ls', es.mapM line = .ok ls ∧ es'.mapM line = .ok ls') ∨
        ∃ e, es.mapM line = .error e ∧ es'.mapM line = .error e := by
    intro es es' hes
    induction hes with
    | nil => exact .inl ⟨[], [], rfl, rfl⟩
    | @cons e e' rest rest' he _ ih =>
        obtain ⟨name, v⟩ := e
        obtain ⟨name', w⟩ := e'
        obtain ⟨rfl, ⟨⟨s, hs⟩, s', hs'⟩ | heq⟩ := he
        · simp only [List.mapM_cons, line, hs, hs', ok_bind, pure_eq]
          rcases ih with ⟨ls, ls', hls, hls'⟩ | ⟨err, herr, herr'⟩
          · exact .inl ⟨_, _, by rw [hls]; rfl, by rw [hls']; rfl⟩
          · exact .inr ⟨err, by rw [herr]; rfl, by rw [herr']; rfl⟩
        · simp only [List.mapM_cons, line, heq]
          cases w.token with
          | error err => exact .inr ⟨err, rfl, rfl⟩
          | ok s =>
              rcases ih with ⟨ls, ls', hls, hls'⟩ | ⟨err, herr, herr'⟩
              · exact .inl ⟨_, _, by rw [hls]; rfl, by rw [hls']; rfl⟩
              · exact .inr ⟨err, by rw [herr]; rfl, by rw [herr']; rfl⟩
  unfold hash lines
  rcases hlines _ _ (forall₂_sortedPublic h) with ⟨ls, ls', hls, hls'⟩ | ⟨e, he, he'⟩
  · exact .inl ⟨_, _, by rw [hls]; rfl, by rw [hls']; rfl⟩
  · exact .inr ⟨e, by rw [he]; rfl, by rw [he']; rfl⟩

theorem hash_waives {attrs attrs' : Attributes}
    (h : List.Forall₂ (fun e e' => e.1 = e'.1 ∧ e.2.BothHaveToken e'.2) attrs attrs') :
    Waives (fun _ _ => True) (liftM attrs.hash : Outcome String) (liftM attrs'.hash) := by
  rcases Attributes.hash_cases h with ⟨hash, hash', hh, hh'⟩ | ⟨e, he, he'⟩
  · rw [hh, hh']
    exact .ok trivial
  · rw [he, he']
    exact .failed _

/-! ## The compiler of optional parts -/

/-- What a container hands over when it does not require a part. -/
def waive : Value → Value
  | .none => .none
  | _ => mark (some false)

/-- Compiles a configuration with every part inside as an optional one. -/
def compileOptional (configuration additional : Value) : Build Schema :=
  compileWith
    (fun c a =>
      if c.height < configuration.height then compileOptional c (waive a)
      else throw (.fault .typeMismatch))
    .builtin configuration additional
termination_by configuration.height

/-- The schemas of a part, required perhaps and optional. -/
structure PartRelated (t u : Schema) : Prop where
  compiled : t.Compiled ∧ u.Compiled
  answers : ∃ r d, t.required = .ok r ∧ t.hasDefault = .ok d
  optional : u.required = .ok false

/-- The second factory compiles as the first does, without the check. -/
structure Factory.Waives (f g : Factory) : Prop where
  plain : ∀ c, Conform.Waives (fun t u => t.Compiled ∧ u.Compiled) (f c .none).result
    (g c .none).result
  marked : ∀ c b, Conform.Waives PartRelated (f (.dict c) (mark (some b))).result
    (g (.dict c) (mark (some b))).result

namespace Options

variable {f g : Factory} {config : Entries}

theorem candidate_waives (h : f.Waives g) (key : Value) (es : Entries) :
    Waives (fun t u => t.Compiled ∧ u.Compiled) (compileCandidate f key (.dict es)).result
      (compileCandidate g key (.dict es)).result := by
  simp only [compileCandidate, Build.result_bind, Build.result_lift_fault]
  refine .bind_same fun split _ => (h.marked split.1 split.2).bind fun t u htu => ?_
  obtain ⟨r, d, hr, hd⟩ := htu.answers
  rw [hr, htu.optional, lift_ok, lift_ok, ok_bind, ok_bind]
  cases r with
  | false => exact .ok htu.compiled
  | true =>
      simp only [if_true, Build.result_bind, Build.result_lift_fault, hd, lift_ok, ok_bind]
      cases d with
      | false => exact .ok htu.compiled
      | true => exact .inl ⟨key, rfl⟩

theorem compiled_collapse {ts : List Schema} (h : ∀ t ∈ ts, t.Compiled) :
    (Schema.collapse ts).Compiled := by
  refine Schema.compiled_iff.mpr fun u hu => ?_
  rw [members_collapse] at hu
  obtain ⟨t, ht, hut⟩ := List.mem_flatMap.mp ((dropRepeated_sublist _ _).subset hu)
  exact Schema.compiled_iff.mp (h t ht) u hut

theorem merged_waives (h : f.Waives g) (key : Value) {generic specific : Value}
    (hg : generic.IsPartOption) (hs : specific.IsPartOption) :
    Waives (fun t u => t.Compiled ∧ u.Compiled) (compileMerged f key generic specific).result
      (compileMerged g key generic specific).result := by
  rw [compileMerged_eq f key hg hs, compileMerged_eq g key hg hs, Value.mergeProducts_pairs hg hs]
  simp only [Build.result_bind, Build.result_lift_fault, lift_ok, ok_bind, Build.result_mapM]
  have hcandidate : ∀ c ∈ (generic.pairs specific).map Value.dict,
      Waives (fun t u => t.Compiled ∧ u.Compiled) (compileCandidate f key c).result
        (compileCandidate g key c).result := by
    intro c hc
    obtain ⟨es, -, rfl⟩ := List.mem_map.mp hc
    exact candidate_waives h key es
  refine (Waives.mapM _ hcandidate).bind fun ts us htus => .ok ⟨?_, ?_⟩
  · refine compiled_collapse fun t ht => ?_
    obtain ⟨u, -, htu, -⟩ := forall₂_mem_left htus ht
    exact htu
  · refine compiled_collapse fun u hu => ?_
    obtain ⟨t, -, -, htu⟩ := forall₂_mem_right htus hu
    exact htu

/-- Attributes that are schemas, or are the same. -/
def SchemaOrSame (v w : Value) : Prop :=
  (∃ t u, v = .schema t ∧ w = .schema u ∧ t.Compiled ∧ u.Compiled) ∨ v = w

theorem SchemaOrSame.token {v w : Value} (h : SchemaOrSame v w) : v.BothHaveToken w := by
  rcases h with ⟨t, u, rfl, rfl, ht, hu⟩ | rfl
  · exact .inl ⟨Value.token_schema ht, Value.token_schema hu⟩
  · exact .inr rfl

theorem partSchema_waives (compile compile' : Value → Build Schema) {generic : Value}
    (h : Waives (fun t u => t.Compiled ∧ u.Compiled) (compile generic).result
      (compile' generic).result) :
    Waives SchemaOrSame (partSchema compile generic).result (partSchema compile' generic).result := by
  unfold partSchema
  split
  · exact .ok (.inr rfl)
  · simp only [Build.result_bind]
    exact h.bind fun t u htu => .ok (.inl ⟨t, u, rfl, rfl, htu⟩)

theorem properties_waives (h : f.Waives g) {generic : Value} (hg : generic.IsPartOption)
    (declared : Entries) :
    Waives (fun es es' => ∃ props props', es = Demand.entries props ∧ es' = Demand.entries props' ∧
        props.map (·.1) = props'.map (·.1) ∧ (∀ e ∈ props, e.2.Compiled) ∧
          ∀ e ∈ props', e.2.Compiled)
      (properties f generic declared).result (properties g generic declared).result := by
  induction declared with
  | nil => exact .ok ⟨[], [], rfl, rfl, rfl, List.forall_mem_nil _, List.forall_mem_nil _⟩
  | cons e rest ih =>
      obtain ⟨key, v⟩ := e
      simp only [properties, property, Build.result_bind]
      split
      · rename_i hconf
        simp only [Build.result_bind, Build.result_pure, bind_assoc]
        refine (merged_waives h key hg (.inr hconf)).bind fun t u htu => ih.bind ?_
        rintro _ _ ⟨props, props', rfl, rfl, hkeys, hprops, hprops'⟩
        exact .ok ⟨(key, t) :: props, (key, u) :: props', rfl, rfl, congrArg (key :: ·) hkeys,
          List.forall_mem_cons.mpr ⟨htu.1, hprops⟩, List.forall_mem_cons.mpr ⟨htu.2, hprops'⟩⟩
      · exact .failed _

/-- Attributes under the same names, with tokens for both or for none. -/
def AttributesRelated (attrs attrs' : Attributes) : Prop :=
  List.Forall₂ (fun e e' => e.1 = e'.1 ∧ e.2.BothHaveToken e'.2) attrs attrs'

theorem AttributesRelated.refl (attrs : Attributes) : AttributesRelated attrs attrs :=
  List.forall₂_same.mpr fun _ _ => ⟨rfl, .inr rfl⟩

/-- An attribute that both sides set to the same value. -/
theorem unchanged {name : String} {v : Value} :
    (name, v).1 = (name, v).1 ∧ (name, v).2.BothHaveToken (name, v).2 := ⟨rfl, .inr rfl⟩

theorem array_waives (h : f.Waives g) :
    Waives AttributesRelated (array f config).result (array g config).result := by
  simp only [array, Build.result_bind, Build.result_lift, Build.result_lift_fault]
  refine .bind_same fun low _ => .bind_same fun high _ => .bind_same fun generic _ => ?_
  refine (partSchema_waives (f · .none) (g · .none) (h.plain generic)).bind fun v w hvw => ?_
  refine .bind_same fun _ _ => .bind_same fun _ _ => .bind_same fun _ _ => .ok ?_
  exact .cons unchanged (.cons unchanged (.cons ⟨rfl, hvw.token⟩ (.cons unchanged .nil)))

theorem object_waives (h : f.Waives g) :
    Waives AttributesRelated (object f config).result (object g config).result := by
  simp only [object, Build.result_bind, Build.result_lift, Build.result_lift_fault]
  refine .bind_same fun declared _ => .bind_same fun generic hgeneric => ?_
  have hg := (schemaOption_ok hgeneric).1
  refine (properties_waives h hg declared).bind ?_
  rintro _ _ ⟨props, props', rfl, rfl, hkeys, hprops, hprops'⟩
  refine .bind_same fun _ _ => .bind_same fun _ _ => ?_
  refine (partSchema_waives _ _ (merged_waives h _ (.inl rfl) hg)).bind fun v w hvw => .ok ?_
  have hdict := Value.bothHaveToken_properties hkeys hprops hprops'
  exact .cons unchanged (.cons unchanged (.cons ⟨rfl, hdict⟩ (.cons ⟨rfl, hvw.token⟩ .nil)))

theorem oneOf_waives (h : f.Waives g) :
    Waives AttributesRelated (oneOf f config).result (oneOf g config).result := by
  unfold oneOf
  split
  · exact .failed _
  · split
    · split
      · exact .failed _
      · simp only [Build.result_bind, Build.result_mapM]
        refine (Waives.mapM _ fun w _ => h.plain w).bind fun ts us htus => .ok ?_
        have hts : ∀ t ∈ ts, t.Compiled := fun t ht =>
          (forall₂_mem_left htus ht).choose_spec.2.1
        have hus : ∀ u ∈ us, u.Compiled := fun u hu =>
          (forall₂_mem_right htus hu).choose_spec.2.2
        exact .cons ⟨rfl, .inl ⟨Value.token_schemas hts, Value.token_schemas hus⟩⟩ .nil
    · exact .failed _

/-- Only the build steps that compile parts can notice which compiler they were given. -/
theorem own_waives (h : f.Waives g) (k : Kind) :
    Waives AttributesRelated (own f config k) (own g config k) := by
  have same : ∀ x : Outcome Attributes, Waives AttributesRelated x x := by
    rintro (e | attrs)
    · exact .failed e
    · exact .ok (.refl attrs)
  cases k with
  | array => exact array_waives h
  | object => exact object_waives h
  | oneOf => exact oneOf_waives h
  | _ => exact same _

theorem readInstance_waives (h : f.Waives g) (k : Kind) {required required' : Option Bool}
    (hsome : required.isSome = required'.isSome) :
    Waives (fun _ _ => True) (readInstance f config k required)
      (readInstance g config k required') := by
  unfold readInstance readAttributes
  simp only [bind_assoc]
  refine .bind_same fun common _ => (own_waives h k).bind fun more more' hmore => ?_
  have hmarks : AttributesRelated (marks required) (marks required') := by
    cases required with
    | none =>
        cases required' with
        | none => exact .nil
        | some b => cases hsome
    | some b =>
        cases required' with
        | none => cases hsome
        | some b' =>
            exact .cons ⟨rfl, .inl ⟨⟨_, Value.token_ok rfl rfl⟩, _, Value.token_ok rfl rfl⟩⟩ .nil
  have hattrs : AttributesRelated (common ++ more ++ marks required)
      (common ++ more' ++ marks required') :=
    List.rel_append (List.rel_append (AttributesRelated.refl common) hmore) hmarks
  exact (hash_waives hattrs).bind fun _ _ _ => .ok trivial

end Options

theorem compileSingle_waives {f g : Factory} (h : f.Waives g) (c : Value)
    {required required' : Option Bool} (hsome : required.isSome = required'.isSome) :
    Waives (fun _ _ => True) (compileSingle f .builtin c (mark required)).result
      (compileSingle g .builtin c (mark required')).result := by
  have hdict : ∀ config : Entries,
      Waives (fun _ _ => True) (compileSingle f .builtin (.dict config) (mark required)).result
        (compileSingle g .builtin (.dict config) (mark required')).result := by
    intro config
    rw [compileSingle_dict, compileSingle_dict]
    cases config.kind? with
    | none => exact .failed _
    | some k => exact Options.readInstance_waives h k hsome
  rcases compileSingle_cases c with rfl | ⟨config, rfl⟩ | ⟨e, he⟩
  · exact hdict []
  · exact hdict config
  · rw [he, he]
    exact .failed e

/-- A schema on its own says whether it is required, as it was marked. -/
theorem marked_answers {f : Factory} (hf : f.Compiles) {config : Entries} {b : Bool} {t : Instance}
    (h : (compileSingle f .builtin (.dict config) (mark (some b))).result = .ok t) :
    (Schema.single t).Compiled ∧ (Schema.single t).required = .ok b := by
  obtain ⟨hcompiled, -, hmark⟩ := compileSingle_dict_ok hf h
  refine ⟨hcompiled, ?_⟩
  simp [Schema.required, Instance.flag, Instance.get?, hmark b rfl]

theorem compileWith_waives {f g : Factory} (hf : f.Compiles) (hg : g.Compiles) (h : f.Waives g)
    (c : Value) :
    Waives (fun t u => t.Compiled ∧ u.Compiled) (compileWith f .builtin c .none).result
      (compileWith g .builtin c .none).result := by
  suffices hall : Waives (fun _ _ => True) (compileWith f .builtin c .none).result
      (compileWith g .builtin c .none).result from
    hall.imp _ fun t u ht hu _ => ⟨compileWith_ok hf ht, compileWith_ok hg hu⟩
  cases hlisted : c.listed? with
  | none =>
      show Waives _ (compileWith f .builtin c (mark none)).result
        (compileWith g .builtin c (mark none)).result
      rw [compileWith_unlisted f hlisted, compileWith_unlisted g hlisted]
      exact (compileSingle_waives h c rfl).map fun _ _ _ => trivial
  | some items =>
      rw [compileWith_listed f hlisted, compileWith_listed g hlisted]
      exact (Waives.mapM items fun w _ =>
        compileSingle_waives h w (rfl : (none : Option Bool).isSome = _)).map fun _ _ _ => trivial

/-- Compiles a part as an optional one. -/
def compilePart : Factory := fun c a => compileOptional c (waive a)

theorem compilePart_below (n : Nat) : (compilePart.below n).Compiles :=
  .below (m := waive) (fun c a => by rw [compilePart, compileOptional]; rfl) rfl
    (fun _ => ⟨false, rfl⟩) n

/-- The factories that both compilers hand to the build steps. -/
theorem waives_below (n : Nat) : (Factory.below (compile .builtin) n).Waives (compilePart.below n) := by
  induction n using Nat.strongRecOn with
  | ind n ih =>
      constructor
      · intro c
        unfold Factory.below
        split
        · rename_i hc
          rw [compile, compilePart, show waive .none = .none from rfl, compileOptional]
          exact compileWith_waives (compiles_below _) (compilePart_below _) (ih c.height hc) c
        · exact .failed _
      · intro c b
        unfold Factory.below
        split
        · rename_i hc
          rw [compile, compilePart, show waive (mark (some b)) = mark (some false) from rfl,
            compileOptional, compileWith_unlisted _ rfl, compileWith_unlisted _ rfl]
          have hsingle :=
            @compileSingle_waives _ _ (ih (Value.dict c).height hc) (.dict c) (some b) (some false) rfl
          refine (hsingle.imp (fun t u => PartRelated (.single t) (.single u)) ?_).map
            fun _ _ htu => htu
          intro t u ht hu _
          obtain ⟨htc, hr⟩ := marked_answers (compiles_below _) ht
          obtain ⟨huc, hr'⟩ := marked_answers (compilePart_below _) hu
          obtain ⟨d, -, hd, -⟩ := htc.default_ok
          exact ⟨⟨htc, huc⟩, ⟨b, d, hr, hd⟩, hr'⟩
        · exact .failed _

/-- Compiling fails with the refusal of a part, or as it fails without the
check. -/
theorem compile_waives (c : Value) :
    Waives (fun t u => t.Compiled ∧ u.Compiled) (compile .builtin c .none).result
      (compileOptional c .none).result := by
  rw [compile, compileOptional]
  exact compileWith_waives (compiles_below _) (compilePart_below _) (waives_below _) c

end Conform
