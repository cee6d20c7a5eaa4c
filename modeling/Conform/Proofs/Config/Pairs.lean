/-
# `Proofs.Config.Pairs` — what a merge of alternatives means

A container's configuration and a part's own are merged pair by pair, the
part's alternatives varying slowest, and the pairs become one schema.  What
that schema accepts, how it normalizes and its two flags can be told from
the pairs compiled alone, each without the option `required`, which becomes
an attribute.

Pairs with one digest become one member, and a single member is no
alternative at all.  Neither shows: the pair that a value belongs to is
never left out, and a flag is shared by all pairs with the digest.
-/
import Conform.Proofs.Digest.Sorted
import Conform.Proofs.Schema.Choice
import Conform.Proofs.Schema.Tokens

namespace Conform

/-- A pair compiled alone: the option `required` is lifted out, and a pair
that is required has no default. -/
def CompilesAlone (pair : Entries) (t : Instance) : Prop :=
  ∃ b, (pair.getD "required" (.bool false)).truthy = .ok b ∧
    Registry.builtin.compile (.dict (pair.erase (.str "required")))
      (.dict (markEntries (some b))) = .ok (.single t) ∧
    ¬ (b = true ∧ (pair.get? "default").isSome = true)

/-- Whether a schema has a flag that can be read off it. -/
def Instance.flagged (name : String) (s : Instance) : Bool :=
  match s.flag name with
  | .ok b => b
  | .error _ => false

variable {pair : Entries} {t : Instance}

theorem CompilesAlone.flags (h : CompilesAlone pair t) :
    ∃ b, (pair.getD "required" (.bool false)).truthy = .ok b ∧ t.flag "required" = .ok b ∧
      t.flag "has_default" = .ok (pair.get? "default").isSome := by
  obtain ⟨b, hb, hcompile, -⟩ := h
  obtain ⟨-, hrequired, hdefault⟩ := flags_of_compile hcompile
  have hget : (pair.erase (.str "required")).get? "default" = pair.get? "default" :=
    Entries.find?_erase_of_ne rfl
  exact ⟨b, hb, hrequired, hget ▸ hdefault⟩

theorem CompilesAlone.flag_eq (h : CompilesAlone pair t) :
    t.flag "required" = .ok (t.flagged "required") ∧
      t.flag "has_default" = .ok (t.flagged "has_default") := by
  obtain ⟨b, -, hrequired, hdefault⟩ := h.flags
  simp [Instance.flagged, hrequired, hdefault]

theorem CompilesAlone.required_iff (h : CompilesAlone pair t) :
    (pair.getD "required" (.bool false)).truthy = .ok true ↔ t.flagged "required" = true := by
  obtain ⟨b, hb, hrequired, -⟩ := h.flags
  simp [Instance.flagged, hb, hrequired]

theorem CompilesAlone.hasDefault_iff (h : CompilesAlone pair t) :
    (pair.get? "default").isSome = true ↔ t.flagged "has_default" = true := by
  obtain ⟨b, -, -, hdefault⟩ := h.flags
  simp [Instance.flagged, hdefault]

theorem CompilesAlone.candidate (h : CompilesAlone pair t) (key : Value) :
    (compileCandidate (compile .builtin) key (.dict pair)).result = .ok (.single t) := by
  obtain ⟨b, hb, hcompile, hconflict⟩ := h
  obtain ⟨-, hrequired, hdefault⟩ := flags_of_compile hcompile
  have hget : (pair.erase (.str "required")).get? "default" = pair.get? "default" :=
    Entries.find?_erase_of_ne rfl
  have hresult : (compile .builtin (.dict (pair.erase (.str "required")))
      (.dict (markEntries (some b)))).result = .ok (.single t) := hcompile
  simp only [compileCandidate, splitRequired_eq, hb, Build.result_bind, Build.result_lift_fault,
    ok_bind, pure_eq, lift_ok]
  show ((compile .builtin (.dict (pair.erase (.str "required")))
    (.dict (markEntries (some b)))).result >>= _) = _
  rw [hresult, ok_bind, Schema.required, hrequired, lift_ok, ok_bind]
  cases b with
  | false => rfl
  | true =>
      have hnone : (pair.get? "default").isSome = false := by simpa using hconflict
      rw [hget, hnone] at hdefault
      simp only [if_true, Schema.hasDefault, hdefault]
      rfl

variable {key generic specific : Value} {ts : List Instance}

/-- The pairs become one schema, with the digests that they have alone. -/
theorem compileMerged_pairs (key : Value) (hg : generic.IsPartOption) (hs : specific.IsPartOption)
    (hts : List.Forall₂ CompilesAlone (generic.pairs specific) ts) :
    (compileMerged (compile .builtin) key generic specific).result
      = .ok (.collapse (ts.map .single)) := by
  have candidates : ((generic.pairs specific).map Value.dict).mapM
      (fun c => (compileCandidate (compile .builtin) key c).result) = .ok (ts.map .single) := by
    rw [mapM_eq_ok, List.forall₂_map_left_iff, List.forall₂_map_right_iff]
    exact hts.imp fun _ _ h => h.candidate key
  rw [compileMerged_eq _ key hg hs, Value.mergeProducts_pairs hg hs]
  simp only [Build.result_bind, Build.result_lift_fault, lift_ok, ok_bind, Build.result_mapM,
    candidates]
  rfl

theorem alternatives_ne_nil {v : Value} (h : v.IsPartOption) : v.alternatives ≠ [] := by
  rcases h with rfl | h
  · simp [Value.alternatives, Value.listed?]
  · cases v with
    | dict es => simp [Value.alternatives, Value.listed?]
    | list items | tuple items =>
        simp only [Value.isConfiguration, Bool.and_eq_true, Bool.not_eq_true',
          List.isEmpty_eq_false_iff] at h
        simpa [Value.alternatives, Value.listed?] using h.1
    | _ => simp [Value.isConfiguration] at h

theorem pairs_ne_nil (hg : generic.IsPartOption) (hs : specific.IsPartOption) :
    generic.pairs specific ≠ [] := by
  obtain ⟨s, hs⟩ := List.exists_mem_of_ne_nil _ (alternatives_ne_nil hs)
  obtain ⟨g, hg⟩ := List.exists_mem_of_ne_nil _ (alternatives_ne_nil hg)
  exact List.ne_nil_of_mem (List.mem_flatMap.mpr ⟨s, hs, List.mem_map_of_mem hg⟩)

/-- The first pair that accepts a value decides how it is normalized, and all
pairs have a say in the flags. -/
theorem merged_alternatives (key : Value) (hg : generic.IsPartOption)
    (hs : specific.IsPartOption) (hts : List.Forall₂ CompilesAlone (generic.pairs specific) ts)
    (hsame : ∀ s ∈ ts, ∀ t ∈ ts, s.hash = t.hash →
      (∀ name, s.get? name = t.get? name) ∧
        ∀ v, (Schema.single s).accepts v = (Schema.single t).accepts v) :
    ∃ u, (compileMerged (compile .builtin) key generic specific).result = .ok u ∧
      (∀ v, u.accepts v = .ok true ↔ ∃ t, Schema.Chosen v ts t) ∧
      (∀ v t, Schema.Chosen v ts t → u.normalize v = (Schema.single t).normalize v) ∧
      (∃ b, u.required = .ok b ∧
        (b = true ↔ ∀ pair ∈ generic.pairs specific,
          (pair.getD "required" (.bool false)).truthy = .ok true)) ∧
      ∃ b, u.hasDefault = .ok b ∧
        (b = true ↔ ∃ pair ∈ generic.pairs specific, (pair.get? "default").isSome = true) := by
  have members := members_collapse_single ts
  obtain ⟨haccepts, hnormalize⟩ := Schema.chosen_of_members members
    fun s hs t ht heq => (hsame s hs t ht heq).2
  have kept : ∀ s ∈ (Schema.collapse (ts.map .single)).members, s ∈ ts := fun s hs =>
    (dropRepeated_sublist ts []).subset (members ▸ hs)
  have flag : ∀ s ∈ ts, s.flag "required" = .ok (s.flagged "required") ∧
      s.flag "has_default" = .ok (s.flagged "has_default") := by
    intro s hs
    obtain ⟨pair, -, hpair⟩ := forall₂_mem_right hts hs
    exact hpair.flag_eq
  have shared : ∀ name, ∀ s ∈ ts, ∀ t ∈ ts, s.hash = t.hash → s.flagged name = t.flagged name := by
    intro name s hs t ht heq
    simp only [Instance.flagged, Instance.flag, (hsame s hs t ht heq).1 name]
  have hne : (Schema.collapse (ts.map .single)).members ≠ [] := by
    have hts' : ts ≠ [] := fun hnil => by
      rw [hnil, List.forall₂_nil_right_iff] at hts
      exact pairs_ne_nil hg hs hts
    obtain ⟨s, hs⟩ := List.exists_mem_of_ne_nil _ hts'
    obtain ⟨t, ht, -⟩ := (Schema.exists_mem_dropRepeated hs).resolve_left List.not_mem_nil
    exact List.ne_nil_of_mem (members ▸ ht)
  refine ⟨_, compileMerged_pairs key hg hs hts, haccepts, hnormalize, ?_, ?_⟩
  · refine ⟨ts.all (Instance.flagged "required"), ?_, ?_⟩
    · rw [← Schema.all_dropRepeated (shared "required"), ← members]
      exact Schema.required_eq hne fun s hs => (flag s (kept s hs)).1
    · rw [List.all_eq_true]
      exact (forall₂_forall_iff (fun _ _ h => h.required_iff) hts).symm
  · refine ⟨ts.any (Instance.flagged "has_default"), ?_, ?_⟩
    · rw [← Schema.any_dropRepeated (shared "has_default"), ← members]
      exact Schema.hasDefault_eq fun s hs => (flag s (kept s hs)).2
    · rw [List.any_eq_true]
      exact (forall₂_exists_iff (fun _ _ h => h.hasDefault_iff) hts).symm

/-! ## Alternatives with a validator -/

/-- The options of an alternative with a validator, or without any. -/
def validatorOptions : Option Callable → Entries
  | none => []
  | some f => [(.str "validator", .callable f)]

def validatorPlan (f : Option Callable) : Plan :=
  { Plan.plain (.str "typed") .typed (some false) with validator := f }

def validatorLines (token : String) : List String :=
  ["default=\x7b\"$undefined\":true\x7d", "enum=null", "has_default=false", "required=false",
    "transform=null", "type=\"typed\"", "validator=" ++ token]

variable {f : Option Callable} {token : String}

/-- The attributes of a marked plan of the root type, as they are sorted for its digest. -/
theorem Plan.sortedPublic_typed {p : Plan} {b : Bool} (hd : p.demand = .typed)
    (hb : p.required = some b) :
    p.attributes.sortedPublic
      = [("default", p.default), ("enum", optional .tuple p.enum), ("has_default", .bool p.hasDefault),
          ("required", .bool b), ("transform", optional .callable p.transform), ("type", p.type),
          ("validator", optional .callable p.validator)] := by
  refine Plan.sortedPublic_eq ?_ ?_
  · rw [Plan.attributes, Plan.added, hd, hb]
    exact List.Perm.append_left [_, _, _] (List.perm_append_singleton _ [_, _, _]).symm
  · show ["default", "enum", "has_default", "required", "transform", "type",
      "validator"].Pairwise fun s t => textBelow s t = true
    decide

theorem sortedPublic_validatorPlan (f : Option Callable) :
    (validatorPlan f).attributes.sortedPublic
      = [("default", .undefined), ("enum", .none), ("has_default", .bool false),
          ("required", .bool false), ("transform", .none), ("type", .str "typed"),
          ("validator", optional .callable f)] := Plan.sortedPublic_typed rfl rfl

theorem hash_validatorPlan (htoken : (optional Value.callable f).token = .ok token) :
    (validatorPlan f).attributes.hash = .ok (Attributes.hashLines (validatorLines token)) := by
  have hundefined : Value.undefined.token = .ok "\x7b\"$undefined\":true\x7d" :=
    Value.token_ok rfl Value.outline_undefined
  rw [Attributes.hash, Attributes.lines, sortedPublic_validatorPlan]
  simp only [List.mapM_cons, List.mapM_nil, Attributes.line, hundefined, htoken, ok_bind]
  rfl

theorem compilesAlone_validator (htoken : (optional Value.callable f).token = .ok token) :
    CompilesAlone (validatorOptions f)
      ((validatorPlan f).toInstance (Attributes.hashLines (validatorLines token))) := by
  have hcompile := hash_validatorPlan htoken
  refine ⟨false, ?_, ?_, fun h => nomatch h.1⟩
  · cases f <;> rfl
  · cases f with
    | none =>
        exact Plan.compile_eq_plan (p := validatorPlan none) []
          ⟨.typed, [.str "typed", .aliasKey .typed], true⟩ rfl rfl rfl (absurd rfl) hcompile
    | some f =>
        exact Plan.compile_eq_plan (p := validatorPlan (some f)) (validatorOptions (some f))
          ⟨.typed, [.str "typed", .aliasKey .typed], true⟩ rfl rfl rfl (absurd rfl) hcompile

theorem accepts_validatorPlan (f : Option Callable) (hash : String) (v : Value) :
    (Schema.single ((validatorPlan f).toInstance hash)).accepts v
      = (validatorPlan f).accepts Schema.accepts v :=
  Schema.accepts_single (p := validatorPlan f) hash trivial (.of_nil rfl rfl) nofun v

/-- Two alternatives without options are one. -/
theorem merged_alternatives_repeated :
    ∃ s u, List.Forall₂ CompilesAlone
        ((Value.list [.dict [], .dict []]).pairs .none) [s, s] ∧
      (compileMerged (compile .builtin) (.str "a") (.list [.dict [], .dict []]) .none).result
        = .ok u ∧
      u.accepts (.int 1) = .ok true ∧ u.required = .ok false ∧ u.hasDefault = .ok false := by
  have hnone : (optional Value.callable none).token = .ok "null" := rfl
  have halone := compilesAlone_validator hnone
  have hts := List.Forall₂.cons halone (.cons halone .nil)
  obtain ⟨u, hu, haccepts, -, ⟨required, hrequired, hall⟩, hasDefault, hdefault, hany⟩ :=
    @merged_alternatives (.list [.dict [], .dict []]) .none _ (.str "a")
      (.inr rfl) (.inl rfl) hts fun s hs t ht _ => by
        have heq : s = t := by
          simp only [List.mem_cons, List.not_mem_nil, or_false, or_self] at hs ht
          rw [hs, ht]
        exact ⟨fun _ => heq ▸ rfl, fun _ => heq ▸ rfl⟩
  refine ⟨_, u, hts, hu, (haccepts _).mpr ⟨_, .here (accepts_validatorPlan none _ _)⟩, ?_, ?_⟩
  · cases required with
    | false => exact hrequired
    | true => cases hall.mp rfl [] List.mem_cons_self
  · cases hasDefault with
    | false => exact hdefault
    | true =>
        obtain ⟨pair, hpair, hkey⟩ := hany.mp rfl
        have hpair : pair ∈ [[], []] := hpair
        have hempty : pair = [] := by simpa using hpair
        rw [hempty] at hkey
        cases hkey

/-- A validator that raises whatever it is asked about. -/
def raising : Callable := .ruled .fail .none (some "raise") "fn" none

/-- An alternative that accepts a value is of no use after one that raises on it,
though no two alternatives have one digest. -/
theorem merged_alternatives_raising :
    ∃ s t u, List.Forall₂ CompilesAlone
        ((Value.list [.dict (validatorOptions (some raising)), .dict []]).pairs .none) [s, t] ∧
      s.hash ≠ t.hash ∧ (Schema.single t).accepts (.int 1) = .ok true ∧
      (compileMerged (compile .builtin) (.str "a")
        (.list [.dict (validatorOptions (some raising)), .dict []]) .none).result = .ok u ∧
      u.accepts (.int 1) ≠ .ok true := by
  have hsome : (optional Value.callable (some raising)).token = .ok "fn.raise" := rfl
  have hnone : (optional Value.callable none).token = .ok "null" := rfl
  have hts := List.Forall₂.cons (compilesAlone_validator hsome)
    (.cons (compilesAlone_validator hnone) .nil)
  have hraises : ∀ b, (Schema.single ((validatorPlan (some raising)).toInstance
      (Attributes.hashLines (validatorLines "fn.raise")))).accepts (.int 1) ≠ .ok b := by
    intro b h
    rw [accepts_validatorPlan] at h
    cases h
  have hdigests : Attributes.hashLines (validatorLines "fn.raise")
      ≠ Attributes.hashLines (validatorLines "null") := by
    decide +kernel
  refine ⟨_, _, _, hts, hdigests, accepts_validatorPlan none _ _,
    compileMerged_pairs (.str "a") (.inr rfl) (.inl rfl) hts, fun haccepts => ?_⟩
  obtain ⟨t, ht⟩ := (Schema.accepts_iff_chosen _ _).mp haccepts
  rw [members_collapse, List.map_cons, List.map_cons, List.flatMap_cons] at ht
  cases ht with
  | here h => exact hraises _ h
  | later h _ => exact hraises _ h

end Conform
