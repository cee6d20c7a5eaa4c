/-
# `Proofs.Schema.OneOf` — alternatives as a type

A list of configurations and the one-of type both search for the first schema
that accepts.  The search of the type runs inside the pipeline of a typed
schema, once for the check and once more for the normal form, and under a kind
of error of its own.  That makes no difference but for the kind: `Resolves`
says so, of the type and of the alternatives that it was given.

The list may come to fewer alternatives, because those whose digest occurred
before are left out of it, and the type keeps them.  Where no digest occurs
twice the two therefore agree.  Elsewhere a refused value tells them apart:
the type sums up the error of a repeated alternative as often as it is repeated.
-/
import Conform.Proofs.Schema.Supplied

namespace Conform

/-! ## The same under another kind -/

/-- The same error under another kind. -/
def ErrorInfo.under (e : ErrorInfo) (kind : ErrorKind) : ErrorInfo := { e with kind }

section kinds

variable (kind kind' : ErrorKind)

/-- Verdicts that are the same but for the kinds of their errors. -/
inductive SameVerdict : Verdict → Verdict → Prop
  | accepts : SameVerdict (.ok none) (.ok none)
  | refused (e : ErrorInfo) : SameVerdict (.ok (some (e.under kind))) (.ok (some (e.under kind')))
  | failed (e : Failure) : SameVerdict (.error e) (.error e)

/-- Normal forms that are the same, or values refused with errors that are the
same but for their kinds. -/
inductive SameForm : Outcome Value → Outcome Value → Prop
  | same (r : Outcome Value) : SameForm r r
  | refused (e : ErrorInfo) :
      SameForm (.error (.value (e.under kind))) (.error (.value (e.under kind')))

/-- The first schema reports under `kind` what the second reports under
`kind'`, and otherwise both do the same with every value. -/
structure Schema.Resolves (s t : Schema) : Prop where
  error : ∀ v (lead : String),
    SameVerdict kind kind' (s.error v (.str lead)) (t.error v (.str lead))
  normalize : ∀ v, SameForm kind kind' (s.normalize v) (t.normalize v)

variable {kind kind'} in
/-- Whoever is refused by one is refused by the other, for the same reasons. -/
theorem SameVerdict.errors {x y : Verdict} (h : SameVerdict kind kind' x y) {e : ErrorInfo}
    (hx : x = .ok (some e)) : ∃ e', y = .ok (some e') ∧ e'.errors = e.errors := by
  cases h with
  | accepts => cases hx
  | refused e' =>
      obtain rfl := Option.some.inj (Except.ok.inj hx)
      exact ⟨_, rfl, rfl⟩
  | failed => cases hx

variable {kind kind'} in
theorem SameVerdict.accepted_eq {x y : Verdict} (h : SameVerdict kind kind' x y) :
    accepted x = accepted y := by
  cases h <;> rfl

variable (found : Outcome Search)

theorem searchVerdict_same (lead : String) :
    SameVerdict kind kind' (found >>= fun f => Instance.searchVerdict f (.str lead) kind)
      (found >>= fun f => Instance.searchVerdict f (.str lead) kind') := by
  cases found with
  | error e => exact .failed e
  | ok f =>
      cases f with
      | found n t => exact .accepts
      | refused errors =>
          simp only [ok_bind, Instance.searchVerdict, orEmpty_str, leadText_str, lift_ok, pure_eq]
          exact .refused (.ofVariants errors lead kind)

theorem applySearch_same (v : Value) :
    SameForm kind kind' (found >>= fun f => Schema.inner.applySearch f v kind)
      (found >>= fun f => Schema.inner.applySearch f v kind') := by
  cases found with
  | error e => exact .same _
  | ok f =>
      cases f with
      | found n t => exact .same _
      | refused errors => exact .refused (.ofVariants errors "" kind)

end kinds

/-! ## The type -/

/-- What the one-of type comes to without further options. -/
def oneOfPlan (variants : List Schema) : Plan := .plain (.str "one-of") (.oneOf variants) none

section pipeline

variable {hash : String} {v : Value} {variants : List Schema}

theorem get_oneOf :
    ((oneOfPlan variants).toInstance hash).get "one_of" = .ok (.tuple (variants.map .schema)) :=
  Plan.get_of_demand (p := oneOfPlan variants) hash rfl "one_of" (by decide) rfl

/-- The check of the type is the search. -/
theorem error_oneOf (hash : String) (variants : List Schema) (v : Value) (lead : String) :
    (Schema.single ((oneOfPlan variants).toInstance hash)).error v (.str lead)
      = Search.run Schema.error v 0 (variants.map .schema) >>= fun found =>
          Instance.searchVerdict found (.str lead) .oneOf := by
  have hchecks : ((oneOfPlan variants).toInstance hash).checks
      = [.builtin .typed, .builtin .oneOf] := Plan.checks_toInstance _ _
  have htyped : ((oneOfPlan variants).toInstance hash).checkTyped v (.str lead) = .ok none := rfl
  have hlast : ∀ x : Verdict, firstOf x (.ok none) = x := fun x => by
    rcases x with e | (_ | e) <;> rfl
  rw [Schema.error_single, Instance.errorWith, Plan.require_toInstance _ hash (by decide),
    orEmpty_str, hchecks]
  simp only [lift_ok, ok_bind, Instance.firstError, Instance.checkStep, htyped, pure_eq, hlast]
  rw [firstOf, ok_bind, Instance.checkOneOf, get_oneOf]
  rfl

/-- The check and the search after it come to one search. -/
theorem normalize_oneOf :
    (Schema.single ((oneOfPlan variants).toInstance hash)).normalize v
      = Search.run Schema.error v 0 (variants.map .schema) >>= fun found =>
          Schema.inner.applySearch found v .oneOf := by
  have hsupplied : ((oneOfPlan variants).toInstance hash).supplied v = .ok v := by
    rw [supplied_toInstance, show (oneOfPlan variants).hasDefault = false from rfl, Bool.and_false]
    rfl
  have hsettle : (oneOfPlan variants).settle hash v
      = Search.run Schema.error v 0 (variants.map .schema) >>= fun found =>
          Schema.inner.applySearch found v .oneOf := by
    show Instance.finishOneOf _ _ v = _
    rw [Instance.finishOneOf, get_oneOf]
    rfl
  rw [normalize_toInstance, hsupplied, ok_bind, error_oneOf, finishes_supplied hsupplied,
    show (oneOfPlan variants).transformed v = .ok v from rfl, ok_bind, hsettle]
  cases Search.run Schema.error v 0 (variants.map .schema) with
  | error e => rfl
  | ok found => cases found <;> rfl

end pipeline

/-- The type resolves values as its alternatives do, when none is left out. -/
theorem oneOf_resolves (hash : String) (ss : List Instance) :
    Schema.Resolves .oneOf .multi (.single ((oneOfPlan (ss.map .single)).toInstance hash))
      (.multi ss) where
  error v lead := by
    rw [error_oneOf, Schema.error_multi, searchMembers_eq]
    exact searchVerdict_same .oneOf .multi _ lead
  normalize v := by
    rw [normalize_oneOf, Schema.normalize_multi, searchMembers_eq]
    exact applySearch_same .oneOf .multi _ v

/-- It accepts what one of them is chosen for, and leaves the normal form to that
one. -/
theorem accepts_oneOf (hash : String) {ss : List Instance} {v : Value} :
    (Schema.single ((oneOfPlan (ss.map .single)).toInstance hash)).accepts v = .ok true ↔
      ∃ s, Schema.Chosen v ss s := by
  refine Iff.trans ?_ (Schema.accepts_iff_chosen (.multi ss) v)
  rw [Schema.accepts, Schema.accepts, ((oneOf_resolves hash ss).error v "").accepted_eq]

theorem normalize_chosen (hash : String) {ss : List Instance} {v : Value} {s : Instance}
    (h : Schema.Chosen v ss s) :
    (Schema.single ((oneOfPlan (ss.map .single)).toInstance hash)).normalize v
      = (Schema.single s).normalize v := by
  obtain ⟨n, hrun⟩ := h.run 0
  rw [normalize_oneOf, hrun]
  rfl

/-! ## The list -/

/-- Nothing is left out where no digest occurs twice. -/
theorem dropRepeated_eq_self {ss : List Instance} {seen : List String} :
    Schema.dropRepeated seen ss = ss ↔
      (ss.map Instance.hash).Nodup ∧ ∀ s ∈ ss, s.hash ∉ seen := by
  induction ss generalizing seen with
  | nil => exact iff_of_true rfl ⟨.nil, List.forall_mem_nil _⟩
  | cons s rest ih =>
      rw [Schema.dropRepeated, List.map_cons, List.nodup_cons, List.forall_mem_cons]
      split
      · rename_i hseen
        refine iff_of_false (fun heq => ?_) fun h => h.2.1 (List.contains_iff_mem.mp hseen)
        have hlength := (dropRepeated_sublist rest seen).length_le
        rw [heq, List.length_cons] at hlength
        exact absurd hlength (Nat.not_succ_le_self _)
      · rename_i hseen
        rw [List.cons_inj_right, ih]
        simp only [List.mem_cons, not_or, List.mem_map, not_exists, not_and]
        constructor
        · rintro ⟨hnodup, hrest⟩
          exact ⟨⟨fun u hu => (hrest u hu).1, hnodup⟩,
            fun hmem => hseen (List.contains_iff_mem.mpr hmem), fun u hu => (hrest u hu).2⟩
        · rintro ⟨⟨hfresh, hnodup⟩, -, hrest⟩
          exact ⟨hnodup, fun u hu => ⟨hfresh u hu, hrest u hu⟩⟩

section refused

variable {ss : List Instance} {v : Value} {lead : String} {e : ErrorInfo}

/-- The error of alternatives sums up one error of each. -/
theorem error_multi_refused :
    (Schema.multi ss).error v (.str lead) = .ok (some e) ↔
      ∃ errors, .ofVariants errors lead .multi = e ∧
        List.Forall₂ (fun s e => (Schema.single s).error v (.str "") = .ok (some e)) ss errors := by
  simp only [Schema.error_multi, searchMembers_eq, bind_eq_ok]
  constructor
  · rintro ⟨found, hrun, hverdict⟩
    cases found with
    | found n t => cases hverdict
    | refused errors =>
        refine ⟨errors, ?_, List.forall₂_map_left_iff.mp ((run_eq_refused 0).mp hrun)⟩
        simpa [Instance.searchVerdict] using hverdict
  · rintro ⟨errors, rfl, heach⟩
    refine ⟨.refused errors, (run_eq_refused 0).mpr (List.forall₂_map_left_iff.mpr heach), ?_⟩
    simp [Instance.searchVerdict]

theorem errors_length (h : (Schema.multi ss).error v (.str lead) = .ok (some e)) :
    e.errors.length = ss.length := by
  obtain ⟨errors, rfl, heach⟩ := error_multi_refused.mp h
  exact heach.length_eq.symm

/-- Whatever is left out, the others refuse a value that all refuse. -/
theorem refused_of_sublist {left : List Instance} (hleft : left.Sublist ss)
    (h : (Schema.multi ss).error v (.str lead) = .ok (some e)) :
    ∃ e', (Schema.multi left).error v (.str lead) = .ok (some e') := by
  obtain ⟨errors, -, heach⟩ := error_multi_refused.mp h
  obtain ⟨errors', heach'⟩ := exists_forall₂ fun s hs =>
    (forall₂_mem_left heach (hleft.subset hs)).imp fun _ he => he.2
  exact ⟨_, error_multi_refused.mpr ⟨errors', rfl, heach'⟩⟩

end refused

/-! ## Configurations -/

def oneOfOptions (cs : List Entries) : Entries :=
  [(.str "type", .str "one-of"), (.str "one_of", .list (cs.map .dict))]

section compile

variable {cs : List Entries} {ss : List Instance}

theorem compile_oneOf
    (hcs : List.Forall₂ (fun c s => Registry.builtin.compile (.dict c) .none = .ok (.single s))
      cs ss) :
    ∃ hash, Registry.builtin.compile (.dict (oneOfOptions cs)) .none
      = .ok (.single ((oneOfPlan (ss.map .single)).toInstance hash)) := by
  have hdicts : (cs.map Value.dict).all Value.isDict = true :=
    List.all_eq_true.mpr (List.forall_mem_map.mpr fun _ _ => rfl)
  have hvariants : (Value.tuple ((ss.map Schema.single).map .schema)).isDigestible = true :=
    Value.everywhere_tuple.mpr ⟨rfl, List.forall_mem_map.mpr fun _ _ => rfl⟩
  refine Plan.compile_of_digestible (p := oneOfPlan (ss.map .single)) (oneOfOptions cs)
    builtinControllers[6] rfl rfl rfl (fun _ => ?_) ?_
  · refine oneOf_attributes (v := .list (cs.map .dict)) rfl rfl hdicts ?_
    exact List.forall₂_map_left_iff.mpr (List.forall₂_map_right_iff.mpr hcs)
  · exact (Bool.and_true _).trans hvariants

theorem compile_list_eq
    (hcs : List.Forall₂ (fun c s => Registry.builtin.compile (.dict c) .none = .ok (.single s))
      cs ss) :
    Registry.builtin.compile (.list (cs.map .dict)) .none
      = .ok (.multi (Schema.dropRepeated [] ss)) := by
  rw [compile_list hcs, ofAlternatives_single]

/-- **The one-of type resolves values as its alternatives do.**  Configurations
that compile one by one make a schema of the type and a schema by being listed.
The first resolves values as all the alternatives would, and as the list does
if no digest occurs twice.  If alternatives occur twice, but different ones have
different digests, both accept the same values and bring them to the same normal
forms; of a value that is refused the list then sums up fewer errors. -/
theorem oneOf_resolves_as_list
    (hcs : List.Forall₂ (fun c s => Registry.builtin.compile (.dict c) .none = .ok (.single s))
      cs ss) :
    ∃ t u, Registry.builtin.compile (.dict (oneOfOptions cs)) .none = .ok t ∧
      Registry.builtin.compile (.list (cs.map .dict)) .none = .ok u ∧
      t.Resolves .oneOf .multi (.multi ss) ∧
      ((ss.map Instance.hash).Nodup → t.Resolves .oneOf .multi u) ∧
      ((∀ s ∈ ss, ∀ s' ∈ ss, s.hash = s'.hash → s = s') → ∀ v,
        (t.accepts v = .ok true ↔ u.accepts v = .ok true) ∧
          (t.accepts v = .ok true → t.normalize v = u.normalize v)) ∧
      (¬ (ss.map Instance.hash).Nodup → ∀ v lead e, t.error v (.str lead) = .ok (some e) →
        ∃ e', u.error v (.str lead) = .ok (some e') ∧ e'.errors.length < e.errors.length) := by
  obtain ⟨hash, hoption⟩ := compile_oneOf hcs
  have hresolves := oneOf_resolves hash ss
  have hleft := dropRepeated_sublist ss []
  refine ⟨_, _, hoption, compile_list_eq hcs, hresolves, fun hnodup => ?_, fun hsame v => ?_,
    fun hrepeated v lead e he => ?_⟩
  · rwa [dropRepeated_eq_self.mpr ⟨hnodup, fun _ _ => List.not_mem_nil⟩]
  · obtain ⟨haccepts, hnormalize⟩ := Schema.chosen_of_members
      (u := .multi (Schema.dropRepeated [] ss)) rfl fun s hs s' hs' hhash w =>
        congrArg (fun r => (Schema.single r).accepts w) (hsame s hs s' hs' hhash)
    rw [accepts_oneOf hash]
    refine ⟨(haccepts v).symm, fun ⟨s, hchosen⟩ => ?_⟩
    rw [normalize_chosen hash hchosen, hnormalize v s hchosen]
  · -- the errors that are summed up are one for each alternative
    obtain ⟨e₁, he₁, herrors⟩ := (hresolves.error v lead).errors he
    obtain ⟨e', he'⟩ := refused_of_sublist hleft he₁
    refine ⟨e', he', ?_⟩
    rw [← herrors, errors_length he₁, errors_length he']
    refine Nat.lt_of_le_of_ne hleft.length_le fun heq => hrepeated ?_
    exact (dropRepeated_eq_self.mp (hleft.eq_of_length heq)).1

/-- A type that has no options of its own. -/
def bareOptions (name : String) : Entries := [(.str "type", .str name)]

def flagPlan : Plan := .plain (.str "boolean") .boolean none

def memberPlan : Plan := .plain (.str "symbol") .symbol none

theorem compile_flag : ∃ hash, Registry.builtin.compile (.dict (bareOptions "boolean")) .none
    = .ok (.single (flagPlan.toInstance hash)) :=
  Plan.compile_of_digestible (p := flagPlan) (bareOptions "boolean") builtinControllers[2]
    rfl rfl rfl (fun _ => rfl) rfl

theorem compile_member : ∃ hash, Registry.builtin.compile (.dict (bareOptions "symbol")) .none
    = .ok (.single (memberPlan.toInstance hash)) :=
  Plan.compile_of_digestible (p := memberPlan) (bareOptions "symbol") builtinControllers[8]
    rfl rfl rfl (fun _ => rfl) rfl

/-- What is digested for a type that has no options of its own. -/
def bareLines (token : String) : List String :=
  ["default=\x7b\"$undefined\":true\x7d", "enum=null", "has_default=false", "transform=null",
    "type=" ++ token, "validator=null"]

theorem hash_bare {type : Value} {demand : Demand} {token : String}
    (hdemand : demand.attributes = []) (htoken : type.token = .ok token) :
    (Plan.plain type demand none).attributes.hash = .ok (Attributes.hashLines (bareLines token)) := by
  have hsorted : (Plan.plain type demand none).attributes.sortedPublic
      = [("default", .undefined), ("enum", .none), ("has_default", .bool false),
          ("transform", .none), ("type", type), ("validator", .none)] := by
    refine Plan.sortedPublic_eq ?_ ?_
    · rw [Plan.attributes, Plan.plain, hdemand]
      exact .refl _
    · show ["default", "enum", "has_default", "transform", "type", "validator"].Pairwise
        fun s t => textBelow s t = true
      decide
  have hundefined : Value.undefined.token = .ok "\x7b\"$undefined\":true\x7d" :=
    Value.token_ok rfl Value.outline_undefined
  rw [Attributes.hash, Attributes.lines, hsorted]
  simp only [List.mapM_cons, List.mapM_nil, Attributes.line, hundefined, htoken, ok_bind]
  rfl

/-- The two digests are computed: that their texts differ is not enough. -/
theorem digests_apart : flagPlan.attributes.hash ≠ memberPlan.attributes.hash := by
  have hflag : (Value.str "boolean").token = .ok "\"boolean\"" := rfl
  have hmember : (Value.str "symbol").token = .ok "\"symbol\"" := rfl
  rw [flagPlan, memberPlan, hash_bare rfl hflag, hash_bare rfl hmember]
  exact fun h => absurd (Except.ok.inj h) (by decide +kernel)

/-- Flags or members of enumerations: neither alternative is left out. -/
theorem oneOf_resolves_as_list_two :
    ∃ s s' t u, Registry.builtin.compile (.dict (bareOptions "boolean")) .none = .ok (.single s) ∧
      Registry.builtin.compile (.dict (bareOptions "symbol")) .none = .ok (.single s') ∧
      s.hash ≠ s'.hash ∧
      Registry.builtin.compile (.dict (oneOfOptions [bareOptions "boolean", bareOptions "symbol"]))
        .none = .ok t ∧
      Registry.builtin.compile (.list [.dict (bareOptions "boolean"), .dict (bareOptions "symbol")])
        .none = .ok u ∧
      t.Resolves .oneOf .multi u := by
  obtain ⟨hash, hs⟩ := compile_flag
  obtain ⟨hash', hs'⟩ := compile_member
  obtain ⟨t, u, ht, hu, -, hresolves, -⟩ := oneOf_resolves_as_list (.cons hs (.cons hs' .nil))
  have hne : hash ≠ hash' := by
    rintro rfl
    refine digests_apart ?_
    exact (compiled_of_compile hs).hash_attributes.trans
      (compiled_of_compile hs').hash_attributes.symm
  refine ⟨_, _, t, u, hs, hs', hne, ht, hu, hresolves ?_⟩
  exact List.nodup_cons.mpr ⟨fun h => hne (List.mem_singleton.mp h), List.nodup_singleton _⟩

/-- Of the same configuration given twice, the type lists the error twice and
the list does once. -/
theorem oneOf_lists_repeated :
    ∃ t u e e', Registry.builtin.compile (.dict (oneOfOptions [textOptions, textOptions])) .none
        = .ok t ∧
      Registry.builtin.compile (.list [.dict textOptions, .dict textOptions]) .none = .ok u ∧
      t.error (.int 5) (.str "") = .ok (some e) ∧ u.error (.int 5) (.str "") = .ok (some e') ∧
      e.errors.length = 2 ∧ e'.errors.length = 1 ∧
      ¬ SameVerdict .oneOf .multi (t.error (.int 5) (.str "")) (u.error (.int 5) (.str "")) := by
  obtain ⟨hash, hs⟩ := compile_text
  obtain ⟨hash', ht⟩ := compile_oneOf (.cons hs (.cons hs .nil))
  have hu := compile_list_eq (.cons hs (.cons hs .nil))
  have hleft : Schema.dropRepeated [] [textPlan.toInstance hash, textPlan.toInstance hash]
      = [textPlan.toInstance hash] := by simp [Schema.dropRepeated]
  rw [hleft] at hu
  have hrefused : (Schema.single (textPlan.toInstance hash)).error (.int 5) (.str "")
      = .ok (some (.of "Invalid value 5. Expected a string." .type)) := by
    rw [Schema.error_single]
    rfl
  have hterror := error_oneOf hash'
    [.single (textPlan.toInstance hash), .single (textPlan.toInstance hash)] (.int 5) ""
  rw [(run_eq_refused 0).mpr (.cons hrefused (.cons hrefused .nil))] at hterror
  have huerror : ∃ e, (Schema.multi [textPlan.toInstance hash]).error (.int 5) (.str "")
      = .ok (some e) := ⟨_, error_multi_refused.mpr ⟨_, rfl, .cons hrefused .nil⟩⟩
  obtain ⟨e', huerror⟩ := huerror
  have hlength : e'.errors.length = 1 := errors_length huerror
  refine ⟨_, _, _, e', ht, hu, hterror, huerror, rfl, hlength, fun hsame => ?_⟩
  obtain ⟨e, he, herrors⟩ := hsame.errors hterror
  obtain rfl := Option.some.inj (Except.ok.inj (huerror.symm.trans he))
  rw [herrors] at hlength
  cases hlength

end compile

end Conform
