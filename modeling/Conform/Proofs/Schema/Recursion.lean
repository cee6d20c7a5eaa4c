/-
# `Proofs.Schema.Recursion` — error and normalize without their guards

`Schema.error` and `Schema.normalize` recur only to schemas that are less
deep, and fail elsewhere.  The steps of a plan never ask elsewhere: what
they ask are the parts of the plan, which are less deep.  So both satisfy
the equation in which they call themselves.
-/
import Conform.Proofs.Outcome
import Conform.Proofs.Schema.Plan

namespace Conform

/-! ## Asking the same of the parts -/

section ask

variable {ask ask' : Ask}

theorem itemErrors_congr {t : Schema} (h : ∀ w l, ask t w l = ask' t w l) :
    ∀ (items : List Value) (i : Nat),
      Instance.itemErrors ask (.schema t) i items = Instance.itemErrors ask' (.schema t) i items
  | [], _ => rfl
  | w :: rest, i => by
      simp only [Instance.itemErrors, askAttribute, h, itemErrors_congr h rest (i + 1)]

theorem entryErrors_congr {properties : List (Value × Schema)} {generic : Option Schema}
    (h : ∀ t ∈ properties.map (·.2) ++ generic.toList, ∀ w l, ask t w l = ask' t w l) :
    ∀ es : Entries,
      Instance.entryErrors ask (Demand.entries properties) (optional .schema generic) es
        = Instance.entryErrors ask' (Demand.entries properties) (optional .schema generic) es
  | [] => rfl
  | (key, w) :: rest => by
      simp only [Instance.entryErrors, Demand.getD_find?_entries, entryErrors_congr h rest]
      cases hg : Demand.governing properties generic key with
      | none => rfl
      | some t =>
          simp only [optional, askAttribute, h t (Demand.mem_of_governing hg)]
          rfl

theorem run_congr {v : Value} :
    ∀ {ts : List Schema}, (∀ t ∈ ts, ∀ w l, ask t w l = ask' t w l) → ∀ i : Nat,
      Search.run ask v i (ts.map .schema) = Search.run ask' v i (ts.map .schema)
  | [], _, _ => rfl
  | t :: rest, h, i => by
      have ih := run_congr (v := v) (fun u hu => h u (List.mem_cons_of_mem _ hu)) (i + 1)
      simp only [List.map_cons, Search.run, h t List.mem_cons_self, ih]

theorem searchMembers_eq (ask : Ask) (members : List Instance) (v : Value) :
    searchMembers ask members v = Search.run ask v 0 ((members.map .single).map .schema) := by
  rw [List.map_map]
  rfl

variable {p : Plan}

theorem checkStep_congr (hash : String) (v lead : Value)
    (h : ∀ t ∈ p.demand.parts, ∀ w l, ask t w l = ask' t w l) :
    Instance.checkStep ask (p.toInstance hash) v lead (.builtin p.demand.kind)
      = Instance.checkStep ask' (p.toInstance hash) v lead (.builtin p.demand.kind) := by
  cases hd : p.demand with
  | array most least item unique =>
      have hitems : ∀ items, Instance.checkItems ask (p.toInstance hash) items lead
          = Instance.checkItems ask' (p.toInstance hash) items lead := by
        intro items
        unfold Instance.checkItems
        rw [Plan.get_of_demand hash hd "schema" (by decide) rfl]
        cases item with
        | none => rfl
        | some t =>
            simp only [optional, lift_ok, ok_bind,
              itemErrors_congr (h t (by simp [hd, Demand.parts])) items 0]
      simp only [Demand.kind, Instance.checkStep, Instance.checkArray, hitems]
  | object allowNull clean properties generic =>
      simp only [Demand.kind, Instance.checkStep, Instance.checkObject]
      cases v with
      | dict entries =>
          have hproperties := Plan.properties_of_demand hash hd
          have hparts : ∀ t ∈ properties.map (·.2) ++ generic.toList,
              ∀ w l, ask t w l = ask' t w l := fun t ht => h t (by rw [hd]; exact ht)
          cases entries with
          | nil => rfl
          | cons e es =>
              simp only [hproperties, Plan.genericFor_of_demand hash hd, lift_ok, ok_bind,
                entryErrors_congr hparts]
      | _ => rfl
  | oneOf variants =>
      simp only [Demand.kind, Instance.checkStep, Instance.checkOneOf, searchItems,
        Plan.get_of_demand hash hd "one_of" (by decide) rfl, lift_ok, ok_bind, Value.items]
      rw [run_congr fun t ht => h t (by rw [hd]; exact ht)]
  | _ => rfl

theorem errorWith_congr (hash : String) (v lead : Value)
    (h : ∀ t ∈ p.demand.parts, ∀ w l, ask t w l = ask' t w l) :
    (p.toInstance hash).errorWith ask v lead = (p.toInstance hash).errorWith ask' v lead := by
  have hstep : ∀ lead, Instance.firstError ask (p.toInstance hash) v lead (p.toInstance hash).checks
      = Instance.firstError ask' (p.toInstance hash) v lead (p.toInstance hash).checks := by
    intro lead
    rw [p.checks_toInstance]
    split
    · rfl
    · simp only [Instance.firstError, checkStep_congr hash v lead h]
      rfl
  simp only [Instance.errorWith, hstep]

end ask

/-! ## The equations of error -/

namespace Schema

theorem error_eq (s : Schema) (v lead : Value) :
    s.error v lead = s.errorWith (fun t w l =>
      if t.depth < s.depth then t.error w l else throw (.fault .missingAttribute)) v lead := by
  rw [error]

theorem error_single (p : Plan) (hash : String) (v lead : Value) :
    (Schema.single (p.toInstance hash)).error v lead
      = (p.toInstance hash).errorWith Schema.error v lead := by
  rw [error_eq]
  exact errorWith_congr hash v lead fun t ht w l => if_pos (Plan.depth_lt ht)

theorem error_multi (members : List Instance) (v lead : Value) :
    (Schema.multi members).error v lead
      = searchMembers Schema.error members v >>= fun found =>
          Instance.searchVerdict found lead .multi := by
  have hmembers : ∀ t ∈ members.map Schema.single, ∀ w l,
      (if t.depth < (Schema.multi members).depth then t.error w l
        else throw (.fault .missingAttribute)) = t.error w l := by
    intro t ht w l
    obtain ⟨s, hs, rfl⟩ := List.mem_map.mp ht
    exact if_pos (depth_member_lt hs)
  have hsearch := run_congr (v := v) hmembers 0
  rw [← searchMembers_eq, ← searchMembers_eq] at hsearch
  rw [error_eq]
  exact congrArg (· >>= fun found => Instance.searchVerdict found lead .multi) hsearch

end Schema

/-! ## The equations of normalize -/

section inner

variable {inner inner' : Inner}

/-- Both answer for a schema in the same way. -/
def Inner.Agree (inner inner' : Inner) (t : Schema) : Prop :=
  (∀ w l, inner.ask t w l = inner'.ask t w l) ∧ ∀ w, inner.normalize t w = inner'.normalize t w

/-- A search finds the candidate that accepts, after those that have an error each. -/
theorem run_eq_found {ask : Ask} {v : Value} {t : Schema} {ts : List Schema} {n i : Nat} :
    Search.run ask v i (ts.map .schema) = .ok (.found n t) ↔
      ∃ before after, ts = before ++ t :: after ∧ n = i + before.length ∧
        ask t v (.str "") = .ok none ∧ ∀ u ∈ before, ∃ e, ask u v (.str "") = .ok (some e) := by
  induction ts generalizing i n with
  | nil => simp [Search.run]
  | cons u rest ih =>
      rw [List.map_cons, Search.run]
      constructor
      · intro h
        obtain ⟨verdict, hu, h⟩ := bind_eq_ok.mp h
        cases verdict with
        | none =>
            obtain ⟨rfl, rfl⟩ := Search.found.inj (Except.ok.inj h)
            exact ⟨[], rest, rfl, rfl, hu, List.forall_mem_nil _⟩
        | some e =>
            obtain ⟨found, hrest, h⟩ := bind_eq_ok.mp h
            cases found with
            | refused errors => cases Except.ok.inj h
            | found m t' =>
                obtain ⟨rfl, rfl⟩ := Search.found.inj (Except.ok.inj h)
                obtain ⟨before, after, rfl, rfl, ht, hbefore⟩ := ih.mp hrest
                refine ⟨u :: before, after, rfl, Nat.add_right_comm i 1 _, ht, ?_⟩
                exact List.forall_mem_cons.mpr ⟨⟨e, hu⟩, hbefore⟩
      · rintro ⟨before, after, heq, rfl, ht, hbefore⟩
        cases before with
        | nil =>
            obtain ⟨rfl, rfl⟩ := List.cons.inj heq
            rw [ht]
            rfl
        | cons w before =>
            obtain ⟨rfl, rfl⟩ := List.cons.inj heq
            obtain ⟨⟨e, hu⟩, hbefore⟩ := List.forall_mem_cons.mp hbefore
            have hrest := ih.mpr ⟨before, after, rfl, Nat.add_right_comm i _ 1, ht, hbefore⟩
            rw [hu, ok_bind, hrest]
            rfl

/-- What is found accepts, and stands at its position. -/
theorem getElem_of_run_found {ask : Ask} {v : Value} {t : Schema} {n : Nat} {ts : List Schema}
    {i : Nat} (h : Search.run ask v i (ts.map .schema) = .ok (.found n t)) :
    ∃ k, n = i + k ∧ ts[k]? = some t ∧ ask t v (.str "") = .ok none := by
  obtain ⟨before, after, rfl, rfl, ht, -⟩ := run_eq_found.mp h
  exact ⟨before.length, rfl, by simp, ht⟩

/-- What is found is a candidate that accepts. -/
theorem mem_of_run_found {ask : Ask} {v : Value} {t : Schema} {n : Nat} {ts : List Schema}
    {i : Nat} (h : Search.run ask v i (ts.map .schema) = .ok (.found n t)) :
    t ∈ ts ∧ ask t v (.str "") = .ok none := by
  obtain ⟨k, -, hk, ht⟩ := getElem_of_run_found h
  exact ⟨List.mem_of_getElem? hk, ht⟩

/-- A search that finds nothing has an error for each candidate. -/
theorem run_eq_refused {ask : Ask} {v : Value} {ts : List Schema} {errors : List ErrorInfo}
    (i : Nat) : Search.run ask v i (ts.map .schema) = .ok (.refused errors) ↔
      List.Forall₂ (fun t e => ask t v (.str "") = .ok (some e)) ts errors := by
  induction ts generalizing i errors with
  | nil =>
      rw [List.forall₂_nil_left_iff, List.map_nil, Search.run, pure_eq_ok, Search.refused.injEq]
      exact eq_comm
  | cons t rest ih =>
      rw [List.map_cons, List.forall₂_cons_left_iff, Search.run]
      cases ask t v (.str "") with
      | error e => simp
      | ok verdict =>
          cases verdict with
          | none => simp
          | some e =>
              simp only [ok_bind, ← ih (i + 1), Except.ok.injEq, Option.some.injEq]
              cases Search.run ask v (i + 1) (rest.map .schema) with
              | error e => simp
              | ok found => cases found <;> simp [eq_comm]

theorem applySearch_congr {v : Value} {k : ErrorKind} {ts : List Schema} {n : Nat}
    (h : ∀ t ∈ ts, inner.Agree inner' t) :
    (Search.run inner.ask v n (ts.map .schema) >>= fun found => inner.applySearch found v k)
      = Search.run inner'.ask v n (ts.map .schema) >>= fun found =>
          inner'.applySearch found v k := by
  rw [run_congr (fun t ht => (h t ht).1) n]
  cases hrun : Search.run inner'.ask v n (ts.map .schema) with
  | error e => rfl
  | ok found =>
      cases found with
      | refused errors => rfl
      | found m t => exact (h t (mem_of_run_found hrun).1).2 v

theorem finishItems_congr {t : Schema} (h : inner.Agree inner' t) (items : List Value) :
    Instance.finishItems inner (.schema t) items
      = Instance.finishItems inner' (.schema t) items := by
  induction items with
  | nil => rfl
  | cons w rest ih => simp only [Instance.finishItems, Inner.apply, h.2, ih]

variable {properties : List (Value × Schema)}

theorem finishEntries_congr {clean : Bool}
    (h : ∀ t ∈ properties.map (·.2), inner.Agree inner' t) (es : Entries) :
    Instance.finishEntries inner (Demand.entries properties) clean es
      = Instance.finishEntries inner' (Demand.entries properties) clean es := by
  induction es with
  | nil => rfl
  | cons entry rest ih =>
      simp only [Instance.finishEntries, ih, Demand.find?_entries]
      cases hf : properties.find? fun e => Value.sameKey e.1 entry.1 with
      | none => rfl
      | some e =>
          have he : e.2 ∈ properties.map (·.2) :=
            List.mem_map_of_mem (List.mem_of_find?_eq_some hf)
          simp only [Option.map_some, Inner.apply, (h e.2 he).2]

theorem fillEntries_congr (given : Entries) :
    ∀ {properties : List (Value × Schema)}, (∀ t ∈ properties.map (·.2), inner.Agree inner' t) →
      Instance.fillEntries inner given (Demand.entries properties)
        = Instance.fillEntries inner' given (Demand.entries properties)
  | [], _ => rfl
  | (key, t) :: rest, h => by
      have ih := fillEntries_congr given fun u hu =>
        h u (List.mem_cons_of_mem _ hu)
      simp only [Demand.entries, List.map_cons, Instance.fillEntries, Inner.apply,
        (h t List.mem_cons_self).2] at ih ⊢
      rw [ih]

theorem finishStep_congr {p : Plan} (hash : String) (v : Value)
    (h : ∀ t ∈ p.demand.parts, inner.Agree inner' t) :
    Instance.finishStep inner (p.toInstance hash) v (.builtin p.demand.kind)
      = Instance.finishStep inner' (p.toInstance hash) v (.builtin p.demand.kind) := by
  cases hd : p.demand with
  | array most least item unique =>
      simp only [Demand.kind, Instance.finishStep, Instance.finishArray,
        Plan.get_of_demand hash hd "schema" (by decide) rfl, lift_ok, ok_bind]
      cases item with
      | none => rfl
      | some t =>
          simp only [optional, finishItems_congr (h t (by simp [hd, Demand.parts]))]
          rfl
  | object allowNull clean properties generic =>
      have hproperties := Plan.properties_of_demand hash hd
      have hparts : ∀ t ∈ properties.map (·.2), inner.Agree inner' t := fun t ht =>
        h t (by rw [hd]; exact List.mem_append_left _ ht)
      simp only [Demand.kind, Instance.finishStep, Instance.finishObject]
      cases v with
      | dict entries =>
          simp only [hproperties, lift_ok, ok_bind, finishEntries_congr hparts,
            fillEntries_congr entries hparts]
      | _ => rfl
  | oneOf variants =>
      simp only [Demand.kind, Instance.finishStep, Instance.finishOneOf, searchItems,
        Plan.get_of_demand hash hd "one_of" (by decide) rfl, lift_ok, ok_bind, Value.items]
      exact applySearch_congr fun t ht => h t (by rw [hd]; exact ht)
  | _ => rfl

theorem normalizeWith_congr {p : Plan} (hash : String) (v : Value)
    (h : ∀ t ∈ p.demand.parts, inner.Agree inner' t) :
    (p.toInstance hash).normalizeWith inner v = (p.toInstance hash).normalizeWith inner' v := by
  have hfinish : ∀ w, (p.toInstance hash).finishes.foldlM
      (Instance.finishStep inner (p.toInstance hash)) w
        = (p.toInstance hash).finishes.foldlM (Instance.finishStep inner' (p.toInstance hash)) w := by
    intro w
    rw [p.finishes_toInstance]
    split
    · simp only [List.foldlM_cons, List.foldlM_nil, finishStep_congr hash _ h]
      rfl
    · rfl
  simp only [Instance.normalizeWith, hfinish,
    errorWith_congr hash _ _ fun t ht => (h t ht).1]

end inner

namespace Schema

/-- Error and normalize themselves, as they answer for the schemas inside. -/
def inner : Inner := ⟨error, normalize⟩

/-- What `normalize` hands to the steps of a schema. -/
def innerBelow (s : Schema) : Inner :=
  ⟨error, fun t w =>
    if t.depth < s.depth then t.normalize w else throw (.fault .missingAttribute)⟩

theorem innerBelow_agree {s t : Schema} (h : t.depth < s.depth) : s.innerBelow.Agree inner t :=
  ⟨fun _ _ => rfl, fun _ => if_pos h⟩

theorem normalize_eq (s : Schema) (v : Value) :
    s.normalize v = s.normalizeWith s.innerBelow v := by
  rw [normalize]
  rfl

theorem normalize_single (p : Plan) (hash : String) (v : Value) :
    (Schema.single (p.toInstance hash)).normalize v
      = (p.toInstance hash).normalizeWith inner v := by
  rw [normalize_eq]
  exact normalizeWith_congr hash v fun t ht => innerBelow_agree (Plan.depth_lt ht)

theorem normalize_multi (members : List Instance) (v : Value) :
    (Schema.multi members).normalize v
      = searchMembers error members v >>= fun found => inner.applySearch found v .multi := by
  have hmembers : ∀ t ∈ members.map Schema.single,
      (Schema.multi members).innerBelow.Agree inner t := by
    intro t ht
    obtain ⟨s, hs, rfl⟩ := List.mem_map.mp ht
    exact innerBelow_agree (depth_member_lt hs)
  have hsearch := applySearch_congr (v := v) (n := 0) (k := .multi) hmembers
  rw [← searchMembers_eq, ← searchMembers_eq] at hsearch
  rw [normalize_eq]
  exact hsearch

end Schema

end Conform
