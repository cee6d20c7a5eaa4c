/-
# `Proofs.Schema.Steady` — normal forms stay as they are

Normalizing rewrites a value: arrays become lists, undeclared keys go,
defaults come in and the parts are rewritten in turn.  A schema is steady
when nothing inside sees the difference: no transform, no choice between
schemas, and no check of a whole container that a rewritten part could upset.
Then a normal form is accepted, and normalizing leaves it alone.

The proof is an induction over the schemas inside.  For an object it tells
the entries of a normal form apart: the declared ones hold normal forms, the
undeclared ones were there before and are kept, and the ones filled in are
declared.  A second run meets the same entries and has nothing to fill in.
-/
import Conform.Proofs.Schema.Agreement
import Conform.Proofs.Value.Key

namespace Conform

/-! ## Schemas that only rewrite -/

/-- Keys that are equal to themselves and to no other, as those of a
dictionary are. -/
def IsDictionary {α : Type} (entries : List (Value × α)) : Prop :=
  entries.Pairwise (fun e f => Value.sameKey e.1 f.1 = false) ∧
    ∀ e ∈ entries, Value.sameKey e.1 e.1 = true

/-- Only the keys count. -/
theorem IsDictionary.of_keys {α β : Type} {es : List (Value × α)} {fs : List (Value × β)}
    (hkeys : es.map Prod.fst = fs.map Prod.fst) (h : IsDictionary es) : IsDictionary fs := by
  obtain ⟨hapart, hself⟩ := h
  constructor
  · rw [← List.pairwise_map (f := Prod.fst) (R := fun k l => Value.sameKey k l = false)] at hapart ⊢
    rwa [← hkeys]
  · rw [← List.forall_mem_map (f := Prod.fst) (P := fun k => Value.sameKey k k = true)] at hself ⊢
    rwa [← hkeys]

/-- Nothing in a plan sees that a container is rewritten. -/
structure Plan.Steady (p : Plan) : Prop where
  transform : p.transform = none
  container : p.demand.kind = .array ∨ p.demand.kind = .object →
    p.enum = none ∧ p.validator = none
  choice : p.demand.kind ≠ .oneOf
  unique : ∀ most least item, p.demand = .array most least item true → item = none
  keys : IsDictionary p.demand.properties

/-- A compiled schema of steady plans. -/
inductive Schema.Steady : Schema → Prop
  | single (p : Plan) (hash : String) (proper : p.Proper) (digest : p.attributes.hash = .ok hash)
      (steady : p.Steady) (parts : ∀ t ∈ p.demand.parts, Steady t) :
      Steady (.single (p.toInstance hash))

theorem Schema.Steady.compiled {s : Schema} (h : s.Steady) : s.Compiled := by
  induction h with
  | single p hash proper digest _ _ ih => exact .single p hash proper digest ih

/-! ## One schema -/

/-- A value is brought to its normal form by checking it and then rewriting
it as the kind does. -/
def Plan.settle (p : Plan) (hash : String) (v : Value) : Outcome Value :=
  if p.demand.kind ≠ .typed ∧ p.demand.kind.finishes then
    Instance.finishStep Schema.inner (p.toInstance hash) v (.builtin p.demand.kind)
  else .ok v

/-- A default is handed out as it is. -/
theorem Value.eq_of_freshDefault {d w : Value} (h : d.freshDefault = .ok w) : w = d := by
  unfold freshDefault at h
  split at h
  · cases h
  · exact (Except.ok.inj h).symm

section plan

variable {p : Plan} {hash : String} {v w : Value}

theorem supplied_toInstance :
    (p.toInstance hash).supplied v
      = if v.isUndefined && p.hasDefault then liftM p.default.freshDefault else .ok v := by
  simp only [Instance.supplied, Plan.flag_hasDefault, Plan.get_default, lift_ok, ok_bind, pure_eq]

/-- What was supplied is supplied again as it is. -/
theorem supplied_supplied (h : (p.toInstance hash).supplied v = .ok w) :
    (p.toInstance hash).supplied w = .ok w := by
  rw [supplied_toInstance] at h ⊢
  split at h
  · obtain rfl := Value.eq_of_freshDefault (lift_eq_ok.mp h)
    rw [h, ite_self]
  · rename_i hno
    obtain rfl := Except.ok.inj h
    rw [if_neg hno]

theorem supplied_of_defined (h : v.isUndefined = false) :
    (p.toInstance hash).supplied v = .ok v := by
  rw [supplied_toInstance, h]
  rfl

/-- What the transform makes of a value, if there is one. -/
def Plan.transformed (p : Plan) (v : Value) : Outcome Value :=
  match p.transform with
  | none => .ok v
  | some f => liftM (f.apply v)

/-- The root does once more what was done before the check, and then transforms. -/
theorem finishTyped_toInstance :
    (p.toInstance hash).finishTyped v = (p.toInstance hash).supplied v >>= p.transformed := by
  simp only [Instance.finishTyped, supplied_toInstance, Plan.get_hasDefault, Plan.get_default,
    Plan.get_transform, lift_ok, ok_bind, truthy_bool, Bool.and_comm p.hasDefault]
  unfold Plan.transformed
  cases p.transform with
  | none | some f =>
      split
      · cases p.default.freshDefault <;> rfl
      · rfl

/-- After the check, what was supplied is transformed and then finished as the kind does. -/
theorem finishes_supplied (h : (p.toInstance hash).supplied v = .ok v) :
    (p.toInstance hash).finishes.foldlM (Instance.finishStep Schema.inner (p.toInstance hash)) v
      = p.transformed v >>= p.settle hash := by
  rw [p.finishes_toInstance]
  show ((p.toInstance hash).finishTyped v >>= fun w => List.foldlM _ w _) = _
  rw [finishTyped_toInstance, h, ok_bind]
  refine congrArg _ (funext fun w => ?_)
  rw [Plan.settle]
  split
  · rw [List.foldlM_cons]
    cases Instance.finishStep Schema.inner (p.toInstance hash) w (.builtin p.demand.kind) <;> rfl
  · rfl

theorem normalize_toInstance :
    (Schema.single (p.toInstance hash)).normalize v
      = (p.toInstance hash).supplied v >>= fun u =>
          (Schema.single (p.toInstance hash)).error u (.str "") >>= fun verdict =>
            match verdict with
            | some info => throw (.value info)
            | none => (p.toInstance hash).finishes.foldlM
                (Instance.finishStep Schema.inner (p.toInstance hash)) u := by
  rw [Schema.normalize_single, Instance.normalizeWith, p.require_toInstance hash (by decide),
    p.require_toInstance hash (by decide)]
  simp only [Schema.error_single]
  rfl

theorem normalize_settle (h : p.transform = none) :
    (Schema.single (p.toInstance hash)).normalize v = .ok w ↔
      ∃ u, (p.toInstance hash).supplied v = .ok u ∧
        (Schema.single (p.toInstance hash)).accepts u = .ok true ∧ p.settle hash u = .ok w := by
  have hfinish : ∀ u, (p.toInstance hash).supplied u = .ok u →
      (p.toInstance hash).finishes.foldlM (Instance.finishStep Schema.inner (p.toInstance hash)) u
        = p.settle hash u := by
    intro u hu
    rw [finishes_supplied hu, Plan.transformed, h, ok_bind]
  rw [normalize_toInstance, bind_eq_ok]
  refine exists_congr fun u => and_congr_right fun hu => ?_
  rw [bind_eq_ok, Schema.accepts_eq_true, hfinish u (supplied_supplied hu)]
  constructor
  · rintro ⟨verdict, herror, h⟩
    cases verdict with
    | none => exact ⟨herror, h⟩
    | some info => cases h
  · rintro ⟨herror, h⟩
    exact ⟨none, herror, h⟩

/-! ## The last step -/

/-- What the items of an array become. -/
def Demand.finishedItems (item : Option Schema) (items : List Value) : Outcome (List Value) :=
  match item with
  | none => .ok items
  | some t => Instance.finishItems Schema.inner (.schema t) items

theorem settle_items {most : Option Int} {least : Int} {item : Option Schema} {unique : Bool}
    {items : List Value} (hd : p.demand = .array most least item unique)
    (hitems : v.arrayItems? = some items) :
    p.settle hash v = Value.list <$> Demand.finishedItems item items := by
  have hsettle : p.settle hash v = Instance.finishArray Schema.inner (p.toInstance hash) v := by
    rw [Plan.settle, hd]
    rfl
  have hschema := Plan.get_of_demand hash hd "schema" (by decide) rfl
  rw [hsettle]
  simp only [Instance.finishArray, hschema, lift_ok, ok_bind, hitems]
  cases item <;> rfl

theorem settle_entries {allowNull clean : Bool} {properties : List (Value × Schema)}
    {generic : Option Schema} (hd : p.demand = .object allowNull clean properties generic)
    (es : Entries) :
    p.settle hash (.dict es) = do
      let kept ← Instance.finishEntries Schema.inner (Demand.entries properties)
        (!es.isEmpty && clean) es
      let filled ← Instance.fillEntries Schema.inner es (Demand.entries properties)
      return .dict (kept ++ filled) := by
  have hsettle : p.settle hash (.dict es)
      = Instance.finishObject Schema.inner (p.toInstance hash) (.dict es) := by
    rw [Plan.settle, hd]
    rfl
  have hentries := Plan.properties_of_demand hash hd
  have hclean := Plan.get_of_demand hash hd "clean" (by decide) rfl
  rw [hsettle]
  simp only [Instance.finishObject, hentries, hclean, lift_ok, ok_bind, truthy_bool]
  cases es.isEmpty <;> rfl

theorem settle_null {allowNull clean : Bool} {properties : List (Value × Schema)}
    {generic : Option Schema} (hd : p.demand = .object allowNull clean properties generic) :
    p.settle hash .none = .ok .none := by
  rw [Plan.settle, hd]
  rfl

theorem settle_variants {variants : List Schema} (hd : p.demand = .oneOf variants) :
    p.settle hash v = Search.run Schema.error v 0 (variants.map .schema) >>= fun found =>
      Schema.inner.applySearch found v .oneOf := by
  have hsettle : p.settle hash v = Instance.finishOneOf Schema.inner (p.toInstance hash) v := by
    rw [Plan.settle, hd]
    rfl
  have hvariants := Plan.get_of_demand hash hd "one_of" (by decide) rfl
  rw [hsettle]
  simp only [Instance.finishOneOf, searchItems, hvariants, lift_ok, ok_bind, Value.items]
  rfl

end plan

/-! ## Items -/

/-- What a schema brings a value to, it accepts and leaves alone. -/
def Schema.Fixes (s : Schema) : Prop :=
  ∀ v w, s.normalize v = .ok w → s.accepts w = .ok true ∧ s.normalize w = .ok w

theorem finishItems_eq_ok {t : Schema} :
    ∀ {items rs : List Value}, Instance.finishItems Schema.inner (.schema t) items = .ok rs ↔
      List.Forall₂ (fun x r => t.normalize x = .ok r) items rs
  | [], rs => by
      rw [List.forall₂_nil_left_iff]
      constructor
      · exact fun h => (Except.ok.inj h).symm
      · rintro rfl
        rfl
  | x :: rest, rs => by
      rw [List.forall₂_cons_left_iff, Instance.finishItems, bind_eq_ok]
      simp only [bind_eq_ok, finishItems_eq_ok, pure_eq_ok]
      constructor
      · rintro ⟨r, hr, rs', hrs', rfl⟩
        exact ⟨r, rs', hr, hrs', rfl⟩
      · rintro ⟨r, rs', hr, hrs', rfl⟩
        exact ⟨r, hr, rs', hrs', rfl⟩

/-- What the items are brought to is accepted, and a second run leaves it alone. -/
theorem items_settled {t : Schema} {items rs : List Value} (ht : t.Fixes)
    (hrs : Instance.finishItems Schema.inner (.schema t) items = .ok rs) :
    Demand.askItems Schema.accepts (some t) rs = .ok true ∧
      Instance.finishItems Schema.inner (.schema t) rs = .ok rs := by
  have hfixed : ∀ r ∈ rs, t.accepts r = .ok true ∧ t.normalize r = .ok r := by
    intro r hr
    obtain ⟨x, -, hx⟩ := forall₂_mem_right (finishItems_eq_ok.mp hrs) hr
    exact ht x r hx
  exact ⟨askAll_eq_true.mpr fun r hr => (hfixed r hr).1,
    finishItems_eq_ok.mpr (List.forall₂_same.mpr fun r hr => (hfixed r hr).2)⟩

/-! ## Entries -/

/-- The schema declared for a key. -/
def Demand.own (properties : List (Value × Schema)) (key : Value) : Option Schema :=
  (properties.find? fun e => Value.sameKey e.1 key).map (·.2)

theorem Entries.contains_iff {es : Entries} {key : Value} :
    es.contains key = true ↔ ∃ e ∈ es, Value.sameKey e.1 key = true := by
  induction es with
  | nil => exact ⟨nofun, nofun⟩
  | cons e rest ih =>
      rw [List.exists_mem_cons_iff, ← ih, contains, contains, find?]
      cases Value.sameKey e.1 key <;> simp

section entries

variable {properties : List (Value × Schema)} {clean : Bool} {es given kept filled : Entries}

theorem own_of_mem (h : IsDictionary properties) {e : Value × Schema} (he : e ∈ properties) :
    Demand.own properties e.1 = some e.2 := by
  rw [Demand.own, Value.find?_eq_of_apart h.1 he (h.2 e he)]
  rfl

theorem mem_of_own {key : Value} {t : Schema} (h : Demand.own properties key = some t) :
    t ∈ properties.map (·.2) := by
  obtain ⟨e, he, rfl⟩ := Option.map_eq_some_iff.mp h
  exact List.mem_map_of_mem (List.mem_of_find?_eq_some he)

theorem own_isSome {key : Value} {e : Value × Schema} (he : e ∈ properties)
    (hkey : Value.sameKey e.1 key = true) : ∃ t, Demand.own properties key = some t := by
  have hfound : (properties.find? fun e => Value.sameKey e.1 key).isSome :=
    List.find?_isSome.mpr ⟨e, he, hkey⟩
  obtain ⟨f, hf⟩ := Option.isSome_iff_exists.mp hfound
  exact ⟨f.2, by rw [Demand.own, hf]; rfl⟩

/-- An entry goes on as it is, or with the normal form of its value. -/
theorem finishEntries_cons (e : Value × Value) (rest : Entries) :
    Instance.finishEntries Schema.inner (Demand.entries properties) clean (e :: rest)
      = match Demand.own properties e.1 with
        | some t => do
            let r ← t.normalize e.2
            return (e.1, r) :: (← Instance.finishEntries Schema.inner (Demand.entries properties)
              clean rest)
        | none => do
            let others ← Instance.finishEntries Schema.inner (Demand.entries properties) clean rest
            return if clean then others else e :: others := by
  have hfound : (Demand.entries properties).find? e.1
      = (Demand.own properties e.1).map Value.schema := Demand.find?_entries properties e.1
  rw [Instance.finishEntries, hfound]
  cases Demand.own properties e.1 <;> rfl

theorem mem_finishEntries :
    ∀ {es kept : Entries},
      Instance.finishEntries Schema.inner (Demand.entries properties) clean es = .ok kept →
      ∀ e ∈ kept,
        (∃ t v, Demand.own properties e.1 = some t ∧ (e.1, v) ∈ es ∧ t.normalize v = .ok e.2) ∨
        (Demand.own properties e.1 = none ∧ clean = false ∧ e ∈ es)
  | [], kept, h => by
      obtain rfl := Except.ok.inj h
      nofun
  | f :: rest, kept, h => by
      have later : ∀ {others : Entries},
          Instance.finishEntries Schema.inner (Demand.entries properties) clean rest = .ok others →
          ∀ e ∈ others,
            (∃ t v, Demand.own properties e.1 = some t ∧ (e.1, v) ∈ f :: rest ∧
              t.normalize v = .ok e.2) ∨
            (Demand.own properties e.1 = none ∧ clean = false ∧ e ∈ f :: rest) :=
        fun hothers e he => (mem_finishEntries hothers e he).imp
          (fun ⟨t, v, hown, hmem, hr⟩ => ⟨t, v, hown, List.mem_cons_of_mem _ hmem, hr⟩)
          fun ⟨hnone, hclean, hmem⟩ => ⟨hnone, hclean, List.mem_cons_of_mem _ hmem⟩
      rw [finishEntries_cons] at h
      cases hown : Demand.own properties f.1 with
      | some t =>
          simp only [hown, bind_eq_ok, pure_eq_ok] at h
          obtain ⟨r, hr, others, hothers, rfl⟩ := h
          exact List.forall_mem_cons.mpr
            ⟨.inl ⟨t, f.2, hown, List.mem_cons_self, hr⟩, later hothers⟩
      | none =>
          simp only [hown, bind_eq_ok, pure_eq_ok] at h
          obtain ⟨others, hothers, rfl⟩ := h
          cases clean with
          | true => exact later hothers
          | false =>
              refine List.forall_mem_cons.mpr ⟨.inr ⟨hown, rfl, List.mem_cons_self⟩, later hothers⟩

/-- A declared key that was there is still there. -/
theorem contains_finishEntries {key : Value} (hkey : ∃ e ∈ properties, e.1 = key) :
    ∀ {es kept : Entries},
      Instance.finishEntries Schema.inner (Demand.entries properties) clean es = .ok kept →
      es.contains key = true → kept.contains key = true
  | [], kept, _, hcontains => nomatch hcontains
  | f :: rest, kept, h, hcontains => by
      rw [Entries.contains_iff, List.exists_mem_cons_iff, ← Entries.contains_iff] at hcontains
      rw [finishEntries_cons] at h
      cases hown : Demand.own properties f.1 with
      | some t =>
          simp only [hown, bind_eq_ok, pure_eq_ok] at h
          obtain ⟨r, hr, others, hothers, rfl⟩ := h
          rw [Entries.contains_iff, List.exists_mem_cons_iff, ← Entries.contains_iff]
          exact hcontains.imp_right (contains_finishEntries hkey hothers)
      | none =>
          simp only [hown, bind_eq_ok, pure_eq_ok] at h
          obtain ⟨others, hothers, rfl⟩ := h
          -- an undeclared key is no declared one
          have hne : ¬ Value.sameKey f.1 key = true := by
            intro hsame
            obtain ⟨e, he, rfl⟩ := hkey
            obtain ⟨t, ht⟩ := own_isSome he (Value.sameKey_symm f.1 hsame)
            cases hown.symm.trans ht
          have hothers' := contains_finishEntries hkey hothers (hcontains.resolve_left hne)
          cases clean with
          | true => exact hothers'
          | false =>
              rw [if_neg Bool.false_ne_true, Entries.contains_iff, List.exists_mem_cons_iff,
                ← Entries.contains_iff]
              exact .inr hothers'

theorem finishEntries_self :
    ∀ {es : Entries}, (∀ e ∈ es,
        (∃ t, Demand.own properties e.1 = some t ∧ t.normalize e.2 = .ok e.2) ∨
          (Demand.own properties e.1 = none ∧ clean = false)) →
      Instance.finishEntries Schema.inner (Demand.entries properties) clean es = .ok es
  | [], _ => rfl
  | e :: rest, h => by
      have ih := finishEntries_self fun f hf => h f (List.mem_cons_of_mem _ hf)
      rw [finishEntries_cons, ih]
      rcases h e List.mem_cons_self with ⟨t, hown, ht⟩ | ⟨hown, rfl⟩
      · rw [hown]
        show (t.normalize e.2 >>= _) = _
        rw [ht]
        rfl
      · rw [hown]
        rfl

/-! ## Defaults -/

/-- A declared key is there already, or is filled in, or has no default. -/
theorem fillEntries_cons (given : Entries) (e : Value × Schema) (rest : List (Value × Schema)) :
    Instance.fillEntries Schema.inner given (Demand.entries (e :: rest))
      = if given.contains e.1 then
          Instance.fillEntries Schema.inner given (Demand.entries rest)
        else (do
          if ← (← e.2.get "has_default").truthy then
            let r ← e.2.normalize (← (← e.2.get "default").freshDefault)
            return (e.1, r) :: (← Instance.fillEntries Schema.inner given (Demand.entries rest))
          else Instance.fillEntries Schema.inner given (Demand.entries rest)) := by
  rw [Demand.entries, List.map_cons, Instance.fillEntries]
  rfl

theorem mem_fillEntries :
    ∀ {properties : List (Value × Schema)} {filled : Entries},
      Instance.fillEntries Schema.inner given (Demand.entries properties) = .ok filled →
      ∀ e ∈ filled, ∃ f ∈ properties, ∃ d, f.1 = e.1 ∧ f.2.normalize d = .ok e.2
  | [], filled, h => by
      obtain rfl := Except.ok.inj h
      nofun
  | f :: rest, filled, h => by
      have later : ∀ {others : Entries},
          Instance.fillEntries Schema.inner given (Demand.entries rest) = .ok others →
          ∀ e ∈ others, ∃ g ∈ f :: rest, ∃ d, g.1 = e.1 ∧ g.2.normalize d = .ok e.2 := by
        intro others hothers e he
        obtain ⟨g, hg, hd⟩ := mem_fillEntries hothers e he
        exact ⟨g, List.mem_cons_of_mem _ hg, hd⟩
      rw [fillEntries_cons] at h
      split at h
      · exact later h
      · simp only [bind_eq_ok] at h
        obtain ⟨_, -, b, -, h⟩ := h
        cases b with
        | false => exact later h
        | true =>
            simp only [if_true, bind_eq_ok, pure_eq_ok] at h
            obtain ⟨_, -, d, -, r, hr, others, hothers, rfl⟩ := h
            exact List.forall_mem_cons.mpr ⟨⟨f, List.mem_cons_self, d, rfl, hr⟩, later hothers⟩

theorem fillEntries_covers :
    ∀ {properties : List (Value × Schema)} {filled : Entries},
      Instance.fillEntries Schema.inner given (Demand.entries properties) = .ok filled →
      ∀ e ∈ properties, given.contains e.1 = true ∨
        (∃ v, e.2.get "has_default" = .ok v ∧ v.truthy = .ok false) ∨ ∃ f ∈ filled, f.1 = e.1
  | [], _, _ => nofun
  | e :: rest, filled, h => by
      have later : ∀ {others : Entries}, (∀ f ∈ others, f ∈ filled) →
          Instance.fillEntries Schema.inner given (Demand.entries rest) = .ok others →
          ∀ g ∈ rest, given.contains g.1 = true ∨
            (∃ v, g.2.get "has_default" = .ok v ∧ v.truthy = .ok false) ∨
              ∃ f ∈ filled, f.1 = g.1 := by
        intro others hsub hothers g hg
        exact (fillEntries_covers hothers g hg).imp_right
          (Or.imp_right fun ⟨f, hf, heq⟩ => ⟨f, hsub f hf, heq⟩)
      rw [fillEntries_cons] at h
      split at h
      · rename_i hcontains
        exact List.forall_mem_cons.mpr ⟨.inl hcontains, later (fun _ hf => hf) h⟩
      · simp only [bind_eq_ok, lift_eq_ok] at h
        obtain ⟨v, hv, b, hb, h⟩ := h
        cases b with
        | false =>
            exact List.forall_mem_cons.mpr ⟨.inr (.inl ⟨v, hv, hb⟩), later (fun _ hf => hf) h⟩
        | true =>
            simp only [if_true, bind_eq_ok, pure_eq_ok] at h
            obtain ⟨_, -, d, -, r, hr, others, hothers, rfl⟩ := h
            exact List.forall_mem_cons.mpr ⟨.inr (.inr ⟨_, List.mem_cons_self, rfl⟩),
              later (fun _ hf => List.mem_cons_of_mem _ hf) hothers⟩

theorem fillEntries_nothing :
    ∀ {properties : List (Value × Schema)}, (∀ e ∈ properties, given.contains e.1 = true ∨
        ∃ v, e.2.get "has_default" = .ok v ∧ v.truthy = .ok false) →
      Instance.fillEntries Schema.inner given (Demand.entries properties) = .ok []
  | [], _ => rfl
  | e :: rest, h => by
      have ih := fillEntries_nothing fun f hf => h f (List.mem_cons_of_mem _ hf)
      rw [fillEntries_cons, ih]
      rcases h e List.mem_cons_self with hcontains | ⟨v, hv, hfalse⟩
      · rw [if_pos hcontains]
      · split
        · rfl
        · rw [hv, lift_ok, ok_bind, hfalse]
          rfl

/-! ## The entries of a normal form -/

/-- Each is declared, can be named and holds a normal form, or was there before. -/
theorem entries_settled (hkeys : IsDictionary properties)
    (hfixes : ∀ t ∈ properties.map (·.2), t.Fixes)
    (hshown : ∀ e ∈ properties, e.1.hasDisplay = true)
    (hgiven : ∀ e ∈ es, ∀ t, Demand.own properties e.1 = some t → e.1.hasDisplay = true)
    (hkept : Instance.finishEntries Schema.inner (Demand.entries properties)
      (!es.isEmpty && clean) es = .ok kept)
    (hfilled : Instance.fillEntries Schema.inner es (Demand.entries properties) = .ok filled) :
    ∀ e ∈ kept ++ filled,
      (∃ t, Demand.own properties e.1 = some t ∧ e.1.hasDisplay = true ∧
        t.accepts e.2 = .ok true ∧ t.normalize e.2 = .ok e.2) ∨
      (Demand.own properties e.1 = none ∧ clean = false ∧ e ∈ es) := by
  intro e he
  rcases List.mem_append.mp he with he | he
  · rcases mem_finishEntries hkept e he with
      ⟨t, v, hown, hmem, hv⟩ | ⟨hown, hclean, hmem⟩
    · exact .inl ⟨t, hown, hgiven (e.1, v) hmem t hown, hfixes t (mem_of_own hown) v e.2 hv⟩
    · have hsome : es.isEmpty = false := List.isEmpty_eq_false_iff.mpr (List.ne_nil_of_mem hmem)
      rw [hsome, Bool.not_false, Bool.true_and] at hclean
      exact .inr ⟨hown, hclean, hmem⟩
  · obtain ⟨f, hf, d, hkey, hd⟩ := mem_fillEntries hfilled e he
    refine .inl ⟨f.2, hkey ▸ own_of_mem hkeys hf, hkey ▸ hshown f hf, ?_⟩
    exact hfixes f.2 (List.mem_map_of_mem hf) d e.2 hd

theorem contains_settled {e : Value × Schema} (he : e ∈ properties)
    (hkept : Instance.finishEntries Schema.inner (Demand.entries properties) clean es = .ok kept)
    (hes : es.contains e.1 = true) : Entries.contains (kept ++ filled) e.1 = true := by
  obtain ⟨f, hf, hsame⟩ := Entries.contains_iff.mp (contains_finishEntries ⟨e, he, rfl⟩ hkept hes)
  exact Entries.contains_iff.mpr ⟨f, List.mem_append_left _ hf, hsame⟩

/-- A second run keeps them as they are, -/
theorem finishEntries_settled {clean' : Bool} {others : Entries}
    (hclean : clean = false → clean' = false)
    (h : ∀ e ∈ others,
      (∃ t, Demand.own properties e.1 = some t ∧ e.1.hasDisplay = true ∧
        t.accepts e.2 = .ok true ∧ t.normalize e.2 = .ok e.2) ∨
      (Demand.own properties e.1 = none ∧ clean = false ∧ e ∈ es)) :
    Instance.finishEntries Schema.inner (Demand.entries properties) clean' others = .ok others := by
  refine finishEntries_self fun e he => (h e he).imp ?_ ?_
  · exact fun ⟨t, hown, _, _, ht⟩ => ⟨t, hown, ht⟩
  · exact fun ⟨hown, hno, _⟩ => ⟨hown, hclean hno⟩

/-- and has nothing to fill in. -/
theorem fillEntries_settled (hkeys : IsDictionary properties)
    (hkept : Instance.finishEntries Schema.inner (Demand.entries properties) clean es = .ok kept)
    (hfilled : Instance.fillEntries Schema.inner es (Demand.entries properties) = .ok filled) :
    Instance.fillEntries Schema.inner (kept ++ filled) (Demand.entries properties) = .ok [] := by
  refine fillEntries_nothing fun e he => ?_
  rcases fillEntries_covers hfilled e he with hes | hno | ⟨f, hf, hkey⟩
  · exact .inl (contains_settled he hkept hes)
  · exact .inr hno
  · exact .inl (Entries.contains_iff.mpr ⟨f, List.mem_append_right _ hf, hkey ▸ hkeys.2 e he⟩)

end entries

/-! ## Containers -/

section containers

variable {p : Plan} {hash : String} {u w : Value}

theorem settle_array {most : Option Int} {least : Int} {item : Option Schema} {unique : Bool}
    (hd : p.demand = .array most least item unique) (hitem : ∀ t ∈ item, t.Fixes)
    (hunique : unique = true → item = none)
    (haccepts : Demand.acceptsArray Schema.accepts most least item unique u = .ok true)
    (h : p.settle hash u = .ok w) :
    Demand.acceptsArray Schema.accepts most least item unique w = .ok true ∧
      p.settle hash w = .ok w ∧ w.isUndefined = false := by
  unfold Demand.acceptsArray at haccepts
  cases hitems : u.arrayItems? with
  | none =>
      rw [hitems] at haccepts
      exact absurd haccepts refusal_ne_true
  | some items =>
      rw [settle_items hd hitems, map_eq_ok] at h
      obtain ⟨rs, hrs, rfl⟩ := h
      rw [settle_items hd (rfl : (Value.list rs).arrayItems? = some rs)]
      simp only [hitems] at haccepts
      cases item with
      | none =>
          obtain rfl := Except.ok.inj hrs
          exact ⟨haccepts, rfl, rfl⟩
      | some t =>
          have hno : unique = false := by
            cases unique with
            | false => rfl
            | true => cases hunique rfl
          subst hno
          obtain ⟨hask, hself⟩ := items_settled (hitem t rfl) hrs
          refine ⟨?_, congrArg (Value.list <$> ·) hself, rfl⟩
          have hfits : Demand.fits least most rs.length = true := by
            rw [← (finishItems_eq_ok.mp hrs).length_eq]
            split at haccepts
            · cases Except.ok.inj haccepts
            · rename_i hfits
              simpa using hfits
          simp only [Demand.acceptsArray, Value.arrayItems?, hfits, Bool.not_true,
            Bool.false_and, Bool.false_eq_true, if_false, hask]

/-- What an object accepts: every entry as the schema of its key says, and
every required key. -/
theorem acceptsObject_dict {allowNull : Bool} {properties : List (Value × Schema)}
    {generic : Option Schema} {es : Entries} :
    Demand.acceptsObject Schema.accepts allowNull properties generic (.dict es) = .ok true ↔
      (∀ e ∈ es, Demand.askEntry Schema.accepts properties generic e = .ok true) ∧
        ∀ e ∈ properties, e.2.isRequired = true → es.contains e.1 = true := by
  rw [← askAll_eq_true]
  simp only [Demand.acceptsObject, bind_eq_ok, pure_eq_ok, Bool.and_eq_true, Bool.not_eq_true',
    List.any_eq_false]
  constructor
  · rintro ⟨_, hanswers, rfl, hall⟩
    refine ⟨hanswers, fun e he hrequired => ?_⟩
    by_contra hno
    exact hall e he ⟨hrequired, Bool.eq_false_iff.mpr hno⟩
  · rintro ⟨hanswers, hall⟩
    refine ⟨true, hanswers, rfl, ?_⟩
    rintro e he ⟨hrequired, hno⟩
    rw [hall e he hrequired] at hno
    cases hno

theorem settle_object {allowNull clean : Bool} {properties : List (Value × Schema)}
    {generic : Option Schema} (hd : p.demand = .object allowNull clean properties generic)
    (hkeys : IsDictionary properties) (hproperties : ∀ t ∈ properties.map (·.2), t.Fixes)
    (hshown : ∀ e ∈ properties, e.1.hasDisplay = true)
    (haccepts : Demand.acceptsObject Schema.accepts allowNull properties generic u = .ok true)
    (h : p.settle hash u = .ok w) :
    Demand.acceptsObject Schema.accepts allowNull properties generic w = .ok true ∧
      p.settle hash w = .ok w ∧ w.isUndefined = false := by
  cases u with
  | none =>
      obtain rfl := Except.ok.inj ((settle_null hd).symm.trans h)
      exact ⟨haccepts, h, rfl⟩
  | dict es =>
      obtain ⟨hasked, hrequired⟩ := acceptsObject_dict.mp haccepts
      rw [settle_entries hd] at h
      simp only [bind_eq_ok, pure_eq_ok] at h
      obtain ⟨kept, hkept, filled, hfilled, rfl⟩ := h
      have hclean : clean = false → (!(kept ++ filled).isEmpty && clean) = false := by
        rintro rfl
        rw [Bool.and_false]
      have hgoverning : ∀ key, Demand.governing properties generic key
          = (Demand.own properties key).or generic := fun _ => rfl
      have hgiven : ∀ e ∈ es, ∀ t, Demand.own properties e.1 = some t →
          e.1.hasDisplay = true := fun e he t hown =>
        ((Demand.askEntry_eq_true (by rw [hgoverning, hown, Option.some_or])).mp (hasked e he)).1
      have hentry := entries_settled hkeys hproperties hshown hgiven hkept hfilled
      refine ⟨acceptsObject_dict.mpr ⟨fun e he => ?_, fun e he hreq => ?_⟩, ?_, rfl⟩
      · rcases hentry e he with ⟨t, hown, hdisplay, haccepts, -⟩ | ⟨-, -, hmem⟩
        · exact (Demand.askEntry_eq_true (by rw [hgoverning, hown, Option.some_or])).mpr
            ⟨hdisplay, haccepts⟩
        · exact hasked e hmem
      · exact contains_settled he hkept (hrequired e he hreq)
      · rw [settle_entries hd, finishEntries_settled hclean hentry,
          fillEntries_settled hkeys hkept hfilled, ok_bind, ok_bind, List.append_nil]
        rfl
  | _ => exact absurd haccepts refusal_ne_true

end containers

/-! ## Normal forms -/

theorem Plan.Steady.accepts_demand {p : Plan} (h : p.Steady)
    (hkind : p.demand.kind = .array ∨ p.demand.kind = .object) (v : Value) :
    p.accepts Schema.accepts v = p.demand.accepts Schema.accepts v := by
  obtain ⟨henum, hvalidator⟩ := h.container hkind
  simp [Plan.accepts, Plan.lists, Plan.validates, henum, hvalidator]

namespace Schema

/-- Checking and rewriting leave what they give as it is. -/
theorem settle_fixes {p : Plan} {hash : String} {u w : Value} (hp : p.Proper) (h : p.Steady)
    (hparts : ∀ t ∈ p.demand.parts, t.Compiled ∧ t.Fixes)
    (hu : (p.toInstance hash).supplied u = .ok u)
    (haccepts : (Schema.single (p.toInstance hash)).accepts u = .ok true)
    (hw : p.settle hash u = .ok w) :
    (p.toInstance hash).supplied w = .ok w ∧
      (Schema.single (p.toInstance hash)).accepts w = .ok true ∧ p.settle hash w = .ok w := by
  have hdecide := accepts_single hash hp.demand hp.legible fun t ht => (hparts t ht).1
  cases hd : p.demand with
  | array most least item unique =>
      have hkind : p.demand.kind = .array ∨ p.demand.kind = .object := .inl (by rw [hd]; rfl)
      rw [hdecide, h.accepts_demand hkind, hd] at haccepts ⊢
      have hitem : ∀ t ∈ item, t.Fixes := fun t ht =>
        (hparts t (by rw [hd]; exact Option.mem_toList.mpr ht)).2
      have hunique : unique = true → item = none := by
        rintro rfl
        exact h.unique _ _ _ hd
      obtain ⟨haccepts, hagain, hdefined⟩ := settle_array hd hitem hunique haccepts hw
      exact ⟨supplied_of_defined hdefined, haccepts, hagain⟩
  | object allowNull clean properties generic =>
      have hkind : p.demand.kind = .array ∨ p.demand.kind = .object := .inr (by rw [hd]; rfl)
      rw [hdecide, h.accepts_demand hkind, hd] at haccepts ⊢
      have hkeys := h.keys
      rw [hd] at hkeys
      have hproperties : ∀ t ∈ properties.map (·.2), t.Fixes := fun t ht =>
        (hparts t (by rw [hd]; exact List.mem_append_left _ ht)).2
      have hshown : ∀ e ∈ properties, e.1.hasDisplay = true := fun e he =>
        hp.legible.shown _ (by rw [hd]; exact List.mem_map_of_mem he)
      obtain ⟨haccepts, hagain, hdefined⟩ :=
        settle_object hd hkeys hproperties hshown haccepts hw
      exact ⟨supplied_of_defined hdefined, haccepts, hagain⟩
  | oneOf variants => exact absurd (by rw [hd]; rfl) h.choice
  | _ =>
      -- the other kinds rewrite nothing
      have hkeep : ∀ v, p.settle hash v = .ok v := by
        intro v
        rw [Plan.settle, hd]
        rfl
      obtain rfl := Except.ok.inj ((hkeep u).symm.trans hw)
      exact ⟨hu, haccepts, hw⟩

/-- What a steady schema brings a value to, it accepts and leaves alone. -/
theorem Steady.fixes {s : Schema} (h : s.Steady) : s.Fixes := by
  induction h with
  | single p hash proper digest steady parts ih =>
      intro v w hw
      obtain ⟨u, hu, haccepts, hsettle⟩ := (normalize_settle steady.transform).mp hw
      have hparts := fun t ht => And.intro (parts t ht).compiled (ih t ht)
      obtain ⟨hsupplied, haccepts, hagain⟩ :=
        settle_fixes proper steady hparts (supplied_supplied hu) haccepts hsettle
      exact ⟨haccepts, (normalize_settle steady.transform).mpr ⟨w, hsupplied, haccepts, hagain⟩⟩

end Schema

end Conform
