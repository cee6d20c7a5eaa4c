/-
# `Proofs.Schema.Sheltered` — what a holder of a normal form cannot change

A default that is a list, a dictionary or a set is copied before it is handed
out, and whoever changes the normal form changes the copy.  Any other default is
the schema's own, and a tuple may still hold containers.  Most schemas hand such a
tuple on as it is, and then its lists, dictionaries and sets are open to change.
An array and an object rebuild the tuples and dictionaries that they look into, so
that nothing is shared where the schemas inside rebuild all the rest.

`Exposes` says which values a schema shares in this way.  A schema all of whose
defaults are copied or not exposed is sheltered: it comes through every change
of its normal form as it was.  The induction over the schemas inside carries a
second claim along, that a value which is not exposed comes through as well:
this is what becomes of a default that is not copied, and it is put back into
the schema.
-/
import Conform.Proofs.Config.Nested
import Conform.Proofs.Schema.Finished
import Conform.Schema.Sharing

namespace Conform

/-! ## What is exposed -/

mutual

/-- Whether there is a container in a value: a list, a dictionary or a set, within
any number of tuples. -/
def Value.holdsContainer : Value → Bool
  | .list _ | .dict _ | .set _ => true
  | .tuple items => Value.anyHoldsContainer items
  | _ => false
termination_by structural v => v

def Value.anyHoldsContainer : List Value → Bool
  | [] => false
  | v :: rest => v.holdsContainer || Value.anyHoldsContainer rest
termination_by structural vs => vs

end

/-- Whether the normal form of a value has a container that belongs to the value,
by the schema that governs the value, if there is one. -/
inductive Exposes : Option Schema → Value → Prop
  /-- No schema looks into a value that none governs. -/
  | whole {v : Value} (holds : v.holdsContainer = true) : Exposes none v
  | plain {t : Instance} {v : Value} (apart : t.finishes.find? Instance.takesApart = none)
      (whole : Exposes none v) : Exposes (some (.single t)) v
  | item {t : Instance} {v x : Value} {items : List Value} {u : Option Schema}
      (array : t.controller = "array") (schema : t.get "schema" = .ok (optional .schema u))
      (parts : v.arrayItems? = some items) (mem : x ∈ items) (exposed : Exposes u x) :
      Exposes (some (.single t)) v
  | entry {t : Instance} {es properties : Entries} {e : Value × Value} {u : Option Schema}
      (object : t.controller = "object") (declared : t.properties = .ok properties)
      (mem : e ∈ es) (governs : properties.find? e.1 = u.map .schema)
      (kept : u = none → t.get "clean" = .ok (.bool false)) (exposed : Exposes u e.2) :
      Exposes (some (.single t)) (.dict es)
  | variant {t : Instance} {v candidates : Value} {n : Nat} {u : Schema}
      (oneOf : t.controller = "one-of") (variants : t.get "one_of" = .ok candidates)
      (found : searchItems Schema.error candidates v = .ok (.found n u))
      (exposed : Exposes (some u) v) : Exposes (some (.single t)) v
  | member {members : List Instance} {v : Value} {n : Nat} {u : Schema}
      (found : searchMembers Schema.error members v = .ok (.found n u))
      (exposed : Exposes (some u) v) : Exposes (some (.multi members)) v

/-- A default that a schema hands out is a copy, or has no container that the
normal form shares. -/
def Schema.Withholds (u : Schema) : Prop :=
  u.hasDefault = .ok true → ∀ d, u.default = .ok d → d.isCopied = false → ¬ Exposes (some u) d

/-- Nothing inside a schema transforms a value, and no default is exposed where it is
handed out: by a single schema for a missing value, and by an object for a property
that is absent. -/
structure Schema.Sheltered (s : Schema) : Prop where
  transform : ∀ t, s.Inside (.single t) → t.get "transform" = .ok .none
  default : ∀ t, s.Inside (.single t) → (Schema.single t).Withholds
  properties : ∀ t, s.Inside (.single t) → ∀ u ∈ t.nested "properties", u.Withholds

namespace Schema

variable {s t : Schema} {p : Plan} {hash : String}

theorem Sheltered.inside (h : s.Sheltered) (ht : s.Inside t) : t.Sheltered where
  transform u hu := h.transform u (ht.trans hu)
  default u hu := h.default u (ht.trans hu)
  properties u hu := h.properties u (ht.trans hu)

theorem Sheltered.part (h : (single (p.toInstance hash)).Sheltered) (ht : t ∈ p.demand.parts) :
    t.Sheltered :=
  h.inside (.part .self (by rwa [p.parts_toInstance hash]))

theorem Sheltered.member {members : List Instance} (h : (multi members).Sheltered) {u : Instance}
    (hu : u ∈ members) : (single u).Sheltered :=
  h.inside (.member .self hu)

end Schema

/-! ## Putting back what was there -/

theorem Instance.get_eq_ok {s : Instance} {name : String} {v : Value} :
    s.get name = .ok v ↔ s.get? name = some v := by
  rw [get]
  cases s.get? name <;> simp

/-- An attribute of a plan has one value. -/
theorem Plan.put_self {p : Plan} {name : String} {v : Value} (hash : String)
    (h : (name, v) ∈ p.attributes) : (p.toInstance hash).put name v = p.toInstance hash := by
  have hsame : ∀ e ∈ p.attributes, (if e.1 = name then (e.1, v) else e) = e := by
    intro e he
    split
    · rename_i hname
      exact List.inj_on_of_nodup_map p.names_nodup (hname ▸ h) he rfl
    · rfl
  rw [Instance.put, toInstance, List.map_congr_left hsame, List.map_id']

theorem Plan.put_default (p : Plan) (hash : String) :
    (p.toInstance hash).put "default" p.default = p.toInstance hash :=
  Plan.put_self hash (List.mem_append_left _ (List.mem_append_left _ List.mem_cons_self))

theorem Plan.mem_attributes {p : Plan} {e : String × Value} (h : e ∈ p.demand.attributes) :
    e ∈ p.attributes :=
  List.mem_append_left _ (List.mem_append_right _ h)

/-- The first of the alternatives with a default gets its own one back. -/
theorem Schema.putDefault_go_self {d : Value} :
    ∀ {ss : List Instance}, (∀ s ∈ ss, Schema.Compiled (.single s)) → ∀ {s : Instance},
      Instance.firstFlag "has_default" ss = .ok (some s) → s.get "default" = .ok d →
        Schema.putDefault.go d ss = .ok ss
  | [], _, _, hfirst, _ => by cases hfirst
  | t :: rest, heach, s, hfirst, hget => by
      obtain ⟨ht, hrest⟩ := List.forall_mem_cons.mp heach
      cases ht with
      | single p hash =>
          rw [Instance.firstFlag, p.flag_hasDefault, ok_bind] at hfirst
          rw [Schema.putDefault.go, p.flag_hasDefault, ok_bind]
          cases hflag : p.hasDefault with
          | true =>
              rw [hflag] at hfirst
              obtain rfl := Option.some.inj (Except.ok.inj hfirst)
              obtain rfl := Except.ok.inj ((p.get_default hash).symm.trans hget)
              rw [p.put_default hash]
              rfl
          | false =>
              rw [hflag] at hfirst
              rw [if_neg Bool.false_ne_true, putDefault_go_self hrest hfirst hget]
              rfl

/-- A schema with its own default in the place of its default. -/
theorem Schema.putDefault_self {u : Schema} {d : Value} (hu : u.Compiled)
    (hdefault : u.hasDefault = .ok true) (hd : u.default = .ok d) : u.putDefault d = .ok u := by
  cases hu with
  | single p hash =>
      obtain rfl := Except.ok.inj ((p.get_default hash).symm.trans hd)
      rw [Schema.putDefault, p.put_default hash]
      rfl
  | multi members each =>
      obtain ⟨found, hfound, hsome⟩ := bind_eq_ok.mp hdefault
      obtain ⟨s, rfl⟩ := Option.isSome_iff_exists.mp (pure_eq_ok.mp hsome)
      rw [Schema.default, hfound, ok_bind] at hd
      rw [Schema.putDefault, putDefault_go_self each hfound hd]
      rfl

/-! ## Following the parts -/

section follow

variable {change : Change} {follow : Follow} {p : Plan} {hash : String} {v : Value}

mutual

/-- Where there is no container, there is nothing to change. -/
theorem Value.changed_eq_self :
    ∀ v : Value, v.holdsContainer = false → v.changed change = v := by
  intro v h
  cases v with
  | list | dict | set => cases h
  | tuple items =>
      rw [Value.changed, Value.changedAll_eq_self items h]
      exact ite_self _
  | _ => rfl
termination_by structural v => v

theorem Value.changedAll_eq_self :
    ∀ items : List Value, Value.anyHoldsContainer items = false →
      Value.changedAll change items = items := by
  intro items h
  cases items with
  | nil => rfl
  | cons x rest =>
      obtain ⟨hx, hrest⟩ := Bool.or_eq_false_iff.mp h
      rw [Value.changedAll, Value.changed_eq_self x hx, Value.changedAll_eq_self rest hrest]
termination_by structural items => items

end

theorem changed_of_not_exposed (h : ¬ Exposes none v) : v.changed change = v :=
  Value.changed_eq_self v (Bool.not_eq_true _ ▸ fun hholds => h (.whole hholds))

theorem changedAll_of_not_exposed {items : List Value} (h : ∀ x ∈ items, ¬ Exposes none x) :
    Value.changedAll change items = items := by
  induction items with
  | nil => rfl
  | cons x rest ih =>
      obtain ⟨hx, hrest⟩ := List.forall_mem_cons.mp h
      rw [Value.changedAll, changed_of_not_exposed hx, ih hrest]

/-- A schema comes through the change as it was, and so does a value that it brought
to a normal form, unless it exposes the value. -/
def Follow.Spares (follow : Follow) (u : Schema) : Prop :=
  ∀ v r, u.normalize v = .ok r → ∃ w, follow u v = .ok (u, w) ∧ (¬ Exposes (some u) v → w = v)

theorem followItems_spares {t : Schema} (ht : Follow.Spares follow t) :
    ∀ {items : List Value}, (∀ x ∈ items, ∃ r, t.normalize x = .ok r) →
      ∃ ws, Instance.followItems follow (.schema t) items = .ok (.schema t, ws) ∧
        ((∀ x ∈ items, ¬ Exposes (some t) x) → ws = items)
  | [], _ => ⟨[], rfl, fun _ => rfl⟩
  | x :: rest, h => by
      obtain ⟨⟨r, hr⟩, hrest⟩ := List.forall_mem_cons.mp h
      obtain ⟨w, hw, hsame⟩ := ht x r hr
      obtain ⟨ws, hws, hsames⟩ := followItems_spares ht hrest
      refine ⟨w :: ws, ?_, fun hno => ?_⟩
      · rw [Instance.followItems, hw]
        show (Instance.followItems follow (.schema t) rest >>= _) = _
        rw [hws]
        rfl
      · obtain ⟨hx, hrest⟩ := List.forall_mem_cons.mp hno
        rw [hsame hx, hsames hrest]

theorem followArray_spares {most : Option Int} {least : Int} {item : Option Schema} {unique : Bool}
    (hd : p.demand = .array most least item unique)
    (hparts : ∀ t ∈ p.demand.parts, Follow.Spares follow t) {r : Value}
    (h : p.settle hash v = .ok r) :
    ∃ w, (p.toInstance hash).followArray change follow v = .ok (p.toInstance hash, w) ∧
      (¬ Exposes (some (.single (p.toInstance hash))) v → w = v) := by
  have hschema := Plan.get_of_demand hash hd "schema" (by decide) rfl
  have hput : (p.toInstance hash).put "schema" (optional .schema item) = p.toInstance hash :=
    Plan.put_self hash (Plan.mem_attributes (by rw [hd]; simp [Demand.attributes]))
  have hitems : ∀ {items : List Value}, v.arrayItems? = some items →
      ∃ ws, (if (optional Value.schema item).isNone then
          (.ok (optional .schema item, Value.changedAll change items) : Outcome _)
        else Instance.followItems follow (optional .schema item) items)
          = .ok (optional .schema item, ws) ∧
        (¬ Exposes (some (.single (p.toInstance hash))) v → ws = items) := by
    intro items hitems
    rw [settle_items hd hitems, map_eq_ok] at h
    obtain ⟨rs, hrs, -⟩ := h
    have hno : ¬ Exposes (some (.single (p.toInstance hash))) v → ∀ x ∈ items, ¬ Exposes item x :=
      fun hv x hx hexposed =>
        hv (.item (Plan.controller_toInstance.trans (by rw [hd]; rfl)) hschema hitems hx hexposed)
    cases item with
    | none => exact ⟨_, rfl, fun hv => changedAll_of_not_exposed (hno hv)⟩
    | some t =>
        obtain ⟨ws, hws, hsame⟩ := followItems_spares
          (hparts t (by rw [hd]; exact Option.mem_toList.mpr rfl)) fun x hx =>
            (forall₂_mem_left (finishItems_eq_ok.mp hrs) hx).imp fun _ hr => hr.2
        exact ⟨ws, hws, fun hv => hsame (hno hv)⟩
  simp only [Instance.followArray, hschema, lift_ok, ok_bind]
  cases v with
  | list vs =>
      obtain ⟨ws, hws, hsame⟩ := hitems rfl
      refine ⟨.list ws, ?_, fun hv => congrArg _ (hsame hv)⟩
      simp only [pure_eq, hws, ok_bind, hput]
  | tuple vs =>
      obtain ⟨ws, hws, hsame⟩ := hitems rfl
      refine ⟨.tuple ws, ?_, fun hv => congrArg _ (hsame hv)⟩
      simp only [pure_eq, hws, ok_bind, hput]
  | _ => exact ⟨_, rfl, fun _ => rfl⟩

/-! ## Following the entries -/

/-- The schema that governs an entry, if there is one, exposes it; an entry that none
governs is not kept if the object is cleaned. -/
def Demand.ExposesEntry (properties : List (Value × Schema)) (clean : Bool)
    (e : Value × Value) : Prop :=
  (own properties e.1 = none → clean = false) ∧ Exposes (own properties e.1) e.2

section entries

variable {properties : List (Value × Schema)} {clean : Bool}

variable (change clean) in
theorem followEntries_spares {empty : Bool}
    (hproperties : ∀ e ∈ properties, Follow.Spares follow e.2) :
    ∀ {es kept : Entries},
      Instance.finishEntries Schema.inner (Demand.entries properties) empty es = .ok kept →
      ∃ ws, Instance.followEntries change follow clean (Demand.entries properties) es
          = .ok (Demand.entries properties, ws) ∧
        ((∀ e ∈ es, ¬ Demand.ExposesEntry properties clean e) → ws = es)
  | [], _, _ => ⟨[], rfl, fun _ => rfl⟩
  | (key, v) :: rest, kept, h => by
      have hfound : (Demand.entries properties).find? key
          = (Demand.own properties key).map Value.schema := Demand.find?_entries properties key
      rw [finishEntries_cons] at h
      rw [Instance.followEntries, hfound]
      cases hown : Demand.own properties key with
      | some t =>
          simp only [hown, bind_eq_ok, pure_eq_ok] at h
          obtain ⟨r, hr, others, hothers, -⟩ := h
          obtain ⟨e, he, rfl⟩ := List.mem_map.mp (mem_of_own hown)
          obtain ⟨w, hw, hsame⟩ := hproperties e he v r hr
          obtain ⟨ws, hws, hsames⟩ := followEntries_spares hproperties hothers
          have hput : (Demand.entries properties).put key (.schema e.2) = Demand.entries properties :=
            Entries.put_eq_self (hfound.trans (by rw [hown]; rfl))
          refine ⟨(key, w) :: ws, ?_, fun hno => ?_⟩
          · show (follow e.2 v >>= _) = _
            rw [hw]
            show (Instance.followEntries change follow clean
              ((Demand.entries properties).put key (.schema e.2)) rest >>= _) = _
            rw [hput, hws]
            rfl
          · obtain ⟨hx, hrest⟩ := List.forall_mem_cons.mp hno
            rw [hsames hrest, hsame fun hexposed => hx ⟨fun hnone => ?_, by rw [hown]; exact hexposed⟩]
            cases hown.symm.trans hnone
      | none =>
          simp only [hown, bind_eq_ok, pure_eq_ok] at h
          obtain ⟨others, hothers, -⟩ := h
          obtain ⟨ws, hws, hsames⟩ := followEntries_spares hproperties hothers
          refine ⟨(key, if clean then v else v.changed change) :: ws, ?_, fun hno => ?_⟩
          · show (Instance.followEntries change follow clean (Demand.entries properties) rest >>= _)
              = _
            rw [hws]
            rfl
          · obtain ⟨hx, hrest⟩ := List.forall_mem_cons.mp hno
            rw [hsames hrest]
            cases clean with
            | true => rfl
            | false =>
                have hv : ¬ Exposes none v := fun hexposed =>
                  hx ⟨fun _ => rfl, by rw [hown]; exact hexposed⟩
                rw [if_neg Bool.false_ne_true, changed_of_not_exposed hv]

/-- A default that is handed out and brought to a normal form leaves the schema as it was. -/
theorem followDefault_spares {u : Schema} {d w : Value} (hu : u.Compiled)
    (hdefault : u.hasDefault = .ok true) (hd : u.default = .ok d) (hfresh : d.freshDefault = .ok d)
    (hwithholds : u.Withholds) (hw : follow u d = .ok (u, w))
    (hsame : ¬ Exposes (some u) d → w = d) : u.followDefault follow = .ok u := by
  simp only [Schema.followDefault, hd, hfresh, lift_ok, ok_bind, hw]
  cases hcopied : d.isCopied with
  | true => rfl
  | false =>
      rw [hsame (hwithholds hdefault d hd hcopied), Schema.putDefault_self hu hdefault hd]
      rfl

theorem followFilled_spares {given : Entries} :
    ∀ {properties : List (Value × Schema)} {filled : Entries},
      (∀ e ∈ properties, e.2.Compiled ∧ e.2.Withholds ∧ Follow.Spares follow e.2) →
      Instance.fillEntries Schema.inner given (Demand.entries properties) = .ok filled →
      Instance.followFilled follow given (Demand.entries properties)
        = .ok (Demand.entries properties)
  | [], _, _, _ => rfl
  | (key, u) :: rest, filled, hproperties, h => by
      obtain ⟨⟨hcompiled, hwithholds, hspares⟩, hrest⟩ := List.forall_mem_cons.mp hproperties
      obtain ⟨b, d, hb, hgetb, hd, hgetd⟩ := hcompiled.default_ok
      have hlater : ∀ {others : Entries},
          Instance.fillEntries Schema.inner given (Demand.entries rest) = .ok others →
          Instance.followFilled follow given (Demand.entries rest) = .ok (Demand.entries rest) :=
        followFilled_spares hrest
      rw [fillEntries_cons] at h
      simp only [hgetb, hgetd, lift_ok, ok_bind, truthy_bool] at h
      show Instance.followFilled follow given ((key, .schema u) :: Demand.entries rest) = _
      simp only [Instance.followFilled, hb, lift_ok, ok_bind]
      -- a default is handed out exactly where one was filled in
      cases hcontains : given.contains key with
      | true =>
          rw [hcontains, if_pos rfl] at h
          rw [hlater h]
          rfl
      | false =>
          rw [hcontains, if_neg Bool.false_ne_true] at h
          cases b with
          | false =>
              rw [hlater h]
              rfl
          | true =>
              simp only [if_true, bind_eq_ok, lift_eq_ok] at h
              obtain ⟨d', hfresh, r, hr, others, hothers, -⟩ := h
              obtain rfl := Value.eq_of_freshDefault hfresh
              obtain ⟨w, hw, hsame⟩ := hspares d' r hr
              rw [followDefault_spares hcompiled hb hd hfresh hwithholds hw hsame]
              show (Instance.followFilled follow given (Demand.entries rest) >>= _) = _
              rw [hlater hothers]
              rfl

theorem followObject_spares {allowNull : Bool} {generic : Option Schema}
    (hd : p.demand = .object allowNull clean properties generic)
    (hproperties : ∀ e ∈ properties, e.2.Compiled ∧ e.2.Withholds ∧ Follow.Spares follow e.2)
    {r : Value} (h : p.settle hash v = .ok r) :
    ∃ w, (p.toInstance hash).followObject change follow v = .ok (p.toInstance hash, w) ∧
      (¬ Exposes (some (.single (p.toInstance hash))) v → w = v) := by
  cases v with
  | dict es =>
      have hdeclared := Plan.properties_of_demand hash hd
      have hclean := Plan.get_of_demand hash hd "clean" (by decide) rfl
      have hput : (p.toInstance hash).put "properties" (.dict (Demand.entries properties))
          = p.toInstance hash :=
        Plan.put_self hash (Plan.mem_attributes (by rw [hd]; simp [Demand.attributes]))
      rw [settle_entries hd] at h
      simp only [bind_eq_ok] at h
      obtain ⟨kept, hkept, filled, hfilled, -⟩ := h
      obtain ⟨ws, hws, hsame⟩ := followEntries_spares change clean
        (fun e he => (hproperties e he).2.2) hkept
      refine ⟨.dict ws, ?_, fun hno => congrArg _ (hsame fun e he hexposed => hno ?_)⟩
      · simp only [Instance.followObject, hclean, hdeclared, lift_ok, ok_bind, truthy_bool, hws,
          followFilled_spares hproperties hfilled, hput, pure_eq]
      · refine .entry (Plan.controller_toInstance.trans (by rw [hd]; rfl)) hdeclared he
          (Demand.find?_entries properties e.1) (fun hnone => ?_) hexposed.2
        rw [← hexposed.1 hnone]
        exact hclean
  | _ => exact ⟨_, rfl, fun _ => rfl⟩

end entries

/-! ## Following the alternatives -/

/-- The alternative that accepts is put back in its place. -/
theorem followFirst_spares {ts : List Schema} {n : Nat} {u : Schema} {w : Value}
    (hrun : Search.run Schema.error v 0 (ts.map .schema) = .ok (.found n u))
    (hw : follow u v = .ok (u, w)) :
    Instance.followFirst follow v (ts.map .schema) = .ok (ts.map .schema, w) := by
  obtain ⟨k, hn, hk, -⟩ := getElem_of_run_found hrun
  obtain rfl : n = k := hn.trans (Nat.zero_add k)
  obtain ⟨hlt, rfl⟩ := List.getElem?_eq_some_iff.mp hk
  have hset : (ts.map Value.schema).set n (.schema ts[n]) = ts.map .schema := by
    rw [← List.map_set, List.set_getElem_self]
  simp only [Instance.followFirst, hrun, ok_bind, hw, hset, pure_eq]

/-- A normal form that a search came to is one of the schema that was found. -/
theorem found_of_applySearch {x : Outcome Search} {kind : ErrorKind} {r : Value}
    (h : (x >>= fun found => Schema.inner.applySearch found v kind) = .ok r) :
    ∃ n u, x = .ok (.found n u) ∧ u.normalize v = .ok r := by
  obtain ⟨found, hfound, h⟩ := bind_eq_ok.mp h
  cases found with
  | found n u => exact ⟨n, u, hfound, h⟩
  | refused errors => cases h

theorem followOneOf_spares {variants : List Schema} (hd : p.demand = .oneOf variants)
    (hparts : ∀ t ∈ p.demand.parts, Follow.Spares follow t) {r : Value}
    (h : p.settle hash v = .ok r) :
    ∃ w, (p.toInstance hash).followOneOf follow v = .ok (p.toInstance hash, w) ∧
      (¬ Exposes (some (.single (p.toInstance hash))) v → w = v) := by
  have hvariants := Plan.get_of_demand hash hd "one_of" (by decide) rfl
  have hput : (p.toInstance hash).put "one_of" (.tuple (variants.map .schema))
      = p.toInstance hash :=
    Plan.put_self hash (Plan.mem_attributes (by rw [hd]; simp [Demand.attributes]))
  rw [settle_variants hd] at h
  obtain ⟨n, u, hrun, hr⟩ := found_of_applySearch h
  have hu : u ∈ p.demand.parts := by
    rw [hd]
    exact (mem_of_run_found hrun).1
  obtain ⟨w, hw, hsame⟩ := hparts u hu v r hr
  refine ⟨w, ?_, fun hno => hsame fun hexposed => hno ?_⟩
  · simp only [Instance.followOneOf, hvariants, lift_ok, ok_bind, Value.items, pure_eq,
      followFirst_spares hrun hw, hput]
  · exact .variant (Plan.controller_toInstance.trans (by rw [hd]; rfl)) hvariants hrun hexposed

/-! ## One schema -/

variable (change) in
theorem followGiven_spares (htransform : p.transform = none)
    (hwithholds : ∀ u ∈ p.demand.properties.map (·.2), u.Withholds)
    (hparts : ∀ t ∈ p.demand.parts, t.Compiled ∧ Follow.Spares follow t) {r : Value}
    (h : p.settle hash v = .ok r) :
    ∃ w, (p.toInstance hash).followGiven change follow v = .ok (p.toInstance hash, w) ∧
      (¬ Exposes (some (.single (p.toInstance hash))) v → w = v) := by
  have hget : (p.toInstance hash).get? "transform" = some .none :=
    Instance.get_eq_ok.mp (by rw [p.get_transform hash, htransform]; rfl)
  have hspares : ∀ t ∈ p.demand.parts, Follow.Spares follow t := fun t ht => (hparts t ht).2
  rw [Instance.followGiven, hget, p.finishes_toInstance]
  cases hd : p.demand with
  | array => exact followArray_spares hd hspares h
  | object =>
      refine followObject_spares hd (fun e he => ?_) h
      have hmem : e.2 ∈ p.demand.properties.map (·.2) := by
        rw [hd]
        exact List.mem_map_of_mem he
      obtain ⟨hcompiled, hspares⟩ := hparts e.2 (p.properties_subset hmem)
      exact ⟨hcompiled, hwithholds e.2 hmem, hspares⟩
  | oneOf => exact followOneOf_spares hd hspares h
  | _ =>
      refine ⟨_, rfl, fun hno => changed_of_not_exposed fun hwhole => hno (.plain ?_ hwhole)⟩
      rw [p.finishes_toInstance, hd]
      rfl

/-! ## The schemas inside -/

/-- A value that was supplied comes through as well, and so does the default that was
supplied in its place. -/
theorem followSingle_spares (hcompiled : (Schema.single (p.toInstance hash)).Compiled)
    (hsheltered : (Schema.single (p.toInstance hash)).Sheltered)
    (hparts : ∀ t ∈ p.demand.parts, t.Compiled ∧ Follow.Spares follow t) :
    Follow.Spares (Schema.followWith change follow) (.single (p.toInstance hash)) := by
  have htransform := p.transform_eq_none hash (hsheltered.transform _ .self)
  have hwithholds := hsheltered.properties _ .self
  rw [p.nested_properties hash] at hwithholds
  intro v r hr
  obtain ⟨u, hu, -, hsettle⟩ := (normalize_settle htransform).mp hr
  obtain ⟨w, hw, hsame⟩ := followGiven_spares change htransform hwithholds hparts hsettle
  rw [supplied_toInstance] at hu
  simp only [Schema.followWith, p.flag_hasDefault, lift_ok, ok_bind]
  split at hu
  · rename_i hmissing
    have hdefault := (Bool.and_eq_true_iff.mp hmissing).2
    obtain rfl := Value.eq_of_freshDefault (lift_eq_ok.mp hu)
    refine ⟨v, ?_, fun _ => rfl⟩
    rw [if_pos hmissing, followDefault_spares hcompiled ((p.flag_hasDefault hash).trans
      (congrArg _ hdefault)) (p.get_default hash) (lift_eq_ok.mp hu)
      (hsheltered.default _ .self) (w := w) ?_ hsame]
    · rfl
    · rw [hw]
      rfl
  · rename_i hpresent
    obtain rfl := Except.ok.inj hu
    exact ⟨w, by rw [if_neg hpresent, hw]; rfl, hsame⟩

theorem followMulti_spares {members : List Instance}
    (hmembers : ∀ s ∈ members, Follow.Spares follow (.single s)) :
    Follow.Spares (Schema.followWith change follow) (.multi members) := by
  intro v r hr
  rw [Schema.normalize_multi] at hr
  obtain ⟨n, u, hfound, hr⟩ := found_of_applySearch hr
  have hrun := hfound
  rw [searchMembers_eq] at hrun
  obtain ⟨s, hs, rfl⟩ := List.mem_map.mp (mem_of_run_found hrun).1
  obtain ⟨w, hw, hsame⟩ := hmembers s hs v r hr
  have hfirst := followFirst_spares hrun hw
  rw [List.map_map] at hfirst
  have hback : (members.map fun t => Value.schema (.single t)).flatMap Schema.followWith.single?
      = members := by
    rw [List.flatMap_map]
    exact List.flatMap_singleton' members
  refine ⟨w, ?_, fun hno => hsame fun hexposed => hno (.member hfound hexposed)⟩
  show (Instance.followFirst follow v (members.map (Value.schema ∘ Schema.single)) >>= _) = _
  rw [hfirst]
  show (.ok (Schema.multi ((members.map fun t => Value.schema (.single t)).flatMap
    Schema.followWith.single?), w) : Outcome _) = _
  rw [hback]

/-- **A sheltered schema comes through as it was**, however deep the schemas inside are
followed. -/
theorem Schema.Compiled.spares (change : Change) {s : Schema} (hs : s.Compiled) :
    s.Sheltered → ∀ n, s.depth ≤ n → Follow.Spares (Schema.followWithin change n) s := by
  induction hs with
  | single p hash proper digest parts ih =>
      intro h n hn
      have hcompiled := Schema.Compiled.single p hash proper digest parts
      obtain ⟨m, rfl⟩ : ∃ m, n = m + 1 :=
        Nat.exists_eq_add_one.mpr (Nat.lt_of_lt_of_le (Nat.succ_pos _) hn)
      exact followSingle_spares hcompiled h fun t ht => ⟨parts t ht,
        ih t ht (h.part ht) m (Nat.le_of_lt_succ (Nat.lt_of_lt_of_le (Plan.depth_lt ht) hn))⟩
  | multi members each ih =>
      intro h n hn
      obtain ⟨m, rfl⟩ : ∃ m, n = m + 1 :=
        Nat.exists_eq_add_one.mpr (Nat.lt_of_lt_of_le (Nat.succ_pos _) hn)
      exact followMulti_spares fun s hs => ih s hs (h.member hs) m
        (Nat.le_of_lt_succ (Nat.lt_of_lt_of_le (Schema.depth_member_lt hs) hn))

end follow

end Conform
