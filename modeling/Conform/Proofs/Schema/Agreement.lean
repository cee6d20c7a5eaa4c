/-
# `Proofs.Schema.Agreement` — normalize agrees with error

Normalizing checks a value first and then asks the schemas inside again, for
the parts of the value and for the defaults of what is missing.  None of
these questions can be answered differently from before: a part that
`normalize` is asked about is one that `error` accepted, with another lead
but by the same decision.  Only a default can spoil this, because `error`
never looked at it, and only a transform can change a part on the way.
-/
import Conform.Proofs.Schema.Accepts
import Conform.Proofs.Schema.Inside
import Conform.Proofs.Schema.Tokens

namespace Conform

/-! ## Absent values -/

mutual

/-- Whether a value, or a part of it that a schema is asked about, is absent. -/
def Value.holdsUndefined : Value → Bool
  | .undefined => true
  | .list items | .tuple items => Value.anyHoldsUndefined items
  | .dict entries => Value.entriesHoldUndefined entries
  | _ => false
termination_by structural v => v

def Value.anyHoldsUndefined : List Value → Bool
  | [] => false
  | v :: rest => v.holdsUndefined || Value.anyHoldsUndefined rest
termination_by structural vs => vs

def Value.entriesHoldUndefined : List (Value × Value) → Bool
  | [] => false
  | (_, v) :: rest => v.holdsUndefined || Value.entriesHoldUndefined rest
termination_by structural es => es

end

namespace Value

theorem isUndefined_of_holdsUndefined {v : Value} (h : v.holdsUndefined = false) :
    v.isUndefined = false := by
  cases v with
  | undefined => exact h
  | _ => rfl

theorem anyHoldsUndefined_eq_false {vs : List Value} :
    anyHoldsUndefined vs = false ↔ ∀ v ∈ vs, v.holdsUndefined = false := by
  induction vs with
  | nil => exact iff_of_true rfl (List.forall_mem_nil _)
  | cons v rest ih => rw [anyHoldsUndefined, Bool.or_eq_false_iff, ih, List.forall_mem_cons]

theorem entriesHoldUndefined_eq_false {es : Entries} :
    entriesHoldUndefined es = false ↔ ∀ e ∈ es, e.2.holdsUndefined = false := by
  induction es with
  | nil => exact iff_of_true rfl (List.forall_mem_nil _)
  | cons e rest ih => rw [entriesHoldUndefined, Bool.or_eq_false_iff, ih, List.forall_mem_cons]

theorem holdsUndefined_plain (c : Cell) : c.plain.holdsUndefined = false := by
  cases c <;> rfl

/-- An array of numbers has no absent items. -/
theorem holdsUndefined_nested :
    ∀ (shape : List Nat) (cells : List Cell), ∀ v ∈ Tensor.nested shape cells,
      v.holdsUndefined = false
  | [], cells, v, h => by
      obtain ⟨c, -, rfl⟩ := List.mem_map.mp h
      exact holdsUndefined_plain c
  | n :: shape, cells, v, h => by
      have ih := holdsUndefined_nested shape
      rw [Tensor.nested] at h
      split at h
      · obtain ⟨row, hrow, hv⟩ := List.mem_flatten.mp h
        obtain ⟨part, -, rfl⟩ := List.mem_map.mp hrow
        exact ih part v hv
      · obtain ⟨row, hrow, rfl⟩ := List.mem_map.mp h
        obtain ⟨part, -, rfl⟩ := List.mem_map.mp hrow
        exact anyHoldsUndefined_eq_false.mpr (ih part)

theorem holdsUndefined_arrayItems {v : Value} {items : List Value} (h : v.holdsUndefined = false)
    (hitems : v.arrayItems? = some items) : ∀ w ∈ items, w.holdsUndefined = false := by
  unfold arrayItems? at hitems
  split at hitems
  · obtain rfl := Option.some.inj hitems
    exact anyHoldsUndefined_eq_false.mp h
  · obtain rfl := Option.some.inj hitems
    exact anyHoldsUndefined_eq_false.mp h
  · split at hitems
    · obtain rfl := Option.some.inj hitems
      exact holdsUndefined_nested _ _
    · cases hitems
  · cases hitems

end Value

/-! ## Defaults that stand in -/

namespace Schema

/-- Whether a default can be handed out, is accepted and holds nothing absent. -/
def StandsIn (u : Schema) (d : Value) : Prop :=
  u.error d (.str "") = .ok none ∧ d.holdsUndefined = false ∧ (d.isCopied && d.holdsSchema) = false

/-- Nothing inside a schema transforms a value, and the defaults of its
properties stand in. -/
structure Keeps (s : Schema) : Prop where
  transform : ∀ t, s.Inside (.single t) → t.get "transform" = .ok .none
  default : ∀ t, s.Inside (.single t) → ∀ u ∈ t.nested "properties", u.hasDefault = .ok true →
    ∀ d, u.default = .ok d → u.StandsIn d

theorem Keeps.inside {s t : Schema} (h : s.Keeps) (ht : s.Inside t) : t.Keeps :=
  ⟨fun u hu => h.transform u (ht.trans hu), fun u hu => h.default u (ht.trans hu)⟩

theorem Keeps.part {p : Plan} {hash : String} (h : (Schema.single (p.toInstance hash)).Keeps)
    {t : Schema} (ht : t ∈ p.demand.parts) : t.Keeps :=
  h.inside (.part .self (by rw [p.parts_toInstance hash]; exact ht))

theorem Keeps.member {members : List Instance} (h : (Schema.multi members).Keeps) {s : Instance}
    (hs : s ∈ members) : (Schema.single s).Keeps :=
  h.inside (.member .self hs)

theorem Keeps.transform_none {p : Plan} {hash : String}
    (h : (Schema.single (p.toInstance hash)).Keeps) : p.transform = none :=
  p.transform_eq_none hash (h.transform _ .self)

/-- A compiled schema says whether it has a default, and which. -/
theorem Compiled.default_ok {t : Schema} (h : t.Compiled) :
    ∃ b d, t.hasDefault = .ok b ∧ t.get "has_default" = .ok (.bool b) ∧ t.default = .ok d ∧
      t.get "default" = .ok d := by
  cases h with
  | single p hash =>
      exact ⟨p.hasDefault, p.default, p.flag_hasDefault hash, p.get_hasDefault hash,
        p.get_default hash, p.get_default hash⟩
  | multi members each =>
      have first : ∀ ss : List Instance, (∀ s ∈ ss, s ∈ members) →
          ∃ r, Instance.firstFlag "has_default" ss = .ok r ∧ ∀ s, r = some s → s ∈ members := by
        intro ss
        induction ss with
        | nil => exact fun _ => ⟨none, rfl, nofun⟩
        | cons s rest ih =>
            intro hss
            have hs := hss s List.mem_cons_self
            cases each s hs with
            | single p hash =>
                simp only [Instance.firstFlag, Plan.flag_hasDefault, ok_bind]
                cases p.hasDefault with
                | true => exact ⟨_, rfl, fun u hu => Option.some.inj hu ▸ hs⟩
                | false => exact ih fun u hu => hss u (List.mem_cons_of_mem _ hu)
      obtain ⟨r, hr, hmem⟩ := first members fun _ hs => hs
      have hdefault : ∃ d, (Schema.multi members).default = .ok d := by
        simp only [Schema.default, hr, ok_bind]
        cases r with
        | none => exact ⟨_, rfl⟩
        | some s =>
            cases each s (hmem s rfl) with
            | single p hash => exact ⟨_, p.get_default hash⟩
      obtain ⟨d, hd⟩ := hdefault
      refine ⟨r.isSome, d, ?_, ?_, hd, ?_⟩
      · simp [hasDefault, hr]
      · simp [Schema.get, hasDefault, hr]
      · simp [Schema.get, hd]

end Schema

/-! ## Steps after the check -/

section steps

variable {properties : List (Value × Schema)}

/-- A schema that brings what it accepts to a normal form. -/
def Schema.Finishes (t : Schema) : Prop :=
  ∀ w, w.holdsUndefined = false → t.accepts w = .ok true → ∃ r, t.normalize w = .ok r

theorem finishItems_ok {t : Schema} :
    ∀ {items : List Value}, (∀ w ∈ items, ∃ r, t.normalize w = .ok r) →
      ∃ rs, Instance.finishItems Schema.inner (.schema t) items = .ok rs
  | [], _ => ⟨[], rfl⟩
  | w :: rest, h => by
      obtain ⟨r, hr⟩ := h w List.mem_cons_self
      obtain ⟨rs, hrs⟩ := finishItems_ok fun u hu => h u (List.mem_cons_of_mem _ hu)
      refine ⟨r :: rs, ?_⟩
      rw [Instance.finishItems, hrs]
      show (t.normalize w >>= fun r => pure (r :: rs)) = _
      rw [hr]
      rfl

theorem finishEntries_ok {clean : Bool} :
    ∀ {es : Entries},
      (∀ e ∈ es, ∀ t, (properties.find? fun f => Value.sameKey f.1 e.1).map (·.2) = some t →
        ∃ r, t.normalize e.2 = .ok r) →
      ∃ rs, Instance.finishEntries Schema.inner (Demand.entries properties) clean es = .ok rs
  | [], _ => ⟨[], rfl⟩
  | (key, w) :: rest, h => by
      obtain ⟨rs, hrs⟩ := finishEntries_ok fun e he => h e (List.mem_cons_of_mem _ he)
      have hkey := h (key, w) List.mem_cons_self
      rw [Instance.finishEntries, Demand.find?_entries]
      cases hf : (properties.find? fun f => Value.sameKey f.1 key).map (·.2) with
      | none =>
          rw [hrs]
          exact ⟨_, rfl⟩
      | some t =>
          obtain ⟨r, hr⟩ := hkey t hf
          refine ⟨(key, r) :: rs, ?_⟩
          show (t.normalize w >>= fun r => _ >>= fun rs => pure ((key, r) :: rs)) = _
          rw [hr, hrs]
          rfl

theorem fillEntries_ok (given : Entries) :
    ∀ {properties : List (Value × Schema)},
      (∀ t ∈ properties.map (·.2), t.Compiled ∧ ∀ d, t.hasDefault = .ok true →
        t.default = .ok d → (d.isCopied && d.holdsSchema) = false ∧ ∃ r, t.normalize d = .ok r) →
      ∃ rs, Instance.fillEntries Schema.inner given (Demand.entries properties) = .ok rs
  | [], _ => ⟨[], rfl⟩
  | (key, t) :: rest, h => by
      obtain ⟨rs, hrs⟩ := fillEntries_ok given fun u hu => h u (List.mem_cons_of_mem _ hu)
      obtain ⟨hcompiled, hdefault⟩ := h t List.mem_cons_self
      obtain ⟨b, d, hb, hgetb, hd, hgetd⟩ := hcompiled.default_ok
      rw [Demand.entries, List.map_cons, ← Demand.entries, Instance.fillEntries, hrs]
      cases given.contains key with
      | true => exact ⟨rs, rfl⟩
      | false =>
          simp only [Value.get, hgetb, hgetd, lift_ok, ok_bind, truthy_bool, Bool.false_eq_true,
            if_false]
          cases b with
          | false => exact ⟨rs, rfl⟩
          | true =>
              obtain ⟨hcopy, r, hr⟩ := hdefault d hb hd
              refine ⟨(key, r) :: rs, ?_⟩
              simp only [Value.freshDefault, hcopy, lift_ok, ok_bind, Bool.false_eq_true, if_false,
                if_true]
              show (t.normalize d >>= fun r => pure ((key, r) :: rs)) = _
              rw [hr]
              rfl

theorem finishArray_ok {p : Plan} (hash : String) {v : Value} {most : Option Int} {least : Int}
    {item : Option Schema} {unique : Bool} (hv : v.holdsUndefined = false)
    (hd : p.demand = .array most least item unique) (hitem : ∀ t ∈ item, t.Finishes)
    (haccepts : Demand.acceptsArray Schema.accepts most least item unique v = .ok true) :
    ∃ r, Instance.finishArray Schema.inner (p.toInstance hash) v = .ok r := by
  have hschema := Plan.get_of_demand hash hd "schema" (by decide) rfl
  unfold Demand.acceptsArray at haccepts
  cases hitems : v.arrayItems? with
  | none =>
      rw [hitems] at haccepts
      exact absurd haccepts refusal_ne_true
  | some items =>
      simp only [Instance.finishArray, hschema, lift_ok, ok_bind, hitems]
      cases item with
      | none => exact ⟨_, rfl⟩
      | some t =>
          have hask : Demand.askItems Schema.accepts (some t) items = .ok true := by
            simp only [hitems] at haccepts
            split at haccepts
            · cases Except.ok.inj haccepts
            · split at haccepts
              · cases Except.ok.inj haccepts
              · exact haccepts
          have hall : ∀ w ∈ items, ∃ r, t.normalize w = .ok r := by
            intro w hw
            exact hitem t rfl w (Value.holdsUndefined_arrayItems hv hitems w hw)
              (askAll_eq_true.mp hask w hw)
          obtain ⟨rs, hrs⟩ := finishItems_ok hall
          refine ⟨.list rs, ?_⟩
          simp only [optional, Value.isNone, Bool.false_eq_true, if_false, hrs, ok_bind, pure_eq]

theorem finishObject_ok {p : Plan} (hash : String) {v : Value} {allowNull clean : Bool}
    {properties : List (Value × Schema)} {generic : Option Schema} (hv : v.holdsUndefined = false)
    (hd : p.demand = .object allowNull clean properties generic)
    (hproperties : ∀ t ∈ properties.map (·.2), t.Compiled ∧ t.Finishes)
    (hdefaults : ∀ t ∈ properties.map (·.2), t.hasDefault = .ok true →
      ∀ d, t.default = .ok d → t.StandsIn d)
    (haccepts : Demand.acceptsObject Schema.accepts allowNull properties generic v = .ok true) :
    ∃ r, Instance.finishObject Schema.inner (p.toInstance hash) v = .ok r := by
  unfold Demand.acceptsObject at haccepts
  cases v with
  | none => exact ⟨.none, rfl⟩
  | dict entries =>
      have hkeys : (p.toInstance hash).properties = .ok (Demand.entries properties) := by
        simp only [Instance.properties, Plan.get_of_demand hash hd "properties" (by decide) rfl,
          ok_bind, pure_eq]
      have hcleans := Plan.get_of_demand hash hd "clean" (by decide) rfl
      have hkept : ∀ c, ∃ rs,
          Instance.finishEntries Schema.inner (Demand.entries properties) c entries = .ok rs := by
        obtain ⟨answers, hanswers, hall⟩ := bind_eq_ok.mp haccepts
        have htrue := Bool.and_eq_true_iff.mp (Except.ok.inj hall)
        rw [htrue.1] at hanswers
        intro c
        refine finishEntries_ok fun e he t ht => ?_
        have hgoverning : Demand.governing properties generic e.1 = some t := by
          rw [Demand.governing, ht, Option.some_or]
        have hasked :=
          ((Demand.askEntry_eq_true hgoverning).mp (askAll_eq_true.mp hanswers e he)).2
        obtain ⟨f, hf, rfl⟩ := Option.map_eq_some_iff.mp ht
        exact (hproperties f.2 (List.mem_map_of_mem (List.mem_of_find?_eq_some hf))).2 e.2
          (Value.entriesHoldUndefined_eq_false.mp hv e he) hasked
      obtain ⟨filled, hfilled⟩ := fillEntries_ok entries fun t ht => by
        refine ⟨(hproperties t ht).1, fun d hb hd => ?_⟩
        obtain ⟨herror, habsent, hcopy⟩ := hdefaults t ht hb d hd
        exact ⟨hcopy, (hproperties t ht).2 d habsent (Schema.accepts_eq_true.mpr herror)⟩
      simp only [Instance.finishObject, hkeys, hcleans, lift_ok, ok_bind, truthy_bool, hfilled]
      cases entries.isEmpty with
      | true =>
          obtain ⟨kept, hkept⟩ := hkept false
          simp only [if_true, pure_eq, ok_bind, hkept]
          exact ⟨_, rfl⟩
      | false =>
          obtain ⟨kept, hkept⟩ := hkept clean
          simp only [Bool.false_eq_true, if_false, ok_bind, hkept]
          exact ⟨_, rfl⟩
  | _ => exact absurd haccepts refusal_ne_true

/-- A search that an accepting candidate ends finds one that accepts. -/
theorem run_found {ts : List Schema} {v : Value} (h : ∀ t ∈ ts, t.Compiled) (i : Nat)
    (haccepts : askAny (Schema.accepts · v) ts = .ok true) :
    ∃ n, ∃ t ∈ ts, t.accepts v = .ok true ∧
      Search.run Schema.error v i (ts.map .schema) = .ok (.found n t) := by
  rw [← isFound_run v (fun t ht => (h t ht).settled) i] at haccepts
  obtain ⟨found, hrun, hfound⟩ := map_eq_ok.mp haccepts
  cases found with
  | refused errors => cases hfound
  | found n t =>
      obtain ⟨ht, herror⟩ := mem_of_run_found hrun
      exact ⟨n, t, ht, Schema.accepts_eq_true.mpr herror, hrun⟩

theorem finishOneOf_ok {p : Plan} (hash : String) {v : Value} {variants : List Schema}
    (hv : v.holdsUndefined = false) (hd : p.demand = .oneOf variants)
    (hvariants : ∀ t ∈ variants, t.Compiled ∧ t.Finishes)
    (haccepts : askAny (Schema.accepts · v) variants = .ok true) :
    ∃ r, Instance.finishOneOf Schema.inner (p.toInstance hash) v = .ok r := by
  obtain ⟨n, t, ht, haccepts, hrun⟩ := run_found (fun t ht => (hvariants t ht).1) 0 haccepts
  obtain ⟨r, hr⟩ := (hvariants t ht).2 v hv haccepts
  refine ⟨r, ?_⟩
  simp only [Instance.finishOneOf, searchItems, Plan.get_of_demand hash hd "one_of" (by decide) rfl,
    lift_ok, ok_bind, Value.items]
  show (Search.run Schema.error v 0 (variants.map .schema) >>= fun found => _) = _
  rw [hrun]
  exact hr

/-- The step of a kind brings an accepted value to a normal form, if the parts
do so. -/
theorem finishStep_ok {p : Plan} (hash : String) {v : Value} (hv : v.holdsUndefined = false)
    (hkind : p.demand.kind ≠ .typed) (hparts : ∀ t ∈ p.demand.parts, t.Compiled ∧ t.Finishes)
    (hdefaults : ∀ t ∈ p.demand.properties.map (·.2), t.hasDefault = .ok true →
      ∀ d, t.default = .ok d → t.StandsIn d)
    (haccepts : p.demand.accepts Schema.accepts v = .ok true) :
    ∃ r, Instance.finishStep Schema.inner (p.toInstance hash) v (.builtin p.demand.kind)
      = .ok r := by
  have hproperties := p.properties_subset
  cases hd : p.demand with
  | typed => exact absurd (by rw [hd]; rfl) hkind
  | array most least item unique =>
      rw [hd] at hparts haccepts
      exact finishArray_ok hash hv hd (fun t ht => (hparts t (Option.mem_toList.mpr ht)).2) haccepts
  | object allowNull clean properties generic =>
      rw [hd] at hparts haccepts hdefaults hproperties
      exact finishObject_ok hash hv hd (fun t ht => hparts t (hproperties ht)) hdefaults haccepts
  | oneOf variants =>
      rw [hd] at hparts haccepts
      exact finishOneOf_ok hash hv hd hparts haccepts
  | _ => exact ⟨v, rfl⟩

end steps

/-! ## Agreement -/

namespace Schema

/-- Normalizing fails as the check does, and only then. -/
def Agrees (s : Schema) (v : Value) : Prop :=
  match s.error v (.str "") with
  | .ok none => ∃ w, s.normalize v = .ok w
  | .ok (some info) => s.normalize v = .error (.value info)
  | .error e => s.normalize v = .error e

theorem Agrees.finishes {s : Schema} {v : Value} (h : s.Agrees v) (haccepts : s.accepts v = .ok true) :
    ∃ w, s.normalize v = .ok w := by
  rw [Agrees, accepts_eq_true.mp haccepts] at h
  exact h

/-- Normalizing a value that is not absent starts with the check. -/
theorem normalize_after_error (p : Plan) (hash : String) {v : Value} (hv : v.isUndefined = false) :
    (Schema.single (p.toInstance hash)).normalize v
      = (Schema.single (p.toInstance hash)).error v (.str "") >>= fun verdict =>
          match verdict with
          | some info => throw (.value info)
          | none => (p.toInstance hash).finishes.foldlM
              (Instance.finishStep inner (p.toInstance hash)) v := by
  rw [normalize_single, error_single, Instance.normalizeWith,
    p.require_toInstance hash (by decide), p.require_toInstance hash (by decide),
    Instance.supplied, hv]
  rfl

theorem agrees_single {p : Plan} {hash : String} {v : Value} (hp : p.Proper)
    (hv : v.holdsUndefined = false) (htransform : p.transform = none)
    (hparts : ∀ t ∈ p.demand.parts, t.Compiled ∧ t.Finishes)
    (hdefaults : ∀ t ∈ p.demand.properties.map (·.2), t.hasDefault = .ok true →
      ∀ d, t.default = .ok d → t.StandsIn d) :
    (Schema.single (p.toInstance hash)).Agrees v := by
  have hnormalize := normalize_after_error p hash (Value.isUndefined_of_holdsUndefined hv)
  rw [Agrees]
  cases herror : (Schema.single (p.toInstance hash)).error v (.str "") with
  | error e => rw [hnormalize, herror]; rfl
  | ok verdict =>
      cases verdict with
      | some info => rw [hnormalize, herror]; rfl
      | none =>
          have haccepts := accepts_eq_true.mpr herror
          rw [accepts_single hash hp.demand hp.legible fun t ht => (hparts t ht).1,
            Plan.accepts_eq_true] at haccepts
          have htyped : (p.toInstance hash).finishTyped v = .ok v := by
            simp [Instance.finishTyped, htransform, optional,
              Value.isUndefined_of_holdsUndefined hv]
          rw [hnormalize, herror, p.finishes_toInstance]
          show ∃ w, ((p.toInstance hash).finishTyped v >>= fun w => List.foldlM _ w _) = .ok w
          rw [htyped, ok_bind]
          split
          · rename_i hkind
            obtain ⟨r, hr⟩ := finishStep_ok hash hv hkind.1 hparts hdefaults haccepts.2.2
            refine ⟨r, ?_⟩
            rw [List.foldlM_cons, hr]
            rfl
          · exact ⟨v, rfl⟩

theorem agrees_multi {members : List Instance} {v : Value}
    (hmembers : ∀ s ∈ members, (Schema.single s).Compiled ∧ (Schema.single s).Agrees v) :
    (Schema.multi members).Agrees v := by
  rw [Agrees, error_multi, normalize_multi]
  cases hsearch : searchMembers error members v with
  | error e => rfl
  | ok found =>
      cases found with
      | refused errors => rfl
      | found n t =>
          rw [searchMembers_eq] at hsearch
          obtain ⟨hmem, herror⟩ := mem_of_run_found hsearch
          obtain ⟨s, hs, rfl⟩ := List.mem_map.mp hmem
          exact (hmembers s hs).2.finishes (accepts_eq_true.mpr herror)

/-- A compiled schema that keeps what it is given agrees with itself. -/
theorem Compiled.agrees {s : Schema} (h : s.Compiled) (hkeeps : s.Keeps) {v : Value}
    (hv : v.holdsUndefined = false) : s.Agrees v := by
  induction h generalizing v with
  | single p hash proper _ parts ih =>
      refine agrees_single proper hv hkeeps.transform_none ?_ ?_
      · intro t ht
        refine ⟨parts t ht, fun w hw haccepts => ?_⟩
        exact (ih t ht (hkeeps.part ht) hw).finishes haccepts
      · intro t ht
        rw [← p.nested_properties hash] at ht
        exact hkeeps.default _ .self t ht
  | multi members each ih =>
      exact agrees_multi fun s hs => ⟨each s hs, ih s hs (hkeeps.member hs) hv⟩

section supplied

variable (d : Value)

/-- The options of a property with a default, and an object with it. -/
def suppliedOptions : Entries := [(.str "default", d)]

def containerOptions : Entries :=
  [(.str "type", .str "object"),
    (.str "properties", .dict [(.str "a", .dict (suppliedOptions d))])]

def suppliedPlan : Plan := ⟨d, none, true, none, .str "typed", none, .typed, some false⟩

def containerPlan (hash : String) : Plan :=
  .plain (.str "object")
    (.object true false [(.str "a", .single ((suppliedPlan d).toInstance hash))] none) none

variable {d} {hash hash' : String}

theorem compile_empty :
    ∃ hash, Registry.builtin.compile (.dict []) .none
      = .ok (.single ((Plan.plain (.str "typed") .typed none).toInstance hash)) := by
  obtain ⟨hash, hhash⟩ := Plan.hash_ok_of_unlisted (p := .plain (.str "typed") .typed none) rfl rfl rfl
    ⟨_, Value.token_ok rfl Value.outline_undefined⟩ ⟨_, Value.token_ok rfl rfl⟩ nofun
  refine ⟨hash, ?_⟩
  exact Plan.compile_eq_plan [] ⟨.typed, [.str "typed", .aliasKey .typed], true⟩
    rfl rfl rfl (absurd rfl) hhash

theorem compile_supplied (hd : ∃ token, d.token = .ok token) :
    ∃ hash, (Schema.single ((suppliedPlan d).toInstance hash)).Compiled ∧
      (compileMerged (compile .builtin) (.str "a") .none (.dict (suppliedOptions d))).result
        = .ok (.single ((suppliedPlan d).toInstance hash)) := by
  obtain ⟨hash, hhash⟩ := Plan.hash_ok_of_unlisted (p := suppliedPlan d) rfl rfl rfl hd
    ⟨_, Value.token_ok rfl rfl⟩ nofun
  have hproper : (suppliedPlan d).Proper :=
    ⟨nofun, nofun, ⟨_, List.mem_cons_self, rfl, _, List.mem_cons_self, rfl⟩, trivial,
      .of_nil rfl rfl⟩
  refine ⟨hash, .single _ hash hproper hhash nofun, ?_⟩
  exact compileMerged_optional (.str "a") rfl rfl
    (Plan.compile_eq_plan (p := suppliedPlan d) (suppliedOptions d)
      ⟨.typed, [.str "typed", .aliasKey .typed], true⟩ rfl rfl rfl (absurd rfl) hhash)
    ((suppliedPlan d).flag_required hash)

theorem compile_container
    (hproperty : (compileMerged (compile .builtin) (.str "a") .none
      (.dict (suppliedOptions d))).result = .ok (.single ((suppliedPlan d).toInstance hash))) :
    ∃ hash', Registry.builtin.compile (.dict (containerOptions d)) .none
      = .ok (.single ((containerPlan d hash).toInstance hash')) := by
  obtain ⟨sorted, hsorted, -⟩ := Value.outline_properties
    [(.str "a", .single ((suppliedPlan d).toInstance hash))]
    (List.forall_mem_singleton.mpr ((suppliedPlan d).answers hash))
    (List.forall_mem_singleton.mpr rfl) (List.nodup_singleton _)
  have htokens : ∀ e ∈ (containerPlan d hash).demand.attributes,
      ∃ token, e.2.token = .ok token := by
    intro e he
    simp only [containerPlan, Plan.plain, Demand.attributes, List.mem_cons, List.not_mem_nil,
      or_false] at he
    rcases he with rfl | rfl | rfl | rfl
    · exact ⟨_, Value.token_ok rfl rfl⟩
    · exact ⟨_, Value.token_ok rfl rfl⟩
    · exact ⟨_, Value.token_ok rfl hsorted⟩
    · exact ⟨_, Value.token_ok rfl rfl⟩
  obtain ⟨hash', hhash'⟩ := Plan.hash_ok_of_unlisted (p := containerPlan d hash) rfl rfl rfl
    ⟨_, Value.token_ok rfl Value.outline_undefined⟩ ⟨_, Value.token_ok rfl rfl⟩ htokens
  exact ⟨hash', Plan.compile_eq_plan (p := containerPlan d hash) (containerOptions d)
    ⟨.object, [.str "object", .callable (.ofClass .dict)], true⟩ rfl rfl rfl
    (fun _ => object_attributes rfl rfl rfl hproperty rfl rfl) hhash'⟩

/-- An object schema with one property has no more inside than the property. -/
theorem inside_container {u : Instance}
    (hu : (Schema.single ((containerPlan d hash).toInstance hash')).Inside (.single u)) :
    u = (containerPlan d hash).toInstance hash' ∨ u = (suppliedPlan d).toInstance hash := by
  rcases (containerPlan d hash).inside_cases hash' hu with heq | ⟨part, hpart, hin⟩
  · exact .inl (Schema.single.inj heq)
  · rw [List.mem_singleton.mp hpart] at hin
    exact .inr (Schema.single.inj ((suppliedPlan d).eq_of_inside hash rfl hin))

theorem container_transform {u : Instance}
    (hu : (Schema.single ((containerPlan d hash).toInstance hash')).Inside (.single u)) :
    u.get "transform" = .ok .none := by
  rcases inside_container hu with rfl | rfl
  · exact (containerPlan d hash).get_transform hash'
  · exact (suppliedPlan d).get_transform hash

/-- The default of the property is the only one, and the property accepts it. -/
theorem container_default {u : Instance} {p : Schema} {w : Value}
    (hu : (Schema.single ((containerPlan d hash).toInstance hash')).Inside (.single u))
    (hp : p ∈ u.nested "properties") (hw : p.default = .ok w) :
    w = d ∧ p.error d (.str "") = .ok none := by
  rcases inside_container hu with rfl | rfl
  · rw [Plan.nested_properties] at hp
    obtain rfl := List.mem_singleton.mp hp
    refine ⟨Except.ok.inj (hw.symm.trans ((suppliedPlan d).get_default hash)), ?_⟩
    rw [← accepts_eq_true,
      accepts_single (p := suppliedPlan d) hash trivial (.of_nil rfl rfl) nofun,
      Plan.accepts_eq_true]
    exact ⟨rfl, rfl, rfl⟩
  · rw [Plan.nested_properties] at hp
    cases hp

/-- The property is optional, so an object without it is accepted. -/
theorem container_error (hash' : String)
    (hproperty : (Schema.single ((suppliedPlan d).toInstance hash)).Compiled) {es : Entries}
    (hes : ∀ e ∈ es, Value.sameKey (.str "a") e.1 = false) :
    (Schema.single ((containerPlan d hash).toInstance hash')).error (.dict es) (.str "")
      = .ok none := by
  have hparts : ∀ u ∈ (containerPlan d hash).demand.parts, u.Compiled := by
    intro u hu
    rw [List.mem_singleton.mp hu]
    exact hproperty
  have hmarked : (containerPlan d hash).demand.Proper := by
    intro e he s hs
    rw [List.mem_singleton.mp he] at hs
    obtain rfl := List.mem_singleton.mp hs
    exact ⟨false, (suppliedPlan d).lookup_required⟩
  have hoptional : (Schema.single ((suppliedPlan d).toInstance hash)).isRequired = false := by
    simp only [isRequired, required, Plan.flag_required]
    rfl
  have hentries : askAll (Demand.askEntry accepts
      [(.str "a", .single ((suppliedPlan d).toInstance hash))] none) es = .ok true := by
    refine askAll_eq_true.mpr fun e he => ?_
    have hgoverning : Demand.governing [(.str "a", .single ((suppliedPlan d).toInstance hash))]
        none e.1 = none := by simp [Demand.governing, hes e he]
    rw [Demand.askEntry, hgoverning]
  have hlegible : (containerPlan d hash).demand.Legible :=
    ⟨List.forall_mem_singleton.mpr rfl, fun _ hpattern => by cases hpattern⟩
  rw [← accepts_eq_true, accepts_single hash' hmarked hlegible hparts, Plan.accepts_eq_true]
  refine ⟨rfl, rfl, ?_⟩
  simp [containerPlan, Plan.plain, Demand.accepts, Demand.acceptsObject, hoptional, hentries]

/-- An object with a default that can be handed out keeps what it is given. -/
theorem keeps_container (hd : d.holdsUndefined = false)
    (hcopy : (d.isCopied && d.holdsSchema) = false) :
    (Schema.single ((containerPlan d hash).toInstance hash')).Keeps := by
  refine ⟨fun u hu => container_transform hu, fun u hu p hp _ w hw => ?_⟩
  obtain ⟨rfl, haccepts⟩ := container_default hu hp hw
  exact ⟨haccepts, hd, hcopy⟩

end supplied

end Schema

end Conform
