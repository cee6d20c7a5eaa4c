/-
# `Proofs.Schema.Finished` — a normal form, or the error of the value

A value that passes the check is transformed, and what comes of it is finished as
the kind does: items and entries are normalized by the schemas that govern them.
No check has looked at what the last step gets.  It is enough that the transform
keeps arrays arrays and objects objects: the parts are checked when their turn
comes, so whatever else the transform made of them, what can go wrong is the error
of a value.

A default is handed to the check as it is found in the configuration.  That it
can be handed out, which means copied if it is a container, is assumed.
-/
import Conform.Proofs.Schema.Answered
import Conform.Proofs.Schema.Choice
import Conform.Proofs.Schema.Steady

namespace Conform

/-- A failure that is the error of a value. -/
def Failure.IsOfValue (e : Failure) : Prop := ∃ info, e = .value info

/-- Whether the last step of a container can work on a value: an array needs
items, an object entries or nothing at all. -/
def Instance.Suits (t : Instance) (v : Value) : Prop :=
  (t.controller = "array" → v.arrayItems?.isSome = true) ∧
    (t.controller = "object" → v = .none ∨ v.isDict = true)

namespace Schema

/-- Defaults can be handed out, and transforms return, on what the check lets through,
what the last step can work on. -/
structure Finishing (s : Schema) : Prop where
  responds : s.Responds
  transform : ∀ t, s.Inside (.single t) → ∀ f, t.get "transform" = .ok (.callable f) →
    ∀ v : Value, v.Tractable → (Schema.single t).error v (.str "") = .ok none →
      ∃ w, f.apply v = .ok w ∧ w.Tractable ∧ t.Suits w
  default : ∀ t, s.Inside (.single t) → ∀ d, t.get "default" = .ok d →
    d.Tractable ∧ (d.isCopied && d.holdsSchema) = false

/-- A schema whose normalizing fails with the error of a value, if at all. -/
def Settles (s : Schema) : Prop :=
  ∀ v : Value, v.Tractable → FailsOnly Failure.IsOfValue (s.normalize v)

variable {s t : Schema} {p : Plan} {hash : String} {v w : Value}

theorem Finishing.inside (h : s.Finishing) (ht : s.Inside t) : t.Finishing where
  responds := h.responds.inside ht
  transform u hu := h.transform u (ht.trans hu)
  default u hu := h.default u (ht.trans hu)

theorem Finishing.part (h : (Schema.single (p.toInstance hash)).Finishing)
    (ht : t ∈ p.demand.parts) : t.Finishing :=
  h.inside (.part .self (by rwa [p.parts_toInstance hash]))

theorem Finishing.member {members : List Instance} (h : (Schema.multi members).Finishing)
    {u : Instance} (hu : u ∈ members) : (Schema.single u).Finishing :=
  h.inside (.member .self hu)

end Schema

/-! ## Before the last step -/

section plan

variable {p : Plan} {hash : String} {v w : Value}

theorem Plan.controller_toInstance : (p.toInstance hash).controller = p.demand.kind.label := by
  cases hd : p.demand <;> simp only [Instance.controller, toInstance, hd] <;> rfl

theorem Kind.eq_of_label {k l : Kind} (h : k.label = l.label) : k = l := by
  revert h
  cases k <;> cases l <;> decide

theorem demand_of_array (h : (p.toInstance hash).controller = "array") :
    ∃ most least item unique, p.demand = .array most least item unique := by
  have hkind : p.demand.kind = .array :=
    Kind.eq_of_label (Plan.controller_toInstance.symm.trans h)
  cases hd : p.demand with
  | array most least item unique => exact ⟨most, least, item, unique, rfl⟩
  | _ => rw [hd] at hkind; cases hkind

theorem demand_of_object (h : (p.toInstance hash).controller = "object") :
    ∃ allowNull clean properties generic,
      p.demand = .object allowNull clean properties generic := by
  have hkind : p.demand.kind = .object :=
    Kind.eq_of_label (Plan.controller_toInstance.symm.trans h)
  cases hd : p.demand with
  | object allowNull clean properties generic =>
      exact ⟨allowNull, clean, properties, generic, rfl⟩
  | _ => rw [hd] at hkind; cases hkind

/-- What the kind accepts suits its last step. -/
theorem suits_of_accepts {ask : Schema → Value → Outcome Bool}
    (h : p.demand.accepts ask v = .ok true) : (p.toInstance hash).Suits v := by
  constructor
  · intro hname
    obtain ⟨most, least, item, unique, hd⟩ := demand_of_array hname
    rw [hd] at h
    have haccepts : Demand.acceptsArray ask most least item unique v = .ok true := h
    rw [Demand.acceptsArray] at haccepts
    cases hitems : v.arrayItems? with
    | some items => rfl
    | none =>
        rw [hitems] at haccepts
        exact absurd haccepts refusal_ne_true
  · intro hname
    obtain ⟨allowNull, clean, properties, generic, hd⟩ := demand_of_object hname
    rw [hd] at h
    have haccepts : Demand.acceptsObject ask allowNull properties generic v = .ok true := h
    cases v with
    | none => exact .inl rfl
    | dict entries => exact .inr rfl
    | _ => exact absurd haccepts refusal_ne_true

namespace Schema.Finishing

variable (h : (Schema.single (p.toInstance hash)).Finishing)

include h

theorem supplied_ok (hv : v.Tractable) :
    ∃ u, (p.toInstance hash).supplied v = .ok u ∧ u.Tractable := by
  obtain ⟨htractable, hcopy⟩ := h.default _ .self p.default (p.get_default hash)
  rw [supplied_toInstance]
  split
  · exact ⟨p.default, by rw [Value.freshDefault, hcopy]; rfl, htractable⟩
  · exact ⟨v, rfl, hv⟩

/-- What passes the check becomes what suits the last step. -/
theorem transformed_ok (hp : p.demand.Proper) (hl : p.demand.Legible)
    (hparts : ∀ t ∈ p.demand.parts, t.Compiled) (hv : v.Tractable)
    (hnone : (Schema.single (p.toInstance hash)).error v (.str "") = .ok none) :
    ∃ w, p.transformed v = .ok w ∧ w.Tractable ∧ (p.toInstance hash).Suits w := by
  rw [Plan.transformed]
  cases htransform : p.transform with
  | none =>
      have haccepts := accepts_eq_true.mpr hnone
      rw [accepts_single hash hp hl hparts, Plan.accepts_eq_true] at haccepts
      exact ⟨v, rfl, hv, suits_of_accepts haccepts.2.2⟩
  | some f =>
      have hget := p.get_transform hash
      rw [htransform] at hget
      obtain ⟨w, hw, htractable, hsuits⟩ := h.transform _ .self f hget v hv hnone
      exact ⟨w, by simp only [hw, lift_ok], htractable, hsuits⟩

end Schema.Finishing

end plan

/-! ## The last step -/

section last

variable {t : Schema} {properties : List (Value × Schema)}

theorem finishItems_failsOnly (ht : t.Settles) {items : List Value}
    (hitems : ∀ w ∈ items, w.Tractable) :
    FailsOnly Failure.IsOfValue (Instance.finishItems Schema.inner (.schema t) items) := by
  induction items with
  | nil => exact .ok []
  | cons w rest ih =>
      obtain ⟨hw, hrest⟩ := List.forall_mem_cons.mp hitems
      rw [Instance.finishItems]
      refine FailsOnly.bind (ht w hw) fun r _ => ?_
      exact (ih hrest).bind fun rs _ => .ok _

theorem finishEntries_failsOnly {clean : Bool} (ht : ∀ t ∈ properties.map (·.2), t.Settles)
    {es : Entries} (hes : ∀ e ∈ es, e.2.Tractable) :
    FailsOnly Failure.IsOfValue
      (Instance.finishEntries Schema.inner (Demand.entries properties) clean es) := by
  induction es with
  | nil => exact .ok []
  | cons e rest ih =>
      obtain ⟨he, hrest⟩ := List.forall_mem_cons.mp hes
      rw [finishEntries_cons]
      cases hown : Demand.own properties e.1 with
      | none => exact (ih hrest).bind fun others _ => .ok _
      | some t =>
          refine FailsOnly.bind (ht t (mem_of_own hown) e.2 he) fun r _ => ?_
          exact (ih hrest).bind fun rs _ => .ok _

/-- A default is that of a member, which has one as the schema has; or there is none. -/
theorem Schema.default_mem {d : Value} (h : t.default = .ok d) :
    (d = .undefined ∧ t.hasDefault = .ok false) ∨
      ∃ s ∈ t.members, s.flag "has_default" = t.hasDefault ∧ s.get "default" = .ok d := by
  cases t with
  | single s => exact .inr ⟨s, List.mem_singleton.mpr rfl, rfl, h⟩
  | multi members =>
      obtain ⟨found, hfound, hd⟩ := bind_eq_ok.mp h
      rw [Schema.hasDefault, hfound]
      cases found with
      | none => exact .inl ⟨(Except.ok.inj hd).symm, rfl⟩
      | some s =>
          obtain ⟨hs, hflag⟩ := Schema.mem_of_firstFlag hfound
          exact .inr ⟨s, hs, hflag, hd⟩

theorem Schema.Finishing.default_ok (h : t.Finishing) {d : Value} (hd : t.default = .ok d) :
    d.Tractable ∧ d.freshDefault = .ok d := by
  rcases Schema.default_mem hd with ⟨rfl, -⟩ | ⟨s, hs, -, hget⟩
  · exact ⟨⟨rfl, rfl⟩, rfl⟩
  · have hinside : t.Inside (.single s) := by
      cases t with
      | single u => exact List.mem_singleton.mp hs ▸ .self
      | multi members => exact .member .self hs
    obtain ⟨htractable, hcopy⟩ := h.default s hinside d hget
    exact ⟨htractable, by rw [Value.freshDefault, hcopy]; rfl⟩

theorem fillEntries_failsOnly (given : Entries)
    (ht : ∀ t ∈ properties.map (·.2), t.Compiled ∧ t.Finishing ∧ t.Settles) :
    FailsOnly Failure.IsOfValue
      (Instance.fillEntries Schema.inner given (Demand.entries properties)) := by
  induction properties with
  | nil => exact .ok []
  | cons e rest ih =>
      obtain ⟨⟨hcompiled, hfinishing, hsettles⟩, hrest⟩ := List.forall_mem_cons.mp ht
      obtain ⟨b, d, -, hflag, hd, hget⟩ := hcompiled.default_ok
      obtain ⟨htractable, hfresh⟩ := hfinishing.default_ok hd
      rw [fillEntries_cons]
      simp only [hflag, hget, hfresh, lift_ok, ok_bind, truthy_bool]
      cases given.contains e.1 with
      | true => exact ih hrest
      | false =>
          cases b with
          | false => exact ih hrest
          | true =>
              refine FailsOnly.bind (hsettles d htractable) fun r _ => ?_
              exact (ih hrest).bind fun rs _ => .ok _

/-- A search among schemas that answer ends with the first that accepts, or with the
errors of all. -/
theorem search_failsOnly {ts : List Schema} {v : Value} (hv : v.Tractable) (i : Nat)
    (k : ErrorKind) (ht : ∀ t ∈ ts, t.Compiled ∧ t.Responds ∧ t.Settles) :
    FailsOnly Failure.IsOfValue (Search.run Schema.error v i (ts.map .schema) >>= fun found =>
      Schema.inner.applySearch found v k) := by
  have hrun : ∃ found, Search.run Schema.error v i (ts.map .schema) = .ok found := by
    obtain ⟨b, hb⟩ : ∃ b, askAny (Schema.accepts · v) ts = .ok b := askAny_ok fun t hmem =>
      Schema.answering_responds.accepts_ok (ht t hmem).1 ⟨(ht t hmem).2.1, hv⟩
    rw [← isFound_run v (fun t hmem => (ht t hmem).1.settled) i] at hb
    obtain ⟨found, hfound, -⟩ := map_eq_ok.mp hb
    exact ⟨found, hfound⟩
  obtain ⟨found, hrun⟩ := hrun
  rw [hrun, ok_bind]
  cases found with
  | found n t => exact (ht t (mem_of_run_found hrun).1).2.2 v hv
  | refused errors => exact .error ⟨_, rfl⟩

/-- The last step works on what suits it, and asks the parts. -/
theorem settle_failsOnly {p : Plan} {hash : String} {w : Value} (hw : w.Tractable)
    (hsuits : (p.toInstance hash).Suits w)
    (hparts : ∀ t ∈ p.demand.parts, t.Compiled ∧ t.Finishing ∧ t.Settles) :
    FailsOnly Failure.IsOfValue (p.settle hash w) := by
  rw [Instance.Suits, Plan.controller_toInstance] at hsuits
  have hproperties := p.properties_subset
  cases hd : p.demand with
  | array most least item unique =>
      rw [hd] at hsuits hparts
      obtain ⟨items, hitems⟩ := Option.isSome_iff_exists.mp (hsuits.1 rfl)
      rw [settle_items hd hitems]
      refine FailsOnly.map ?_
      cases item with
      | none => exact .ok items
      | some t =>
          exact finishItems_failsOnly (hparts t (Option.mem_toList.mpr rfl)).2.2 fun x hx =>
            Value.HandsOn.tractable (.item hitems hx) hw
  | object allowNull clean properties generic =>
      rw [hd] at hsuits hparts hproperties
      rcases hsuits.2 rfl with rfl | hdict
      · rw [settle_null hd]
        exact .ok _
      · cases w with
        | dict es =>
            have hes : ∀ e ∈ es, e.2.Tractable := fun e he =>
              Value.HandsOn.tractable (.entry rfl he) hw
            rw [settle_entries hd]
            refine FailsOnly.bind (finishEntries_failsOnly
              (fun t ht => (hparts t (hproperties ht)).2.2) hes) fun kept _ => ?_
            exact (fillEntries_failsOnly es fun t ht => hparts t (hproperties ht)).bind
              fun filled _ => .ok _
        | _ => cases hdict
  | oneOf variants =>
      rw [hd] at hparts
      rw [settle_variants hd]
      exact search_failsOnly hw 0 .oneOf fun t ht =>
        ⟨(hparts t ht).1, (hparts t ht).2.1.responds, (hparts t ht).2.2⟩
  | _ =>
      rw [Plan.settle, hd]
      exact .ok w

end last

/-! ## All the way -/

namespace Schema

/-- Either the check refuses what was supplied, or the last step works on what suits it. -/
theorem Finishing.normalize_cases {p : Plan} {hash : String}
    (h : (Schema.single (p.toInstance hash)).Finishing) (hp : p.demand.Proper)
    (hl : p.demand.Legible) (hcompiled : (Schema.single (p.toInstance hash)).Compiled) {v : Value}
    (hv : v.Tractable) :
    (∃ info, (Schema.single (p.toInstance hash)).normalize v = .error (.value info)) ∨
      ∃ w, (Schema.single (p.toInstance hash)).normalize v = p.settle hash w ∧
        w.Tractable ∧ (p.toInstance hash).Suits w := by
  obtain ⟨u, hu, htractable⟩ := h.supplied_ok hv
  obtain ⟨verdict, hverdict⟩ := h.responds.error_ok hcompiled htractable ""
  rw [normalize_toInstance, hu, ok_bind, hverdict, ok_bind]
  cases verdict with
  | some info => exact .inl ⟨info, rfl⟩
  | none =>
      have hparts : ∀ t ∈ p.demand.parts, t.Compiled := fun t ht =>
        hcompiled.parts_compiled t (by rwa [p.parts_toInstance hash])
      obtain ⟨w, hw, hwtractable, hsuits⟩ := h.transformed_ok hp hl hparts htractable hverdict
      refine .inr ⟨w, ?_, hwtractable, hsuits⟩
      dsimp only
      rw [finishes_supplied (supplied_supplied hu), hw, ok_bind]

theorem settles_single {p : Plan} {hash : String} (hp : p.demand.Proper) (hl : p.demand.Legible)
    (hcompiled : (Schema.single (p.toInstance hash)).Compiled)
    (h : (Schema.single (p.toInstance hash)).Finishing)
    (hparts : ∀ t ∈ p.demand.parts, t.Compiled ∧ t.Settles) :
    (Schema.single (p.toInstance hash)).Settles := by
  intro v hv
  rcases h.normalize_cases hp hl hcompiled hv with ⟨info, heq⟩ | ⟨w, heq, htractable, hsuits⟩
  · rw [heq]
    exact .error ⟨info, rfl⟩
  · rw [heq]
    exact settle_failsOnly htractable hsuits fun t ht => ⟨(hparts t ht).1, h.part ht, (hparts t ht).2⟩

theorem Compiled.settles {s : Schema} (h : s.Compiled) (hfinishing : s.Finishing) : s.Settles := by
  induction h with
  | single p hash proper digest parts ih =>
      exact settles_single proper.demand proper.legible (.single p hash proper digest parts)
        hfinishing fun t ht => ⟨parts t ht, ih t ht (hfinishing.part ht)⟩
  | multi members each ih =>
      intro v hv
      rw [normalize_multi, searchMembers_eq]
      refine search_failsOnly hv 0 .multi fun t ht => ?_
      obtain ⟨u, hu, rfl⟩ := List.mem_map.mp ht
      exact ⟨each u hu, (hfinishing.member hu).responds, ih u hu (hfinishing.member hu)⟩

/-- What an array schema gives, if anything, is a list. -/
theorem normalize_list {t : Instance} (h : (Schema.single t).Compiled)
    (hfinishing : (Schema.single t).Finishing) (ht : t.controller = "array") {v w : Value}
    (hv : v.Tractable) (hw : (Schema.single t).normalize v = .ok w) :
    ∃ items, w = .list items := by
  have hcompiled := h
  cases h with
  | single p hash proper digest parts =>
      obtain ⟨most, least, item, unique, hd⟩ := demand_of_array ht
      rcases hfinishing.normalize_cases proper.demand proper.legible hcompiled hv with
        ⟨info, heq⟩ | ⟨u, heq, -, hsuits⟩
      · cases hw.symm.trans heq
      · obtain ⟨items, hitems⟩ := Option.isSome_iff_exists.mp (hsuits.1 ht)
        rw [heq, settle_items hd hitems, map_eq_ok] at hw
        obtain ⟨rs, -, rfl⟩ := hw
        exact ⟨rs, rfl⟩

end Schema

section transform

def transformOptions (f : Callable) : Entries :=
  [(.str "type", .str "array"), (.str "transform", .callable f)]

def transformPlan (f : Callable) : Plan :=
  { Plan.plain (.str "array") (.array none 0 none false) none with transform := some f }

/-- A callable that makes a number of everything. -/
def five : Callable := .ruled .const (.int 5) (some "const") "fn" none

variable {f : Callable} {hash : String}

theorem compile_transform (hf : (transformPlan f).attributes.all (·.2.isDigestible) = true) :
    ∃ hash, Registry.builtin.compile (.dict (transformOptions f)) .none
      = .ok (.single ((transformPlan f).toInstance hash)) :=
  Plan.compile_of_digestible (p := transformPlan f) (transformOptions f) builtinControllers[1]
    rfl rfl rfl (fun _ => rfl) hf

theorem accepts_transform (v : Value) :
    (Schema.single ((transformPlan f).toInstance hash)).accepts v
      = (transformPlan f).accepts Schema.accepts v :=
  Schema.accepts_single (p := transformPlan f) hash trivial
    ⟨List.forall_mem_singleton.mpr rfl, nofun⟩ nofun v

/-- An empty list passes the check. -/
theorem error_transform :
    (Schema.single ((transformPlan f).toInstance hash)).error (.list []) (.str "") = .ok none := by
  rw [← Schema.accepts_eq_true, accepts_transform, Plan.accepts_eq_true]
  exact ⟨rfl, rfl, rfl⟩

theorem normalize_transform {w : Value} (hf : f.apply (.list []) = .ok w) :
    (Schema.single ((transformPlan f).toInstance hash)).normalize (.list [])
      = (transformPlan f).settle hash w := by
  have hsupplied : ((transformPlan f).toInstance hash).supplied (.list []) = .ok (.list []) :=
    supplied_of_defined rfl
  have htransformed : (transformPlan f).transformed (.list []) = .ok w := by
    show (liftM (f.apply (.list [])) : Outcome Value) = _
    rw [hf, lift_ok]
  rw [normalize_toInstance, hsupplied, ok_bind, error_transform, ok_bind]
  dsimp only
  rw [finishes_supplied hsupplied, htransformed, ok_bind]

theorem finishing_echo
    (hs : Registry.builtin.compile (.dict (transformOptions echo)) .none
      = .ok (.single ((transformPlan echo).toInstance hash))) :
    (Schema.single ((transformPlan echo).toInstance hash)).Finishing := by
  have hinside : ∀ t, (Schema.single ((transformPlan echo).toInstance hash)).Inside (.single t) →
      t = (transformPlan echo).toInstance hash :=
    fun t ht => Schema.single.inj ((transformPlan echo).eq_of_inside hash rfl ht)
  refine ⟨Schema.responds_of_compile hs ⟨rfl, rfl⟩ fun t ht f hf => ?_,
    fun t ht f hf v hv hnone => ?_, fun t ht d hd => ?_⟩
  · obtain rfl := hinside t ht
    rw [Plan.get_validator] at hf
    cases hf
  · obtain rfl := hinside t ht
    rw [Plan.get_transform] at hf
    obtain rfl : echo = f := Value.callable.inj (Except.ok.inj hf)
    rw [← Schema.accepts_eq_true, accepts_transform, Plan.accepts_eq_true] at hnone
    exact ⟨v, rfl, hv, suits_of_accepts hnone.2.2⟩
  · obtain rfl := hinside t ht
    rw [Plan.get_default] at hd
    obtain rfl := Except.ok.inj hd
    exact ⟨⟨rfl, rfl⟩, rfl⟩

end transform

end Conform
