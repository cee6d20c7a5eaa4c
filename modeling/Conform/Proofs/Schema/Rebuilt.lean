/-
# `Proofs.Schema.Rebuilt` — the entries of a normal form

The normal form of a dictionary is built by two loops: the first goes over its
entries and keeps or drops them, the second goes over the declared properties and
fills in those that are absent.  So the result is read off in two runs, each the
image of a filtered list, and both keep the order of what they go over.

No key occurs twice.  Within a run that is so because it was so in the dictionary,
or in the one of the properties; and a property is filled in only where no key of
the dictionary equals its own, whatever the types of the two.

What is filled in belongs to no required property: a property with a default is
not required (`Schema.Exclusive`), and this holds of several alternatives as well,
where the first default counts but only all of them together require a value.
-/
import Conform.Proofs.Config.Exclusive
import Conform.Proofs.Schema.Finished
import Conform.Proofs.Schema.Located

namespace Conform

/-! ## What is kept and what is filled in -/

/-- Whether a schema has a default. -/
def Schema.offersDefault (u : Schema) : Bool :=
  match u.hasDefault with
  | .ok b => b
  | .error _ => false

theorem Schema.offersDefault_eq {u : Schema} {b : Bool} (h : u.hasDefault = .ok b) :
    u.offersDefault = b := by
  rw [offersDefault, h]

namespace Demand

/-- The entries that go on: all, or the declared ones if only they are wanted. -/
def keptEntries (properties : List (Value × Schema)) (clean : Bool) (es : Entries) : Entries :=
  es.filter fun e => !clean || (own properties e.1).isSome

/-- The declared properties that are absent and have a default. -/
def filledProperties (properties : List (Value × Schema)) (es : Entries) :
    List (Value × Schema) :=
  properties.filter fun e => !es.contains e.1 && e.2.offersDefault

/-- An entry of the normal form stands for one of the value: with the normal form
that the schema of its key gives, if there is one. -/
def Keeps (properties : List (Value × Schema)) (e r : Value × Value) : Prop :=
  r.1 = e.1 ∧ (∀ u, own properties e.1 = some u → u.normalize e.2 = .ok r.2) ∧
    (own properties e.1 = none → r.2 = e.2)

/-- An entry of the normal form stands for an absent property: with the normal form
of its default. -/
def Fills (e : Value × Schema) (r : Value × Value) : Prop :=
  r.1 = e.1 ∧ ∃ d, e.2.default = .ok d ∧ e.2.normalize d = .ok r.2

/-- The entries of the normal form of a dictionary: the kept ones, then the ones
filled in, each under a key of its own. -/
structure Rebuilds (properties : List (Value × Schema)) (clean : Bool) (es result : Entries) :
    Prop where
  keys : result.map (·.1) = (keptEntries properties clean es).map (·.1)
    ++ (filledProperties properties es).map (·.1)
  apart : result.KeysApart
  values : ∃ kept filled, result = kept ++ filled ∧
    List.Forall₂ (Keeps properties) (keptEntries properties clean es) kept ∧
    List.Forall₂ Fills (filledProperties properties es) filled
  optional : ∀ e ∈ filledProperties properties es, e.2.required = .ok false

end Demand

/-! ## The two loops -/

section loops

variable {properties : List (Value × Schema)} {clean : Bool} {given : Entries}

theorem finishEntries_kept {es kept : Entries}
    (h : Instance.finishEntries Schema.inner (Demand.entries properties) clean es = .ok kept) :
    List.Forall₂ (Demand.Keeps properties) (Demand.keptEntries properties clean es) kept := by
  induction es generalizing kept with
  | nil =>
      obtain rfl := Except.ok.inj h
      exact .nil
  | cons e rest ih =>
      rw [finishEntries_cons] at h
      rw [Demand.keptEntries, List.filter_cons]
      cases hown : Demand.own properties e.1 with
      | some t =>
          simp only [hown, bind_eq_ok, pure_eq_ok] at h
          obtain ⟨r, hr, others, hothers, rfl⟩ := h
          rw [if_pos (by simp)]
          refine .cons ⟨rfl, fun u hu => ?_, fun hno => ?_⟩ (ih hothers)
          · obtain rfl := Option.some.inj (hown.symm.trans hu)
            exact hr
          · cases hown.symm.trans hno
      | none =>
          simp only [hown, bind_eq_ok, pure_eq_ok] at h
          obtain ⟨others, hothers, rfl⟩ := h
          have hkeeps : Demand.Keeps properties e e :=
            ⟨rfl, fun u hu => (Option.some_ne_none u (hu.symm.trans hown)).elim, fun _ => rfl⟩
          cases clean with
          | true => exact ih hothers
          | false => exact .cons hkeeps (ih hothers)

theorem fillEntries_filled :
    ∀ {properties : List (Value × Schema)} {filled : Entries},
      (∀ e ∈ properties, e.2.Compiled) →
      Instance.fillEntries Schema.inner given (Demand.entries properties) = .ok filled →
      List.Forall₂ Demand.Fills (Demand.filledProperties properties given) filled
  | [], filled, _, h => by
      obtain rfl := Except.ok.inj h
      exact .nil
  | e :: rest, filled, hcompiled, h => by
      obtain ⟨hcompiled, hrest⟩ := List.forall_mem_cons.mp hcompiled
      obtain ⟨b, d, hb, hgetb, hd, hgetd⟩ := hcompiled.default_ok
      have hoffers := Schema.offersDefault_eq hb
      rw [fillEntries_cons] at h
      rw [Demand.filledProperties, List.filter_cons, hoffers]
      cases hcontains : given.contains e.1 with
      | true =>
          rw [hcontains, if_pos rfl] at h
          exact fillEntries_filled hrest h
      | false =>
          rw [hcontains, if_neg Bool.false_ne_true] at h
          simp only [hgetb, hgetd, lift_ok, ok_bind, truthy_bool] at h
          cases b with
          | false => exact fillEntries_filled hrest h
          | true =>
              simp only [if_true, bind_eq_ok, pure_eq_ok, lift_eq_ok] at h
              obtain ⟨d', hd', r, hr, others, hothers, rfl⟩ := h
              obtain rfl := Value.eq_of_freshDefault hd'
              exact .cons ⟨rfl, d', hd, hr⟩ (fillEntries_filled hrest hothers)

/-- The keys of two runs over dictionaries, where the second adds only keys that the
first dictionary lacks. -/
theorem rebuilt_apart {kept filled : Entries} (hproperties : (Demand.entries properties).KeysApart)
    (hgiven : given.KeysApart)
    (hkept : kept.map (·.1) = (Demand.keptEntries properties clean given).map (·.1))
    (hfilled : filled.map (·.1) = (Demand.filledProperties properties given).map (·.1)) :
    Entries.KeysApart (kept ++ filled) := by
  have hdeclared : (properties.map (·.1)).Pairwise fun k l => Value.sameKey k l = false := by
    rwa [Entries.KeysApart, Demand.entries, List.map_map] at hproperties
  rw [Entries.KeysApart, List.map_append, hkept, hfilled]
  refine List.pairwise_append.mpr
    ⟨hgiven.sublist (List.filter_sublist.map _), hdeclared.sublist (List.filter_sublist.map _), ?_⟩
  intro k hk l hl
  obtain ⟨e, he, rfl⟩ := List.mem_map.mp hk
  obtain ⟨f, hf, rfl⟩ := List.mem_map.mp hl
  have habsent : given.find? f.1 = none := by
    have hcontains := (Bool.and_eq_true_iff.mp (List.mem_filter.mp hf).2).1
    rw [Bool.not_eq_true'] at hcontains
    exact Option.isNone_iff_eq_none.mp (Option.isSome_eq_false_iff.mp hcontains)
  exact Entries.find?_eq_none_iff.mp habsent e (List.mem_filter.mp he).1

theorem rebuilds {kept filled : Entries} (hcompiled : ∀ e ∈ properties, e.2.Compiled)
    (hexclusive : ∀ e ∈ properties, e.2.Exclusive)
    (hproperties : (Demand.entries properties).KeysApart) (hgiven : given.KeysApart)
    (hkept : Instance.finishEntries Schema.inner (Demand.entries properties)
      (!given.isEmpty && clean) given = .ok kept)
    (hfilled : Instance.fillEntries Schema.inner given (Demand.entries properties) = .ok filled) :
    Demand.Rebuilds properties clean given (kept ++ filled) := by
  -- an empty dictionary is not cleaned, but has nothing to keep either
  have hclean : Demand.keptEntries properties (!given.isEmpty && clean) given
      = Demand.keptEntries properties clean given := by
    cases given <;> rfl
  have hkept := finishEntries_kept hkept
  rw [hclean] at hkept
  have hfilled := fillEntries_filled hcompiled hfilled
  have hkeys : kept.map (·.1) = (Demand.keptEntries properties clean given).map (·.1) :=
    map_eq_of_forall₂ hkept.flip fun _ _ h => h.1
  have hkeys' : filled.map (·.1) = (Demand.filledProperties properties given).map (·.1) :=
    map_eq_of_forall₂ hfilled.flip fun _ _ h => h.1
  refine ⟨by rw [List.map_append, hkeys, hkeys'], rebuilt_apart hproperties hgiven hkeys hkeys',
    ⟨kept, filled, rfl, hkept, hfilled⟩, fun e he => ?_⟩
  obtain ⟨hmem, hfills⟩ := List.mem_filter.mp he
  obtain ⟨r, d, hr, hd, hboth⟩ := hexclusive e hmem
  have hoffers := (Bool.and_eq_true_iff.mp hfills).2
  rw [Schema.offersDefault_eq hd] at hoffers
  cases r with
  | false => exact hr
  | true => exact absurd ⟨rfl, hoffers⟩ hboth

end loops

/-! ## Objects -/

/-- The declared properties of an object that was read are those of its
configuration, in the same order. -/
theorem Plan.ReadFrom.declared {p : Plan} {config : Entries} {required : Option Bool}
    {allowNull clean : Bool} {properties : List (Value × Schema)} {generic : Option Schema}
    (h : p.ReadFrom config required)
    (hd : p.demand = .object allowNull clean properties generic) :
    properties.map (·.1) = config.declared.map (·.1) := by
  have hkind : config.kind? = some .object := by rw [h.kind, hd]; rfl
  obtain ⟨_, _, props, _, heq, -, hprops, -⟩ := h.object hkind
  rw [hd] at heq
  cases heq
  exact map_eq_of_forall₂ hprops.flip fun _ _ h => h.1.symm

end Conform
