/-
# `Proofs.Config.Steady` — configurations whose normal forms are final

What makes a schema steady can be asked of its configuration: the options of
every dictionary inside, merged as they are compiled.  There is no transform,
no choice between schemas and no list of them, an array or object has
neither an enumeration nor a validator, and items that must be unique are
not rewritten.  Every schema inside the result is then steady, because it is
compiled from one of those dictionaries.

A dictionary as it is meant here has different keys, each equal to itself;
a value that is not equal to itself is found under its identity only, which
values do not have.
-/
import Conform.Proofs.Config.Nested
import Conform.Proofs.Schema.Steady

namespace Conform

/-! ## Steady configurations -/

/-- A dictionary that compiles to a schema which only rewrites. -/
structure Entries.Steady (config : Entries) : Prop where
  transform : config.getD "transform" .none = .none
  container : config.kind? = some .array ∨ config.kind? = some .object →
    config.get? "enum" = none ∧ config.getD "validator" .none = .none
  choice : config.kind? ≠ some .oneOf
  unique : config.kind? = some .array →
    (config.getD "unique_items" (.bool false)).truthy = .ok true → config.get? "schema" = none
  unlisted : config.kind? = some .object →
    config.generic.listed? = none ∧ ∀ e ∈ config.declared, e.2.listed? = none
  keys : config.kind? = some .object → IsDictionary config.declared

namespace Value

/-- All dictionaries inside are steady, and none is one of several. -/
structure Steady (c : Value) : Prop where
  unlisted : ∀ w, c.Nested w → w.listed? = .none
  entries : ∀ config : Entries, c.Nested (.dict config) → config.Steady

theorem Steady.nested {c w : Value} (h : c.Steady) (hw : c.Nested w) : w.Steady :=
  ⟨fun u hu => h.unlisted u (hw.trans hu), fun config hu => h.entries config (hw.trans hu)⟩

/-- Two configurations that are no lists have one pair. -/
theorem pairs_of_unlisted {generic specific : Value} (hg : generic.listed? = .none)
    (hs : specific.listed? = .none) :
    generic.pairs specific = [Entries.update generic.entries specific.entries] := by
  rw [pairs, alternatives, alternatives, hg, hs]
  rfl

end Value

/-! ## What is read off a steady dictionary -/

theorem typed_reads {p : Plan} {es : Entries} (h : Options.typed es = .ok p.common) :
    Options.enumOption es = .ok (optional .tuple p.enum) ∧
      Options.callableOption es "transform" = .ok (optional .callable p.transform) ∧
      Options.callableOption es "validator" = .ok (optional .callable p.validator) := by
  simp only [Options.typed, bind_eq_ok] at h
  obtain ⟨listed, hlisted, transform, htransform, validator, hvalidator, h⟩ := h
  split at h
  · simp only [pure_eq, ok_bind, Plan.common, Except.ok.injEq, List.cons.injEq, Prod.mk.injEq,
      true_and, and_true] at h
    obtain ⟨-, rfl, -, rfl, -, rfl⟩ := h
    exact ⟨hlisted, htransform, hvalidator⟩
  · cases h

namespace Plan.ReadFrom

variable {p : Plan} {config : Entries} {required : Option Bool}

/-- An enumeration keeps what the configuration lists, without the repetitions. -/
theorem enum (h : p.ReadFrom config required) :
    p.enum = ((config.get? "enum").bind Value.listed?).map Value.dedupeStrict := by
  obtain ⟨henum, -, -⟩ := typed_reads h.common
  rw [Options.enumOption, get?_typedEntries_of_ne config (by decide)] at henum
  cases hget : config.get? "enum" with
  | none =>
      rw [hget] at henum
      exact optional_eq_none (f := Value.tuple) (fun _ => nofun) (Except.ok.inj henum).symm
  | some listed =>
      rw [hget] at henum
      rw [Option.bind_some]
      dsimp only at henum
      split at henum
      · rename_i first rest hitems
        rw [hitems]
        cases hp : p.enum with
        | none =>
            rw [hp] at henum
            cases Except.ok.inj henum
        | some kept =>
            rw [hp] at henum
            exact congrArg some (Value.tuple.inj (Except.ok.inj henum)).symm
      · cases henum

theorem callable_eq_none {name : String} {f : Option Callable} (hname : name ≠ "type")
    (hnone : config.getD name .none = .none)
    (hf : Options.callableOption (typedEntries config).1 name = .ok (optional .callable f)) :
    f = none := by
  have hget : (typedEntries config).1.getD name .none = .none := by
    rw [Entries.getD, get?_typedEntries_of_ne config hname]
    exact hnone
  rw [Options.callableOption, hget] at hf
  exact optional_eq_none Value.callable_ne_none (Except.ok.inj hf).symm

theorem steady (h : p.ReadFrom config required) (hconfig : config.Steady) : p.Steady := by
  obtain ⟨-, htransform, hvalidator⟩ := typed_reads h.common
  have hkind : ∀ k, p.demand.kind = k → config.kind? = some k := by
    rintro k rfl
    exact h.kind
  constructor
  · exact callable_eq_none (by decide) hconfig.transform htransform
  · intro hcontainer
    obtain ⟨hunset, hnone⟩ := hconfig.container (hcontainer.imp (hkind _) (hkind _))
    refine ⟨?_, callable_eq_none (by decide) hnone hvalidator⟩
    rw [h.enum, hunset]
    rfl
  · exact fun hchoice => hconfig.choice (hkind _ hchoice)
  · intro most least item hd
    have harray := hkind .array (by rw [hd]; rfl)
    obtain ⟨_, _, _, unique, heq, hunique, hitem⟩ := h.array harray
    rw [hd] at heq
    cases heq
    rcases hitem with ⟨-, hnone⟩ | ⟨t, hget, -, -⟩
    · exact hnone
    · cases (hconfig.unique harray hunique).symm.trans hget
  · cases hd : p.demand with
    | object =>
        have hobject := hkind .object (by rw [hd]; rfl)
        obtain ⟨_, _, props, _, heq, -, hprops, -⟩ := h.object hobject
        have hsame : config.declared.map Prod.fst = props.map Prod.fst :=
          map_eq_of_forall₂ hprops fun _ _ h => h.1
        rw [← hd, heq]
        exact (hconfig.keys hobject).of_keys hsame
    | _ => exact ⟨.nil, nofun⟩

/-- The parts of a steady dictionary are single schemas. -/
theorem parts_single (h : p.ReadFrom config required) (hconfig : (Value.dict config).Steady) :
    ∀ u ∈ p.demand.parts, ∃ t, u = .single t := by
  have hentries := hconfig.entries config (.refl _)
  have alone : ∀ {pairs : List Entries} {pair : Entries} {ts : List Instance}, pairs = [pair] →
      List.Forall₂ CompilesAlone pairs ts → ∃ t, Schema.collapse (ts.map .single) = .single t := by
    rintro _ pair ts rfl hts
    obtain ⟨t, ts, -, hnil, rfl⟩ := List.forall₂_cons_left_iff.mp hts
    obtain rfl := List.forall₂_nil_left_iff.mp hnil
    exact ⟨t, rfl⟩
  intro u hu
  cases h.makesPart hu with
  | items hkind hget hcompile =>
      have hlisted := hconfig.unlisted _ (.part (.items hkind hget))
      rw [compile_eq, show Value.none = mark none from rfl, compileWith_unlisted _ hlisted,
        map_eq_ok] at hcompile
      obtain ⟨t, -, rfl⟩ := hcompile
      exact ⟨t, rfl⟩
  | variant hkind => exact absurd hkind hentries.choice
  | @property e _ hkind he hts =>
      obtain ⟨hgeneric, hdeclared⟩ := hentries.unlisted hkind
      have hspecific : (Options.propertyConfig e.2).listed? = none := by
        unfold Options.propertyConfig
        split
        · rfl
        · exact hdeclared e he
      exact alone (Value.pairs_of_unlisted hgeneric hspecific) hts
  | generic hkind _ hts =>
      exact alone (Value.pairs_of_unlisted rfl (hentries.unlisted hkind).1) hts

end Plan.ReadFrom

/-! ## Normal forms of steady configurations -/

/-- What the dictionaries inside a steady configuration compile to. -/
theorem Value.Steady.schema {c : Value} {t : Instance} (hc : c.Steady) (h : c.Makes t) :
    (Schema.single t).Steady := by
  induction hn : (Schema.single t).depth using Nat.strongRecOn generalizing c t with
  | ind n ih =>
      obtain ⟨config, required, hnested, hcompile⟩ := h
      obtain ⟨p, hash, heq, hread, hhash⟩ := plan_of_compile hcompile
      obtain rfl := Schema.single.inj heq
      have hconfig := hc.nested hnested
      have hsteady := hread.steady (hconfig.entries config (.refl _))
      refine .single p hash hread.proper hhash hsteady fun u hu => ?_
      obtain ⟨t, rfl⟩ := hread.parts_single hconfig u hu
      have hmakes := makes_parts hread _ hu t (List.mem_singleton.mpr rfl)
      exact ih _ (hn ▸ Plan.depth_lt hu) hconfig hmakes rfl

/-- A normal form is accepted, and is its own normal form. -/
theorem normalize_final {c v w : Value} {s : Schema}
    (hs : Registry.builtin.compile c .none = .ok s) (hc : c.Steady) (hw : s.normalize v = .ok w) :
    s.error w (.str "") = .ok none ∧ s.normalize w = .ok w := by
  have hcompile : (compile .builtin c (mark none)).result = .ok s := hs
  rw [compile_eq, compileWith_unlisted _ (hc.unlisted c (.refl c)), map_eq_ok] at hcompile
  obtain ⟨t, -, rfl⟩ := hcompile
  have hmakes := makes_members hs t (List.mem_singleton.mpr rfl)
  obtain ⟨haccepts, hfixed⟩ := (hc.schema hmakes).fixes v w hw
  exact ⟨Schema.accepts_eq_true.mp haccepts, hfixed⟩

/-! ## An object with a default -/

section supplied

open Schema (containerOptions suppliedOptions)

variable {d : Value}

/-- Inside an object with one property are the object and the property. -/
theorem nested_container {w : Value} (h : (Value.dict (containerOptions d)).Nested w) :
    w = .dict (containerOptions d) ∨ w = .dict (suppliedOptions d) := by
  have hobject : Entries.kind? (containerOptions d) = some .object := rfl
  have htyped : Entries.kind? (suppliedOptions d) = some .typed := rfl
  induction h with
  | refl => exact .inl rfl
  | tail _ hpart ih =>
      rcases ih with rfl | rfl
      · cases hpart with
        | listed hlisted => cases hlisted
        | items hkind => cases hobject.symm.trans hkind
        | variant hkind => cases hobject.symm.trans hkind
        | property _ hget he hpair =>
            cases hget
            obtain ⟨rfl, rfl⟩ := Prod.mk.inj (List.mem_singleton.mp he)
            obtain rfl := List.mem_singleton.mp hpair
            exact .inr rfl
        | generic _ hget => cases hget
      · cases hpart with
        | listed hlisted => cases hlisted
        | items hkind => cases htyped.symm.trans hkind
        | variant hkind => cases htyped.symm.trans hkind
        | property hkind => cases htyped.symm.trans hkind
        | generic hkind => cases htyped.symm.trans hkind

theorem steady_container : (Value.dict (containerOptions d)).Steady := by
  constructor
  · intro w hw
    rcases nested_container hw with rfl | rfl <;> rfl
  · intro config hconfig
    rcases nested_container hconfig with heq | heq
    · obtain rfl := Value.dict.inj heq
      refine ⟨rfl, fun _ => ⟨rfl, rfl⟩, nofun, nofun, fun _ => ⟨rfl, ?_⟩, fun _ => ?_⟩
      · intro e he
        rw [List.mem_singleton.mp he]
        rfl
      · refine ⟨List.pairwise_singleton _ _, fun e he => ?_⟩
        rw [List.mem_singleton.mp he]
        rfl
    · obtain rfl := Value.dict.inj heq
      exact ⟨rfl, nofun, nofun, nofun, nofun, nofun⟩

theorem normalize_final_container :
    ∃ s w, Registry.builtin.compile (.dict (containerOptions (.int 1))) .none = .ok s ∧
      (Value.dict (containerOptions (.int 1))).Steady ∧ s.normalize (.dict []) = .ok w ∧
      s.error w (.str "") = .ok none ∧ s.normalize w = .ok w := by
  obtain ⟨hash, hcompiled, hproperty⟩ :=
    Schema.compile_supplied (d := .int 1) ⟨_, Value.token_ok rfl rfl⟩
  obtain ⟨hash', hs⟩ := Schema.compile_container hproperty
  have hkeeps : (Schema.single ((Schema.containerPlan (.int 1) hash).toInstance hash')).Keeps :=
    Schema.keeps_container rfl rfl
  have hagrees := (compiled_of_compile hs).agrees hkeeps (rfl : (Value.dict []).holdsUndefined = _)
  obtain ⟨w, hw⟩ :=
    hagrees.finishes (Schema.accepts_eq_true.mpr
      (Schema.container_error hash' hcompiled (List.forall_mem_nil _)))
  exact ⟨_, w, hs, steady_container, hw, normalize_final hs steady_container hw⟩

end supplied

end Conform
