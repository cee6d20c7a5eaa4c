/-
# `Proofs.Schema.Answered` — when a check has an answer

A check compares a value to bounds, reads its items and entries, and asks
validators.  Each of these is guarded: by the check of the kind before it, or by
what the build step let through.  So a check comes to an answer, an error or none,
at any depth.  What the guards do not cover are fixed numbers among the bounds,
which fail to compare, integers with too many digits, which a refusal fails to
show, and what a validator makes of a value.
-/
import Conform.Proofs.Config.Steady
import Conform.Proofs.Schema.Supplied
import Conform.Proofs.Schema.Valid

namespace Conform

namespace Value

variable {v w : Value}

/-- A value that holds no fixed number and can be written. -/
structure Tractable (v : Value) : Prop where
  unfixed : v.isUnfixed = true
  written : v.hasLiteral = true

theorem Tractable.isFixed (h : v.Tractable) : v.isFixed = false := isFixed_of_isUnfixed h.unfixed

/-- So is what a check hands on of one. -/
theorem HandsOn.tractable (h : v.HandsOn w) (hv : v.Tractable) : w.Tractable := by
  cases h with
  | self => exact hv
  | @item items _ hitems hw =>
      cases v with
      | list xs =>
          obtain rfl := Option.some.inj hitems
          exact ⟨isUnfixed_list.mp hv.unfixed w hw, hasLiteral_list.mp hv.written w hw⟩
      | tuple xs =>
          obtain rfl := Option.some.inj hitems
          exact ⟨isUnfixed_tuple.mp hv.unfixed w hw, hasLiteral_tuple.mp hv.written w hw⟩
      | tensor => cases hv.isFixed
      | _ => cases hitems
  | @entry entries e hv' he =>
      subst hv'
      exact ⟨(isUnfixed_dict.mp hv.unfixed e he).2, (hasLiteral_dict.mp hv.written e he).2⟩

/-- What a configuration that can be written passes on can be written. -/
theorem passedOn_hasLiteral : PassedOn fun v => v.hasLiteral = true where
  none := rfl
  empty := rfl
  listed := hasLiteral_listed
  entry h e he := (hasLiteral_dict.mp h e he).2
  update _ _ hes hfs := hasLiteral_dict.mpr
    (Entries.forall_update (P := fun key => key.hasLiteral = true)
      (Q := fun v => v.hasLiteral = true) (hasLiteral_dict.mp hes) (hasLiteral_dict.mp hfs))
  erase _ _ h := hasLiteral_dict.mpr fun e he => hasLiteral_dict.mp h e (List.mem_of_mem_filter he)

/-- What is not fixed can be a bound. -/
theorem bounds_of_isFixed (h : w.isFixed = false) : w.isHeld = true ∧ w.isFloating = false := by
  cases w with
  | scalar => cases h
  | _ => exact ⟨rfl, rfl⟩

end Value

/-- Attributes that hold no fixed number or array. -/
abbrev Attributes.Unfixed (attrs : Attributes) : Prop := attrs.Everywhere fun w => !w.isFixed

theorem Attributes.Unfixed.lookup {attrs : Attributes} (h : attrs.Unfixed) {name : String}
    {v : Value} (hv : attrs.lookup name = some v) : v.isUnfixed = true := by
  obtain ⟨before, after, rfl, -⟩ := List.lookup_eq_some_iff.mp hv
  exact h _ (List.mem_append_right _ List.mem_cons_self)

namespace Schema

/-- Validators that answer with something that counts as true or false, as far as
they are asked about tractable values. -/
def ValidatorsDecide (s : Schema) : Prop :=
  ∀ t, s.Inside (.single t) → ∀ f, t.get "validator" = .ok (.callable f) →
    ∀ v : Value, v.Tractable → ∃ answer b, f.apply v = .ok answer ∧ answer.truthy = .ok b

/-- Whatever a schema asks about a tractable value has an answer: validators decide,
bounds are no fixed fractions, and a refusal can show the values that are listed. -/
structure Responds (s : Schema) : Prop where
  validator : s.ValidatorsDecide
  bounds : ∀ t, s.Inside (.single t) → ∀ b ∈ t.bounds, b.isHeld = true ∧ b.isFloating = false
  listed : ∀ t, s.Inside (.single t) → ∀ items, t.get "enum" = .ok (.tuple items) →
    ∀ w ∈ items, w.hasLiteral = true

variable {s t : Schema} {v w : Value} {p : Plan} {hash : String}

theorem Responds.inside (h : s.Responds) (ht : s.Inside t) : t.Responds where
  validator u hu := h.validator u (ht.trans hu)
  bounds u hu := h.bounds u (ht.trans hu)
  listed u hu := h.listed u (ht.trans hu)

theorem Responds.validates (h : (Schema.single (p.toInstance hash)).Responds)
    (hv : v.Tractable) : ∃ b, p.validates v = .ok b :=
  Plan.validates_ok hash v fun f hf => h.validator _ .self f hf v hv

theorem answering_responds : Answering fun s v => s.Responds ∧ v.Tractable where
  fixed h := h.2.isFixed
  written h := h.2.written
  listed h := Plan.listsWritable_of_get (h.1.listed _ .self)
  validates h := h.1.validates h.2
  compares h b hb := (h.1.bounds _ .self b (Plan.bounds_toInstance _ _ hb)).imp_right .inr
  part h ht hw := ⟨h.1.inside (.part .self (by rwa [Plan.parts_toInstance])), hw.tractable h.2⟩
  member h hs := ⟨h.1.inside (.member .self hs), h.2⟩

theorem Compiled.inside (h : s.Compiled) (ht : s.Inside t) : t.Compiled := by
  induction ht with
  | self => exact h
  | part _ hu ih => exact ih.parts_compiled _ hu
  | member _ hu ih =>
      cases ih with
      | multi members each => exact each _ hu

/-- The error of a value is data, whatever leads its messages. -/
theorem Responds.error_ok (h : s.Responds) (hs : s.Compiled) (hv : v.Tractable)
    (lead : String) : ∃ r, s.error v (.str lead) = .ok r := by
  obtain ⟨b, hb⟩ := answering_responds.accepts_ok hs ⟨h, hv⟩
  rw [← hs.accepted_error v lead] at hb
  cases hr : s.error v (.str lead) with
  | ok r => exact ⟨r, rfl⟩
  | error e =>
      rw [hr] at hb
      cases hb

/-- The attributes inside hold no fixed number if the configuration holds none. -/
theorem unfixed_inside {c : Value} {u : Instance} (hs : Registry.builtin.compile c .none = .ok s)
    (hc : c.isUnfixed = true) (hu : s.Inside (.single u)) : Attributes.Unfixed u.attributes :=
  inside_everywhere Value.lenient_unfixed hs hc hu

/-- What is listed inside can be written if the configuration can. -/
theorem listed_inside {c : Value} {u : Instance} (hs : Registry.builtin.compile c .none = .ok s)
    (hc : c.hasLiteral = true) (hu : s.Inside (.single u)) {items : List Value}
    (hitems : u.get "enum" = .ok (.tuple items)) : ∀ w ∈ items, w.hasLiteral = true := by
  obtain ⟨config, required, hnested, hcompile⟩ := makes_inside hs hu u (List.mem_singleton.mpr rfl)
  obtain ⟨p, hash, heq, hread, -⟩ := plan_of_compile hcompile
  obtain rfl := Schema.single.inj heq
  have hconfig : (Value.dict config).hasLiteral = true := Value.passedOn_hasLiteral.nested hnested hc
  rw [p.get_enum, hread.enum] at hitems
  cases hget : Entries.get? config "enum" with
  | none =>
      rw [hget] at hitems
      cases hitems
  | some given =>
      have hgiven : given.hasLiteral = true := Value.passedOn_hasLiteral.get? hconfig hget
      rw [hget, Option.bind_some] at hitems
      cases hlisted : given.listed? with
      | none =>
          rw [hlisted] at hitems
          cases hitems
      | some listed =>
          rw [hlisted] at hitems
          obtain rfl := Value.tuple.inj (Except.ok.inj hitems)
          exact fun w hw => Value.hasLiteral_listed hgiven hlisted w (Value.mem_of_dedupeStrict hw)

/-- The bounds in a tractable configuration are no fixed fractions, and what it lists
can be shown. -/
theorem responds_of_compile {c : Value} (hs : Registry.builtin.compile c .none = .ok s)
    (hc : c.Tractable) (hvalidators : s.ValidatorsDecide) : s.Responds where
  validator := hvalidators
  bounds t ht b hb := by
    obtain ⟨name, -, hlookup⟩ := List.mem_filterMap.mp hb
    have hunfixed := (unfixed_inside hs hc.unfixed ht).lookup hlookup
    exact Value.bounds_of_isFixed (Value.isFixed_of_isUnfixed hunfixed)
  listed _ ht _ hitems := listed_inside hs hc.written ht hitems

end Schema

section validated

/-- A callable that answers with what it is asked about. -/
def echo : Callable := .ruled .identity .none (some "identity") "fn" none

/-- One that answers with two numbers, whatever it is asked about. -/
def pairOfNumbers : Callable := .ruled .const .twoNumbers (some "const") "fn" none

def validatedOptions (f : Callable) : Entries := [(.str "validator", .callable f)]

def validatedPlan (f : Callable) : Plan :=
  { Plan.plain (.str "typed") .typed none with validator := some f }

variable {f : Callable}

theorem compile_validated (hf : f = echo ∨ f = pairOfNumbers) :
    ∃ hash, Registry.builtin.compile (.dict (validatedOptions f)) .none
      = .ok (.single ((validatedPlan f).toInstance hash)) := by
  rcases hf with rfl | rfl <;>
    exact Plan.compile_of_digestible (p := validatedPlan _) (validatedOptions _)
      builtinControllers[0] rfl rfl rfl (absurd rfl) rfl

/-- There is one validator inside. -/
theorem validator_inside {hash : String} {t : Instance} {g : Callable}
    (ht : (Schema.single ((validatedPlan f).toInstance hash)).Inside (.single t))
    (hg : t.get "validator" = .ok (.callable g)) : g = f := by
  obtain rfl := Schema.single.inj ((validatedPlan f).eq_of_inside hash rfl ht)
  rw [Plan.get_validator] at hg
  exact (Value.callable.inj (Except.ok.inj hg)).symm

theorem validatorsDecide_echo (hash : String) :
    (Schema.single ((validatedPlan echo).toInstance hash)).ValidatorsDecide := by
  intro t ht g hg v hv
  obtain rfl := validator_inside ht hg
  obtain ⟨b, hb⟩ := Value.truthy_ok hv.isFixed
  exact ⟨v, b, rfl, hb⟩

end validated

theorem accepts_text (hash : String) (n : Int) :
    (Schema.single (textPlan.toInstance hash)).accepts (.int n)
      = refusal (Number.isWritable n) := by
  rw [Schema.accepts_single (p := textPlan) hash trivial
    ⟨List.forall_mem_singleton.mpr rfl, nofun⟩ nofun]
  rfl

end Conform
