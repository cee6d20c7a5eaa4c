/-
# `Proofs.Config.Carried` — options of a reordered dictionary

`Carries R x y`: if `x` comes to something, `y` comes to something related
to it.  Each build step carries from a dictionary to a reordering of it: what
it sets from the one is a reordering of what it sets from the other.
Failures are not compared, because the first of several is a matter of
order, and because a refusal quotes what it received.

An option is looked up by its name, so the place where it stands does not
matter.  Most options have to be flags, numbers, patterns or callables, which
have no order inside; a value that has one is refused.  The configurations
of parts are handed to a factory, of which the same is assumed here.
-/
import Conform.Proofs.Config.Nested
import Conform.Proofs.Schema.Twin

namespace Conform

/-! ## One outcome carried to another -/

/-- Where the first outcome is a success, so is the second, with a related
result. -/
def Carries {α β : Type} (R : α → β → Prop) (x : Outcome α) (y : Outcome β) : Prop :=
  ∀ a, x = .ok a → ∃ b, y = .ok b ∧ R a b

namespace Carries

variable {α β γ δ : Type} {R : α → β → Prop} {S : γ → δ → Prop} {x : Outcome α} {y : Outcome β}

theorem ok {a : α} {b : β} (h : R a b) : Carries R (.ok a) (.ok b) := by
  intro c hc
  exact ⟨b, rfl, Except.ok.inj hc ▸ h⟩

theorem failed {e : Failure} : Carries R (.error e) y := nofun

theorem same (x : Outcome α) : Carries Eq x x := fun a ha => ⟨a, ha, rfl⟩

theorem imp (T : α → β → Prop) (h : Carries R x y)
    (himp : ∀ a b, x = .ok a → y = .ok b → R a b → T a b) : Carries T x y := by
  intro a ha
  obtain ⟨b, hb, hab⟩ := h a ha
  exact ⟨b, hb, himp a b ha hb hab⟩

theorem bind {f : α → Outcome γ} {g : β → Outcome δ} (h : Carries R x y)
    (hfg : ∀ a b, R a b → Carries S (f a) (g b)) : Carries S (x >>= f) (y >>= g) := by
  cases x with
  | error e => exact failed
  | ok a =>
      obtain ⟨b, rfl, hab⟩ := h a rfl
      exact hfg a b hab

theorem map {f : α → γ} {g : β → δ} (h : Carries R x y) (hfg : ∀ a b, R a b → S (f a) (g b)) :
    Carries S (f <$> x) (g <$> y) := by
  intro c hc
  obtain ⟨a, rfl, rfl⟩ := map_eq_ok.mp hc
  obtain ⟨b, rfl, hab⟩ := h a rfl
  exact ⟨g b, rfl, hfg a b hab⟩

/-- A step that is the same for both. -/
theorem bind_same {x : Outcome α} {f : α → Outcome γ} {g : α → Outcome δ}
    (h : ∀ a, Carries S (f a) (g a)) : Carries S (x >>= f) (x >>= g) :=
  (same x).bind fun a _ hab => hab ▸ h a

theorem mapM {f : α → Outcome γ} {g : β → Outcome δ} {xs : List α} {ys : List β}
    (hxs : List.Forall₂ R xs ys) (h : ∀ x y, R x y → Carries S (f x) (g y)) :
    Carries (List.Forall₂ S) (xs.mapM f) (ys.mapM g) := by
  induction hxs with
  | nil => exact ok .nil
  | cons hxy _ ih =>
      rw [List.mapM_cons, List.mapM_cons]
      refine (h _ _ hxy).bind fun c d hcd => ih.bind fun cs ds hcds => ?_
      exact ok (.cons hcd hcds)

end Carries

/-! ## What is read of a reordered value -/

namespace Value

/-- The same value, with nothing inside. -/
def SameAtom (v w : Value) : Prop := v = w ∧ v.isAtom = true

namespace Reordered

variable {R : Schema → Schema → Prop} {v w : Value}

/-- The value that is there, or one that stands in. -/
theorem getD {es fs : Entries} (h : Reordered R (.dict es) (.dict fs)) (name : String)
    {fallback : Value} (hatom : fallback.isAtom = true) :
    Reordered R (es.getD name fallback) (fs.getD name fallback) := by
  have hget := h.get? name
  unfold Entries.getD
  generalize es.get? name = x, fs.get? name = y at hget
  cases hget with
  | none => exact .atom hatom
  | some hvw => exact hvw

/-- A value with nothing inside is found again. -/
theorem get?_eq {es fs : Entries} (h : Reordered R (.dict es) (.dict fs)) {name : String}
    (hatom : ∀ v, es.get? name = some v → v.isAtom = true) : fs.get? name = es.get? name := by
  have hget := h.get? name
  generalize hx : es.get? name = x, fs.get? name = y at hget
  cases hget with
  | none => rfl
  | some hvw => rw [hvw.eq_of_atom (hatom _ hx)]

theorem truthy_eq (h : Reordered Eq v w) : v.truthy = w.truthy := by
  cases h with
  | atom _ => rfl
  | schema h => exact h ▸ rfl
  | @list zs _ | @tuple zs _ =>
      show Except.ok (!(zs.map Prod.fst).isEmpty) = Except.ok (!(zs.map Prod.snd).isEmpty)
      rw [List.isEmpty_map, List.isEmpty_map]
  | @set zs zs' horder _ | @frozenset zs zs' horder _ =>
      show Except.ok (!(zs.map Prod.fst).isEmpty) = Except.ok (!(zs'.map Prod.snd).isEmpty)
      rw [List.isEmpty_map, List.isEmpty_map, horder.isEmpty_eq]
  | @dict zs zs' _ horder _ =>
      show Except.ok (!(zs.map _).isEmpty) = Except.ok (!(zs'.map _).isEmpty)
      rw [List.isEmpty_map, List.isEmpty_map, horder.isEmpty_eq]

theorem isNone_eq (h : Reordered R v w) : v.isNone = w.isNone := by
  cases h <;> rfl

theorem isDict_eq (h : Reordered R v w) : v.isDict = w.isDict := by
  cases h <;> rfl

/-- The items keep their places. -/
theorem listed? (h : Reordered R v w) :
    Option.Rel (List.Forall₂ (Reordered R)) v.listed? w.listed? := by
  cases h with
  | list h => exact .some (forall₂_iff_pairs.mpr ⟨_, rfl, rfl, h⟩)
  | tuple h => exact .some (forall₂_iff_pairs.mpr ⟨_, rfl, rfl, h⟩)
  | @atom v h => cases v <;> first | exact .none | cases h
  | _ => exact .none

theorem all_isDict_eq {xs ys : List Value} (h : List.Forall₂ (Reordered R) xs ys) :
    xs.all isDict = ys.all isDict := by
  induction h with
  | nil => rfl
  | cons hvw _ ih => rw [List.all_cons, List.all_cons, hvw.isDict_eq, ih]

theorem isConfiguration_eq (h : Reordered R v w) : v.isConfiguration = w.isConfiguration := by
  have hlisted := h.listed?
  have hconf : ∀ {xs ys : List Value}, List.Forall₂ (Reordered R) xs ys →
      (!xs.isEmpty && xs.all isDict) = (!ys.isEmpty && ys.all isDict) := by
    intro xs ys hall
    rw [all_isDict_eq hall]
    cases hall <;> rfl
  cases h with
  | list _ | tuple _ =>
      cases hlisted with
      | some hall => exact hconf hall
  | _ => rfl

/-- What reordered configurations give, as attributes. -/
theorem kept (h : Reordered Eq v w) : v.Reordered Schema.Same w :=
  h.mono fun _ _ => .inl

end Reordered

theorem SameAtom.kept {v w : Value} (h : v.SameAtom w) : v.Reordered Schema.Same w :=
  h.1 ▸ .atom h.2

end Value

/-! ## The options of the controllers -/

namespace Options

variable {config config' : Entries}

theorem isAtom_of_isInteger {v : Value} (h : v.isInteger = true) : v.isAtom = true := by
  cases v <;> first | rfl | cases h

theorem isAtom_of_isReal {v : Value} (h : v.isReal = true) : v.isAtom = true := by
  cases v <;> first | rfl | cases h

section reading

variable (h : (Value.dict config).Reordered Eq (.dict config')) (name : String) (expects : Expectation)
include h

theorem flag_carries (fallback : Bool) :
    Carries Value.SameAtom (liftM (flag config name fallback) : Outcome Value)
      (liftM (flag config' name fallback)) := by
  have htruthy := (h.getD name (rfl : (Value.bool fallback).isAtom = true)).truthy_eq
  intro v hv
  obtain ⟨b, rfl⟩ := flag_ok (lift_eq_ok.mp hv)
  refine ⟨_, ?_, rfl, rfl⟩
  rw [← hv, flag, flag, htruthy]

/-- An option that has to be an atom is found again as it is. -/
theorem atom_carries {x y : Outcome Value} (hread : config'.get? name = config.get? name → y = x)
    (hatom : ∀ a, x = .ok a → a.isAtom = true ∧ ∀ v, config.get? name = some v → v.isAtom = true) :
    Carries Value.SameAtom x y := by
  intro a ha
  obtain ⟨hresult, hfound⟩ := hatom a ha
  exact ⟨a, (hread (h.get?_eq hfound)).trans ha, rfl, hresult⟩

/-- So is one that is an atom when it is given, or a constant. -/
theorem given_carries {x y : Outcome Value} (hread : config'.get? name = config.get? name → y = x)
    (hgiven : ∀ a, x = .ok a →
      a.isAtom = true ∧ (config.get? name = none ∨ config.get? name = some a)) :
    Carries Value.SameAtom x y := by
  refine atom_carries h name hread fun a ha => ?_
  obtain ⟨hatom, hnone | hsome⟩ := hgiven a ha
  · exact ⟨hatom, fun v hv => nomatch hnone.symm.trans hv⟩
  · exact ⟨hatom, fun v hv => Option.some.inj (hsome.symm.trans hv) ▸ hatom⟩

theorem callableOption_carries :
    Carries Value.SameAtom (callableOption config name) (callableOption config' name) := by
  refine atom_carries h name (fun hget => ?_) fun a ha => ⟨?_, fun v hv => ?_⟩
  · rw [callableOption, callableOption, Entries.getD, Entries.getD, hget]
  · obtain ⟨f, rfl⟩ := callableOption_ok ha
    cases f <;> rfl
  · rw [callableOption, Entries.getD, hv, Option.getD_some] at ha
    split at ha
    · rfl
    · rfl
    · cases ha

theorem enumOption_carries :
    Carries (Value.Reordered Schema.Same) (enumOption config) (enumOption config') := by
  have hget := h.get? "enum"
  unfold enumOption
  generalize config.get? "enum" = x, config'.get? "enum" = y at hget
  cases hget with
  | none => exact .ok (.atom rfl)
  | @some v w hvw =>
      have hlisted := hvw.listed?
      dsimp only
      generalize v.listed? = xs, w.listed? = ys at hlisted
      cases hlisted with
      | none => exact .failed
      | some hall =>
          cases hall with
          | nil => exact .failed
          | cons hhead htail =>
              have hkept := Value.Reordered.dedupeStrict (List.Forall₂.cons hhead htail)
              exact .ok (Value.Reordered.tuple_iff.mpr
                ⟨_, rfl, hkept.imp fun _ _ hvw => hvw.kept⟩)

theorem typed_carries :
    Carries (Attributes.Reordered Schema.Same) (typed config) (typed config') := by
  have hdefault := (h.getD "default" (rfl : Value.undefined.isAtom = true)).kept
  have hgiven : (config.get? "default").isSome = (config'.get? "default").isSome := by
    have hget := h.get? "default"
    generalize config.get? "default" = x, config'.get? "default" = y at hget
    cases hget <;> rfl
  unfold typed
  refine (enumOption_carries h).bind fun enum enum' henum => ?_
  refine (callableOption_carries h "transform").bind fun transform _ htransform => ?_
  refine (callableOption_carries h "validator").bind fun validator _ hvalidator => ?_
  have hget := h.get? "type"
  generalize config.get? "type" = x, config'.get? "type" = y at hget
  cases hget with
  | none => exact .failed
  | some htype =>
      refine .ok (.cons ⟨rfl, hdefault⟩ (.cons ⟨rfl, henum⟩ (.cons ⟨rfl, ?_⟩
        (.cons ⟨rfl, htransform.kept⟩ (.cons ⟨rfl, htype.kept⟩
          (.cons ⟨rfl, hvalidator.kept⟩ .nil))))))
      rw [hgiven]
      exact .atom rfl

theorem lowerBound_carries :
    Carries Value.SameAtom (lowerBound config name expects) (lowerBound config' name expects) := by
  refine given_carries h name (fun hget => by rw [lowerBound, lowerBound, hget]) fun a ha => ?_
  rcases lowerBound_cases ha with ⟨hnone, rfl⟩ | ⟨hsome, hint, -⟩
  · exact ⟨rfl, .inl hnone⟩
  · exact ⟨isAtom_of_isInteger hint, .inr hsome⟩

theorem upperBound_carries (low : Value) :
    Carries Value.SameAtom (upperBound config name expects low)
      (upperBound config' name expects low) := by
  refine given_carries h name (fun hget => by rw [upperBound, upperBound, hget]) fun a ha => ?_
  rcases upperBound_cases ha with ⟨hnone, rfl⟩ | ⟨hsome, hint, -⟩
  · exact ⟨rfl, .inl hnone⟩
  · exact ⟨isAtom_of_isInteger hint, .inr hsome⟩

theorem numberBound_carries :
    Carries Value.SameAtom (numberBound config name) (numberBound config' name) := by
  refine given_carries h name (fun hget => by rw [numberBound, numberBound, hget]) fun a ha => ?_
  rcases numberBound_cases ha with ⟨hnone, rfl⟩ | ⟨hsome, hreal⟩
  · exact ⟨rfl, .inl hnone⟩
  · exact ⟨isAtom_of_isReal hreal, .inr hsome⟩

theorem patternOption_carries :
    Carries Value.SameAtom (patternOption config) (patternOption config') := by
  refine given_carries h "pattern" (fun hget => by rw [patternOption, patternOption, hget])
    fun a ha => ?_
  rcases patternOption_cases ha with ⟨hnone, rfl⟩ | ⟨hsome, r, rfl⟩
  · exact ⟨rfl, .inl hnone⟩
  · exact ⟨rfl, .inr hsome⟩

end reading

/-- A bound as a plain integer is an atom. -/
theorem wholeBound_carries (v : Value) :
    Carries Value.SameAtom (liftM (wholeBound v) : Outcome Value) (liftM (wholeBound v)) := by
  intro a ha
  refine ⟨a, ha, rfl, ?_⟩
  have hbound := lift_eq_ok.mp ha
  unfold wholeBound at hbound
  split at hbound
  · exact Except.ok.inj hbound ▸ rfl
  · obtain ⟨n, -, hn⟩ := bind_eq_ok.mp hbound
    exact Except.ok.inj hn ▸ rfl

/-! ## Kinds without parts -/

section kinds

variable (h : (Value.dict config).Reordered Eq (.dict config'))
include h

theorem number_carries :
    Carries (Attributes.Reordered Schema.Same) (number config) (number config') := by
  unfold number
  refine (numberBound_carries h "max").bind fun high _ hhigh => ?_
  refine (numberBound_carries h "min").bind fun low _ hlow => ?_
  obtain ⟨rfl, -⟩ := id hhigh
  obtain ⟨rfl, -⟩ := id hlow
  refine .bind_same fun _ => ?_
  refine (flag_carries h "exclusive_max" false).bind fun above _ habove => ?_
  refine (flag_carries h "exclusive_min" false).bind fun below _ hbelow => ?_
  refine (flag_carries h "integer" false).bind fun whole _ hwhole => ?_
  exact .ok (.cons ⟨rfl, habove.kept⟩ (.cons ⟨rfl, hbelow.kept⟩ (.cons ⟨rfl, hwhole.kept⟩
    (.cons ⟨rfl, hhigh.kept⟩ (.cons ⟨rfl, hlow.kept⟩ .nil)))))

theorem string_carries :
    Carries (Attributes.Reordered Schema.Same) (string config) (string config') := by
  unfold string
  refine (lowerBound_carries h "min_length" _).bind fun low _ hlow => ?_
  obtain ⟨rfl, -⟩ := hlow
  refine (upperBound_carries h "max_length" _ low).bind fun high _ hhigh => ?_
  obtain ⟨rfl, -⟩ := hhigh
  refine (patternOption_carries h).bind fun pattern _ hpattern => ?_
  refine (wholeBound_carries high).bind fun most _ hmost => ?_
  refine (wholeBound_carries low).bind fun least _ hleast => ?_
  exact .ok (.cons ⟨rfl, hmost.kept⟩ (.cons ⟨rfl, hleast.kept⟩ (.cons ⟨rfl, hpattern.kept⟩ .nil)))

theorem function_carries :
    Carries (Attributes.Reordered Schema.Same) (function config) (function config') := by
  unfold function
  refine (lowerBound_carries h "min_arguments" _).bind fun low _ hlow => ?_
  obtain ⟨rfl, -⟩ := id hlow
  refine (upperBound_carries h "max_arguments" _ low).bind fun high _ hhigh => ?_
  refine (flag_carries h "named" false).bind fun named _ hnamed => ?_
  exact .ok (.cons ⟨rfl, hhigh.kept⟩ (.cons ⟨rfl, hlow.kept⟩ (.cons ⟨rfl, hnamed.kept⟩ .nil)))

end kinds

end Options

end Conform
