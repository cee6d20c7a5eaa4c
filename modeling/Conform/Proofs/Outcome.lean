/-
# `Proofs.Outcome` — operations that succeed, taken apart

An operation succeeds exactly when its parts do, one after another.  The
lemmas turn the success of a sequence into an equation for each part.  A
building run comes to what the same run without its record comes to, so
`Build.result` moves through a run and leaves plain outcomes.

Where it matters how a sequence fails, `FailsOnly` says that every part of it
fails in the right way.
-/
import Mathlib.Data.List.Forall2
import Conform.Config.Build

namespace Conform

section except

variable {ε α β : Type}

@[simp] theorem bind_eq_ok {x : Except ε α} {f : α → Except ε β} {b : β} :
    x >>= f = .ok b ↔ ∃ a, x = .ok a ∧ f a = .ok b := by
  cases x with
  | error e => simp [bind, Except.bind]
  | ok a => simp [bind, Except.bind]

@[simp] theorem map_eq_ok {x : Except ε α} {f : α → β} {b : β} :
    f <$> x = .ok b ↔ ∃ a, x = .ok a ∧ f a = b := by
  cases x with
  | error e => simp [Functor.map, Except.map]
  | ok a => simp [Functor.map, Except.map]

@[simp] theorem pure_eq_ok {a b : α} : (pure a : Except ε α) = .ok b ↔ a = b :=
  Except.ok.injEq a b ▸ Iff.rfl

@[simp] theorem pure_eq {a : α} : (pure a : Except ε α) = .ok a := rfl

@[simp] theorem throw_eq {e : ε} : (throw e : Except ε α) = .error e := rfl

@[simp] theorem throw_ne_ok {e : ε} {a : α} : (throw e : Except ε α) ≠ .ok a := nofun

@[simp] theorem ok_bind {a : α} {f : α → Except ε β} : Except.ok a >>= f = f a := rfl

@[simp] theorem error_bind {e : ε} {f : α → Except ε β} : Except.error e >>= f = .error e := rfl

/-- What a test of the outcome tells. -/
theorem exists_ok {x : Except ε α} {p : α → Bool} (h : x.toOption.any p = true) :
    ∃ a, x = .ok a ∧ p a = true := by
  cases x with
  | ok a => exact ⟨a, rfl, h⟩
  | error e => cases h

theorem exists_eq_ok {x : Except ε α} (h : x.toOption.isSome = true) : ∃ a, x = .ok a := by
  cases x with
  | ok a => exact ⟨a, rfl⟩
  | error e => cases h

theorem forall₂_mem_right {R : α → β → Prop} {xs : List α} {ys : List β} {y : β}
    (h : List.Forall₂ R xs ys) (hy : y ∈ ys) : ∃ x ∈ xs, R x y := by
  induction h with
  | nil => simp at hy
  | cons hR _ ih =>
      rcases List.mem_cons.mp hy with rfl | hy
      · exact ⟨_, List.mem_cons_self, hR⟩
      · obtain ⟨x, hx, hR⟩ := ih hy
        exact ⟨x, List.mem_cons_of_mem _ hx, hR⟩

theorem forall₂_mem_left {R : α → β → Prop} {xs : List α} {ys : List β} {x : α}
    (h : List.Forall₂ R xs ys) (hx : x ∈ xs) : ∃ y ∈ ys, R x y := by
  obtain ⟨y, hy, hR⟩ := forall₂_mem_right h.flip hx
  exact ⟨y, hy, hR⟩

theorem forall₂_pairwise {R : α → β → Prop} {S : α → α → Prop} {T : β → β → Prop}
    {xs : List α} {ys : List β} (hST : ∀ x x' y y', S x x' → R x y → R x' y' → T y y')
    (h : List.Forall₂ R xs ys) (hxs : xs.Pairwise S) : ys.Pairwise T := by
  induction h with
  | nil => exact .nil
  | cons hR hrest ih =>
      obtain ⟨hhead, htail⟩ := List.pairwise_cons.mp hxs
      refine List.pairwise_cons.mpr ⟨fun y hy => ?_, ih htail⟩
      obtain ⟨x, hx, hR'⟩ := forall₂_mem_right hrest hy
      exact hST _ x _ y (hhead x hx) hR hR'

theorem forall₂_forall_iff {R : α → β → Prop} {p : α → Prop} {q : β → Prop}
    (hpq : ∀ x y, R x y → (p x ↔ q y)) {xs : List α} {ys : List β} (h : List.Forall₂ R xs ys) :
    (∀ x ∈ xs, p x) ↔ ∀ y ∈ ys, q y := by
  constructor
  · intro hp y hy
    obtain ⟨x, hx, hR⟩ := forall₂_mem_right h hy
    exact (hpq x y hR).mp (hp x hx)
  · intro hq x hx
    obtain ⟨y, hy, hR⟩ := forall₂_mem_left h hx
    exact (hpq x y hR).mpr (hq y hy)

theorem forall₂_exists_iff {R : α → β → Prop} {p : α → Prop} {q : β → Prop}
    (hpq : ∀ x y, R x y → (p x ↔ q y)) {xs : List α} {ys : List β} (h : List.Forall₂ R xs ys) :
    (∃ x ∈ xs, p x) ↔ ∃ y ∈ ys, q y := by
  constructor
  · rintro ⟨x, hx, hp⟩
    obtain ⟨y, hy, hR⟩ := forall₂_mem_left h hx
    exact ⟨y, hy, (hpq x y hR).mp hp⟩
  · rintro ⟨y, hy, hq⟩
    obtain ⟨x, hx, hR⟩ := forall₂_mem_right h hy
    exact ⟨x, hx, (hpq x y hR).mpr hq⟩

theorem forall₂_imp {R S : α → β → Prop} {xs : List α} {ys : List β}
    (h : ∀ x ∈ xs, ∀ y ∈ ys, R x y → S x y) (hR : List.Forall₂ R xs ys) :
    List.Forall₂ S xs ys := by
  induction hR with
  | nil => exact .nil
  | cons hhead _ ih =>
      refine .cons (h _ List.mem_cons_self _ List.mem_cons_self hhead) (ih ?_)
      exact fun x hx y hy => h x (List.mem_cons_of_mem _ hx) y (List.mem_cons_of_mem _ hy)

/-- What related entries agree on is the same list, read off on either side. -/
theorem map_eq_of_forall₂ {γ : Type} {R : α → β → Prop} {f : α → γ} {g : β → γ} {xs : List α}
    {ys : List β} (h : List.Forall₂ R xs ys) (hfg : ∀ x y, R x y → f x = g y) :
    xs.map f = ys.map g := by
  rw [← List.forall₂_eq_eq_eq, List.forall₂_map_left_iff, List.forall₂_map_right_iff]
  exact h.imp hfg

theorem exists_forall₂ {R : α → β → Prop} {xs : List α} (h : ∀ x ∈ xs, ∃ y, R x y) :
    ∃ ys, List.Forall₂ R xs ys := by
  induction xs with
  | nil => exact ⟨[], .nil⟩
  | cons x xs ih =>
      obtain ⟨y, hy⟩ := h x List.mem_cons_self
      obtain ⟨ys, hys⟩ := ih fun z hz => h z (List.mem_cons_of_mem _ hz)
      exact ⟨y :: ys, .cons hy hys⟩

theorem forall₂_trans {γ : Type} {R : α → β → Prop} {S : α → γ → Prop} {T : β → γ → Prop}
    {xs : List α} {ys : List β} {zs : List γ}
    (h : ∀ x, ∀ y ∈ ys, ∀ z ∈ zs, R x y → S x z → T y z) (hxy : List.Forall₂ R xs ys)
    (hxz : List.Forall₂ S xs zs) : List.Forall₂ T ys zs := by
  induction hxy generalizing zs with
  | nil =>
      cases hxz
      exact .nil
  | cons hR _ ih =>
      cases hxz with
      | cons hS hxz =>
          refine .cons (h _ _ List.mem_cons_self _ List.mem_cons_self hR hS) (ih ?_ hxz)
          exact fun x y hy z hz => h x y (List.mem_cons_of_mem _ hy) z (List.mem_cons_of_mem _ hz)

/-- A list is gone through successfully when every step succeeds. -/
theorem mapM_eq_ok {f : α → Except ε β} {xs : List α} {ys : List β} :
    xs.mapM f = .ok ys ↔ List.Forall₂ (fun x y => f x = .ok y) xs ys := by
  induction xs generalizing ys with
  | nil => cases ys <;> simp [pure, Except.pure]
  | cons x rest ih =>
      rw [List.mapM_cons]
      simp only [bind_eq_ok, pure_eq_ok, ih]
      constructor
      · rintro ⟨y, hy, ys, hys, rfl⟩
        exact .cons hy hys
      · intro h
        cases h with
        | cons hy hys => exact ⟨_, hy, _, hys, rfl⟩

/-- Two goes over a list succeed when each entry passes both steps. -/
theorem mapM_mapM_eq_ok {γ : Type} {f : α → Except ε β} {g : β → Except ε γ} {xs : List α}
    {zs : List γ} : xs.mapM f >>= (fun ys => ys.mapM g) = .ok zs ↔
      List.Forall₂ (fun x z => f x >>= g = .ok z) xs zs := by
  simp only [bind_eq_ok, mapM_eq_ok]
  induction xs generalizing zs with
  | nil => simp
  | cons x rest ih =>
      constructor
      · rintro ⟨_, _ | ⟨hy, hys⟩, _ | ⟨hz, hzs⟩⟩
        exact .cons ⟨_, hy, hz⟩ (ih.mp ⟨_, hys, hzs⟩)
      · rintro (_ | ⟨⟨y, hy, hz⟩, hrest⟩)
        obtain ⟨ys, hys, hzs⟩ := ih.mpr hrest
        exact ⟨y :: ys, .cons hy hys, .cons hz hzs⟩

theorem mapM_eq_map {f : α → Except ε β} {g : α → β} {xs : List α}
    (h : ∀ x ∈ xs, f x = .ok (g x)) : xs.mapM f = .ok (xs.map g) :=
  mapM_eq_ok.mpr (List.forall₂_map_right_iff.mpr (List.forall₂_same.mpr h))

/-! ## Failures of one sort -/

/-- If an operation fails, then in one of some ways. -/
def FailsOnly (E : ε → Prop) (x : Except ε α) : Prop := ∀ e, x = .error e → E e

namespace FailsOnly

variable {E : ε → Prop} {x : Except ε α}

theorem ok (a : α) : FailsOnly E (.ok a) := nofun

theorem error {e : ε} (he : E e) : FailsOnly E (.error e : Except ε α) :=
  fun _ h => Except.error.inj h ▸ he

/-- The second operation counts for what the first can give. -/
theorem bind {f : α → Except ε β} (hx : FailsOnly E x)
    (hf : ∀ a, x = .ok a → FailsOnly E (f a)) : FailsOnly E (x >>= f) := by
  cases x with
  | error e => exact error (hx e rfl)
  | ok a => exact hf a rfl

theorem map {f : α → β} (hx : FailsOnly E x) : FailsOnly E (f <$> x) := by
  cases x with
  | error e => exact error (hx e rfl)
  | ok a => exact ok _

theorem mapM {f : α → Except ε β} {xs : List α} (h : ∀ a ∈ xs, FailsOnly E (f a)) :
    FailsOnly E (xs.mapM f) := by
  induction xs with
  | nil => exact ok []
  | cons a rest ih =>
      rw [List.mapM_cons]
      refine (h a List.mem_cons_self).bind fun b _ => ?_
      exact (ih fun c hc => h c (List.mem_cons_of_mem _ hc)).bind fun bs _ => ok _

/-- An operation succeeds, or fails in one of the ways. -/
theorem cases (h : FailsOnly E x) : (∃ a, x = .ok a) ∨ ∃ e, x = .error e ∧ E e := by
  cases hx : x with
  | error e => exact .inr ⟨e, rfl, h e hx⟩
  | ok a => exact .inl ⟨a, rfl⟩

end FailsOnly

end except

variable {α β : Type}

@[simp] theorem lift_eq_ok {x : Except Fault α} {a : α} :
    (liftM x : Outcome α) = .ok a ↔ x = .ok a := by
  cases x with
  | error e => exact ⟨nofun, nofun⟩
  | ok b => exact ⟨fun h => congrArg _ (Except.ok.inj h), fun h => congrArg _ (Except.ok.inj h)⟩

@[simp] theorem lift_ok {a : α} : (liftM (Except.ok a : Except Fault α) : Outcome α) = .ok a := rfl

@[simp] theorem lift_error {e : Fault} :
    (liftM (Except.error e : Except Fault α) : Outcome α) = .error (.fault e) := rfl

/-- A refusal is a failure, and an acceptance is none. -/
@[simp] theorem lift_config_eq_ok {x : Except ConfigError α} {a : α} :
    (liftM x : Outcome α) = .ok a ↔ x = .ok a := by
  cases x with
  | error e => exact ⟨nofun, nofun⟩
  | ok b => exact ⟨fun h => congrArg _ (Except.ok.inj h), fun h => congrArg _ (Except.ok.inj h)⟩

@[simp] theorem lift_pure {a : α} : (liftM (pure a : Except Fault α) : Outcome α) = .ok a := rfl

@[simp] theorem lift_bind {x : Except Fault α} {f : α → Except Fault β} :
    (liftM (x >>= f) : Outcome β) = liftM x >>= fun a => liftM (f a) := by
  cases x <;> rfl

namespace Build

/-- What a run comes to. -/
def result (b : Build α) : Outcome α := b.outcome.1

@[simp] theorem result_pure {a : α} : (pure a : Build α).result = .ok a := rfl

@[simp] theorem result_bind {b : Build α} {f : α → Build β} :
    (b >>= f).result = b.result >>= fun a => (f a).result := by
  obtain ⟨⟨x, layers⟩⟩ := b
  cases x <;> rfl

@[simp] theorem result_map {b : Build α} {f : α → β} : (f <$> b).result = f <$> b.result := by
  obtain ⟨⟨x, layers⟩⟩ := b
  cases x <;> rfl

@[simp] theorem result_throw {e : Failure} : (throw e : Build α).result = .error e := rfl

@[simp] theorem result_lift {x : Outcome α} : (liftM x : Build α).result = x := rfl

@[simp] theorem result_lift_fault {x : Except Fault α} :
    (liftM x : Build α).result = liftM x := rfl

@[simp] theorem result_note {layer : Layer} : (note layer).result = .ok () := rfl

instance : LawfulMonad Build :=
  LawfulMonad.mk' Build
    (fun b => by obtain ⟨⟨x, layers⟩⟩ := b; cases x <;> simp [Functor.map])
    (fun a f => by simp [Bind.bind, pure])
    (fun b f g => by
      obtain ⟨⟨x, layers⟩⟩ := b
      cases x with
      | error e => rfl
      | ok a =>
          simp only [Bind.bind]
          obtain ⟨⟨y, more⟩⟩ := f a
          cases y <;> simp [List.append_assoc])

@[simp] theorem result_mapM {f : α → Build β} {xs : List α} :
    (xs.mapM f).result = xs.mapM fun x => (f x).result := by
  induction xs with
  | nil => rfl
  | cons x rest ih =>
      rw [List.mapM_cons, List.mapM_cons]
      simp only [result_bind, result_pure, ih]
      rfl

@[simp] theorem result_foldlM {f : β → α → Build β} {xs : List α} {b : β} :
    (xs.foldlM f b).result = xs.foldlM (fun b x => (f b x).result) b := by
  induction xs generalizing b with
  | nil => rfl
  | cons x rest ih =>
      simp only [List.foldlM_cons, result_bind]
      exact congrArg _ (funext fun _ => ih)

end Build

end Conform
