/-
# `Proofs.Value.Key` — equality of keys is a partial equivalence

Keys of dictionaries, elements of sets and aliases of controllers are found
by `sameKey`.  Everything said about stores rests on two facts about it: it
is symmetric and it is transitive.  It is not reflexive: a value that is not
a number, and a callable without an identity of its own, is equal to no
other occurrence.

Values without parts are equal when they denote the same, which is an
equality; constants of code, tuples and sets follow by induction over the
first value.
-/
import Mathlib.Data.List.Pairwise
import Mathlib.Order.Defs.LinearOrder
import Conform.Value.Equality

namespace Conform

theorem Binary64.unitsPerOne_pos : 0 < Binary64.unitsPerOne := by
  simp only [Binary64.unitsPerOne, Nat.one_shiftLeft]
  exact Nat.two_pow_pos 1074

/-- Two amounts are equal in the order of numbers exactly when they are
worth the same. -/
theorem Amount.compare?_eq_iff {a b : Amount} :
    a.compare? b = some .eq ↔ a.worth?.isSome ∧ a.worth? = b.worth? := by
  have scale : ∀ m n : Int,
      m * (Binary64.unitsPerOne : Int) = n * (Binary64.unitsPerOne : Int) ↔ m = n := by
    intro m n
    have := Binary64.unitsPerOne_pos
    exact ⟨Int.eq_of_mul_eq_mul_right (by omega), fun h => by rw [h]⟩
  have swapped : ∀ o : Ordering, o.swap = .eq ↔ o = .eq := by decide
  have ends : ∀ s t : Bool, compare t.toNat s.toNat = .eq ↔ s = t := by decide
  cases a with
  | int m =>
      cases b with
      | int n => simp [compare?, worth?, scale]
      | float y =>
          cases y with
          | nan => simp [compare?, worth?, Binary64.compareInt?]
          | infinite s => cases s <;> simp [compare?, worth?, Binary64.compareInt?]
          | finite s n =>
              simp [compare?, worth?, Binary64.compareInt?, Binary64.signedUnits?, swapped,
                @eq_comm Int _ (m * _)]
  | float x =>
      cases b with
      | int n =>
          cases x with
          | nan => simp [compare?, worth?, Binary64.compareInt?]
          | infinite s => cases s <;> simp [compare?, worth?, Binary64.compareInt?]
          | finite s m =>
              simp [compare?, worth?, Binary64.compareInt?, Binary64.signedUnits?]
      | float y =>
          cases x with
          | nan => simp [compare?, worth?, Binary64.compare?]
          | infinite s =>
              cases y with
              | nan => simp [compare?, worth?, Binary64.compare?]
              | infinite t => simp [compare?, worth?, Binary64.compare?, ends]
              | finite t n => cases s <;> simp [compare?, worth?, Binary64.compare?]
          | finite s m =>
              cases y with
              | nan => simp [compare?, worth?, Binary64.compare?]
              | infinite t => cases t <;> simp [compare?, worth?, Binary64.compare?]
              | finite t n =>
                  simp [compare?, worth?, Binary64.compare?, Binary64.signedUnits?]

namespace Value

/-! ## Constants of code -/

theorem constantsWithin_iff {ys : List Value} :
    ∀ {xs : List Value},
      constantsWithin xs ys = true ↔ ∀ x ∈ xs, ∃ y ∈ ys, sameConstant x y = true
  | [] => by simp [constantsWithin]
  | x :: rest => by simp [constantsWithin, @constantsWithin_iff ys rest]

theorem constantsInclude_iff {y : Value} :
    ∀ {xs : List Value}, constantsInclude xs y = true ↔ ∃ x ∈ xs, sameConstant x y = true
  | [] => by simp [constantsInclude]
  | x :: rest => by simp [constantsInclude, @constantsInclude_iff y rest]

theorem sameConstant_frozenset {xs ys : List Value} :
    sameConstant (.frozenset xs) (.frozenset ys) = true ↔
      (∀ x ∈ xs, ∃ y ∈ ys, sameConstant x y = true) ∧
        ∀ y ∈ ys, ∃ x ∈ xs, sameConstant x y = true := by
  simp [sameConstant, constantsWithin_iff, constantsInclude_iff]

theorem eq_of_identical {a b : Value} (h : identical a b = true) : a = b := by
  unfold identical at h
  split at h <;> simp_all

theorem sameConstant_symm_of_identical {a b : Value} (h : identical a b = true) :
    sameConstant b a = true := by
  obtain rfl := eq_of_identical h
  unfold identical at h
  split at h <;> simp_all [sameConstant, identical]

theorem sameConstant_trans_of_identical {a b c : Value} (hab : identical a b = true)
    (hbc : sameConstant b c = true) : sameConstant a c = true := by
  rwa [eq_of_identical hab]

mutual

theorem sameConstant_symm :
    ∀ (a : Value) {b : Value}, sameConstant a b = true → sameConstant b a = true := by
  intro a b h
  cases a with
  | tuple xs =>
      cases b with
      | tuple ys =>
          simp only [sameConstant] at h ⊢
          exact sameConstants_symm xs h
      | _ => simp [sameConstant] at h
  | frozenset xs =>
      cases b with
      | frozenset ys =>
          obtain ⟨hxy, hyx⟩ := sameConstant_frozenset.mp h
          refine sameConstant_frozenset.mpr ⟨fun y hy => ?_, fun x hx => ?_⟩
          · obtain ⟨x, hx, hs⟩ := hyx y hy
            exact ⟨x, hx, sameConstant_symm_mem xs x hx hs⟩
          · obtain ⟨y, hy, hs⟩ := hxy x hx
            exact ⟨y, hy, sameConstant_symm_mem xs x hx hs⟩
      | _ => simp [sameConstant] at h
  | code c =>
      obtain ⟨instructions, names, locals, constants⟩ := c
      cases b with
      | code d =>
          obtain ⟨instructions', names', locals', constants'⟩ := d
          simp only [sameConstant, Bool.and_eq_true, beq_iff_eq] at h ⊢
          obtain ⟨⟨⟨hi, hn⟩, hl⟩, hc⟩ := h
          exact ⟨⟨⟨hi.symm, hn.symm⟩, hl.symm⟩, sameConstants_symm constants hc⟩
      | _ => simp [sameConstant] at h
  | float x =>
      cases b with
      | float y =>
          simp only [sameConstant, Bool.and_eq_true, beq_iff_eq] at h ⊢
          obtain ⟨rfl, hx⟩ := h
          exact ⟨rfl, hx⟩
      | _ => simp [sameConstant] at h
  | int | str | bytes => cases b <;> simp_all [sameConstant]
  | _ => exact sameConstant_symm_of_identical h
termination_by structural a => a

theorem sameConstants_symm :
    ∀ (xs : List Value) {ys : List Value}, sameConstants xs ys = true → sameConstants ys xs = true
  | [], [], h => h
  | x :: xs, y :: ys, h => by
      simp only [sameConstants, Bool.and_eq_true] at h ⊢
      exact ⟨sameConstant_symm x h.1, sameConstants_symm xs h.2⟩
termination_by structural xs => xs

theorem sameConstant_symm_mem :
    ∀ (xs : List Value), ∀ x ∈ xs, ∀ {b : Value},
      sameConstant x b = true → sameConstant b x = true
  | x :: xs, w, hw, b, h => by
      cases hw with
      | head => exact sameConstant_symm x h
      | tail _ hw' => exact sameConstant_symm_mem xs w hw' h
termination_by structural xs => xs

end

mutual

theorem sameConstant_trans :
    ∀ (a : Value) {b c : Value},
      sameConstant a b = true → sameConstant b c = true → sameConstant a c = true := by
  intro a b c hab hbc
  cases a with
  | tuple xs =>
      cases b with
      | tuple ys =>
          cases c with
          | tuple zs =>
              simp only [sameConstant] at hab hbc ⊢
              exact sameConstants_trans xs hab hbc
          | _ => simp [sameConstant] at hbc
      | _ => simp [sameConstant] at hab
  | frozenset xs =>
      cases b with
      | frozenset ys =>
          cases c with
          | frozenset zs =>
              obtain ⟨hxy, hyx⟩ := sameConstant_frozenset.mp hab
              obtain ⟨hyz, hzy⟩ := sameConstant_frozenset.mp hbc
              refine sameConstant_frozenset.mpr ⟨fun x hx => ?_, fun z hz => ?_⟩
              · obtain ⟨y, hy, hs⟩ := hxy x hx
                obtain ⟨z, hz, ht⟩ := hyz y hy
                exact ⟨z, hz, sameConstant_trans_mem xs x hx hs ht⟩
              · obtain ⟨y, hy, ht⟩ := hzy z hz
                obtain ⟨x, hx, hs⟩ := hyx y hy
                exact ⟨x, hx, sameConstant_trans_mem xs x hx hs ht⟩
          | _ => simp [sameConstant] at hbc
      | _ => simp [sameConstant] at hab
  | code c' =>
      obtain ⟨instructions, names, locals, constants⟩ := c'
      cases b with
      | code d =>
          obtain ⟨instructions', names', locals', constants'⟩ := d
          cases c with
          | code e =>
              simp only [sameConstant, Bool.and_eq_true, beq_iff_eq] at hab hbc ⊢
              obtain ⟨⟨⟨hi, hn⟩, hl⟩, hc⟩ := hab
              obtain ⟨⟨⟨hi', hn'⟩, hl'⟩, hc'⟩ := hbc
              exact ⟨⟨⟨hi.trans hi', hn.trans hn'⟩, hl.trans hl'⟩,
                sameConstants_trans constants hc hc'⟩
          | _ => simp [sameConstant] at hbc
      | _ => simp [sameConstant] at hab
  | int | float | str | bytes => cases b <;> simp_all [sameConstant]
  | _ => exact sameConstant_trans_of_identical (b := b) hab hbc
termination_by structural a => a

theorem sameConstants_trans :
    ∀ (xs : List Value) {ys zs : List Value},
      sameConstants xs ys = true → sameConstants ys zs = true → sameConstants xs zs = true
  | [], [], [], _, h => h
  | x :: xs, y :: ys, z :: zs, h, h' => by
      simp only [sameConstants, Bool.and_eq_true] at h h' ⊢
      exact ⟨sameConstant_trans x h.1 h'.1, sameConstants_trans xs h.2 h'.2⟩
termination_by structural xs => xs

theorem sameConstant_trans_mem :
    ∀ (xs : List Value), ∀ x ∈ xs, ∀ {b c : Value},
      sameConstant x b = true → sameConstant b c = true → sameConstant x c = true
  | x :: xs, w, hw, b, c, h, h' => by
      cases hw with
      | head => exact sameConstant_trans x h h'
      | tail _ hw' => exact sameConstant_trans_mem xs w hw' h h'
termination_by structural xs => xs

end

/-! ## Keys -/

theorem within_iff {ys : List Value} :
    ∀ {xs : List Value}, within xs ys = true ↔ ∀ x ∈ xs, ∃ y ∈ ys, sameKey x y = true
  | [] => by simp [within]
  | x :: rest => by simp [within, @within_iff ys rest]

theorem includes_iff {y : Value} :
    ∀ {xs : List Value}, includes xs y = true ↔ ∃ x ∈ xs, sameKey x y = true
  | [] => by simp [includes]
  | x :: rest => by simp [includes, @includes_iff y rest]

/-- Sets are equal when each element of one is an element of the other. -/
theorem sameKey_elements {a b : Value} {xs : List Value} (h : a.elements? = some xs) :
    sameKey a b = true ↔ ∃ ys, b.elements? = some ys ∧
      (∀ x ∈ xs, ∃ y ∈ ys, sameKey x y = true) ∧ ∀ y ∈ ys, ∃ x ∈ xs, sameKey x y = true := by
  cases a <;> simp [elements?] at h
  all_goals
    subst h
    cases hb : b.elements? <;> simp [sameKey, hb, within_iff, includes_iff]

theorem sameKey_str {s t : String} : sameKey (.str s) (.str t) = true ↔ s = t := by
  show (true && (some (Denoted.text s) == some (.text t))) = true ↔ _
  simp

theorem sameKey_str_ne {s t : String} (h : s ≠ t) : sameKey (.str s) (.str t) = false :=
  Bool.eq_false_iff.mpr fun hsame => h (sameKey_str.mp hsame)

@[simp] theorem denoted?_code (c : Code) : (Value.code c).denoted? = .none := rfl

theorem atomEqual_symm {a b : Value} (h : atomEqual a b = true) : atomEqual b a = true := by
  unfold atomEqual at h ⊢
  split at h
  · exact sameConstant_symm _ h
  · simp only [Bool.and_eq_true, beq_iff_eq] at h
    split
    · simp at h
    · simp [← h.2, h.1]

theorem denoted?_of_atomEqual {a b : Value} (h : atomEqual a b = true) :
    (∃ c d, a = .code c ∧ b = .code d ∧ sameConstant a b = true) ∨
      a.denoted?.isSome ∧ a.denoted? = b.denoted? := by
  unfold atomEqual at h
  split at h
  · exact .inl ⟨_, _, rfl, rfl, h⟩
  · exact .inr (by simpa using h)

/-- Values that are compared without regard to parts are no sequences and no
sets. -/
theorem sameKey_of_atomEqual {a b : Value} (h : atomEqual a b = true) : sameKey a b = true := by
  cases a with
  | tuple | set | frozenset => simp [atomEqual, denoted?, amount?, text?] at h
  | _ => exact h

theorem atomEqual_trans {a b c : Value} (hab : atomEqual a b = true)
    (hbc : atomEqual b c = true) : atomEqual a c = true := by
  rcases denoted?_of_atomEqual hab with ⟨x, y, rfl, rfl, hxy⟩ | ⟨ha, heq⟩
  · rcases denoted?_of_atomEqual hbc with ⟨y', z, hy, rfl, hyz⟩ | ⟨hb, -⟩
    · exact sameConstant_trans _ hxy hyz
    · simp at hb
  · rcases denoted?_of_atomEqual hbc with ⟨y, z, rfl, rfl, -⟩ | ⟨hb, heq'⟩
    · simp [heq] at ha
    · unfold atomEqual
      split
      · simp at ha
      · simp [heq, heq', heq' ▸ hb]

/-- Nor is what such a value equals. -/
theorem sameKey_trans_of_atomEqual {a b c : Value} (hab : atomEqual a b = true)
    (hbc : sameKey b c = true) : sameKey a c = true := by
  have hba := atomEqual_symm hab
  have hbc' : atomEqual b c = true := by
    cases b with
    | tuple | set | frozenset => simp [atomEqual, denoted?, amount?, text?] at hba
    | _ => exact hbc
  exact sameKey_of_atomEqual (atomEqual_trans hab hbc')

mutual

theorem sameKey_symm : ∀ (a : Value) {b : Value}, sameKey a b = true → sameKey b a = true := by
  intro a b h
  cases a with
  | tuple xs =>
      cases b with
      | tuple ys =>
          simp only [sameKey] at h ⊢
          exact sameKeys_symm xs h
      | _ => simp [sameKey] at h
  | set xs | frozenset xs =>
      obtain ⟨ys, hb, hxy, hyx⟩ := (sameKey_elements rfl).mp h
      refine (sameKey_elements hb).mpr ⟨xs, rfl, fun y hy => ?_, fun x hx => ?_⟩
      · obtain ⟨x, hx, hs⟩ := hyx y hy
        exact ⟨x, hx, sameKey_symm_mem xs x hx hs⟩
      · obtain ⟨y, hy, hs⟩ := hxy x hx
        exact ⟨y, hy, sameKey_symm_mem xs x hx hs⟩
  | _ => exact sameKey_of_atomEqual (atomEqual_symm h)
termination_by structural a => a

theorem sameKeys_symm :
    ∀ (xs : List Value) {ys : List Value}, sameKeys xs ys = true → sameKeys ys xs = true
  | [], [], h => h
  | x :: xs, y :: ys, h => by
      simp only [sameKeys, Bool.and_eq_true] at h ⊢
      exact ⟨sameKey_symm x h.1, sameKeys_symm xs h.2⟩
termination_by structural xs => xs

theorem sameKey_symm_mem :
    ∀ (xs : List Value), ∀ x ∈ xs, ∀ {b : Value}, sameKey x b = true → sameKey b x = true
  | x :: xs, w, hw, b, h => by
      cases hw with
      | head => exact sameKey_symm x h
      | tail _ hw' => exact sameKey_symm_mem xs w hw' h
termination_by structural xs => xs

end

mutual

theorem sameKey_trans :
    ∀ (a : Value) {b c : Value},
      sameKey a b = true → sameKey b c = true → sameKey a c = true := by
  intro a b c hab hbc
  cases a with
  | tuple xs =>
      cases b with
      | tuple ys =>
          cases c with
          | tuple zs =>
              simp only [sameKey] at hab hbc ⊢
              exact sameKeys_trans xs hab hbc
          | _ => simp [sameKey] at hbc
      | _ => simp [sameKey] at hab
  | set xs | frozenset xs =>
      obtain ⟨ys, hb, hxy, hyx⟩ := (sameKey_elements rfl).mp hab
      obtain ⟨zs, hc, hyz, hzy⟩ := (sameKey_elements hb).mp hbc
      refine (sameKey_elements rfl).mpr ⟨zs, hc, fun x hx => ?_, fun z hz => ?_⟩
      · obtain ⟨y, hy, hs⟩ := hxy x hx
        obtain ⟨z, hz, ht⟩ := hyz y hy
        exact ⟨z, hz, sameKey_trans_mem xs x hx hs ht⟩
      · obtain ⟨y, hy, ht⟩ := hzy z hz
        obtain ⟨x, hx, hs⟩ := hyx y hy
        exact ⟨x, hx, sameKey_trans_mem xs x hx hs ht⟩
  | _ => exact sameKey_trans_of_atomEqual (b := b) hab hbc
termination_by structural a => a

theorem sameKeys_trans :
    ∀ (xs : List Value) {ys zs : List Value},
      sameKeys xs ys = true → sameKeys ys zs = true → sameKeys xs zs = true
  | [], [], [], _, h => h
  | x :: xs, y :: ys, z :: zs, h, h' => by
      simp only [sameKeys, Bool.and_eq_true] at h h' ⊢
      exact ⟨sameKey_trans x h.1 h'.1, sameKeys_trans xs h.2 h'.2⟩
termination_by structural xs => xs

theorem sameKey_trans_mem :
    ∀ (xs : List Value), ∀ x ∈ xs, ∀ {b c : Value},
      sameKey x b = true → sameKey b c = true → sameKey x c = true
  | x :: xs, w, hw, b, c, h, h' => by
      cases hw with
      | head => exact sameKey_trans x h h'
      | tail _ hw' => exact sameKey_trans_mem xs w hw' h h'
termination_by structural xs => xs

end

/-- A key that equals anything equals itself. -/
theorem sameKey_self {a b : Value} (h : sameKey a b = true) : sameKey a a = true :=
  sameKey_trans a h (sameKey_symm a h)

theorem sameKey_comm (a b : Value) : sameKey a b = sameKey b a :=
  Bool.eq_iff_iff.mpr ⟨sameKey_symm a, sameKey_symm b⟩

theorem sameKey_congr {a b : Value} (h : sameKey a b = true) (c : Value) :
    sameKey a c = sameKey b c :=
  Bool.eq_iff_iff.mpr ⟨sameKey_trans b (sameKey_symm a h), sameKey_trans a h⟩

/-- Where no two keys are equal, an entry is found under every key that equals
its own. -/
theorem find?_eq_of_apart {β : Type} {entries : List (Value × β)}
    (h : entries.Pairwise fun e f => sameKey e.1 f.1 = false) {e : Value × β} (he : e ∈ entries)
    {key : Value} (hkey : sameKey e.1 key = true) :
    entries.find? (fun e => sameKey e.1 key) = some e := by
  obtain ⟨f, hf⟩ := Option.isSome_iff_exists.mp
    (List.find?_isSome.mpr ⟨e, he, hkey⟩ : (entries.find? fun e => sameKey e.1 key).isSome)
  have hfkey : sameKey f.1 key = true := by simpa using List.find?_some hf
  have hsymm : Std.Symm fun e f : Value × β => sameKey e.1 f.1 = false :=
    ⟨fun e f hef => (sameKey_comm f.1 e.1).trans hef⟩
  by_cases heq : f = e
  · rw [hf, heq]
  · have hapart : sameKey f.1 e.1 = false := h.forall (List.mem_of_find?_eq_some hf) he heq
    rw [sameKey_trans f.1 hfkey (sameKey_symm e.1 hkey)] at hapart
    cases hapart

end Value

end Conform
