/-
# `Proofs.Value.Equivalence` — equality of unfixed values is a partial equivalence

A number of fixed representation meets its counterpart in a common format,
and the format depends on the counterpart, so equality does not carry over
from one pair of such values to the next.  Among unfixed values it does:
lists, tuples and dictionaries are compared part by part, and what is none of
these is compared as a key.
-/
import Conform.Proofs.Value.Indifferent
import Conform.Proofs.Value.Ordinary
import Conform.Proofs.Value.Everywhere

namespace Conform.Value

/-! ## Parts -/

mutual

/-- The parts of a value are among what it holds. -/
theorem everyPart_of_everywhere {p : Value → Bool} :
    ∀ (v : Value), v.everywhere p = true → v.everyPart p = true := by
  intro v h
  cases v with
  | list items =>
      obtain ⟨hv, hitems⟩ := everywhere_list.mp h
      exact everyPart_list.mpr ⟨hv, everyPart_of_everywhere_item items hitems⟩
  | tuple items =>
      obtain ⟨hv, hitems⟩ := everywhere_tuple.mp h
      exact everyPart_tuple.mpr ⟨hv, everyPart_of_everywhere_item items hitems⟩
  | dict entries =>
      obtain ⟨hv, hentries⟩ := everywhere_dict.mp h
      rw [everyPart, hv, Bool.true_and]
      exact entryParts_of_everywhere entries hentries
  | _ => exact (Bool.and_true _).trans (of_everywhere h)
termination_by structural v => v

theorem everyPart_of_everywhere_item {p : Value → Bool} :
    ∀ (items : List Value), (∀ v ∈ items, v.everywhere p = true) →
      ∀ v ∈ items, v.everyPart p = true
  | w :: rest, h, v, hv => by
      rw [List.forall_mem_cons] at h
      cases hv with
      | head => exact everyPart_of_everywhere w h.1
      | tail _ hv' => exact everyPart_of_everywhere_item rest h.2 v hv'
termination_by structural items => items

theorem entryParts_of_everywhere {p : Value → Bool} :
    ∀ (es : List (Value × Value)), Entries.Everywhere p es → entryParts p es = true
  | [], _ => rfl
  | (key, v) :: rest, h => by
      obtain ⟨⟨hkey, hv⟩, hrest⟩ := List.forall_mem_cons.mp h
      rw [entryParts, everyPart_of_everywhere key hkey, everyPart_of_everywhere v hv,
        entryParts_of_everywhere rest hrest]
      rfl
termination_by structural es => es

end

/-! ## Shapes -/

/-- Whether a value is compared as a whole: it is no list, tuple or
dictionary. -/
def isWhole : Value → Bool
  | .list _ | .tuple _ | .dict _ => false
  | _ => true

variable {a b c : Value}

theorem equal_of_isWhole (hwhole : a.isWhole = true) : equal a b = plainEqual a b := by
  cases a with
  | list | tuple | dict => exact absurd hwhole Bool.false_ne_true
  | _ => rfl

/-- What is compared as a whole equals nothing else. -/
theorem isWhole_of_sameKey (hwhole : a.isWhole = true) (h : sameKey a b = true) :
    b.isWhole = true := by
  have hsymm := sameKey_symm a h
  cases b with
  | list | dict => exact absurd hsymm Bool.false_ne_true
  | tuple ys =>
      cases a with
      | tuple => exact hwhole
      | _ => exact absurd hsymm Bool.false_ne_true
  | _ => rfl

theorem equal_whole_iff (ha : a.isUnfixed = true) (hb : b.isUnfixed = true)
    (hwhole : a.isWhole = true) : equal a b = true ↔ b.isWhole = true ∧ sameKey a b = true := by
  rw [equal_of_isWhole hwhole,
    plainEqual_eq_sameKey (isFixed_of_isUnfixed ha) (isFixed_of_isUnfixed hb)]
  exact ⟨fun h => ⟨isWhole_of_sameKey hwhole h, h⟩, And.right⟩

/-- What is compared plainly and is no equal key is not equal. -/
theorem not_equal_of_shape (ha : a.isUnfixed = true) (hb : b.isUnfixed = true)
    (hplain : equal a b = plainEqual a b) (hkey : sameKey a b = false) : ¬ equal a b = true := by
  rw [hplain, plainEqual_eq_sameKey (isFixed_of_isUnfixed ha) (isFixed_of_isUnfixed hb), hkey]
  exact Bool.false_ne_true

theorem equal_list_iff {xs : List Value} (ha : (Value.list xs).isUnfixed = true)
    (hb : b.isUnfixed = true) :
    equal (.list xs) b = true ↔ ∃ ys, b = .list ys ∧ equalAll xs ys = true := by
  cases b with
  | list ys => exact ⟨fun h => ⟨ys, rfl, h⟩, fun ⟨_, hys, h⟩ => (Value.list.inj hys) ▸ h⟩
  | _ =>
      refine iff_of_false (not_equal_of_shape ha hb rfl rfl) ?_
      rintro ⟨_, ⟨⟩, _⟩

theorem equal_tuple_iff {xs : List Value} (ha : (Value.tuple xs).isUnfixed = true)
    (hb : b.isUnfixed = true) :
    equal (.tuple xs) b = true ↔ ∃ ys, b = .tuple ys ∧ equalAll xs ys = true := by
  cases b with
  | tuple ys => exact ⟨fun h => ⟨ys, rfl, h⟩, fun ⟨_, hys, h⟩ => (Value.tuple.inj hys) ▸ h⟩
  | _ =>
      refine iff_of_false (not_equal_of_shape ha hb rfl rfl) ?_
      rintro ⟨_, ⟨⟩, _⟩

theorem equal_dict_left_iff {es : Entries} (ha : (Value.dict es).isUnfixed = true)
    (hb : b.isUnfixed = true) :
    equal (.dict es) b = true ↔ ∃ fs, b = .dict fs ∧
      (∀ e ∈ es, ∃ f ∈ fs, sameKey e.1 f.1 = true ∧ equal e.2 f.2 = true) ∧
        ∀ f ∈ fs, ∃ e ∈ es, sameKey e.1 f.1 = true ∧ equal e.2 f.2 = true := by
  cases b with
  | dict fs =>
      refine equal_dict_iff.trans ⟨fun h => ⟨fs, rfl, h⟩, fun ⟨_, hfs, h⟩ => ?_⟩
      exact (Value.dict.inj hfs) ▸ h
  | _ =>
      refine iff_of_false (not_equal_of_shape ha hb rfl rfl) ?_
      rintro ⟨_, ⟨⟩, _⟩

/-! ## Symmetry -/

mutual

theorem equal_symm :
    ∀ (a : Value) {b : Value}, a.isUnfixed = true → b.isUnfixed = true → equal a b = true →
      equal b a = true := by
  intro a b ha hb h
  cases a with
  | list xs =>
      obtain ⟨ys, rfl, hitems⟩ := (equal_list_iff ha hb).mp h
      exact equalAll_symm xs (isUnfixed_list.mp ha) (isUnfixed_list.mp hb) hitems
  | tuple xs =>
      obtain ⟨ys, rfl, hitems⟩ := (equal_tuple_iff ha hb).mp h
      exact equalAll_symm xs (isUnfixed_tuple.mp ha) (isUnfixed_tuple.mp hb) hitems
  | dict es =>
      obtain ⟨fs, rfl, hes, hfs⟩ := (equal_dict_left_iff ha hb).mp h
      have hea := isUnfixed_dict.mp ha
      have hfb := isUnfixed_dict.mp hb
      refine equal_dict_iff.mpr ⟨fun f hf => ?_, fun e he => ?_⟩
      · obtain ⟨e, he, hkey, hv⟩ := hfs f hf
        exact ⟨e, he, sameKey_symm _ hkey, equal_symm_entry es e he (hea e he).2 (hfb f hf).2 hv⟩
      · obtain ⟨f, hf, hkey, hv⟩ := hes e he
        exact ⟨f, hf, sameKey_symm _ hkey, equal_symm_entry es e he (hea e he).2 (hfb f hf).2 hv⟩
  | _ =>
      obtain ⟨hwhole, hkey⟩ := (equal_whole_iff ha hb rfl).mp h
      exact (equal_whole_iff hb ha hwhole).mpr ⟨rfl, sameKey_symm _ hkey⟩
termination_by structural a => a

theorem equalAll_symm :
    ∀ (xs : List Value) {ys : List Value}, (∀ x ∈ xs, x.isUnfixed = true) →
      (∀ y ∈ ys, y.isUnfixed = true) → equalAll xs ys = true → equalAll ys xs = true
  | [], [], _, _, h => h
  | x :: xs, y :: ys, hx, hy, h => by
      rw [List.forall_mem_cons] at hx hy
      rw [equalAll, Bool.and_eq_true] at h ⊢
      exact ⟨equal_symm x hx.1 hy.1 h.1, equalAll_symm xs hx.2 hy.2 h.2⟩
termination_by structural xs => xs

theorem equal_symm_entry :
    ∀ (es : List (Value × Value)), ∀ e ∈ es, ∀ {b : Value}, e.2.isUnfixed = true →
      b.isUnfixed = true → equal e.2 b = true → equal b e.2 = true
  | (_, v) :: rest, e, he, b, hv, hb, h => by
      cases he with
      | head => exact equal_symm v hv hb h
      | tail _ he' => exact equal_symm_entry rest e he' hv hb h
termination_by structural es => es

end

/-! ## Transitivity -/

mutual

theorem equal_trans :
    ∀ (a : Value) {b c : Value}, a.isUnfixed = true → b.isUnfixed = true → c.isUnfixed = true →
      equal a b = true → equal b c = true → equal a c = true := by
  intro a b c ha hb hc hab hbc
  cases a with
  | list xs =>
      obtain ⟨ys, rfl, hxy⟩ := (equal_list_iff ha hb).mp hab
      obtain ⟨zs, rfl, hyz⟩ := (equal_list_iff hb hc).mp hbc
      exact equalAll_trans xs (isUnfixed_list.mp ha) (isUnfixed_list.mp hb)
        (isUnfixed_list.mp hc) hxy hyz
  | tuple xs =>
      obtain ⟨ys, rfl, hxy⟩ := (equal_tuple_iff ha hb).mp hab
      obtain ⟨zs, rfl, hyz⟩ := (equal_tuple_iff hb hc).mp hbc
      exact equalAll_trans xs (isUnfixed_tuple.mp ha) (isUnfixed_tuple.mp hb)
        (isUnfixed_tuple.mp hc) hxy hyz
  | dict es =>
      obtain ⟨fs, rfl, hef, hfe⟩ := (equal_dict_left_iff ha hb).mp hab
      obtain ⟨gs, rfl, hfg, hgf⟩ := (equal_dict_left_iff hb hc).mp hbc
      have hea := isUnfixed_dict.mp ha
      have hfb := isUnfixed_dict.mp hb
      have hgc := isUnfixed_dict.mp hc
      refine equal_dict_iff.mpr ⟨fun e he => ?_, fun g hg => ?_⟩
      · obtain ⟨f, hf, hkef, hvef⟩ := hef e he
        obtain ⟨g, hg, hkfg, hvfg⟩ := hfg f hf
        exact ⟨g, hg, sameKey_trans _ hkef hkfg,
          equal_trans_entry es e he (hea e he).2 (hfb f hf).2 (hgc g hg).2 hvef hvfg⟩
      · obtain ⟨f, hf, hkfg, hvfg⟩ := hgf g hg
        obtain ⟨e, he, hkef, hvef⟩ := hfe f hf
        exact ⟨e, he, sameKey_trans _ hkef hkfg,
          equal_trans_entry es e he (hea e he).2 (hfb f hf).2 (hgc g hg).2 hvef hvfg⟩
  | _ =>
      obtain ⟨hwhole, hkab⟩ := (equal_whole_iff ha hb rfl).mp hab
      obtain ⟨hwhole', hkbc⟩ := (equal_whole_iff hb hc hwhole).mp hbc
      exact (equal_whole_iff ha hc rfl).mpr ⟨hwhole', sameKey_trans _ hkab hkbc⟩
termination_by structural a => a

theorem equalAll_trans :
    ∀ (xs : List Value) {ys zs : List Value}, (∀ x ∈ xs, x.isUnfixed = true) →
      (∀ y ∈ ys, y.isUnfixed = true) → (∀ z ∈ zs, z.isUnfixed = true) →
      equalAll xs ys = true → equalAll ys zs = true → equalAll xs zs = true
  | [], [], [], _, _, _, _, h => h
  | x :: xs, y :: ys, z :: zs, hx, hy, hz, hxy, hyz => by
      rw [List.forall_mem_cons] at hx hy hz
      rw [equalAll, Bool.and_eq_true] at hxy hyz ⊢
      exact ⟨equal_trans x hx.1 hy.1 hz.1 hxy.1 hyz.1,
        equalAll_trans xs hx.2 hy.2 hz.2 hxy.2 hyz.2⟩
termination_by structural xs => xs

theorem equal_trans_entry :
    ∀ (es : List (Value × Value)), ∀ e ∈ es, ∀ {b c : Value}, e.2.isUnfixed = true →
      b.isUnfixed = true → c.isUnfixed = true → equal e.2 b = true → equal b c = true →
      equal e.2 c = true
  | (_, v) :: rest, e, he, b, c, hv, hb, hc, hvb, hbc => by
      cases he with
      | head => exact equal_trans v hv hb hc hvb hbc
      | tail _ he' => exact equal_trans_entry rest e he' hv hb hc hvb hbc
termination_by structural es => es

end

/-! ## Strict equality -/

theorem sameType_comm (v w : Value) : sameType v w = sameType w v := by
  cases v <;> cases w <;> first | rfl | exact Bool.beq_comm

/-- Values of one kind are of one kind with the same values. -/
theorem sameType_congr {u v : Value} (h : sameType u v = true) (w : Value) :
    sameType u w = sameType v w := by
  cases u <;> cases v <;> first | (cases h; done) | (cases w <;> rfl) | skip
  case member.member m n =>
    cases w with
    | member k => exact congrArg (· == k.family) (eq_of_beq h)
    | _ => rfl
  case moment.moment m n =>
    cases w with
    | moment k => exact congrArg (· == k.clock.isSome) (eq_of_beq h)
    | _ => rfl
  case scalar.scalar m n =>
    cases w with
    | scalar k => exact congrArg (· == k.formatName) (eq_of_beq h)
    | _ => rfl

theorem strictEqual_symm (ha : a.isUnfixed = true) (hb : b.isUnfixed = true)
    (h : strictEqual a b = true) : strictEqual b a = true := by
  rw [strictEqual, Bool.and_eq_true] at h ⊢
  exact ⟨sameType_comm a b ▸ h.1, equal_symm a ha hb h.2⟩

theorem strictEqual_trans (ha : a.isUnfixed = true) (hb : b.isUnfixed = true)
    (hc : c.isUnfixed = true) (hab : strictEqual a b = true) (hbc : strictEqual b c = true) :
    strictEqual a c = true := by
  rw [strictEqual, Bool.and_eq_true] at hab hbc ⊢
  exact ⟨(sameType_congr hab.1 c).trans hbc.1, equal_trans a ha hb hc hab.2 hbc.2⟩

end Conform.Value
