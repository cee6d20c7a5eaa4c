/-
# `Proofs.Value.Ordinary` — values without numbers of fixed representation

A value is ordinary when no part of it is a number that is none, a number or
array of fixed representation, or a set.  On such values the two notions of
equality are one: equality as keys is equality, as far as values can be keys.
So the search for duplicates, which looks among keys first, finds exactly the
items that are strictly equal.
-/
import Conform.Value.Class
import Conform.Value.Duplicates

namespace Conform

namespace Value

/-! ## Parts -/

mutual

/-- Whether something is true of a value and of all it holds, keys included. -/
def everyPart (p : Value → Bool) (v : Value) : Bool :=
  p v && match v with
    | .list items | .tuple items => allParts p items
    | .dict entries => entryParts p entries
    | _ => true
termination_by structural v

def allParts (p : Value → Bool) : List Value → Bool
  | [] => true
  | v :: rest => v.everyPart p && allParts p rest
termination_by structural vs => vs

def entryParts (p : Value → Bool) : List (Value × Value) → Bool
  | [] => true
  | (key, v) :: rest => key.everyPart p && v.everyPart p && entryParts p rest
termination_by structural es => es

end

def isOrdinary : Value → Bool
  | .scalar _ | .tensor _ | .set _ | .frozenset _ => false
  | v => !v.isNaN

variable {p : Value → Bool} {v : Value}

theorem of_everyPart (h : v.everyPart p = true) : p v = true := by
  unfold everyPart at h
  exact (Bool.and_eq_true_iff.mp h).1

theorem allParts_iff {vs : List Value} :
    allParts p vs = true ↔ ∀ v ∈ vs, v.everyPart p = true := by
  induction vs with
  | nil => exact iff_of_true rfl (List.forall_mem_nil _)
  | cons v rest ih => rw [allParts, Bool.and_eq_true, ih, List.forall_mem_cons]

theorem everyPart_list {items : List Value} :
    (Value.list items).everyPart p = true ↔
      p (.list items) = true ∧ ∀ v ∈ items, v.everyPart p = true := by
  rw [everyPart, Bool.and_eq_true, allParts_iff]

theorem everyPart_tuple {items : List Value} :
    (Value.tuple items).everyPart p = true ↔
      p (.tuple items) = true ∧ ∀ v ∈ items, v.everyPart p = true := by
  rw [everyPart, Bool.and_eq_true, allParts_iff]

theorem entryParts_value :
    ∀ {es : Entries}, entryParts p es = true → ∀ e ∈ es, e.2.everyPart p = true
  | (key, v) :: rest, h, e, he => by
      rw [entryParts, Bool.and_eq_true, Bool.and_eq_true] at h
      cases he with
      | head => exact h.1.2
      | tail _ he' => exact entryParts_value h.2 e he'

theorem everyPart_dict {entries : Entries} (h : (Value.dict entries).everyPart p = true) :
    ∀ e ∈ entries, e.2.everyPart p = true := by
  rw [everyPart, Bool.and_eq_true] at h
  exact entryParts_value h.2

/-- Whether `w` is among the parts of `v`, as far as what is true of every part
can tell. -/
def Encloses (v w : Value) : Prop := ∀ q, v.everyPart q = true → w.everyPart q = true

theorem encloses_self (v : Value) : v.Encloses v := fun _ h => h

theorem encloses_entry {entries : Entries} : ∀ e ∈ entries, (Value.dict entries).Encloses e.2 :=
  fun e he _ h => everyPart_dict h e he

theorem isFixed_of_isOrdinary (h : v.isOrdinary = true) : v.isFixed = false := by
  cases v with
  | scalar | tensor => exact absurd h Bool.false_ne_true
  | _ => rfl

/-- The items of an ordinary array are those of a list or a tuple. -/
theorem encloses_item {items : List Value} (hitems : v.arrayItems? = some items)
    (hordinary : v.isOrdinary = true) : ∀ w ∈ items, v.Encloses w := by
  intro w hw q h
  cases v with
  | list xs =>
      obtain rfl := Option.some.inj hitems
      exact (everyPart_list.mp h).2 w hw
  | tuple xs =>
      obtain rfl := Option.some.inj hitems
      exact (everyPart_tuple.mp h).2 w hw
  | tensor => exact absurd hordinary Bool.false_ne_true
  | _ => cases hitems

/-! ## The two equalities -/

theorem plainEqual_eq_sameKey {a b : Value} (ha : a.isFixed = false) (hb : b.isFixed = false) :
    plainEqual a b = sameKey a b := by
  rw [plainEqual, ha, hb]
  rfl

mutual

/-- Among values that can be keys, equality is equality of keys. -/
theorem equal_eq_sameKey (hp : ∀ v, p v = true → v.isFixed = false) :
    ∀ (a : Value) {b : Value}, a.everyPart p = true → b.everyPart p = true →
      a.hashable = true → b.hashable = true → equal a b = sameKey a b := by
  intro a b ha hb hka hkb
  have hplain := plainEqual_eq_sameKey (hp _ (of_everyPart ha)) (hp _ (of_everyPart hb))
  cases a with
  | list | dict => exact absurd hka Bool.false_ne_true
  | tuple xs =>
      cases b with
      | tuple ys =>
          rw [equal, sameKey]
          exact equalAll_eq_sameKeys hp xs (everyPart_tuple.mp ha).2 (everyPart_tuple.mp hb).2
            hka hkb
      | _ => exact hplain
  | _ => exact hplain
termination_by structural a => a

theorem equalAll_eq_sameKeys (hp : ∀ v, p v = true → v.isFixed = false) :
    ∀ (xs : List Value) {ys : List Value}, (∀ x ∈ xs, x.everyPart p = true) →
      (∀ y ∈ ys, y.everyPart p = true) → allHashable xs = true → allHashable ys = true →
      equalAll xs ys = sameKeys xs ys
  | [], [], _, _, _, _ => rfl
  | [], _ :: _, _, _, _, _ => rfl
  | _ :: _, [], _, _, _, _ => rfl
  | x :: xs, y :: ys, hx, hy, hkx, hky => by
      rw [allHashable, Bool.and_eq_true] at hkx hky
      rw [List.forall_mem_cons] at hx hy
      rw [equalAll, sameKeys, equal_eq_sameKey hp x hx.1 hy.1 hkx.1 hky.1,
        equalAll_eq_sameKeys hp xs hx.2 hy.2 hkx.2 hky.2]
termination_by structural xs => xs

end

mutual

/-- Only what can be a key equals something that can. -/
theorem hashable_of_equal :
    ∀ (a : Value) {b : Value}, a.everyPart isOrdinary = true → b.everyPart isOrdinary = true →
      equal a b = true → b.hashable = true → a.hashable = true := by
  intro a b ha hb heq hkb
  have hplain := plainEqual_eq_sameKey (isFixed_of_isOrdinary (of_everyPart ha))
    (isFixed_of_isOrdinary (of_everyPart hb))
  cases a with
  | list xs =>
      cases b with
      | list => exact absurd hkb Bool.false_ne_true
      | _ =>
          rw [equal, hplain] at heq
          · exact absurd heq Bool.false_ne_true
          · exact nofun
  | dict es =>
      cases b with
      | dict => exact absurd hkb Bool.false_ne_true
      | _ =>
          rw [equal, hplain] at heq
          · exact absurd heq Bool.false_ne_true
          · exact nofun
  | tuple xs =>
      cases b with
      | tuple ys =>
          rw [equal] at heq
          exact allHashable_of_equalAll xs (everyPart_tuple.mp ha).2 (everyPart_tuple.mp hb).2
            heq hkb
      | _ =>
          rw [equal, hplain] at heq
          · exact absurd heq Bool.false_ne_true
          · exact nofun
  | set | tensor => exact absurd (of_everyPart ha) Bool.false_ne_true
  | _ => rfl
termination_by structural a => a

theorem allHashable_of_equalAll :
    ∀ (xs : List Value) {ys : List Value}, (∀ x ∈ xs, x.everyPart isOrdinary = true) →
      (∀ y ∈ ys, y.everyPart isOrdinary = true) → equalAll xs ys = true → allHashable ys = true →
      allHashable xs = true
  | [], _, _, _, _, _ => rfl
  | x :: xs, y :: ys, hx, hy, heq, hky => by
      rw [equalAll, Bool.and_eq_true] at heq
      rw [allHashable, Bool.and_eq_true] at hky ⊢
      rw [List.forall_mem_cons] at hx hy
      exact ⟨hashable_of_equal x hx.1 hy.1 heq.1 hky.1,
        allHashable_of_equalAll xs hx.2 hy.2 heq.2 hky.2⟩
termination_by structural xs => xs

end

/-- An item joins the groups of what it is strictly equal to, as long as no
key is strictly equal to what can be none. -/
theorem joins_eq_strictEqual {first : Value} (hp : ∀ v, p v = true → v.isFixed = false)
    (hfirst : first.everyPart p = true) (hv : v.everyPart p = true)
    (hkeys : strictEqual first v = true → v.hashable = true → first.hashable = true) :
    joins first v = strictEqual first v := by
  rw [joins]
  cases hkv : v.hashable with
  | false => rfl
  | true =>
      rw [if_pos rfl]
      cases hkf : first.hashable with
      | true => rw [strictEqual, equal_eq_sameKey hp first hfirst hv hkf hkv, Bool.true_and]
      | false =>
          rw [Bool.false_and, Bool.false_and]
          exact (Bool.eq_false_iff.mpr fun heq => Bool.eq_false_iff.mp hkf (hkeys heq hkv)).symm

theorem joins_eq_of_isOrdinary {first : Value} (hfirst : first.everyPart isOrdinary = true)
    (hv : v.everyPart isOrdinary = true) : joins first v = strictEqual first v :=
  joins_eq_strictEqual (fun _ => isFixed_of_isOrdinary) hfirst hv fun heq =>
    hashable_of_equal first hfirst hv (Bool.and_eq_true_iff.mp heq).2

/-! ## Duplicates -/

/-- No group has two positions. -/
def Apart (groups : List (Value × List Nat)) : Prop := ∀ g ∈ groups, g.2.length ≤ 1

theorem place_apart {groups : List (Value × List Nat)} (i : Nat)
    (h : ∀ g ∈ groups, joins g.1 v = false) : place i v groups = groups ++ [(v, [i])] := by
  induction groups with
  | nil => rfl
  | cons g rest ih =>
      rw [place, h g List.mem_cons_self, if_neg Bool.false_ne_true,
        ih fun u hu => h u (List.mem_cons_of_mem _ hu)]
      rfl

/-- A group that an item joins gets another position, one that it does not join stays. -/
theorem apart_place_cons {g : Value × List Nat} {rest : List (Value × List Nat)} {i : Nat} :
    Apart (place i v (g :: rest)) ↔ joins g.1 v = true ∧ g.2 = [] ∧ Apart rest ∨
      joins g.1 v = false ∧ g.2.length ≤ 1 ∧ Apart (place i v rest) := by
  rw [place]
  cases joins g.1 v with
  | true => simp [Apart]
  | false => simp [Apart]

/-- Groups only grow. -/
theorem apart_of_place {groups : List (Value × List Nat)} {i : Nat}
    (h : Apart (place i v groups)) : Apart groups := by
  induction groups with
  | nil => exact nofun
  | cons g rest ih =>
      rcases apart_place_cons.mp h with ⟨-, hempty, hrest⟩ | ⟨-, hone, hrest⟩
      · refine List.forall_mem_cons.mpr ⟨?_, hrest⟩
        rw [hempty]
        exact Nat.zero_le 1
      · exact List.forall_mem_cons.mpr ⟨hone, ih hrest⟩

/-- A position that joins a group gives it a second one. -/
theorem joins_of_place {groups : List (Value × List Nat)} {i : Nat}
    (hfull : ∀ g ∈ groups, g.2 ≠ []) (h : Apart (place i v groups)) :
    ∀ g ∈ groups, joins g.1 v = false := by
  induction groups with
  | nil => exact nofun
  | cons g rest ih =>
      obtain ⟨hg, hfull⟩ := List.forall_mem_cons.mp hfull
      rcases apart_place_cons.mp h with ⟨-, hempty, -⟩ | ⟨hjoins, -, hrest⟩
      · exact absurd hempty hg
      · exact List.forall_mem_cons.mpr ⟨hjoins, ih hfull hrest⟩

theorem apart_of_gather {items : List Value} {groups : List (Value × List Nat)} {i : Nat}
    (h : Apart (gather groups i items)) : Apart groups := by
  induction items generalizing groups i with
  | nil => exact h
  | cons v rest ih => exact apart_of_place (ih h)

/-- Gathering keeps the positions apart when no item joins an earlier one. -/
theorem apart_gather_iff {items : List Value} {groups : List (Value × List Nat)} (i : Nat)
    (hfull : ∀ g ∈ groups, g.2 ≠ []) (hgroups : Apart groups) :
    Apart (gather groups i items) ↔
      (∀ g ∈ groups, ∀ v ∈ items, joins g.1 v = false) ∧
        items.Pairwise fun a b => joins a b = false := by
  induction items generalizing groups i with
  | nil => exact ⟨fun _ => ⟨fun _ _ => nofun, .nil⟩, fun _ => hgroups⟩
  | cons v rest ih =>
      have happend : (∀ g ∈ groups, joins g.1 v = false) →
          (Apart (gather (place i v groups) (i + 1) rest) ↔
            (∀ g ∈ groups ++ [(v, [i])], ∀ w ∈ rest, joins g.1 w = false) ∧
              rest.Pairwise fun a b => joins a b = false) := by
        intro hv
        rw [place_apart i hv]
        refine ih (i + 1) ?_ ?_
        · intro g hg
          rcases List.mem_append.mp hg with hg | hg
          · exact hfull g hg
          · rw [List.mem_singleton.mp hg]
            exact List.cons_ne_nil _ _
        · intro g hg
          rcases List.mem_append.mp hg with hg | hg
          · exact hgroups g hg
          · rw [List.mem_singleton.mp hg]
            exact Nat.le_refl 1
      rw [gather, List.pairwise_cons]
      constructor
      · intro h
        have hv := joins_of_place hfull (apart_of_gather h)
        obtain ⟨hfirsts, hpairs⟩ := (happend hv).mp h
        refine ⟨fun g hg => List.forall_mem_cons.mpr ⟨hv g hg, ?_⟩, ?_, hpairs⟩
        · exact hfirsts g (List.mem_append_left _ hg)
        · exact hfirsts (v, [i]) (List.mem_append_right _ List.mem_cons_self)
      · rintro ⟨hfirsts, hv, hpairs⟩
        refine (happend fun g hg => hfirsts g hg v List.mem_cons_self).mpr ⟨fun g hg => ?_, hpairs⟩
        rcases List.mem_append.mp hg with hg | hg
        · exact fun w hw => hfirsts g hg w (List.mem_cons_of_mem _ hw)
        · rw [List.mem_singleton.mp hg]
          exact hv

/-- There are no duplicates when no item joins an earlier one. -/
theorem duplicateGroups_isEmpty_iff_joins {items : List Value} :
    (duplicateGroups items).isEmpty = true ↔ items.Pairwise fun a b => joins a b = false := by
  have hgather : Apart (gather [] 0 items) ↔ _ := apart_gather_iff 0 nofun nofun
  rw [duplicateGroups, List.isEmpty_iff, List.filter_eq_nil_iff, List.forall_mem_map]
  simp only [decide_eq_true_eq, Nat.not_lt]
  exact hgather.trans ⟨fun h => h.2, fun h => ⟨nofun, h⟩⟩

/-- There are no duplicates when no two items are strictly equal. -/
theorem duplicateGroups_isEmpty_iff {items : List Value}
    (h : ∀ v ∈ items, v.everyPart isOrdinary = true) :
    (duplicateGroups items).isEmpty = true ↔ items.Pairwise fun a b => strictEqual a b = false := by
  rw [duplicateGroups_isEmpty_iff_joins]
  exact List.Pairwise.iff_of_mem fun ha hb => by rw [joins_eq_of_isOrdinary (h _ ha) (h _ hb)]

end Value

end Conform
