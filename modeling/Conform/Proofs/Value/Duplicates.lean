/-
# `Proofs.Value.Duplicates` — duplicates are classes of strictly equal items

The positions of repeated items are gathered in one pass, with a quick test
for items that can be keys.  Pairwise comparison says the same in two
lines: the classes of strict equality, in the order of their first members,
as far as they have two members or more.

The pass agrees with it as long as strictly equal items are either all keys
or none.  They need not be: a tuple that holds a set equals one that holds
the same set frozen, and only the second can be a key.  Then the quick test
finds the first only if it comes later, and what is found depends on the
order of the items.
-/
import Mathlib.Data.List.Induction
import Conform.Schema.Verdict
import Conform.Proofs.Value.Equivalence

namespace Conform.Value

/-! ## Classes by pairwise comparison -/

/-- The positions of the items of which something is true. -/
def positions (items : List Value) (p : Value × Nat → Bool) : List Nat :=
  (items.zipIdx.filter p).map (·.2)

/-- The items that are strictly equal to none before them, with their
positions. -/
def firstOccurrences (items : List Value) : List (Value × Nat) :=
  items.zipIdx.filter fun e => !(items.take e.2).any (strictEqual · e.1)

/-- The classes of strictly equal items that have two members or more, as
positions. -/
def repeatedClasses (items : List Value) : List (List Nat) :=
  ((firstOccurrences items).map fun e => positions items fun f => strictEqual e.1 f.1).filter
    (1 < ·.length)

variable {items : List Value} {v w : Value}

theorem zipIdx_append_singleton : (items ++ [w]).zipIdx = items.zipIdx ++ [(w, items.length)] := by
  rw [List.zipIdx_append, List.zipIdx_singleton, Nat.zero_add]

theorem lt_of_mem_zipIdx {e : Value × Nat} (he : e ∈ items.zipIdx) : e.2 < items.length := by
  have := List.snd_lt_add_of_mem_zipIdx he
  omega

theorem positions_congr {p q : Value × Nat → Bool} (h : ∀ e ∈ items.zipIdx, p e = q e) :
    positions items p = positions items q :=
  congrArg (List.map Prod.snd) (List.filter_congr h)

theorem positions_eq_nil {p : Value × Nat → Bool} (h : ∀ e ∈ items.zipIdx, p e = false) :
    positions items p = [] :=
  List.map_eq_nil_iff.mpr (List.filter_eq_nil_iff.mpr fun e he => Bool.eq_false_iff.mp (h e he))

theorem positions_append {p : Value × Nat → Bool} :
    positions (items ++ [w]) p =
      positions items p ++ if p (w, items.length) then [items.length] else [] := by
  rw [positions, zipIdx_append_singleton, List.filter_append, List.map_append]
  cases h : p (w, items.length) <;> simp [positions, h]

theorem length_positions_index (i : Nat) : (positions items fun f => f.2 == i).length ≤ 1 := by
  have hindices : (positions items fun f => f.2 == i) =
      (List.range' 0 items.length).filter (· == i) := by
    rw [← List.zipIdx_map_snd, List.filter_map]
    rfl
  rw [hindices, ← List.count_eq_length_filter]
  exact List.nodup_iff_count_le_one.mp List.nodup_range' i

theorem firstOccurrences_append :
    firstOccurrences (items ++ [w]) =
      firstOccurrences items ++
        if items.any (strictEqual · w) then [] else [(w, items.length)] := by
  have hearlier : items.zipIdx.filter
      (fun e => !((items ++ [w]).take e.2).any (strictEqual · e.1)) = firstOccurrences items :=
    List.filter_congr fun e he => by
      rw [List.take_append_of_le_length (Nat.le_of_lt (lt_of_mem_zipIdx he))]
  rw [firstOccurrences, zipIdx_append_singleton, List.filter_append, hearlier]
  cases h : items.any (strictEqual · w) <;> simp [h]

theorem mem_of_firstOccurrences {e : Value × Nat} (he : e ∈ firstOccurrences items) :
    e.1 ∈ items ∧ e.2 < items.length :=
  have hmem := List.mem_of_mem_filter he
  ⟨List.fst_mem_of_mem_zipIdx hmem, lt_of_mem_zipIdx hmem⟩

theorem pairwise_firstOccurrences (items : List Value) :
    (firstOccurrences items).Pairwise fun e f => strictEqual e.1 f.1 = false := by
  induction items using List.reverseRecOn with
  | nil => exact .nil
  | append_singleton items w ih =>
      rw [firstOccurrences_append]
      cases hany : items.any (strictEqual · w) with
      | true => exact (List.append_nil (firstOccurrences items)).symm ▸ ih
      | false =>
          refine List.pairwise_append.mpr ⟨ih, List.pairwise_singleton _ _, fun e he f hf => ?_⟩
          rw [List.mem_singleton.mp hf]
          exact Bool.eq_false_iff.mpr (List.any_eq_false.mp hany e.1 (mem_of_firstOccurrences he).1)

/-! ## What comparison has to be like -/

/-- Strict equality sorts the items into classes, and whoever belongs to a
group is strictly equal to the item that opened it. -/
structure Sortable (items : List Value) : Prop where
  joins_eq : ∀ v ∈ items, ∀ w ∈ items, joins v w = strictEqual v w
  symm : ∀ v ∈ items, ∀ w ∈ items, strictEqual v w = true → strictEqual w v = true
  trans : ∀ u ∈ items, ∀ v ∈ items, ∀ w ∈ items,
    strictEqual u v = true → strictEqual v w = true → strictEqual u w = true

theorem Sortable.subset {rest : List Value} (h : Sortable items) (hsub : rest ⊆ items) :
    Sortable rest where
  joins_eq v hv w hw := h.joins_eq v (hsub hv) w (hsub hw)
  symm v hv w hw := h.symm v (hsub hv) w (hsub hw)
  trans u hu v hv w hw := h.trans u (hsub hu) v (hsub hv) w (hsub hw)

/-! ## The pass over the items -/

/-- A group as the pass has it: the first member, then the positions of all. -/
def group (items : List Value) (e : Value × Nat) : Value × List Nat :=
  (e.1, positions items fun f => f.2 == e.2 || strictEqual e.1 f.1)

/-- A position joins the one group that takes it, or opens one. -/
theorem place_eq {groups : List (Value × List Nat)} (i : Nat)
    (hone : groups.Pairwise fun g h => joins g.1 v = true → joins h.1 v = false) :
    place i v groups =
      groups.map (fun g => (g.1, g.2 ++ if joins g.1 v then [i] else [])) ++
        if groups.any (joins ·.1 v) then [] else [(v, [i])] := by
  induction groups with
  | nil => rfl
  | cons g rest ih =>
      obtain ⟨first, is⟩ := g
      obtain ⟨hfirst, hrest⟩ := List.pairwise_cons.mp hone
      rw [place, List.map_cons, List.any_cons]
      cases hjoins : joins first v with
      | true =>
          have hleft : rest.map (fun g => (g.1, g.2 ++ if joins g.1 v then [i] else [])) = rest :=
            (List.map_congr_left fun g hg => by
              rw [hfirst g hg hjoins, if_neg Bool.false_ne_true, List.append_nil]; rfl).trans
              (List.map_id rest)
          rw [hleft, if_pos rfl, if_pos rfl, Bool.true_or, if_pos rfl, List.append_nil]
      | false =>
          rw [if_neg Bool.false_ne_true, if_neg Bool.false_ne_true, Bool.false_or, ih hrest,
            List.append_nil, List.cons_append]

theorem gather_append {groups : List (Value × List Nat)} {i : Nat} :
    gather groups i (items ++ [v]) = place (i + items.length) v (gather groups i items) := by
  induction items generalizing groups i with
  | nil => rfl
  | cons w rest ih =>
      rw [List.cons_append, gather, gather, ih, List.length_cons, Nat.add_right_comm, Nat.add_assoc]

/-- What differs in length one at most is left out alike. -/
theorem filter_map_congr {α : Type} {f g : α → List Nat} {xs : List α}
    (h : ∀ x ∈ xs, f x = g x ∨ (f x).length ≤ 1 ∧ g x = []) :
    (xs.map f).filter (1 < ·.length) = (xs.map g).filter (1 < ·.length) := by
  induction xs with
  | nil => rfl
  | cons x rest ih =>
      obtain ⟨hx, hrest⟩ := List.forall_mem_cons.mp h
      rw [List.map_cons, List.map_cons, List.filter_cons, List.filter_cons, ih hrest]
      rcases hx with heq | ⟨hf, hg⟩
      · rw [heq]
      · rw [hg, decide_eq_false (Nat.not_lt.mpr hf)]
        rfl

namespace Sortable

/-- An item that equals itself equals the first of its class. -/
theorem exists_firstOccurrence (h : Sortable items) (hv : v ∈ items)
    (hself : strictEqual v v = true) :
    ∃ e ∈ firstOccurrences items, strictEqual e.1 v = true := by
  induction items using List.reverseRecOn generalizing v with
  | nil => cases hv
  | append_singleton items w ih =>
      have hleft := h.subset (List.subset_append_left items [w])
      have hw : w ∈ items ++ [w] := List.mem_append_right _ List.mem_cons_self
      rw [firstOccurrences_append]
      rcases List.mem_append.mp hv with hv | hv
      · obtain ⟨e, he, heq⟩ := ih hleft hv hself
        exact ⟨e, List.mem_append_left _ he, heq⟩
      · obtain rfl := List.mem_singleton.mp hv
        cases hany : items.any (strictEqual · v) with
        | false => exact ⟨(v, items.length), List.mem_append_right _ List.mem_cons_self, hself⟩
        | true =>
            obtain ⟨u, hu, huv⟩ := List.any_eq_true.mp hany
            have hu' : u ∈ items ++ [v] := List.mem_append_left _ hu
            obtain ⟨e, he, heq⟩ := ih hleft hu (h.trans u hu' v hw u hu' huv (h.symm u hu' v hw huv))
            have he' : e.1 ∈ items ++ [v] := List.mem_append_left _ (mem_of_firstOccurrences he).1
            exact ⟨e, List.mem_append_left _ he, h.trans _ he' u hu' v hw heq huv⟩

/-- A new item equals one of the first of their class if it equals any item. -/
theorem any_firstOccurrences (h : Sortable (items ++ [w])) :
    (firstOccurrences items).any (strictEqual ·.1 w) = items.any (strictEqual · w) := by
  have hw : w ∈ items ++ [w] := List.mem_append_right _ List.mem_cons_self
  refine Bool.eq_iff_iff.mpr ?_
  rw [List.any_eq_true, List.any_eq_true]
  constructor
  · rintro ⟨e, he, heq⟩
    exact ⟨e.1, (mem_of_firstOccurrences he).1, heq⟩
  · rintro ⟨v, hv, hvw⟩
    have hv' : v ∈ items ++ [w] := List.mem_append_left _ hv
    have hself := h.trans v hv' w hw v hv' hvw (h.symm v hv' w hw hvw)
    obtain ⟨e, he, heq⟩ :=
      exists_firstOccurrence (h.subset (List.subset_append_left items [w])) hv hself
    have he' : e.1 ∈ items ++ [w] := List.mem_append_left _ (mem_of_firstOccurrences he).1
    exact ⟨e, he, h.trans _ he' v hv' w hw heq hvw⟩

/-- No item joins two groups. -/
theorem pairwise_group (h : Sortable (items ++ [w])) :
    ((firstOccurrences items).map (group items)).Pairwise fun g g' =>
      joins g.1 w = true → joins g'.1 w = false := by
  have hw : w ∈ items ++ [w] := List.mem_append_right _ List.mem_cons_self
  have hmem : ∀ e ∈ firstOccurrences items, e.1 ∈ items ++ [w] :=
    fun e he => List.mem_append_left _ (mem_of_firstOccurrences he).1
  refine List.pairwise_map.mpr ((pairwise_firstOccurrences items).imp_of_mem ?_)
  intro e f he hf hapart hjoins
  have hew : strictEqual e.1 w = true := (h.joins_eq _ (hmem e he) w hw).symm.trans hjoins
  refine Bool.eq_false_iff.mpr fun hfw => Bool.eq_false_iff.mp hapart ?_
  have hfw : strictEqual f.1 w = true := (h.joins_eq _ (hmem f hf) w hw).symm.trans hfw
  exact h.trans _ (hmem e he) w hw _ (hmem f hf) hew (h.symm _ (hmem f hf) w hw hfw)

/-- An item that equals none before it has a group of its own. -/
theorem group_opened (h : Sortable (items ++ [w])) (hnew : items.any (strictEqual · w) = false) :
    group (items ++ [w]) (w, items.length) = (w, [items.length]) := by
  have hw : w ∈ items ++ [w] := List.mem_append_right _ List.mem_cons_self
  have hnone : positions items (fun f => f.2 == items.length || strictEqual w f.1) = [] := by
    refine positions_eq_nil fun f hf => ?_
    have hmem : f.1 ∈ items := List.fst_mem_of_mem_zipIdx hf
    have happart := List.any_eq_false.mp hnew f.1 hmem
    rw [beq_false_of_ne (Nat.ne_of_lt (lt_of_mem_zipIdx hf)), Bool.false_or]
    exact Bool.eq_false_iff.mpr fun heq =>
      happart (h.symm w hw f.1 (List.mem_append_left _ hmem) heq)
  rw [group, positions_append, hnone, beq_self_eq_true, Bool.true_or]
  rfl

/-- The pass has a group for each first occurrence, with the positions of all
that is strictly equal to it. -/
theorem gather_eq (h : Sortable items) :
    gather [] 0 items = (firstOccurrences items).map (group items) := by
  induction items using List.reverseRecOn with
  | nil => rfl
  | append_singleton items w ih =>
      have hw : w ∈ items ++ [w] := List.mem_append_right _ List.mem_cons_self
      have hmem : ∀ e ∈ firstOccurrences items, e.1 ∈ items ++ [w] :=
        fun e he => List.mem_append_left _ (mem_of_firstOccurrences he).1
      have hany : (firstOccurrences items).any ((joins ·.1 w) ∘ group items) =
          items.any (strictEqual · w) := by
        rw [← any_firstOccurrences h, Bool.eq_iff_iff, List.any_eq_true, List.any_eq_true]
        refine exists_congr fun e => and_congr_right fun he => ?_
        rw [Function.comp_apply, ← h.joins_eq _ (hmem e he) w hw]
        exact Iff.rfl
      have hgrown : ∀ e ∈ firstOccurrences items,
          ((group items e).1, (group items e).2 ++
            if joins (group items e).1 w then [items.length] else []) = group (items ++ [w]) e := by
        intro e he
        have hnew : (items.length == e.2) = false :=
          beq_false_of_ne (Nat.ne_of_gt (mem_of_firstOccurrences he).2)
        have hjoins : joins (group items e).1 w = strictEqual e.1 w := h.joins_eq _ (hmem e he) w hw
        rw [hjoins, group, group, positions_append, hnew, Bool.false_or]
      rw [gather_append, ih (h.subset (List.subset_append_left items [w])), Nat.zero_add,
        place_eq _ (pairwise_group h), List.map_map, firstOccurrences_append, List.map_append]
      refine congrArg₂ (· ++ ·) (List.map_congr_left hgrown) ?_
      rw [List.any_map, hany]
      cases hw : items.any (strictEqual · w) with
      | true => rfl
      | false => exact congrArg (fun g => [g]) (group_opened h hw).symm

/-- Next to a position itself, what equals its item is all that equals it,
or nothing is. -/
theorem positions_group (h : Sortable items) {e : Value × Nat} (he : e ∈ items.zipIdx) :
    (group items e).2 = positions items (fun f => strictEqual e.1 f.1) ∨
      (group items e).2.length ≤ 1 ∧ positions items (fun f => strictEqual e.1 f.1) = [] := by
  have hmem : e.1 ∈ items := List.fst_mem_of_mem_zipIdx he
  cases hself : strictEqual e.1 e.1 with
  | true =>
      refine .inl (positions_congr fun f hf => ?_)
      cases hindex : f.2 == e.2 with
      | false => exact Bool.false_or _
      | true =>
          have hitem : some e.1 = some f.1 := by
            rw [← List.mem_zipIdx_iff_getElem?.mp he, ← List.mem_zipIdx_iff_getElem?.mp hf,
              eq_of_beq hindex]
          rw [Bool.true_or, ← Option.some.inj hitem, hself]
  | false =>
      have hnone : ∀ f ∈ items.zipIdx, strictEqual e.1 f.1 = false := by
        intro f hf
        have hf : f.1 ∈ items := List.fst_mem_of_mem_zipIdx hf
        refine Bool.eq_false_iff.mpr fun heq => Bool.eq_false_iff.mp hself ?_
        exact h.trans _ hmem _ hf _ hmem heq (h.symm _ hmem _ hf heq)
      refine .inr ⟨?_, positions_eq_nil hnone⟩
      have honly : (group items e).2 = positions items fun f => f.2 == e.2 :=
        positions_congr fun f hf => by rw [hnone f hf, Bool.or_false]
      exact honly ▸ length_positions_index _

theorem duplicateGroups_eq (h : Sortable items) : duplicateGroups items = repeatedClasses items := by
  rw [duplicateGroups, gather_eq h, List.map_map, repeatedClasses]
  exact filter_map_congr fun e he => positions_group h (List.mem_of_mem_filter he)

/-- There are no duplicates when no two items are strictly equal, in either
order. -/
theorem isEmpty_iff (h : Sortable items) :
    (duplicateGroups items).isEmpty = true ↔
      items.Pairwise fun v w => strictEqual v w = false ∧ strictEqual w v = false := by
  rw [duplicateGroups_isEmpty_iff_joins]
  refine List.Pairwise.iff_of_mem fun {v w} hv hw => ?_
  rw [h.joins_eq v hv w hw]
  refine ⟨fun hvw => ⟨hvw, Bool.eq_false_iff.mpr fun hwv => ?_⟩, And.left⟩
  exact Bool.eq_false_iff.mp hvw (h.symm w hw v hv hwv)

theorem isEmpty_perm {items' : List Value} (h : Sortable items) (hperm : items.Perm items') :
    (duplicateGroups items').isEmpty = (duplicateGroups items).isEmpty := by
  rw [Bool.eq_iff_iff, isEmpty_iff h, isEmpty_iff (h.subset hperm.symm.subset)]
  exact (hperm.pairwise_iff And.symm).symm

end Sortable

/-- Whether there is an error does not depend on what it says. -/
theorem isNone_reported_congr (lead : Value) (message message' : String) (kind : ErrorKind) :
    Option.isNone <$> reported lead message kind = Option.isNone <$> reported lead message' kind := by
  rw [reported, reported, map_bind, map_bind]
  exact bind_congr fun _ => rfl

theorem isNone_checkUnique_congr {items' : List Value}
    (h : (duplicateGroups items').isEmpty = (duplicateGroups items).isEmpty) (s : Instance)
    (lead : Value) :
    Option.isNone <$> s.checkUnique items' lead = Option.isNone <$> s.checkUnique items lead := by
  unfold Instance.checkUnique
  rw [map_bind, map_bind]
  refine bind_congr fun listed => ?_
  rw [map_bind, map_bind]
  refine bind_congr fun unique => ?_
  cases unique with
  | false => rfl
  | true =>
      cases hnew : duplicateGroups items' <;> cases hold : duplicateGroups items
      all_goals rw [hnew, hold] at h
      case cons.cons => exact isNone_reported_congr ..
      all_goals cases h

/-- The equality of unfixed items sorts them if it leaves no item that can be
a key with one that cannot. -/
theorem sortable_of_isUnfixed (hunfixed : ∀ v ∈ items, v.isUnfixed = true)
    (hkeys : ∀ v ∈ items, ∀ w ∈ items, strictEqual v w = true → v.hashable = w.hashable) :
    Sortable items where
  joins_eq v hv w hw :=
    joins_eq_strictEqual (fun _ => Bool.not_eq_true' _ |>.mp)
      (everyPart_of_everywhere v (hunfixed v hv)) (everyPart_of_everywhere w (hunfixed w hw))
      fun heq hkey => (hkeys v hv w hw heq).trans hkey
  symm v hv w hw := strictEqual_symm (hunfixed v hv) (hunfixed w hw)
  trans u hu v hv w hw := strictEqual_trans (hunfixed u hu) (hunfixed v hv) (hunfixed w hw)

/-- Duplicates are the classes of strictly equal items, and whether there are
any does not depend on the order of the items. -/
theorem duplicateGroups_eq_repeatedClasses (items : List Value)
    (hunfixed : ∀ v ∈ items, v.isUnfixed = true)
    (hkeys : ∀ v ∈ items, ∀ w ∈ items, strictEqual v w = true → v.hashable = w.hashable) :
    duplicateGroups items = repeatedClasses items ∧
      ∀ items' : List Value, items.Perm items' →
        (duplicateGroups items').isEmpty = (duplicateGroups items).isEmpty ∧
        ∀ (s : Instance) (lead : Value),
          Option.isNone <$> s.checkUnique items' lead
            = Option.isNone <$> s.checkUnique items lead := by
  have hsortable := sortable_of_isUnfixed hunfixed hkeys
  refine ⟨hsortable.duplicateGroups_eq, fun items' hperm => ?_⟩
  have hempty := hsortable.isEmpty_perm hperm
  exact ⟨hempty, isNone_checkUnique_congr hempty⟩

/-- Sets and tuples among numbers: what they hold is equal and need not be of
one kind, unlike the numbers themselves. -/
theorem duplicateGroups_of_mixed_items :
    duplicateGroups [.set [.int 0], .tuple [.int 0], .int 0, .set [.bool false],
      .tuple [.float (.zero false)], .float (.zero false)] = [[0, 3], [1, 4]] :=
  (duplicateGroups_eq_repeatedClasses _ (by decide) (by decide)).1.trans (by decide)

/-- A tuple with a set and one with the same set frozen are strictly equal,
and are found to be duplicates in one of the two orders. -/
theorem duplicateGroups_of_frozen_twin :
    strictEqual (.tuple [.set [.int 1]]) (.tuple [.frozenset [.int 1]]) = true ∧
      duplicateGroups [.tuple [.set [.int 1]], .tuple [.frozenset [.int 1]]] = [] ∧
      duplicateGroups [.tuple [.frozenset [.int 1]], .tuple [.set [.int 1]]] = [[0, 1]] := by
  decide

end Conform.Value
