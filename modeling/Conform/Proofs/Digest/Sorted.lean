/-
# `Proofs.Digest.Sorted` — texts have one order

Attributes are digested in the order of their names, and objects are written
in the order of their keys.  Texts are ordered by code points: the order is
total, and different texts have different places in it.  So what is sorted
by distinct texts depends on what is there and not on how it was put there.
-/
import Conform.Proofs.Digest.Outline
import Mathlib.Data.List.Sort

namespace Conform

/-- The order of texts is that of their code points, one by one. -/
theorem compareTexts_eq (s t : String) :
    compareTexts s t
      = List.compareLex compare (s.toList.map Char.toNat) (t.toList.map Char.toNat) := by
  have numbers : ∀ xs ys : List Nat, compareNumbers xs ys = List.compareLex compare xs ys := by
    intro xs
    induction xs with
    | nil =>
        intro ys
        cases ys <;> rfl
    | cons x xs ih =>
        intro ys
        cases ys with
        | nil => rfl
        | cons y ys => rw [compareNumbers, List.compareLex_cons_cons, ih]
  exact numbers _ _

/-- Whether a text stands before another one, or is the same. -/
def textBelow (s t : String) : Bool := compareTexts s t != .gt

namespace textBelow

variable {s t u : String}

theorem iff_isLE : textBelow s t = true ↔
    (List.compareLex compare (s.toList.map Char.toNat) (t.toList.map Char.toNat)).isLE = true := by
  rw [textBelow, compareTexts_eq, bne_iff_ne, Ordering.isLE_iff_ne_gt]

theorem trans (h : textBelow s t = true) (h' : textBelow t u = true) : textBelow s u = true :=
  iff_isLE.mpr (Std.TransCmp.isLE_trans (iff_isLE.mp h) (iff_isLE.mp h'))

theorem total (s t : String) : (textBelow s t || textBelow t s) = true := by
  have hswap : List.compareLex compare (t.toList.map Char.toNat) (s.toList.map Char.toNat)
      = (List.compareLex compare (s.toList.map Char.toNat) (t.toList.map Char.toNat)).swap :=
    Std.OrientedCmp.eq_swap
  rw [Bool.or_eq_true, iff_isLE, iff_isLE, hswap]
  cases List.compareLex compare (s.toList.map Char.toNat) (t.toList.map Char.toNat) <;> decide

theorem antisymm (h : textBelow s t = true) (h' : textBelow t s = true) : s = t := by
  have hcodes : s.toList.map Char.toNat = t.toList.map Char.toNat :=
    Std.LawfulEqCmp.eq_of_compare
      (Std.OrientedCmp.isLE_antisymm (iff_isLE.mp h) (iff_isLE.mp h'))
  have hinj : Function.Injective Char.toNat := fun c d hcd => Char.toNat_inj.mp hcd
  exact String.toList_inj.mp (hinj.list_map hcodes)

end textBelow

theorem map_mergeSort_text {α β : Type} (f : α → β) (name : β → String) (l : List α) :
    (l.mergeSort fun a b => textBelow (name (f a)) (name (f b))).map f
      = (l.map f).mergeSort fun a b => textBelow (name a) (name b) :=
  List.map_mergeSort fun _ _ _ _ => rfl

section sorting

variable {α : Type} {name : α → String} {l l' : List α}

theorem pairwise_mergeSort_text (l : List α) :
    (l.mergeSort fun a b => textBelow (name a) (name b)).Pairwise
      fun a b => textBelow (name a) (name b) = true :=
  @List.pairwise_mergeSort α (fun a b => textBelow (name a) (name b))
    (fun _ _ _ h h' => textBelow.trans h h') (fun _ _ => textBelow.total _ _) l

/-- Under distinct texts there is one sorted list. -/
theorem mergeSort_eq_of_perm (hnodup : (l.map name).Nodup) (hperm : l'.Perm l)
    (hsorted : l'.Pairwise fun a b => textBelow (name a) (name b) = true) :
    l.mergeSort (fun a b => textBelow (name a) (name b)) = l' := by
  have hsame := List.mergeSort_perm l fun a b => textBelow (name a) (name b)
  refine (hsame.trans hperm.symm).eq_of_pairwise ?_ (pairwise_mergeSort_text l) hsorted
  intro a b ha hb hab hba
  exact List.inj_on_of_nodup_map hnodup (hsame.subset ha) (hperm.subset hb)
    (textBelow.antisymm hab hba)

/-- The order in which things were put does not show. -/
theorem mergeSort_congr (hnodup : (l.map name).Nodup) (hperm : l'.Perm l) :
    l.mergeSort (fun a b => textBelow (name a) (name b))
      = l'.mergeSort fun a b => textBelow (name a) (name b) :=
  mergeSort_eq_of_perm hnodup ((List.mergeSort_perm _ _).trans hperm) (pairwise_mergeSort_text l')

end sorting

/-- Texts have one sorted list, also when some of them occur more than once. -/
theorem mergeSort_texts {l l' : List String} (hperm : l.Perm l') :
    l.mergeSort textBelow = l'.mergeSort textBelow := by
  have hsame : (l.mergeSort textBelow).Perm (l'.mergeSort textBelow) :=
    ((List.mergeSort_perm _ _).trans hperm).trans (List.mergeSort_perm _ _).symm
  refine hsame.eq_of_pairwise ?_ (@pairwise_mergeSort_text String id l)
    (@pairwise_mergeSort_text String id l')
  exact fun _ _ _ _ hab hba => textBelow.antisymm hab hba

/-- A tree under a text, as an entry. -/
def StableText.textEntry (e : String × Tree) : Value × Except Fault Tree := (.str e.1, .ok e.2)

/-- Trees under texts stand in the order of the texts. -/
theorem StableText.objectTree_texts (es : List (String × Tree)) :
    objectTree (es.map textEntry) = .ok (.object (es.mergeSort fun a b => textBelow a.1 b.1)) := by
  have hcomparable : comparable ((es.map textEntry).map (·.1)) = true := by
    match es with
    | [] => rfl
    | [_] => rfl
    | _ :: _ :: _ => simp [comparable, textEntry, Value.text?]
  have hsorted : (es.map textEntry).mergeSort (fun a b => keyBelow a.1 b.1)
      = (es.mergeSort fun a b => textBelow a.1 b.1).map textEntry :=
    (List.map_mergeSort (f := textEntry) (r := fun a b => textBelow a.1 b.1)
      (s := fun a b => keyBelow a.1 b.1) fun _ _ _ _ => rfl).symm
  have hnames : ∀ us : List (String × Tree),
      (us.map textEntry).mapM
          (fun e => do return (← keyName e.1, ← e.2) : _ → Except Fault _) = .ok us := by
    intro us
    induction us with
    | nil => rfl
    | cons u us ih =>
        rw [List.map_cons, List.mapM_cons, ih]
        rfl
  rw [objectTree, hcomparable, if_pos rfl]
  dsimp only
  rw [hsorted]
  exact congrArg (· >>= fun es => pure (Tree.object es)) (hnames _)

namespace Attributes

variable {attrs attrs' : Attributes}

theorem sortedPublic_of_public (hpublic : ∀ e ∈ attrs, isPublic e.1 = true) :
    attrs.sortedPublic = attrs.mergeSort fun a b => textBelow a.1 b.1 := by
  unfold textBelow
  rw [sortedPublic, List.filter_eq_self.mpr hpublic]

theorem sortedPublic_eq (hnodup : (attrs.map (·.1)).Nodup)
    (hpublic : ∀ e ∈ attrs, isPublic e.1 = true) (hperm : attrs'.Perm attrs)
    (hsorted : (attrs'.map (·.1)).Pairwise fun s t => textBelow s t = true) :
    attrs.sortedPublic = attrs' := by
  rw [sortedPublic_of_public hpublic]
  exact mergeSort_eq_of_perm hnodup hperm (List.pairwise_map.mp hsorted)

/-- Attributes under the same names are sorted alike. -/
theorem forall₂_sortedPublic {R : Value → Value → Prop}
    (h : List.Forall₂ (fun e e' => e.1 = e'.1 ∧ R e.2 e'.2) attrs attrs') :
    List.Forall₂ (fun e e' => e.1 = e'.1 ∧ R e.2 e'.2) attrs.sortedPublic attrs'.sortedPublic := by
  have hzip : ∃ zs : List (String × Value × Value), attrs = zs.map (fun z => (z.1, z.2.1)) ∧
      attrs' = zs.map (fun z => (z.1, z.2.2)) ∧ ∀ z ∈ zs, R z.2.1 z.2.2 := by
    induction h with
    | nil => exact ⟨[], rfl, rfl, List.forall_mem_nil _⟩
    | @cons e e' _ _ he _ ih =>
        obtain ⟨zs, rfl, rfl, hzs⟩ := ih
        refine ⟨(e.1, e.2, e'.2) :: zs, rfl, ?_, List.forall_mem_cons.mpr ⟨he.2, hzs⟩⟩
        rw [List.map_cons, he.1]
  obtain ⟨zs, rfl, rfl, hzs⟩ := hzip
  have hsorted : ∀ f : String × Value × Value → String × Value, (∀ z, (f z).1 = z.1) →
      sortedPublic (zs.map f)
        = ((zs.filter (isPublic ·.1)).mergeSort fun a b => textBelow a.1 b.1).map f := by
    intro f hf
    have hname := map_mergeSort_text f (fun e : String × Value => e.1) (zs.filter (isPublic ·.1))
    simp only [hf] at hname
    rw [hname, sortedPublic, List.filter_map]
    simp only [Function.comp_def, hf]
    rfl
  rw [hsorted _ fun _ => rfl, hsorted _ fun _ => rfl, List.forall₂_map_left_iff,
    List.forall₂_map_right_iff, List.forall₂_same]
  intro z hz
  exact ⟨rfl, hzs z (List.mem_of_mem_filter (List.mem_mergeSort.mp hz))⟩

end Attributes

end Conform
