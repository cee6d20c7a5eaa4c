/-
# `Proofs.Value.Indifferent` — equality does not see an order

Reordered values are equal to the same values: as keys, as arrays, and as
values, on either side.  So an enumeration lists the same values, and keeps
the same of its entries when repeated ones are dropped.

On the left the induction goes over the reordered value; the right side
follows for keys, whose equality is symmetric, and is a second induction for
values, whose equality is not known to be.

A literal form lists the parts in their order, but whether there is one does not
depend on that.
-/
import Conform.Proofs.Value.Reordered
import Conform.Proofs.Value.Written

namespace Conform

namespace Value

/-- A check that goes over two lists in step does not tell items apart that each of its
steps takes for the same. -/
theorem inStep_congr (all : List Value → List Value → Bool) (same : Value → Value → Bool)
    (hnil : ∀ v vs, all (v :: vs) [] = false)
    (hcons : ∀ v vs u us, all (v :: vs) (u :: us) = (same v u && all vs us))
    {zs : List (Value × Value)} (h : ∀ z ∈ zs, ∀ u, same z.1 u = same z.2 u) :
    ∀ us, all (zs.map Prod.fst) us = all (zs.map Prod.snd) us := by
  induction zs with
  | nil => exact fun us => rfl
  | cons z rest ih =>
      intro us
      obtain ⟨hz, hrest⟩ := List.forall_mem_cons.mp h
      rw [List.map_cons, List.map_cons]
      cases us with
      | nil => rw [hnil, hnil]
      | cons u us => rw [hcons, hcons, hz, ih hrest]

theorem equalAll_congr {zs : List (Value × Value)} (h : ∀ z ∈ zs, ∀ u, equal z.1 u = equal z.2 u) :
    ∀ us, equalAll (zs.map Prod.fst) us = equalAll (zs.map Prod.snd) us :=
  inStep_congr equalAll equal (fun _ _ => rfl) (fun _ _ _ _ => rfl) h

theorem equalAll_congr_right {zs : List (Value × Value)}
    (h : ∀ z ∈ zs, ∀ u, equal u z.1 = equal u z.2) :
    ∀ us, equalAll us (zs.map Prod.fst) = equalAll us (zs.map Prod.snd) :=
  inStep_congr (fun vs us => equalAll us vs) (fun v u => equal u v) (fun _ _ => rfl)
    (fun _ _ _ _ => rfl) h

theorem sameKeys_congr {zs : List (Value × Value)}
    (h : ∀ z ∈ zs, ∀ u, sameKey z.1 u = sameKey z.2 u) :
    ∀ us, sameKeys (zs.map Prod.fst) us = sameKeys (zs.map Prod.snd) us :=
  inStep_congr sameKeys sameKey (fun _ _ => rfl) (fun _ _ _ _ => rfl) h

theorem entriesWithin_iff {fs : Entries} :
    ∀ {es : Entries}, entriesWithin es fs = true ↔
      ∀ e ∈ es, ∃ f ∈ fs, sameKey e.1 f.1 = true ∧ equal e.2 f.2 = true
  | [] => by simp [entriesWithin]
  | (k, v) :: rest => by simp [entriesWithin, entriesWithin_iff]

theorem entriesInclude_iff {key w : Value} :
    ∀ {es : Entries}, entriesInclude es key w = true ↔
      ∃ e ∈ es, sameKey e.1 key = true ∧ equal e.2 w = true
  | [] => by simp [entriesInclude]
  | (k, v) :: rest => by simp [entriesInclude, entriesInclude_iff]

/-- Dictionaries are equal when each entry of one has an equal one in the
other. -/
theorem equal_dict_iff {es fs : Entries} : equal (.dict es) (.dict fs) = true ↔
    (∀ e ∈ es, ∃ f ∈ fs, sameKey e.1 f.1 = true ∧ equal e.2 f.2 = true) ∧
      ∀ f ∈ fs, ∃ e ∈ es, sameKey e.1 f.1 = true ∧ equal e.2 f.2 = true := by
  rw [equal, Bool.and_eq_true, entriesWithin_iff, List.all_eq_true]
  simp only [entriesInclude_iff]

/-- Sets with the same elements in pairs are equal to the same sets. -/
theorem sameKey_elements_congr {zs zs' : List (Value × Value)} {a b : Value}
    (ha : a.elements? = some (zs.map Prod.fst)) (hb : b.elements? = some (zs'.map Prod.snd))
    (horder : zs.Perm zs') (h : ∀ z ∈ zs, ∀ u, sameKey z.1 u = sameKey z.2 u) (u : Value) :
    sameKey a u = sameKey b u := by
  rw [Bool.eq_iff_iff, sameKey_elements ha, sameKey_elements hb]
  refine exists_congr fun ys => and_congr Iff.rfl (and_congr ?_ (forall₂_congr fun y _ => ?_))
  · rw [List.forall_mem_map, List.forall_mem_map]
    exact forall_mem_perm horder fun z hz => by simp only [h z hz]
  · simp only [List.mem_map, exists_exists_and_eq_and]
    exact exists_mem_perm horder fun z hz => by rw [h z hz]

namespace Reordered

variable {R : Schema → Schema → Prop} {v w : Value}

/-! ## Keys -/

theorem sameKey_left (h : Reordered R v w) : ∀ u, sameKey v u = sameKey w u := by
  induction h with
  | atom _ => exact fun u => rfl
  | schema _ => intro u; cases u <;> rfl
  | list _ _ => intro u; cases u <;> rfl
  | dict _ _ _ _ => intro u; cases u <;> rfl
  | tuple _ ih =>
      intro u
      cases u with
      | tuple us => exact sameKeys_congr ih us
      | _ => rfl
  | set horder _ ih => exact sameKey_elements_congr rfl rfl horder ih
  | frozenset horder _ ih => exact sameKey_elements_congr rfl rfl horder ih

theorem sameKey_right (h : Reordered R v w) (u : Value) : sameKey u v = sameKey u w := by
  rw [sameKey_comm u v, sameKey_comm u w, h.sameKey_left]

/-! ## Arrays -/

theorem toTensor_eq (h : Reordered R v w) : v.toTensor = w.toTensor := by
  have all : ∀ zs : List (Value × Value), (∀ z ∈ zs, z.1.toTensor = z.2.toTensor) →
      tensors (zs.map Prod.fst) = tensors (zs.map Prod.snd) := by
    intro zs hzs
    induction zs with
    | nil => rfl
    | cons z rest ih =>
        obtain ⟨hz, hrest⟩ := List.forall_mem_cons.mp hzs
        rw [List.map_cons, List.map_cons, tensors, tensors, hz, ih hrest]
  induction h with
  | atom _ | schema _ | set _ _ _ | frozenset _ _ _ | dict _ _ _ _ => rfl
  | list _ ih | tuple _ ih => exact congrArg (· >>= Tensor.stack) (all _ ih)

theorem operand_eq (h : Reordered R v w) : v.operand = w.operand := by
  have htensor := h.toTensor_eq
  cases h with
  | atom _ => rfl
  | _ =>
      unfold operand
      rw [htensor]

theorem isFixed_eq (h : Reordered R v w) : v.isFixed = w.isFixed := by
  cases h <;> rfl

theorem plainEqual_left (h : Reordered R v w) (u : Value) : plainEqual v u = plainEqual w u := by
  simp only [plainEqual, answerEqual, h.isFixed_eq, h.operand_eq, h.sameKey_left]

theorem plainEqual_right (h : Reordered R v w) (u : Value) : plainEqual u v = plainEqual u w := by
  simp only [plainEqual, answerEqual, h.isFixed_eq, h.operand_eq, h.sameKey_right]

/-! ## Values -/

theorem equal_left (h : Reordered R v w) : ∀ u, equal v u = equal w u := by
  have hplain := h.plainEqual_left
  induction h with
  | atom _ => exact fun u => rfl
  | schema _ | set _ _ _ | frozenset _ _ _ => exact hplain
  | list h ih =>
      intro u
      cases u with
      | list us => exact equalAll_congr (fun z hz => ih z hz (h z hz).plainEqual_left) us
      | _ => exact hplain _
  | tuple h ih =>
      intro u
      cases u with
      | tuple us => exact equalAll_congr (fun z hz => ih z hz (h z hz).plainEqual_left) us
      | _ => exact hplain _
  | @dict zs zs' _ horder h ih =>
      intro u
      cases u with
      | dict fs =>
          have ih := fun z hz => ih z hz (h z hz).plainEqual_left
          rw [Bool.eq_iff_iff, equal_dict_iff, equal_dict_iff]
          refine and_congr ?_ (forall₂_congr fun f _ => ?_)
          · rw [List.forall_mem_map, List.forall_mem_map]
            exact forall_mem_perm horder fun z hz => by simp only [ih z hz]
          · simp only [List.mem_map, exists_exists_and_eq_and]
            exact exists_mem_perm horder fun z hz => by rw [ih z hz]
      | _ => exact hplain _

theorem equal_right (h : Reordered R v w) : ∀ u, equal u v = equal u w := by
  have hplain := h.plainEqual_right
  induction h with
  | atom _ => exact fun u => rfl
  | schema _ | set _ _ _ | frozenset _ _ _ =>
      intro u
      cases u <;> exact hplain _
  | list h ih =>
      intro u
      cases u with
      | list us => exact equalAll_congr_right (fun z hz => ih z hz (h z hz).plainEqual_right) us
      | _ => exact hplain _
  | tuple h ih =>
      intro u
      cases u with
      | tuple us => exact equalAll_congr_right (fun z hz => ih z hz (h z hz).plainEqual_right) us
      | _ => exact hplain _
  | @dict zs zs' _ horder h ih =>
      intro u
      cases u with
      | dict es =>
          have ih := fun z hz => ih z hz (h z hz).plainEqual_right
          rw [Bool.eq_iff_iff, equal_dict_iff, equal_dict_iff]
          refine and_congr (forall₂_congr fun e _ => ?_) ?_
          · simp only [List.mem_map, exists_exists_and_eq_and]
            exact exists_mem_perm horder fun z hz => by rw [ih z hz]
          · rw [List.forall_mem_map, List.forall_mem_map]
            exact forall_mem_perm horder fun z hz => by simp only [ih z hz]
      | _ => exact hplain _

theorem sameType_left (h : Reordered R v w) (u : Value) : sameType v u = sameType w u := by
  cases h <;> cases u <;> rfl

theorem sameType_right (h : Reordered R v w) (u : Value) : sameType u v = sameType u w := by
  cases h <;> cases u <;> rfl

theorem strictEqual_left (h : Reordered R v w) (u : Value) : strictEqual v u = strictEqual w u := by
  rw [strictEqual, strictEqual, h.sameType_left, h.equal_left]

theorem strictEqual_right (h : Reordered R v w) (u : Value) : strictEqual u v = strictEqual u w := by
  rw [strictEqual, strictEqual, h.sameType_right, h.equal_right]

/-! ## Items that are strictly equal -/

theorem isSome_strictIndex? {items items' : List Value}
    (h : List.Forall₂ (Reordered R) items items') (v : Value) :
    (strictIndex? items v).isSome = (strictIndex? items' v).isSome := by
  rw [strictIndex?, strictIndex?, List.findIdx?_isSome, List.findIdx?_isSome]
  induction h with
  | nil => rfl
  | cons hitem _ ih => rw [List.any_cons, List.any_cons, ih, hitem.strictEqual_left]

theorem strictIndex?_eq (h : Reordered R v w) (items : List Value) :
    strictIndex? items v = strictIndex? items w := by
  simp only [strictIndex?, h.strictEqual_right]

/-- What is kept of listed values has the same places. -/
theorem dedupeStrict {items items' : List Value} (h : List.Forall₂ (Reordered R) items items') :
    List.Forall₂ (Reordered R) (dedupeStrict items) (Value.dedupeStrict items') := by
  have hkept : ∀ kept kept' : List Value, List.Forall₂ (Reordered R) kept kept' →
      List.Forall₂ (Reordered R)
        (items.foldl (fun kept v => if (strictIndex? kept v).isSome then kept else kept ++ [v]) kept)
        (items'.foldl (fun kept v => if (strictIndex? kept v).isSome then kept else kept ++ [v])
          kept') := by
    induction h with
    | nil => exact fun _ _ hkept => hkept
    | @cons v w _ _ hvw _ ih =>
        intro kept kept' hkept
        rw [List.foldl_cons, List.foldl_cons, isSome_strictIndex? hkept v,
          hvw.strictIndex?_eq kept']
        refine ih _ _ ?_
        split
        · exact hkept
        · exact List.rel_append hkept (.cons hvw .nil)
  exact hkept [] [] .nil

/-! ## Literal forms -/

theorem hasLiteral_eq (h : Reordered R v w) : v.hasLiteral = w.hasLiteral := by
  have all {zs zs' : List (Value × Value)} (horder : zs.Perm zs')
      (h : ∀ z ∈ zs, z.1.hasLiteral = z.2.hasLiteral) :
      haveLiterals (zs.map Prod.fst) = haveLiterals (zs'.map Prod.snd) := by
    rw [Bool.eq_iff_iff, haveLiterals_iff, haveLiterals_iff, List.forall_mem_map,
      List.forall_mem_map]
    exact forall_mem_perm horder fun z hz => by rw [h z hz]
  induction h with
  | atom _ | schema _ => rfl
  | list _ ih | tuple _ ih => exact all (.refl _) ih
  | set horder _ ih | frozenset horder _ ih => exact all horder ih
  | dict _ horder _ ih =>
      rw [Bool.eq_iff_iff, hasLiteral_dict, hasLiteral_dict, List.forall_mem_map,
        List.forall_mem_map]
      exact forall_mem_perm horder fun z hz => by rw [ih z hz]

end Reordered

end Value

end Conform
