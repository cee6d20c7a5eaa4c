/-
# `Proofs.Registry.Ancestors` — chains are sorted closures

The ancestors of a definition are what it reaches through parents.  A chain
is put together from the chains of the parents, each layer where it occurs
first, so two things have to survive: no layer is lost or named twice, and
none comes before its ancestors.

Layers are told apart by their numbers.  In a sound registry a number
belongs to one live definition, and all layers of a chain are layers of live
ones, so a layer that is skipped is there already.
-/
import Mathlib.Logic.Relation
import Conform.Proofs.Registry.Sound

namespace Conform.Registry

open Relation (TransGen)

variable {r : Registry} {d e a x : Definition} {layers more : List Layer}

/-- The first definition has an alias of the second among its parents. -/
def Inherits (r : Registry) (d e : Definition) : Prop := ∃ p ∈ d.inherits, r.resolve p = some e

/-- The second definition is reached from the first through parents. -/
def Ancestor (r : Registry) : Definition → Definition → Prop := TransGen r.Inherits

theorem Sound.mem_of_ancestor (h : Sound r) (ha : r.Ancestor d a) : a ∈ r.definitions := by
  cases ha with
  | single hp => exact h.mem_of_resolve hp.choose_spec.2
  | tail _ hp => exact h.mem_of_resolve hp.choose_spec.2

theorem Sound.id_lt_of_inherits (h : Sound r) (hd : d ∈ r.definitions) (he : r.Inherits d e) :
    e.id < d.id := by
  obtain ⟨p, hp, hresolve⟩ := he
  obtain ⟨k, hk⟩ := h.mem_definitions.mp hd
  obtain ⟨f, hf, hlt⟩ := h.parents _ hk p hp
  obtain rfl : f = e := Option.some.inj (hf.symm.trans hresolve)
  exact hlt

theorem Sound.id_lt_of_ancestor (h : Sound r) (hd : d ∈ r.definitions) (ha : r.Ancestor d a) :
    a.id < d.id := by
  induction ha with
  | single hp => exact h.id_lt_of_inherits hd hp
  | tail hda hp ih => exact Nat.lt_trans (h.id_lt_of_inherits (h.mem_of_ancestor hda) hp) ih

/-! ## Layers in order -/

/-- Layers of live definitions, each once, and none before an ancestor. -/
structure Ordered (r : Registry) (layers : List Layer) : Prop where
  live : ∀ l ∈ layers, ∃ x ∈ r.definitions, x.layer = l
  once : (layers.map Layer.id).Nodup
  sorted : ∀ before x after, layers = before ++ x.layer :: after → x ∈ r.definitions →
    ∀ a, r.Ancestor x a → a.layer ∈ before

theorem ordered_nil : Ordered r [] where
  live := by simp
  once := List.nodup_nil
  sorted := by simp

/-- A new layer may follow its ancestors. -/
theorem Ordered.snoc (h : Sound r) (ho : Ordered r layers) (hx : x ∈ r.definitions)
    (hnew : ∀ l ∈ layers, l.id ≠ x.layer.id) (hx' : ∀ a, r.Ancestor x a → a.layer ∈ layers) :
    Ordered r (layers ++ [x.layer]) where
  live := by
    intro l hl
    rcases List.mem_append.mp hl with hl | hl
    · exact ho.live l hl
    · exact ⟨x, hx, (List.mem_singleton.mp hl).symm⟩
  once := by
    rw [List.map_append, List.map_singleton, List.nodup_append]
    refine ⟨ho.once, List.nodup_singleton _, fun n hn m hm => ?_⟩
    obtain ⟨l, hl, rfl⟩ := List.mem_map.mp hn
    rw [List.mem_singleton.mp hm]
    exact hnew l hl
  sorted := by
    intro before y after hsplit hy a ha
    rcases List.eq_nil_or_concat after with rfl | ⟨after, l, rfl⟩
    · -- the last layer is that of `x` and of no other live definition
      obtain ⟨rfl, hlast⟩ := List.append_inj' hsplit rfl
      have hlayer : x.layer = y.layer := by simpa using hlast
      obtain rfl : x = y := h.eq_of_id hx hy (congrArg Layer.id hlayer)
      exact hx' a ha
    · have hsplit : layers ++ [x.layer] = (before ++ y.layer :: after) ++ [l] := by
        simpa using hsplit
      exact ho.sorted before y after (List.append_inj' hsplit rfl).1 hy a ha

/-- A layer joins others that have its ancestors; one that is there stays
where it is. -/
theorem Ordered.add (h : Sound r) (ho : Ordered r layers) (hx : x ∈ r.definitions)
    (hx' : ∀ a, r.Ancestor x a → a.layer ∈ layers) :
    Ordered r (addLayers layers [x.layer]) ∧
      ∀ l, l ∈ addLayers layers [x.layer] ↔ l ∈ layers ∨ l = x.layer := by
  simp only [addLayers, List.foldl_cons, List.foldl_nil]
  split
  · rename_i hany
    have hmem : x.layer ∈ layers := by
      obtain ⟨l, hl, hid⟩ := List.any_eq_true.mp hany
      obtain ⟨y, hy, rfl⟩ := ho.live l hl
      obtain rfl : y = x := h.eq_of_id hy hx (beq_iff_eq.mp hid)
      exact hl
    refine ⟨ho, fun l => ⟨.inl, ?_⟩⟩
    rintro (hl | rfl)
    · exact hl
    · exact hmem
  · rename_i hany
    have hnew : ∀ l ∈ layers, l.id ≠ x.layer.id := by simpa using hany
    exact ⟨ho.snoc h hx hnew hx', fun l => by rw [List.mem_append, List.mem_singleton]⟩

/-- Layers that are gone through in order join others: what comes before a
layer is there when it is its turn. -/
theorem Ordered.addLayers (h : Sound r) (todo past : List Layer) {layers : List Layer}
    (ho : Ordered r layers) (hmore : Ordered r (past ++ todo)) (hpast : ∀ l ∈ past, l ∈ layers) :
    Ordered r (addLayers layers todo) ∧
      ∀ l, l ∈ addLayers layers todo ↔ l ∈ layers ∨ l ∈ todo := by
  induction todo generalizing past layers with
  | nil => exact ⟨ho, by simp [Registry.addLayers]⟩
  | cons m rest ih =>
      obtain ⟨x, hx, rfl⟩ := hmore.live m (by simp)
      have hx' : ∀ a, r.Ancestor x a → a.layer ∈ layers := fun a ha =>
        hpast _ (hmore.sorted past x rest rfl hx a ha)
      obtain ⟨hadd, hmem⟩ := ho.add h hx hx'
      have hpast' : ∀ l ∈ past ++ [x.layer], l ∈ Registry.addLayers layers [x.layer] := by
        intro l hl
        rw [hmem]
        exact (List.mem_append.mp hl).imp (hpast l) List.mem_singleton.mp
      obtain ⟨hordered, hmembers⟩ :=
        ih (past ++ [x.layer]) hadd (by simpa using hmore) hpast'
      refine ⟨hordered, fun l => (hmembers l).trans ?_⟩
      rw [hmem, List.mem_cons, or_assoc]

theorem Ordered.inheritedChain (h : Sound r) (parents : List Value) {layers : List Layer}
    (ho : Ordered r layers)
    (hparents : ∀ p ∈ parents, ∃ e, r.resolve p = some e ∧ Ordered r e.chain) :
    let chain := parents.foldl (fun acc p =>
      Registry.addLayers acc ((r.resolve p).map Definition.chain |>.getD [])) layers
    Ordered r chain ∧
      ∀ l, l ∈ chain ↔ l ∈ layers ∨ ∃ p ∈ parents, ∃ e, r.resolve p = some e ∧ l ∈ e.chain := by
  induction parents generalizing layers with
  | nil => exact ⟨ho, by simp⟩
  | cons p rest ih =>
      obtain ⟨e, he, hchain⟩ := hparents p List.mem_cons_self
      obtain ⟨hadd, hmem⟩ := ho.addLayers h e.chain [] (by simpa using hchain) (by simp)
      obtain ⟨hordered, hmembers⟩ := ih hadd
        fun q hq => hparents q (List.mem_cons_of_mem _ hq)
      simp only [List.foldl_cons, he, Option.map_some, Option.getD_some]
      refine ⟨hordered, fun l => (hmembers l).trans ?_⟩
      rw [hmem, or_assoc]
      simp [he]

/-! ## The chain of a live definition -/

/-- The chain of a live definition has its layers in order: its own and those
of its ancestors. -/
theorem Sound.chain (h : Sound r) (hd : d ∈ r.definitions) :
    Ordered r d.chain ∧ ∀ l, l ∈ d.chain ↔ l = d.layer ∨ ∃ a, r.Ancestor d a ∧ l = a.layer := by
  -- parents are older
  induction hn : d.id using Nat.strongRecOn generalizing d with
  | ind n ih =>
  subst hn
  obtain ⟨k, hk⟩ := h.mem_definitions.mp hd
  have parent : ∀ p ∈ d.inherits, ∃ e, r.resolve p = some e ∧ Ordered r e.chain ∧
      ∀ l, l ∈ e.chain ↔ l = e.layer ∨ ∃ a, r.Ancestor e a ∧ l = a.layer := by
    intro p hp
    obtain ⟨e, he, hlt⟩ := h.parents _ hk p hp
    exact ⟨e, he, ih e.id hlt (h.mem_of_resolve he) rfl⟩
  obtain ⟨hordered, hmembers⟩ := Ordered.inheritedChain h d.inherits ordered_nil
    fun p hp => (parent p hp).imp fun _ he => ⟨he.1, he.2.1⟩
  have members : ∀ l, l ∈ r.inheritedChain d.inherits ↔ ∃ a, r.Ancestor d a ∧ l = a.layer := by
    intro l
    refine (hmembers l).trans ?_
    constructor
    · rintro (hl | ⟨p, hp, e, he, hl⟩)
      · simp at hl
      · obtain ⟨f, hf, -, hchain⟩ := parent p hp
        obtain rfl : e = f := Option.some.inj (he.symm.trans hf)
        rcases (hchain l).mp hl with rfl | ⟨a, ha, rfl⟩
        · exact ⟨e, .single ⟨p, hp, he⟩, rfl⟩
        · exact ⟨a, .head ⟨p, hp, he⟩ ha, rfl⟩
    · rintro ⟨a, ha, rfl⟩
      obtain ⟨e, ⟨p, hp, he⟩, hea⟩ := TransGen.head'_iff.mp ha
      obtain ⟨f, hf, -, hchain⟩ := parent p hp
      obtain rfl : e = f := Option.some.inj (he.symm.trans hf)
      refine .inr ⟨p, hp, e, he, (hchain _).mpr ?_⟩
      rcases Relation.reflTransGen_iff_eq_or_transGen.mp hea with rfl | hea
      · exact .inl rfl
      · exact .inr ⟨a, hea, rfl⟩
  have fresh : ∀ l ∈ r.inheritedChain d.inherits, l.id ≠ d.layer.id := by
    intro l hl
    obtain ⟨a, ha, rfl⟩ := (members l).mp hl
    exact Nat.ne_of_lt (h.id_lt_of_ancestor hd ha)
  rw [h.chains _ hk]
  refine ⟨hordered.snoc h hd fresh fun a ha => (members _).mpr ⟨a, ha, rfl⟩, fun l => ?_⟩
  rw [List.mem_append, members, List.mem_singleton, or_comm]

end Conform.Registry
