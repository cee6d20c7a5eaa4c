/-
# `Proofs.Registry.Sound` — what holds of every registry

`Sound` couples the two tables of a registry and the chains that its
definitions keep.  An empty registry is sound, a definition that passed the
checks keeps it so when it enters, and one that nothing inherits from keeps
it so when it leaves.

Both changes leave alone what the others resolve.  An entering definition
takes only aliases that nothing answered to; a leaving one is no parent of
those that stay, because it would be mentioned among its own dependents.
Everything else is carried over along that.
-/
import Mathlib.Data.List.Nodup
import Conform.Proofs.Registry.Store

namespace Conform.Registry

open Value (sameKey sameKey_symm sameKey_trans)

/-! ## What the checks establish -/

theorem resolve_eq_some_iff {r : Registry} {key : Value} {d : Definition} :
    r.resolve key = some d ↔ key.hashable = true ∧ find? r.store key = some d := by
  simp [resolve]

theorem checkAliases_ok {r : Registry} :
    ∀ {aliases : List Value}, r.checkAliases aliases = .ok () →
      ∀ a ∈ aliases, a.hashable = true ∧ find? r.store a = none
  | [], _, _, ha => by simp at ha
  | key :: rest, h, a, ha => by
      simp only [checkAliases] at h
      split at h
      · simp at h
      · rename_i hashable
        split at h
        · simp at h
        · rename_i free
          rcases List.mem_cons.mp ha with rfl | ha
          · have hh : a.hashable = true := by simpa using hashable
            exact ⟨hh, by simpa [contains, resolve, hh] using free⟩
          · exact checkAliases_ok h a ha

theorem checkParents_ok {r : Registry} :
    ∀ {parents : List Value}, r.checkParents parents = .ok () →
      ∀ p ∈ parents, ∃ e, r.resolve p = some e
  | [], _, _, hp => by simp at hp
  | parent :: rest, h, p, hp => by
      simp only [checkParents] at h
      split at h
      · rename_i live
        rcases List.mem_cons.mp hp with rfl | hp
        · exact Option.isSome_iff_exists.mp live
        · exact checkParents_ok h p hp
      · simp at h

/-- A deletion that is granted takes out the definition of the key, which
then has no dependents, or nothing if there is none. -/
theorem delete_ok {r r' : Registry} {key : Value} (h : r.delete key = .ok r') :
    (r.resolve key = none ∧ r' = r) ∨
      ∃ d, r.resolve key = some d ∧ r.dependentsOf d = [] ∧ r' = r.remove d := by
  simp only [delete] at h
  split at h
  · rename_i hk
    exact .inl ⟨hk, (Except.ok.inj h).symm⟩
  · rename_i d hk
    split at h
    · rename_i hd
      exact .inr ⟨d, hk, hd, (Except.ok.inj h).symm⟩
    · simp at h

/-! ## The invariant -/

/-- How often a list of parents names the definition with a number. -/
def mentions (r : Registry) (parents : List Value) (n : Nat) : Nat :=
  parents.countP fun p => (r.resolve p).any (·.id == n)

structure Sound (r : Registry) : Prop where
  numbered : ∀ e ∈ r.store, e.2.id < r.count
  numbersApart : NumbersApart r.store
  ascending : r.store.Pairwise fun e f => e.2.id ≤ f.2.id
  keysApart : KeysApart r.store
  /-- A key of the store is an alias of its definition. -/
  isAlias : ∀ e ∈ r.store, e.1 ∈ e.2.aliases
  /-- Every alias can be a key, and some key of the definition answers for
  it. -/
  hasKey : ∀ e ∈ r.store, ∀ a ∈ e.2.aliases,
    a.hashable = true ∧ ∃ k, (k, e.2) ∈ r.store ∧ (k = a ∨ sameKey k a = true)
  /-- Parents are live and older. -/
  parents : ∀ e ∈ r.store, ∀ p ∈ e.2.inherits, ∃ f, r.resolve p = some f ∧ f.id < e.2.id
  chains : ∀ e ∈ r.store, e.2.chain = r.inheritedChain e.2.inherits ++ [e.2.layer]
  oneList : (r.dependents.map (·.1)).Nodup
  /-- Those who inherit, in order, once for every mention. -/
  dependentsListed : ∀ n, (r.dependents.lookup n).getD []
    = r.definitions.flatMap fun d => List.replicate (r.mentions d.inherits n) d

theorem sound_empty : Sound empty where
  numbered := by simp [empty]
  numbersApart := by simp [empty, NumbersApart]
  ascending := by simp [empty]
  keysApart := by simp [empty, KeysApart]
  isAlias := by simp [empty]
  hasKey := by simp [empty]
  parents := by simp [empty]
  chains := by simp [empty]
  oneList := by simp [empty]
  dependentsListed := by simp [empty, definitions, distinct]

variable {r : Registry} {d e : Definition} {key p : Value}

theorem Sound.mem_definitions (h : Sound r) : d ∈ r.definitions ↔ ∃ k, (k, d) ∈ r.store :=
  ⟨fun hd => (mem_distinct_of hd).2, fun ⟨_, hk⟩ => mem_distinct h.numbersApart hk (by simp)⟩

theorem Sound.nodup_definitions (h : Sound r) : r.definitions.Nodup :=
  (distinct_ascending h.ascending).imp fun hlt heq => absurd hlt (by simp [heq])

theorem Sound.mem_of_resolve (h : Sound r) (hk : r.resolve key = some d) : d ∈ r.definitions := by
  obtain ⟨k, hm, -⟩ := mem_of_find? (resolve_eq_some_iff.mp hk).2
  exact h.mem_definitions.mpr ⟨k, hm⟩

/-- Live definitions with one number are one definition. -/
theorem Sound.eq_of_id (h : Sound r) (hd : d ∈ r.definitions) (he : e ∈ r.definitions)
    (hid : d.id = e.id) : d = e := by
  obtain ⟨k, hk⟩ := h.mem_definitions.mp hd
  obtain ⟨l, hl⟩ := h.mem_definitions.mp he
  exact h.numbersApart _ hk _ hl hid

/-- An alias of a live definition resolves to it, and nothing else does. -/
theorem Sound.resolve_iff (h : Sound r) :
    r.resolve key = some d ↔
      d ∈ r.definitions ∧ key.hashable = true ∧ ∃ a ∈ d.aliases, sameKey a key = true := by
  rw [resolve_eq_some_iff, h.mem_definitions]
  constructor
  · rintro ⟨hh, hf⟩
    obtain ⟨k, hk, hs⟩ := mem_of_find? hf
    exact ⟨⟨k, hk⟩, hh, k, h.isAlias _ hk, hs⟩
  · rintro ⟨⟨k, hk⟩, hh, a, ha, hs⟩
    obtain ⟨-, l, hl, hla⟩ := h.hasKey _ hk a ha
    refine ⟨hh, h.keysApart.find?_eq hl ?_⟩
    rcases hla with rfl | hla
    · exact hs
    · exact sameKey_trans _ hla hs

theorem Sound.live_parents (h : Sound r) {e : Value × Definition} (he : e ∈ r.store) :
    ∀ p ∈ e.2.inherits, ∃ f, r.resolve p = some f := fun p hp =>
  (h.parents e he p hp).imp fun _ hf => hf.1

/-! ## What depends on lookups alone -/

theorem inheritedChain_congr {r s : Registry} {parents : List Value}
    (h : ∀ p ∈ parents, r.resolve p = s.resolve p) :
    r.inheritedChain parents = s.inheritedChain parents := by
  have go : ∀ (ps : List Value) (acc : List Layer), (∀ p ∈ ps, r.resolve p = s.resolve p) →
      ps.foldl (fun acc p => addLayers acc ((r.resolve p).map Definition.chain |>.getD [])) acc
        = ps.foldl (fun acc p => addLayers acc ((s.resolve p).map Definition.chain |>.getD []))
            acc := by
    intro ps
    induction ps with
    | nil => exact fun _ _ => rfl
    | cons p ps ih =>
        intro acc hps
        simp only [List.foldl_cons, hps p List.mem_cons_self]
        exact ih _ fun q hq => hps q (List.mem_cons_of_mem _ hq)
  exact go parents [] h

theorem mentions_congr {r s : Registry} {parents : List Value} {n : Nat}
    (h : ∀ p ∈ parents, r.resolve p = s.resolve p) : r.mentions parents n = s.mentions parents n :=
  List.countP_congr fun p hp => by rw [h p hp]

theorem flatMap_congr {α β : Type} {xs : List α} {f g : α → List β} (h : ∀ x ∈ xs, f x = g x) :
    xs.flatMap f = xs.flatMap g := by
  rw [List.flatMap_def, List.flatMap_def, List.map_congr_left h]

/-! ## A definition enters -/

section insert

variable {aliases inherits : List Value} {layer : Layer}

/-- What the store becomes, as far as the invariant needs it. -/
theorem store_insert (layer : Layer) (inherits : List Value) (haliases : aliases ≠ [])
    (hfree : ∀ a ∈ aliases, a.hashable = true ∧ find? r.store a = none) :
    ∃ keys : List Value,
      (r.insert aliases layer inherits).1.store
        = r.store ++ keys.map (·, (r.insert aliases layer inherits).2) ∧
      keys ≠ [] ∧ (∀ k ∈ keys, k ∈ aliases) ∧
      keys.Pairwise (fun k l => sameKey k l = false) ∧
      ∀ a ∈ aliases, ∃ k ∈ keys, k = a ∨ sameKey k a = true := by
  obtain ⟨keys, hstore, hkeys, hpair, hcover⟩ :=
    storeUnder_eq (r.insert aliases layer inherits).2 aliases r.store
  have cover : ∀ a ∈ aliases, ∃ k ∈ keys, k = a ∨ sameKey k a = true := by
    intro a ha
    rcases hcover a ha with h | h
    · simp [(hfree a ha).2] at h
    · exact h
  obtain ⟨a, ha⟩ := List.exists_mem_of_ne_nil _ haliases
  obtain ⟨k, hk, -⟩ := cover a ha
  exact ⟨keys, hstore, List.ne_nil_of_mem hk, fun k hk => (hkeys k hk).1, hpair, cover⟩

/-- A lookup that had an answer keeps it. -/
theorem resolve_insert (haliases : aliases ≠ [])
    (hfree : ∀ a ∈ aliases, a.hashable = true ∧ find? r.store a = none)
    (h : r.resolve key = some d) :
    (r.insert aliases layer inherits).1.resolve key = some d := by
  obtain ⟨hh, hf⟩ := resolve_eq_some_iff.mp h
  obtain ⟨keys, hstore, -⟩ := store_insert layer inherits haliases hfree
  refine resolve_eq_some_iff.mpr ⟨hh, ?_⟩
  rw [hstore, find?_append_of_isSome (by simp [hf]), hf]

theorem definitions_insert (inherits : List Value) (h : Sound r) (haliases : aliases ≠ [])
    (hfree : ∀ a ∈ aliases, a.hashable = true ∧ find? r.store a = none)
    (hlayer : layer.id = r.count) :
    (r.insert aliases layer inherits).1.definitions
      = r.definitions ++ [(r.insert aliases layer inherits).2] := by
  obtain ⟨keys, hstore, hne, -⟩ := store_insert layer inherits haliases hfree
  rw [definitions, hstore]
  refine distinct_append hne (fun e he heq => ?_) (by simp)
  have : e.2.id < r.count := h.numbered e he
  have : e.2.id = layer.id := heq
  omega

/-- Noting a definition with each parent in turn notes it once for every mention. -/
theorem lookup_foldl_addDependent {s : Registry}
    {step : List (Nat × List Definition) → Value → List (Nat × List Definition)}
    (hstep : ∀ table p e, find? s.store p = some e → step table p = addDependent e.id d table)
    (n : Nat) {parents : List Value} (table : List (Nat × List Definition))
    (hparents : ∀ p ∈ parents, ∃ e, s.resolve p = some e) :
    ((parents.foldl step table).lookup n).getD []
      = (table.lookup n).getD [] ++ List.replicate (s.mentions parents n) d := by
  induction parents generalizing table with
  | nil => simp [mentions]
  | cons p ps ih =>
      obtain ⟨⟨e, he⟩, hrest⟩ := List.forall_mem_cons.mp hparents
      rw [List.foldl_cons, hstep _ _ _ (resolve_eq_some_iff.mp he).2, ih _ hrest,
        lookup_addDependent]
      simp only [mentions, List.countP_cons, he, Option.any_some, beq_iff_eq]
      by_cases hn : e.id = n
      · simp [hn, List.replicate_succ]
      · simp [hn, Ne.symm hn]

/-- Each parent's dependents gain the new definition once for every mention. -/
theorem dependents_insert {s : Registry} (hs : s = (r.insert aliases layer inherits).1)
    (hparents : ∀ p ∈ inherits, ∃ e, s.resolve p = some e) (n : Nat) :
    (s.dependents.lookup n).getD [] = (r.dependents.lookup n).getD []
      ++ List.replicate (s.mentions inherits n) (r.insert aliases layer inherits).2 := by
  subst hs
  refine lookup_foldl_addDependent (fun table p e he => ?_) n r.dependents hparents
  simp only [insert] at he ⊢
  simp only [he]

theorem oneList_insert (h : (r.dependents.map (·.1)).Nodup) :
    ((r.insert aliases layer inherits).1.dependents.map (·.1)).Nodup := by
  refine List.foldlRecOn (motive := fun t : List (Nat × List Definition) => (t.map (·.1)).Nodup)
    inherits _ h ?_
  intro table ht p _
  split
  · exact keys_addDependent _ _ ht
  · exact ht

section sound

variable (h : Sound r) (haliases : aliases ≠ [])
  (hfree : ∀ a ∈ aliases, a.hashable = true ∧ find? r.store a = none)
include haliases hfree

/-- An entry of the new store is an old one, or has the new definition under an alias. -/
theorem of_mem_store_insert {e : Value × Definition}
    (he : e ∈ (r.insert aliases layer inherits).1.store) :
    e ∈ r.store ∨ e.1 ∈ aliases ∧ e.2 = (r.insert aliases layer inherits).2 := by
  obtain ⟨keys, hstore, -, halias, -⟩ := store_insert layer inherits haliases hfree
  rw [hstore, List.mem_append, List.mem_map] at he
  refine he.imp_right ?_
  rintro ⟨k, hk, rfl⟩
  exact ⟨halias k hk, rfl⟩

theorem resolve_insert_eq {parents : List Value}
    (hparents : ∀ p ∈ parents, ∃ e, r.resolve p = some e) :
    ∀ p ∈ parents, r.resolve p = (r.insert aliases layer inherits).1.resolve p := by
  intro p hp
  obtain ⟨e, he⟩ := hparents p hp
  rw [resolve_insert haliases hfree he, he]

include h

theorem Sound.numbered_insert (hlayer : layer.id = r.count) :
    ∀ e ∈ (r.insert aliases layer inherits).1.store,
      e.2.id < (r.insert aliases layer inherits).1.count := by
  intro e he
  show e.2.id < r.count + 1
  rcases of_mem_store_insert haliases hfree he with he | ⟨-, heq⟩
  · exact Nat.lt_succ_of_lt (h.numbered e he)
  · rw [heq]
    show layer.id < r.count + 1
    omega

theorem Sound.numbersApart_insert (hlayer : layer.id = r.count) :
    NumbersApart (r.insert aliases layer inherits).1.store := by
  have below : ∀ e ∈ r.store, ∀ f : Value × Definition,
      f.2 = (r.insert aliases layer inherits).2 → e.2.id ≠ f.2.id := by
    rintro e he f heq
    rw [heq]
    exact Nat.ne_of_lt (hlayer ▸ h.numbered e he : e.2.id < layer.id)
  intro e he f hf hid
  rcases of_mem_store_insert haliases hfree he with he | ⟨-, heq⟩ <;>
    rcases of_mem_store_insert haliases hfree hf with hf | ⟨-, heq'⟩
  · exact h.numbersApart e he f hf hid
  · exact absurd hid (below e he f heq')
  · exact absurd hid.symm (below f hf e heq)
  · rw [heq, heq']

theorem Sound.hasKey_insert : ∀ e ∈ (r.insert aliases layer inherits).1.store,
    ∀ a ∈ e.2.aliases, a.hashable = true ∧
      ∃ k, (k, e.2) ∈ (r.insert aliases layer inherits).1.store ∧ (k = a ∨ sameKey k a = true) := by
  obtain ⟨keys, hstore, -, -, -, hcover⟩ := store_insert layer inherits haliases hfree
  intro e he a ha
  rcases of_mem_store_insert haliases hfree he with he | ⟨-, heq⟩
  · obtain ⟨hhash, k, hk, hka⟩ := h.hasKey e he a ha
    refine ⟨hhash, k, ?_, hka⟩
    rw [hstore]
    exact List.mem_append_left _ hk
  · rw [heq] at ha ⊢
    obtain ⟨k, hk, hka⟩ := hcover a ha
    refine ⟨(hfree a ha).1, k, ?_, hka⟩
    rw [hstore]
    exact List.mem_append_right _ (List.mem_map_of_mem hk)

variable (hparents : ∀ p ∈ inherits, ∃ e, r.resolve p = some e)
include hparents

theorem Sound.parents_insert (hlayer : layer.id = r.count) :
    ∀ e ∈ (r.insert aliases layer inherits).1.store, ∀ p ∈ e.2.inherits,
      ∃ f, (r.insert aliases layer inherits).1.resolve p = some f ∧ f.id < e.2.id := by
  intro e he p hp
  rcases of_mem_store_insert haliases hfree he with he | ⟨-, heq⟩
  · obtain ⟨f, hf, hlt⟩ := h.parents e he p hp
    exact ⟨f, resolve_insert haliases hfree hf, hlt⟩
  · rw [heq] at hp ⊢
    obtain ⟨f, hf⟩ := hparents p hp
    obtain ⟨l, hl⟩ := h.mem_definitions.mp (h.mem_of_resolve hf)
    exact ⟨f, resolve_insert haliases hfree hf, (hlayer ▸ h.numbered _ hl : f.id < layer.id)⟩

theorem Sound.chains_insert : ∀ e ∈ (r.insert aliases layer inherits).1.store,
    e.2.chain = (r.insert aliases layer inherits).1.inheritedChain e.2.inherits ++ [e.2.layer] := by
  intro e he
  rcases of_mem_store_insert haliases hfree he with he | ⟨-, heq⟩
  · rw [← inheritedChain_congr (resolve_insert_eq haliases hfree (h.live_parents he))]
    exact h.chains e he
  · rw [heq]
    show r.inheritedChain inherits ++ [layer] = _
    rw [inheritedChain_congr (resolve_insert_eq haliases hfree hparents)]
    rfl

theorem Sound.dependentsListed_insert (hlayer : layer.id = r.count) (n : Nat) :
    ((r.insert aliases layer inherits).1.dependents.lookup n).getD []
      = (r.insert aliases layer inherits).1.definitions.flatMap fun d =>
          List.replicate ((r.insert aliases layer inherits).1.mentions d.inherits n) d := by
  rw [dependents_insert rfl
      (fun p hp => (hparents p hp).imp fun _ => resolve_insert haliases hfree) n,
    definitions_insert inherits h haliases hfree hlayer, List.flatMap_append, h.dependentsListed n]
  congr 1
  · refine flatMap_congr fun d hd => ?_
    obtain ⟨k, hk⟩ := h.mem_definitions.mp hd
    rw [mentions_congr (resolve_insert_eq haliases hfree (h.live_parents hk))]
  · simp [Registry.insert]

theorem Sound.insert (hlayer : layer.id = r.count) :
    Sound (r.insert aliases layer inherits).1 := by
  obtain ⟨keys, hstore, -, halias, hpair, -⟩ := store_insert layer inherits haliases hfree
  refine
    { numbered := h.numbered_insert haliases hfree hlayer
      numbersApart := h.numbersApart_insert haliases hfree hlayer
      ascending := ?_
      keysApart := ?_
      isAlias := fun e he => ?_
      hasKey := h.hasKey_insert haliases hfree
      parents := h.parents_insert haliases hfree hparents hlayer
      chains := h.chains_insert haliases hfree hparents
      oneList := oneList_insert h.oneList
      dependentsListed := h.dependentsListed_insert haliases hfree hparents hlayer }
  · rw [hstore, List.pairwise_append, List.pairwise_map]
    refine ⟨h.ascending, List.pairwise_of_forall fun _ _ => Nat.le_refl _, fun e he f hf => ?_⟩
    obtain ⟨k, -, rfl⟩ := List.mem_map.mp hf
    exact Nat.le_of_lt (hlayer ▸ h.numbered e he : e.2.id < layer.id)
  · rw [KeysApart, hstore, List.pairwise_append, List.pairwise_map]
    refine ⟨h.keysApart, hpair, fun e he f hf => ?_⟩
    obtain ⟨k, hk, rfl⟩ := List.mem_map.mp hf
    exact find?_eq_none_iff.mp (hfree k (halias k hk)).2 e he
  · rcases of_mem_store_insert haliases hfree he with he | ⟨hmem, heq⟩
    · exact h.isAlias e he
    · rw [heq]
      exact hmem

end sound

end insert

/-! ## A definition leaves -/

section remove

theorem store_remove : (r.remove d).store = r.store.filter fun e => e.2.id != d.id := rfl

theorem mem_store_remove {f : Value × Definition} :
    f ∈ (r.remove d).store ↔ f ∈ r.store ∧ f.2.id ≠ d.id := by
  simp [store_remove]

/-- A lookup loses its answer only if that was the leaving definition. -/
theorem Sound.resolve_remove (h : Sound r) :
    (r.remove d).resolve key = some e ↔ r.resolve key = some e ∧ e.id ≠ d.id := by
  have apart : KeysApart (r.remove d).store := List.Pairwise.sublist List.filter_sublist h.keysApart
  simp only [resolve_eq_some_iff]
  constructor
  · rintro ⟨hh, hf⟩
    obtain ⟨k, hk, hs⟩ := mem_of_find? hf
    obtain ⟨hk, hid⟩ := mem_store_remove.mp hk
    exact ⟨⟨hh, h.keysApart.find?_eq hk hs⟩, hid⟩
  · rintro ⟨⟨hh, hf⟩, hid⟩
    obtain ⟨k, hk, hs⟩ := mem_of_find? hf
    exact ⟨hh, apart.find?_eq (mem_store_remove.mpr ⟨hk, hid⟩) hs⟩

theorem definitions_remove : (r.remove d).definitions = r.definitions.filter (·.id != d.id) :=
  distinct_filter d.id r.store [] [] fun _ _ => Iff.rfl

/-- A definition without dependents is nobody's parent. -/
theorem Sound.parent_ne (h : Sound r) (hd : r.dependentsOf d = []) (he : e ∈ r.definitions)
    (hp : p ∈ e.inherits) {f : Definition} (hf : r.resolve p = some f) : f.id ≠ d.id := by
  intro hid
  have none : ∀ x ∈ r.definitions, List.replicate (r.mentions x.inherits d.id) x = [] := by
    have := h.dependentsListed d.id
    rw [show (r.dependents.lookup d.id).getD [] = [] from hd] at this
    exact List.flatMap_eq_nil_iff.mp this.symm
  have zero : r.mentions e.inherits d.id = 0 := by simpa using none e he
  rw [mentions, List.countP_eq_zero] at zero
  exact zero p hp (by simp [hf, hid])

/-- Striking a definition as often as it is mentioned strikes it out. -/
theorem eraseP_replicate (n : Nat) {before after : List Definition}
    (hb : ∀ e ∈ before, e.id ≠ d.id) :
    (before ++ List.replicate (n + 1) d ++ after).eraseP (·.id == d.id)
      = before ++ List.replicate n d ++ after := by
  rw [List.append_assoc, List.eraseP_append_right _ fun e he => by simpa using hb e he]
  simp [List.replicate_succ]

/-- Striking a definition out with each parent in turn strikes it out of every list. -/
theorem lookup_foldl_dropDependent {s : Registry}
    {step : List (Nat × List Definition) → Value → List (Nat × List Definition)}
    (hstep : ∀ table p e, find? s.store p = some e → step table p = dropDependent e.id d table)
    (n : Nat) {before after : List Definition} (hb : ∀ e ∈ before, e.id ≠ d.id)
    {parents : List Value} {table : List (Nat × List Definition)}
    (htable : (table.map (·.1)).Nodup) (hparents : ∀ p ∈ parents, ∃ e, s.resolve p = some e)
    (h : (table.lookup n).getD []
      = before ++ List.replicate (s.mentions parents n) d ++ after) :
    ((parents.foldl step table).lookup n).getD [] = before ++ after ∧
      ((parents.foldl step table).map (·.1)).Nodup := by
  induction parents generalizing table with
  | nil => exact ⟨by simpa [mentions] using h, htable⟩
  | cons p ps ih =>
      obtain ⟨⟨e, he⟩, hrest⟩ := List.forall_mem_cons.mp hparents
      rw [List.foldl_cons, hstep _ _ _ (resolve_eq_some_iff.mp he).2]
      refine ih ((keys_dropDependent_sublist _ _ _).nodup htable) hrest ?_
      rw [lookup_dropDependent _ _ _ htable, h]
      simp only [mentions, List.countP_cons, he, Option.any_some, beq_iff_eq]
      by_cases hn : e.id = n
      · simp only [hn, if_true]
        exact eraseP_replicate _ hb
      · simp [hn, Ne.symm hn]

/-- Each parent's dependents lose the leaving definition and no other. -/
theorem dependents_remove {s : Registry} (hs : s = r.remove d) (hlist : (r.dependents.map (·.1)).Nodup)
    (hparents : ∀ p ∈ d.inherits, ∃ e, s.resolve p = some e) (n : Nat)
    {before after : List Definition} (hb : ∀ e ∈ before, e.id ≠ d.id)
    (h : (r.dependents.lookup n).getD []
      = before ++ List.replicate (s.mentions d.inherits n) d ++ after) :
    (s.dependents.lookup n).getD [] = before ++ after ∧ (s.dependents.map (·.1)).Nodup := by
  subst hs
  refine lookup_foldl_dropDependent (fun table p e he => ?_) n hb hlist hparents h
  simp only [remove] at he
  simp only [he]

/-- A definition that nobody inherits from may go: lookups of parents stay as they are. -/
theorem Sound.resolve_parents_remove (h : Sound r) (hd : r.dependentsOf d = []) :
    ∀ e ∈ r.definitions, ∀ p ∈ e.inherits, r.resolve p = (r.remove d).resolve p := by
  intro e he p hp
  obtain ⟨k, hk⟩ := h.mem_definitions.mp he
  obtain ⟨f, hf⟩ := h.live_parents hk p hp
  rw [hf, h.resolve_remove.mpr ⟨hf, h.parent_ne hd he hp hf⟩]

/-- The other definitions, those before the leaving one and those after it. -/
theorem Sound.split_definitions (h : Sound r) (hlive : d ∈ r.definitions) :
    ∃ before after, r.definitions = before ++ d :: after ∧
      (r.remove d).definitions = before ++ after ∧ ∀ e ∈ before ++ after, e.id ≠ d.id := by
  obtain ⟨before, after, hsplit⟩ := List.append_of_mem hlive
  have others : ∀ e ∈ before ++ after, e.id ≠ d.id := by
    have hnodup := h.nodup_definitions
    rw [hsplit, List.nodup_middle, List.nodup_cons] at hnodup
    intro e he hid
    have hmem : e ∈ r.definitions := by
      rw [hsplit, List.mem_append, List.mem_cons]
      exact (List.mem_append.mp he).imp_right .inr
    exact hnodup.1 (h.eq_of_id hmem hlive hid ▸ he)
  refine ⟨before, after, hsplit, ?_, others⟩
  rw [definitions_remove, hsplit, List.filter_append, List.filter_cons]
  simp only [bne_self_eq_false, Bool.false_eq_true, if_false]
  rw [← List.filter_append, List.filter_eq_self]
  exact fun e he => by simpa using others e he

/-- The lists of dependents after a deletion, and that there is one for each parent. -/
theorem Sound.dependentsListed_remove (h : Sound r) (hlive : d ∈ r.definitions)
    (hd : r.dependentsOf d = []) (n : Nat) :
    ((r.remove d).dependents.lookup n).getD []
        = ((r.remove d).definitions.flatMap fun e =>
            List.replicate ((r.remove d).mentions e.inherits n) e) ∧
      ((r.remove d).dependents.map (·.1)).Nodup := by
  have stays := h.resolve_parents_remove hd
  obtain ⟨before, after, hsplit, hleft, others⟩ := h.split_definitions hlive
  have hparents : ∀ p ∈ d.inherits, ∃ e, (r.remove d).resolve p = some e := by
    intro p hp
    obtain ⟨k, hk⟩ := h.mem_definitions.mp hlive
    obtain ⟨f, hf⟩ := h.live_parents hk p hp
    exact ⟨f, by rw [← stays d hlive p hp, hf]⟩
  have hn := h.dependentsListed n
  rw [flatMap_congr fun e he => by rw [mentions_congr (stays e he)], hsplit,
    List.flatMap_append, List.flatMap_cons, ← List.append_assoc] at hn
  rw [hleft, List.flatMap_append]
  refine dependents_remove rfl h.oneList hparents n (fun e he => ?_) hn
  obtain ⟨x, hx, hex⟩ := List.mem_flatMap.mp he
  rw [List.eq_of_mem_replicate hex]
  exact others x (List.mem_append_left _ hx)

theorem Sound.remove (h : Sound r) (hlive : d ∈ r.definitions) (hd : r.dependentsOf d = []) :
    Sound (r.remove d) := by
  have stays := h.resolve_parents_remove hd
  have old : ∀ e ∈ (r.remove d).store, e ∈ r.store := fun e he => (mem_store_remove.mp he).1
  have live : ∀ e ∈ r.store, e.2 ∈ r.definitions := fun e he => h.mem_definitions.mpr ⟨e.1, he⟩
  have sub : (r.remove d).store.Sublist r.store := List.filter_sublist
  refine
    { numbered := fun e he => h.numbered e (old e he)
      numbersApart := fun e he f hf => h.numbersApart e (old e he) f (old f hf)
      ascending := h.ascending.sublist sub
      keysApart := List.Pairwise.sublist sub h.keysApart
      isAlias := fun e he => h.isAlias e (old e he)
      hasKey := ?_, parents := ?_, chains := ?_
      oneList := (h.dependentsListed_remove hlive hd 0).2
      dependentsListed := fun n => (h.dependentsListed_remove hlive hd n).1 }
  · intro e he a ha
    obtain ⟨he, hid⟩ := mem_store_remove.mp he
    obtain ⟨hh, k, hk, hka⟩ := h.hasKey e he a ha
    exact ⟨hh, k, mem_store_remove.mpr ⟨hk, hid⟩, hka⟩
  · intro e he p hp
    obtain ⟨f, hf, hlt⟩ := h.parents e (old e he) p hp
    exact ⟨f, by rw [← stays e.2 (live e (old e he)) p hp, hf], hlt⟩
  · intro e he
    rw [← inheritedChain_congr (stays e.2 (live e (old e he)))]
    exact h.chains e (old e he)

end remove

end Conform.Registry
