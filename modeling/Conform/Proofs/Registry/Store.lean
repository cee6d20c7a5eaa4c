/-
# `Proofs.Registry.Store` — the tables of a registry, one operation at a time

A registry keeps two tables: the store of aliases and, for each definition,
those that inherit from it.  Here is what each operation on them does to
what can be read off: to a lookup, to the definitions in order, and to the
dependents of a definition.
-/
import Conform.Registry.Basic
import Conform.Proofs.Value.Key

namespace Conform.Registry

open Value (sameKey sameKey_symm sameKey_trans)

/-! ## Looking up an alias -/

theorem find?_isSome_iff {store : List (Value × Definition)} {key : Value} :
    (find? store key).isSome ↔ ∃ e ∈ store, sameKey e.1 key = true := by
  simp [find?]

theorem find?_eq_none_iff {store : List (Value × Definition)} {key : Value} :
    find? store key = none ↔ ∀ e ∈ store, sameKey e.1 key = false := by
  simp [find?]

theorem find?_append_of_isSome {store more : List (Value × Definition)} {key : Value}
    (h : (find? store key).isSome) : find? (store ++ more) key = find? store key := by
  simp only [find?, Option.isSome_map] at h ⊢
  rw [List.find?_append, Option.or_of_isSome h]

theorem mem_of_find? {store : List (Value × Definition)} {key : Value} {d : Definition}
    (h : find? store key = some d) : ∃ k, (k, d) ∈ store ∧ sameKey k key = true := by
  simp only [find?, Option.map_eq_some_iff] at h
  obtain ⟨⟨k, e⟩, he, rfl⟩ := h
  exact ⟨k, List.mem_of_find?_eq_some he, by simpa using List.find?_some he⟩

/-- No two keys of the store are equal. -/
def KeysApart (store : List (Value × Definition)) : Prop :=
  store.Pairwise fun e f => sameKey e.1 f.1 = false

theorem KeysApart.find?_eq {store : List (Value × Definition)} (h : KeysApart store)
    {k key : Value} {d : Definition} (hd : (k, d) ∈ store) (hk : sameKey k key = true) :
    find? store key = some d := by
  rw [find?, Value.find?_eq_of_apart h hd hk]
  rfl

/-- Storing under aliases adds some of them, each apart from all the other
keys, and leaves none of them without a key that answers for it. -/
theorem storeUnder_eq (d : Definition) :
    ∀ (aliases : List Value) (store : List (Value × Definition)),
      ∃ keys : List Value,
        storeUnder d aliases store = store ++ keys.map (·, d) ∧
        (∀ k ∈ keys, k ∈ aliases ∧ find? store k = none) ∧
        keys.Pairwise (fun k l => sameKey k l = false) ∧
        ∀ a ∈ aliases, (find? store a).isSome ∨ ∃ k ∈ keys, k = a ∨ sameKey k a = true
  | [], store => ⟨[], by simp [storeUnder]⟩
  | key :: rest, store => by
      by_cases hkey : (find? store key).isSome
      · obtain ⟨keys, heq, hnew, hpair, hcover⟩ := storeUnder_eq d rest store
        refine ⟨keys, by simp [storeUnder, hkey, heq],
          fun k hk => ⟨List.mem_cons_of_mem _ (hnew k hk).1, (hnew k hk).2⟩, hpair, ?_⟩
        intro a ha
        rcases List.mem_cons.mp ha with rfl | ha
        · exact .inl hkey
        · exact hcover a ha
      · obtain ⟨keys, heq, hnew, hpair, hcover⟩ := storeUnder_eq d rest (store ++ [(key, d)])
        have hold : ∀ k ∈ keys, find? store k = none ∧ sameKey key k = false := by
          intro k hk
          have := find?_eq_none_iff.mp (hnew k hk).2
          exact ⟨find?_eq_none_iff.mpr fun e he => this e (List.mem_append_left _ he),
            this (key, d) (by simp)⟩
        refine ⟨key :: keys, by simp [storeUnder, hkey, heq], ?_, ?_, ?_⟩
        · intro k hk
          rcases List.mem_cons.mp hk with rfl | hk
          · exact ⟨List.mem_cons_self, by simpa using hkey⟩
          · exact ⟨List.mem_cons_of_mem _ (hnew k hk).1, (hold k hk).1⟩
        · exact List.pairwise_cons.mpr ⟨fun k hk => (hold k hk).2, hpair⟩
        · intro a ha
          rcases List.mem_cons.mp ha with rfl | ha
          · exact .inr ⟨a, List.mem_cons_self, .inl rfl⟩
          · rcases hcover a ha with h | ⟨k, hk, h⟩
            · obtain ⟨e, he, hs⟩ := find?_isSome_iff.mp h
              rcases List.mem_append.mp he with he | he
              · exact .inl (find?_isSome_iff.mpr ⟨e, he, hs⟩)
              · obtain rfl := List.mem_singleton.mp he
                exact .inr ⟨key, List.mem_cons_self, .inr hs⟩
            · exact .inr ⟨k, List.mem_cons_of_mem _ hk, h⟩

/-! ## The definitions in order -/

theorem mem_distinct_of {d : Definition} :
    ∀ {store : List (Value × Definition)} {seen : List Nat},
      d ∈ distinct seen store → d.id ∉ seen ∧ ∃ k, (k, d) ∈ store
  | [], _, h => by simp [distinct] at h
  | (k, e) :: rest, seen, h => by
      by_cases he : seen.contains e.id
      · simp only [distinct, he, if_true] at h
        obtain ⟨hs, k', hk'⟩ := mem_distinct_of h
        exact ⟨hs, k', List.mem_cons_of_mem _ hk'⟩
      · simp only [distinct, he, Bool.false_eq_true, if_false, List.mem_cons] at h
        rcases h with rfl | h
        · exact ⟨by simpa using he, k, List.mem_cons_self⟩
        · obtain ⟨hs, k', hk'⟩ := mem_distinct_of h
          exact ⟨fun hm => hs (List.mem_cons_of_mem _ hm), k', List.mem_cons_of_mem _ hk'⟩

/-- A number belongs to one definition. -/
def NumbersApart (store : List (Value × Definition)) : Prop :=
  ∀ e ∈ store, ∀ f ∈ store, e.2.id = f.2.id → e.2 = f.2

theorem mem_distinct {d : Definition} {k : Value} :
    ∀ {store : List (Value × Definition)} {seen : List Nat}, NumbersApart store →
      (k, d) ∈ store → d.id ∉ seen → d ∈ distinct seen store
  | (k', e) :: rest, seen, hn, hk, hs => by
      have hrest : NumbersApart rest := fun x hx y hy =>
        hn x (List.mem_cons_of_mem _ hx) y (List.mem_cons_of_mem _ hy)
      by_cases hid : d.id = e.id
      · have hde : d = e := hn (k, d) hk (k', e) List.mem_cons_self hid
        subst hde
        simp [distinct, hs]
      · have hk' : (k, d) ∈ rest := by
          rcases List.mem_cons.mp hk with h | h
          · exact absurd (by rw [(Prod.mk.inj h).2]) hid
          · exact h
        by_cases he : seen.contains e.id
        · simp only [distinct, he, if_true]
          exact mem_distinct hrest hk' hs
        · simp only [distinct, he, Bool.false_eq_true, if_false]
          exact List.mem_cons_of_mem _ (mem_distinct hrest hk' (by simp [hid, hs]))

theorem distinct_ascending :
    ∀ {store : List (Value × Definition)} {seen : List Nat},
      store.Pairwise (fun e f => e.2.id ≤ f.2.id) →
        (distinct seen store).Pairwise (fun d e => d.id < e.id)
  | [], _, _ => by simp [distinct]
  | (k, d) :: rest, seen, h => by
      rw [List.pairwise_cons] at h
      by_cases hd : seen.contains d.id
      · simp only [distinct, hd, if_true]
        exact distinct_ascending h.2
      · simp only [distinct, hd, Bool.false_eq_true, if_false, List.pairwise_cons]
        refine ⟨fun e he => ?_, distinct_ascending h.2⟩
        obtain ⟨hs, k', hk'⟩ := mem_distinct_of he
        have hle : d.id ≤ e.id := h.1 (k', e) hk'
        simp only [List.mem_cons, not_or] at hs
        omega

theorem distinct_append {d : Definition} {keys : List Value} (hkeys : keys ≠ []) :
    ∀ {store : List (Value × Definition)} {seen : List Nat},
      (∀ e ∈ store, e.2.id ≠ d.id) → d.id ∉ seen →
        distinct seen (store ++ keys.map (·, d)) = distinct seen store ++ [d]
  | [], seen, _, hs => by
      have again : ∀ (ks : List Value) (s : List Nat), d.id ∈ s →
          distinct s (ks.map (·, d)) = [] := by
        intro ks s hs
        induction ks with
        | nil => rfl
        | cons k ks ih => simp [distinct, hs, ih]
      obtain ⟨k, ks, rfl⟩ := List.exists_cons_of_ne_nil hkeys
      simp [distinct, hs, again]
  | (k, e) :: rest, seen, h, hs => by
      have hrest : ∀ e ∈ rest, e.2.id ≠ d.id := fun f hf => h f (List.mem_cons_of_mem _ hf)
      by_cases he : seen.contains e.id
      · simp only [List.cons_append, distinct, he, if_true]
        exact distinct_append hkeys hrest hs
      · simp only [List.cons_append, distinct, he, Bool.false_eq_true, if_false]
        rw [distinct_append hkeys hrest]
        simp only [List.mem_cons, not_or]
        exact ⟨fun heq => h (k, e) List.mem_cons_self heq.symm, hs⟩

/-- Taking a number out of the store takes it out of the definitions; the
numbers seen before need only agree on the others. -/
theorem distinct_filter (n : Nat) :
    ∀ (store : List (Value × Definition)) (seen seen' : List Nat),
      (∀ m ≠ n, m ∈ seen ↔ m ∈ seen') →
        distinct seen (store.filter fun e => e.2.id != n)
          = (distinct seen' store).filter (·.id != n)
  | [], _, _, _ => by simp [distinct]
  | (k, d) :: rest, seen, seen', h => by
      by_cases hd : d.id = n
      · simp only [List.filter_cons, hd, bne_self_eq_false, Bool.false_eq_true, if_false, distinct]
        split
        · exact distinct_filter n rest seen seen' h
        · simp only [List.filter_cons, hd, bne_self_eq_false, Bool.false_eq_true, if_false]
          exact distinct_filter n rest seen (n :: seen') fun m hm => by simp [h m hm, hm]
      · have hne : (d.id != n) = true := by simpa using hd
        have hseen : seen.contains d.id = seen'.contains d.id := by
          simp [List.contains_eq_mem, h d.id hd]
        simp only [List.filter_cons, hne, if_true, distinct, hseen]
        split
        · exact distinct_filter n rest seen seen' h
        · simp only [List.filter_cons, hne, if_true]
          rw [distinct_filter n rest (d.id :: seen) (d.id :: seen')]
          exact fun m hm => by simp [h m hm]

/-! ## The dependents of a definition -/

theorem lookup_addDependent (parent n : Nat) (d : Definition) :
    ∀ table : List (Nat × List Definition),
      ((addDependent parent d table).lookup n).getD []
        = (table.lookup n).getD [] ++ if n = parent then [d] else []
  | [] => by
      by_cases h : n = parent
      · simp [addDependent, h]
      · have hne : (n == parent) = false := by simpa using h
        simp [addDependent, List.lookup_cons, h, hne]
  | (m, ds) :: rest => by
      by_cases hm : m = parent
      · subst hm
        by_cases h : n = m
        · simp [addDependent, h]
        · have hne : (n == m) = false := by simpa using h
          simp [addDependent, List.lookup_cons, h, hne]
      · by_cases h : n = m
        · subst h
          simp [addDependent, hm]
        · have : (n == m) = false := by simpa using h
          simp [addDependent, hm, List.lookup_cons, this, lookup_addDependent parent n d rest]

theorem keys_addDependent (parent : Nat) (d : Definition) :
    ∀ {table : List (Nat × List Definition)}, (table.map (·.1)).Nodup →
      ((addDependent parent d table).map (·.1)).Nodup := by
  have keys : ∀ table : List (Nat × List Definition),
      ∀ n ∈ (addDependent parent d table).map (·.1), n = parent ∨ n ∈ table.map (·.1) := by
    intro table
    induction table with
    | nil => simp [addDependent]
    | cons e rest ih =>
        intro n hn
        by_cases he : e.1 = parent
        · simp only [addDependent, he, if_true] at hn
          simpa [he] using hn
        · simp only [addDependent, he, if_false, List.map_cons, List.mem_cons] at hn
          rcases hn with rfl | hn
          · simp
          · rcases ih n hn with h | h
            · exact .inl h
            · exact .inr (by simp [h])
  intro table
  induction table with
  | nil => simp [addDependent]
  | cons e rest ih =>
      intro h
      rw [List.map_cons, List.nodup_cons] at h
      by_cases he : e.1 = parent
      · simpa [addDependent, he, List.nodup_cons] using h
      · simp only [addDependent, he, if_false, List.map_cons, List.nodup_cons]
        refine ⟨fun hm => ?_, ih h.2⟩
        rcases keys rest _ hm with heq | hm
        · exact he heq
        · exact h.1 hm

theorem lookup_eq_none_of_not_mem {table : List (Nat × List Definition)} {n : Nat}
    (h : n ∉ table.map (·.1)) : table.lookup n = none := by
  rw [List.lookup_eq_none_iff]
  intro e he
  have : n ≠ e.1 := fun heq => h (heq ▸ List.mem_map_of_mem he)
  simpa using this

theorem keys_dropDependent_sublist (parent : Nat) (d : Definition)
    (table : List (Nat × List Definition)) :
    ((dropDependent parent d table).map (·.1)).Sublist (table.map (·.1)) := by
  induction table with
  | nil => simp [dropDependent]
  | cons e rest ih =>
      simp only [dropDependent, List.filterMap_cons] at ih ⊢
      split
      · exact ih.cons _
      · rename_i heq
        split at heq
        · split at heq
          · simp at heq
          · obtain rfl := Option.some.inj heq
            exact ih.cons_cons _
        · obtain rfl := Option.some.inj heq
          exact ih.cons_cons _

theorem lookup_dropDependent (parent n : Nat) (d : Definition) :
    ∀ {table : List (Nat × List Definition)}, (table.map (·.1)).Nodup →
      ((dropDependent parent d table).lookup n).getD []
        = if n = parent then ((table.lookup n).getD []).eraseP (·.id == d.id)
          else (table.lookup n).getD []
  | [], _ => by simp [dropDependent]
  | (m, ds) :: rest, h => by
      rw [List.map_cons, List.nodup_cons] at h
      have ih := lookup_dropDependent parent n d h.2
      by_cases hm : m = parent
      · subst hm
        have gone : (dropDependent m d rest).lookup m = none :=
          lookup_eq_none_of_not_mem fun hmem =>
            h.1 ((keys_dropDependent_sublist m d rest).subset hmem)
        simp only [dropDependent, List.filterMap_cons, if_true] at ih gone ⊢
        by_cases hn : n = m
        · subst hn
          cases hleft : (ds.eraseP (·.id == d.id)).isEmpty with
          | true =>
              simp only [if_true, gone, Option.getD_none, List.lookup_cons, beq_self_eq_true,
                Option.getD_some]
              exact (List.isEmpty_iff.mp hleft).symm
          | false => simp
        · have hne : (n == m) = false := by simpa using hn
          simp only [hn, if_false] at ih ⊢
          cases (ds.eraseP (·.id == d.id)).isEmpty with
          | true => simpa [List.lookup_cons, hne] using ih
          | false => simpa [List.lookup_cons, hne] using ih
      · simp only [dropDependent, List.filterMap_cons, hm, if_false] at ih ⊢
        by_cases hn : n = m
        · subst hn
          simp [hm]
        · have hne : (n == m) = false := by simpa using hn
          simpa [List.lookup_cons, hne] using ih

end Conform.Registry
