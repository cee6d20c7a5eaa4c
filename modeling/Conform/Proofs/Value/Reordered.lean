/-
# `Proofs.Value.Reordered` — the same value in another order

The entries of a dictionary and the elements of a set are listed in some
order that means nothing.  `Reordered` relates values that are the same but
for such orders, at any depth; lists keep theirs.  Keys of dictionaries are
texts, each once, so an entry is known by its name: two dictionaries are
reorderings of each other when they hold reordered values under the same
names.  The schemas inside are compared by a relation of their own.

What is found under a name, and what an update leaves there, is reordered too.
-/
import Conform.Proofs.Config.Height
import Conform.Proofs.Config.Compiled
import Conform.Proofs.Value.Key

namespace Conform

namespace Value

/-- A value that holds no others and is no schema. -/
def isAtom : Value → Bool
  | .list _ | .tuple _ | .set _ | .frozenset _ | .dict _ | .schema _ => false
  | _ => true

/-- Values that are the same but for the order of entries and elements. -/
inductive Reordered (R : Schema → Schema → Prop) : Value → Value → Prop
  | atom {v : Value} (h : v.isAtom = true) : Reordered R v v
  | schema {s t : Schema} (h : R s t) : Reordered R (.schema s) (.schema t)
  | list {zs : List (Value × Value)} (h : ∀ z ∈ zs, Reordered R z.1 z.2) :
      Reordered R (.list (zs.map Prod.fst)) (.list (zs.map Prod.snd))
  | tuple {zs : List (Value × Value)} (h : ∀ z ∈ zs, Reordered R z.1 z.2) :
      Reordered R (.tuple (zs.map Prod.fst)) (.tuple (zs.map Prod.snd))
  | set {zs zs' : List (Value × Value)} (horder : zs.Perm zs')
      (h : ∀ z ∈ zs, Reordered R z.1 z.2) :
      Reordered R (.set (zs.map Prod.fst)) (.set (zs'.map Prod.snd))
  | frozenset {zs zs' : List (Value × Value)} (horder : zs.Perm zs')
      (h : ∀ z ∈ zs, Reordered R z.1 z.2) :
      Reordered R (.frozenset (zs.map Prod.fst)) (.frozenset (zs'.map Prod.snd))
  | dict {zs zs' : List (String × Value × Value)} (hnames : (zs.map Prod.fst).Nodup)
      (horder : zs.Perm zs') (h : ∀ z ∈ zs, Reordered R z.2.1 z.2.2) :
      Reordered R (.dict (zs.map fun z => (.str z.1, z.2.1)))
        (.dict (zs'.map fun z => (.str z.1, z.2.2)))

end Value

/-- Entries under texts, each text once. -/
structure Entries.IsRecord (es : Entries) : Prop where
  texts : ∀ key ∈ es.map (·.1), ∃ name, key = .str name
  distinct : (es.map (·.1)).Nodup

/-! ## Entries under texts -/

namespace Entries

variable {es fs : Entries} {name : String} {v : Value}

theorem get?_put_self : (es.put (.str name) v).get? name = some v :=
  find?_put_self (Value.sameKey_str.mpr rfl)

theorem get?_put_of_ne {other : String} (h : other ≠ name) :
    (es.put (.str name) v).get? other = es.get? other :=
  find?_put_of_ne (Value.sameKey_str_ne h.symm)

theorem find?_eq_none_iff {key : Value} :
    es.find? key = none ↔ ∀ e ∈ es, Value.sameKey e.1 key = false := by
  induction es with
  | nil => exact iff_of_true rfl (List.forall_mem_nil _)
  | cons e rest ih =>
      rw [List.forall_mem_cons, ← ih, find?]
      cases Value.sameKey e.1 key with
      | true =>
          rw [if_pos rfl]
          exact iff_of_false (Option.some_ne_none _) fun h => Bool.false_ne_true h.1.symm
      | false => exact (and_iff_right rfl).symm

theorem get?_erase_self : (es.erase (.str name)).get? name = none :=
  find?_eq_none_iff.mpr fun e he => by simpa using List.of_mem_filter he

theorem get?_erase_of_ne {other : String} (h : other ≠ name) :
    (es.erase (.str name)).get? other = es.get? other :=
  find?_erase_of_ne (Value.sameKey_str_ne h.symm)

theorem get?_cons (e : Value × Value) (rest : Entries) {key : String} (h : e.1 = .str key) :
    get? (e :: rest) name = if key = name then some e.2 else rest.get? name := by
  rw [get?, find?, h]
  by_cases hname : key = name
  · rw [if_pos hname, if_pos (Value.sameKey_str.mpr hname)]
  · rw [if_neg hname, if_neg fun hsame => hname (Value.sameKey_str.mp hsame)]
    rfl

/-- Putting an entry keeps the keys, or adds a new one. -/
theorem keys_put (key : Value) :
    (es.put key v).map (·.1) = es.map (·.1) ∨
      (es.find? key = none ∧ (es.put key v).map (·.1) = es.map (·.1) ++ [key]) := by
  induction es with
  | nil => exact .inr ⟨rfl, rfl⟩
  | cons e rest ih =>
      simp only [put, find?]
      split
      · exact .inl rfl
      · rcases ih with h | ⟨hnone, h⟩
        · exact .inl (by rw [List.map_cons, h, List.map_cons])
        · exact .inr ⟨hnone, by rw [List.map_cons, h, List.map_cons, List.cons_append]⟩

/-- No two keys are equal. -/
def KeysApart (es : Entries) : Prop := (es.map (·.1)).Pairwise fun k l => Value.sameKey k l = false

instance (es : Entries) : Decidable es.KeysApart :=
  inferInstanceAs (Decidable ((es.map (·.1)).Pairwise fun k l => Value.sameKey k l = false))

theorem find?_put {key k : Value} :
    (es.put k v).find? key = if Value.sameKey k key then some v else es.find? key := by
  induction es with
  | nil => rfl
  | cons e rest ih =>
      obtain ⟨l, w⟩ := e
      rw [put, find?]
      cases hl : Value.sameKey l k with
      | true =>
          rw [if_pos rfl, find?, Value.sameKey_congr hl key]
          split <;> rfl
      | false =>
          rw [if_neg Bool.false_ne_true, find?, ih]
          cases hlkey : Value.sameKey l key with
          | false => rfl
          | true =>
              have hk : Value.sameKey k key = false := Bool.eq_false_iff.mpr fun hk =>
                Bool.eq_false_iff.mp hl (Value.sameKey_trans l hlkey (Value.sameKey_symm k hk))
              rw [hk]
              rfl

theorem KeysApart.put (h : es.KeysApart) (k v : Value) : (es.put k v).KeysApart := by
  unfold KeysApart
  rcases @keys_put es v k with hkeys | ⟨hnone, hkeys⟩
  · rw [hkeys]
    exact h
  · rw [hkeys]
    refine List.pairwise_append.mpr ⟨h, List.pairwise_singleton _ _, fun l hl m hm => ?_⟩
    rw [List.mem_singleton.mp hm]
    obtain ⟨e, he, rfl⟩ := List.mem_map.mp hl
    exact find?_eq_none_iff.mp hnone e he

/-- What is found in a merge is found in the upper dictionary, or else in the
lower one. -/
theorem find?_update {key : Value} (hfs : fs.KeysApart) :
    (es.update fs).find? key = (fs.find? key).or (es.find? key) := by
  induction fs generalizing es with
  | nil => rfl
  | cons e rest ih =>
      obtain ⟨hhead, hrest⟩ := List.pairwise_cons.mp hfs
      have hupdate : es.update (e :: rest) = (es.put e.1 e.2).update rest := rfl
      rw [hupdate, ih hrest, find?_put, find?]
      cases hkey : Value.sameKey e.1 key with
      | false => rfl
      | true =>
          have hnone : Entries.find? rest key = none := find?_eq_none_iff.mpr fun f hf => by
            rw [← hhead f.1 (List.mem_map_of_mem hf), Value.sameKey_comm f.1,
              Value.sameKey_congr hkey]
          rw [hnone]
          rfl

theorem KeysApart.update (hes : es.KeysApart) : (es.update fs).KeysApart := by
  induction fs generalizing es with
  | nil => exact hes
  | cons e rest ih => exact ih (hes.put e.1 e.2)

theorem KeysApart.erase (h : es.KeysApart) (key : Value) : (es.erase key).KeysApart :=
  List.Pairwise.sublist (List.filter_sublist.map _) h

namespace IsRecord

theorem nil : IsRecord [] := ⟨nofun, .nil⟩

theorem head {e : Value × Value} {rest : Entries} (h : IsRecord (e :: rest)) :
    ∃ name, e.1 = .str name := h.texts _ List.mem_cons_self

theorem tail {e : Value × Value} {rest : Entries} (h : IsRecord (e :: rest)) : IsRecord rest :=
  ⟨fun _ hkey => h.texts _ (List.mem_cons_of_mem _ hkey), (List.nodup_cons.mp h.distinct).2⟩

theorem get?_tail {e : Value × Value} {rest : Entries} (h : IsRecord (e :: rest))
    (he : e.1 = .str name) : rest.get? name = none := by
  refine find?_eq_none_iff.mpr fun f hf => Bool.eq_false_iff.mpr fun hsame => ?_
  have hmem : f.1 ∈ rest.map (·.1) := List.mem_map_of_mem hf
  obtain ⟨other, hother⟩ := h.tail.texts _ hmem
  rw [hother] at hsame hmem
  rw [Value.sameKey_str.mp hsame, ← he] at hmem
  exact (List.nodup_cons.mp h.distinct).1 hmem

/-- An entry is found under its name. -/
theorem get?_iff (h : IsRecord es) : es.get? name = some v ↔ (.str name, v) ∈ es := by
  induction es with
  | nil => exact ⟨nofun, nofun⟩
  | cons e rest ih =>
      obtain ⟨key, hkey⟩ := h.head
      have hhead : (.str name, v) = e ↔ key = name ∧ e.2 = v := by
        rw [Prod.ext_iff, hkey, Value.str.injEq]
        exact and_congr eq_comm eq_comm
      rw [get?_cons e rest hkey, List.mem_cons, ← ih h.tail, hhead]
      by_cases hname : key = name
      · subst hname
        rw [if_pos rfl, h.get?_tail hkey, Option.some.injEq]
        simp
      · rw [if_neg hname]
        simp [hname]

theorem put (h : IsRecord es) (name : String) (v : Value) : IsRecord (es.put (.str name) v) := by
  rcases @keys_put es v (.str name) with hkeys | ⟨hnone, hkeys⟩
  · exact ⟨hkeys ▸ h.texts, hkeys ▸ h.distinct⟩
  · constructor
    · rw [hkeys]
      intro key hkey
      rcases List.mem_append.mp hkey with hkey | hkey
      · exact h.texts key hkey
      · exact ⟨name, List.mem_singleton.mp hkey⟩
    · rw [hkeys, List.nodup_append_comm, List.singleton_append, List.nodup_cons]
      refine ⟨fun hmem => ?_, h.distinct⟩
      obtain ⟨e, he, hkey⟩ := List.mem_map.mp hmem
      have hget := h.get?_iff.mpr (show (.str name, e.2) ∈ es from hkey ▸ he)
      cases hnone.symm.trans hget

theorem erase (h : IsRecord es) (key : Value) : IsRecord (es.erase key) := by
  have hsub : ((es.erase key).map (·.1)).Sublist (es.map (·.1)) := List.filter_sublist.map _
  exact ⟨fun k hk => h.texts k (hsub.subset hk), hsub.nodup h.distinct⟩

theorem update (hes : IsRecord es) (hfs : IsRecord fs) : IsRecord (es.update fs) := by
  induction fs generalizing es with
  | nil => exact hes
  | cons e rest ih =>
      obtain ⟨name, hname⟩ := hfs.head
      have hput : IsRecord (es.put e.1 e.2) := hname ▸ hes.put name e.2
      exact ih hput hfs.tail

theorem keysApart (h : IsRecord es) : es.KeysApart := by
  refine h.distinct.imp_of_mem fun hk hl hne => ?_
  obtain ⟨k, rfl⟩ := h.texts _ hk
  obtain ⟨l, rfl⟩ := h.texts _ hl
  exact Value.sameKey_str_ne fun heq => hne (congrArg Value.str heq)

theorem get?_update (hfs : IsRecord fs) (name : String) :
    (es.update fs).get? name = (fs.get? name).or (es.get? name) := find?_update hfs.keysApart

end IsRecord

end Entries

/-! ## Lists in pairs -/

theorem forall₂_iff_pairs {α β : Type} {R : α → β → Prop} {xs : List α} {ys : List β} :
    List.Forall₂ R xs ys ↔
      ∃ zs : List (α × β), xs = zs.map Prod.fst ∧ ys = zs.map Prod.snd ∧ ∀ z ∈ zs, R z.1 z.2 := by
  constructor
  · intro h
    induction h with
    | nil => exact ⟨[], rfl, rfl, List.forall_mem_nil _⟩
    | @cons x y _ _ hxy _ ih =>
        obtain ⟨zs, rfl, rfl, hzs⟩ := ih
        exact ⟨(x, y) :: zs, rfl, rfl, List.forall_mem_cons.mpr ⟨hxy, hzs⟩⟩
  · rintro ⟨zs, rfl, rfl, hzs⟩
    rw [List.forall₂_map_left_iff, List.forall₂_map_right_iff, List.forall₂_same]
    exact hzs

section perm

variable {α : Type} {p q : α → Prop} {xs ys : List α}

theorem forall_mem_perm (horder : xs.Perm ys) (h : ∀ x ∈ xs, p x ↔ q x) :
    (∀ x ∈ xs, p x) ↔ ∀ y ∈ ys, q y :=
  (forall₂_congr h).trans (forall_congr' fun _ => imp_congr_left horder.mem_iff)

theorem exists_mem_perm (horder : xs.Perm ys) (h : ∀ x ∈ xs, p x ↔ q x) :
    (∃ x ∈ xs, p x) ↔ ∃ y ∈ ys, q y := by
  constructor
  · rintro ⟨x, hx, hp⟩
    exact ⟨x, horder.mem_iff.mp hx, (h x hx).mp hp⟩
  · rintro ⟨x, hx, hq⟩
    have hx := horder.mem_iff.mpr hx
    exact ⟨x, hx, (h x hx).mpr hq⟩

end perm

namespace Value.Reordered

variable {R S : Schema → Schema → Prop} {v w u : Value} {xs ys : List Value} {es fs : Entries}

/-! ## What a reordering looks like -/

theorem eq_of_atom (h : Reordered R v w) (hv : v.isAtom = true) : w = v := by
  cases h with
  | atom _ => rfl
  | _ => cases hv

theorem symm (hR : ∀ s t, R s t → S t s) (h : Reordered R v w) : Reordered S w v := by
  induction h with
  | atom h => exact .atom h
  | schema h => exact .schema (hR _ _ h)
  | @list zs _ ih =>
      have := @list S (zs.map Prod.swap) (List.forall_mem_map.mpr ih)
      rw [List.map_map, List.map_map] at this
      exact this
  | @tuple zs _ ih =>
      have := @tuple S (zs.map Prod.swap) (List.forall_mem_map.mpr ih)
      rw [List.map_map, List.map_map] at this
      exact this
  | @set zs zs' horder _ ih =>
      have hzs' : ∀ z ∈ zs'.map Prod.swap, Reordered S z.1 z.2 :=
        List.forall_mem_map.mpr fun z hz => ih z (horder.mem_iff.mpr hz)
      have := @set S _ _ (horder.symm.map Prod.swap) hzs'
      rw [List.map_map, List.map_map] at this
      exact this
  | @frozenset zs zs' horder _ ih =>
      have hzs' : ∀ z ∈ zs'.map Prod.swap, Reordered S z.1 z.2 :=
        List.forall_mem_map.mpr fun z hz => ih z (horder.mem_iff.mpr hz)
      have := @frozenset S _ _ (horder.symm.map Prod.swap) hzs'
      rw [List.map_map, List.map_map] at this
      exact this
  | @dict zs zs' hnames horder _ ih =>
      let turn : String × Value × Value → String × Value × Value := fun z => (z.1, z.2.2, z.2.1)
      have hzs' : ∀ z ∈ zs'.map turn, Reordered S z.2.1 z.2.2 :=
        List.forall_mem_map.mpr fun z hz => ih z (horder.mem_iff.mpr hz)
      have hnames' : ((zs'.map turn).map Prod.fst).Nodup := by
        rw [List.map_map]
        exact (horder.map Prod.fst).nodup_iff.mp hnames
      have := @dict S _ _ hnames' (horder.symm.map turn) hzs'
      rw [List.map_map, List.map_map] at this
      exact this

theorem mono (hR : ∀ s t, R s t → S s t) (h : Reordered R v w) : Reordered S v w := by
  induction h with
  | atom h => exact .atom h
  | schema h => exact .schema (hR _ _ h)
  | list _ ih => exact .list ih
  | tuple _ ih => exact .tuple ih
  | set horder _ ih => exact .set horder ih
  | frozenset horder _ ih => exact .frozenset horder ih
  | dict hnames horder _ ih => exact .dict hnames horder ih

theorem tuple_iff :
    Reordered R (.tuple xs) w ↔ ∃ ys, w = .tuple ys ∧ List.Forall₂ (Reordered R) xs ys := by
  constructor
  · intro h
    generalize hv : Value.tuple xs = v at h
    cases h with
    | tuple h =>
        obtain rfl := Value.tuple.inj hv
        exact ⟨_, rfl, forall₂_iff_pairs.mpr ⟨_, rfl, rfl, h⟩⟩
    | atom h => subst hv; cases h
    | _ => cases hv
  · rintro ⟨ys, rfl, h⟩
    obtain ⟨zs, rfl, rfl, hzs⟩ := forall₂_iff_pairs.mp h
    exact .tuple hzs

theorem schema_iff {s : Schema} :
    Reordered R (.schema s) w ↔ ∃ t, w = .schema t ∧ R s t := by
  constructor
  · intro h
    cases h with
    | schema h => exact ⟨_, rfl, h⟩
    | atom h => cases h
  · rintro ⟨t, rfl, h⟩
    exact .schema h

/-- Names in pairs with values are a record. -/
theorem isRecord_pairs {zs : List (String × Value × Value)} (f : String × Value × Value → Value)
    (h : (zs.map Prod.fst).Nodup) : Entries.IsRecord (zs.map fun z => (.str z.1, f z)) := by
  have hkeys : (zs.map fun z => (Value.str z.1, f z)).map (·.1) = (zs.map Prod.fst).map .str := by
    rw [List.map_map, List.map_map]
    rfl
  constructor
  · rw [hkeys]
    rintro key hkey
    obtain ⟨name, -, rfl⟩ := List.mem_map.mp hkey
    exact ⟨name, rfl⟩
  · rw [hkeys]
    exact h.map fun _ _ => Value.str.inj

/-- The values that two records hold under the same names, in the order of the
first. -/
theorem exists_pairs (hes : es.IsRecord)
    (h : ∀ name v, es.get? name = some v → ∃ w, fs.get? name = some w) :
    ∃ zs : List (String × Value × Value), es = zs.map (fun z => (.str z.1, z.2.1)) ∧
      ∀ z, z ∈ zs ↔ es.get? z.1 = some z.2.1 ∧ fs.get? z.1 = some z.2.2 := by
  have each : ∀ e ∈ es, ∃ z : String × Value × Value,
      e = (.str z.1, z.2.1) ∧ fs.get? z.1 = some z.2.2 := by
    intro e he
    obtain ⟨name, hname⟩ := hes.texts _ (List.mem_map_of_mem he)
    obtain ⟨w, hw⟩ := h name e.2 (hes.get?_iff.mpr (hname ▸ he))
    exact ⟨(name, e.2, w), Prod.ext hname rfl, hw⟩
  obtain ⟨zs, hzs⟩ := exists_forall₂ each
  have heq : es = zs.map (fun z => (.str z.1, z.2.1)) := by
    rw [← List.forall₂_eq_eq_eq, List.forall₂_map_right_iff]
    exact hzs.imp fun _ _ h => h.1
  refine ⟨zs, heq, fun z => ⟨fun hz => ?_, fun ⟨hv, hw⟩ => ?_⟩⟩
  · obtain ⟨e, he, rfl, hw⟩ := forall₂_mem_right hzs hz
    exact ⟨hes.get?_iff.mpr he, hw⟩
  · obtain ⟨z', hz', hsame, hw'⟩ := forall₂_mem_left hzs (hes.get?_iff.mp hv)
    obtain ⟨hname, hvalue⟩ := Prod.mk.inj hsame
    obtain hname := Value.str.inj hname
    rw [← hname, hw, Option.some.injEq] at hw'
    rwa [show z = z' from Prod.ext hname (Prod.ext hvalue hw')]

theorem nodup_of_isRecord {zs : List (String × Value × Value)} {f : String × Value × Value → Value}
    (h : Entries.IsRecord (zs.map fun z => (.str z.1, f z))) : (zs.map Prod.fst).Nodup := by
  have hdistinct := h.distinct
  rw [List.map_map] at hdistinct
  exact List.Nodup.of_map Value.str (by rwa [List.map_map])

/-- Under each name, paired entries hold a pair of values, in any order. -/
theorem get?_pairs {zs zs' : List (String × Value × Value)} (hnames : (zs.map Prod.fst).Nodup)
    (horder : zs.Perm zs') (h : ∀ z ∈ zs, Reordered R z.2.1 z.2.2) (name : String) :
    Option.Rel (Reordered R) (Entries.get? (zs.map fun z => (.str z.1, z.2.1)) name)
      (Entries.get? (zs'.map fun z => (.str z.1, z.2.2)) name) := by
  have hnames' : (zs'.map Prod.fst).Nodup := (horder.map Prod.fst).nodup_iff.mp hnames
  by_cases hname : ∃ z ∈ zs, z.1 = name
  · obtain ⟨z, hz, rfl⟩ := hname
    rw [(isRecord_pairs (fun z => z.2.1) hnames).get?_iff.mpr (List.mem_map.mpr ⟨z, hz, rfl⟩),
      (isRecord_pairs (fun z => z.2.2) hnames').get?_iff.mpr
        (List.mem_map.mpr ⟨z, horder.mem_iff.mp hz, rfl⟩)]
    exact .some (h z hz)
  · have none : ∀ {us : List (String × Value × Value)} {f : String × Value × Value → Value},
        (∀ z ∈ us, z ∈ zs) → Entries.get? (us.map fun z => (.str z.1, f z)) name = .none := by
      intro us f hus
      refine Entries.find?_eq_none_iff.mpr fun e he => Bool.eq_false_iff.mpr fun hsame => ?_
      obtain ⟨z, hz, rfl⟩ := List.mem_map.mp he
      exact hname ⟨z, hus z hz, sameKey_str.mp hsame⟩
    rw [none fun _ hz => hz, none fun z hz => horder.mem_iff.mpr hz]
    exact .none

theorem dict_of_get? (hes : es.IsRecord) (hfs : fs.IsRecord)
    (hrel : ∀ name, Option.Rel (Reordered R) (es.get? name) (fs.get? name)) :
    Reordered R (.dict es) (.dict fs) := by
  have found : ∀ name, (∀ v, es.get? name = some v → ∃ w, fs.get? name = some w) ∧
      ∀ w, fs.get? name = some w → ∃ v, es.get? name = some v := by
    intro name
    have h := hrel name
    generalize es.get? name = x, fs.get? name = y at h
    cases h with
    | none => exact ⟨nofun, nofun⟩
    | some _ => exact ⟨fun _ _ => ⟨_, rfl⟩, fun _ _ => ⟨_, rfl⟩⟩
  obtain ⟨zs, heq, hzs⟩ := exists_pairs hes fun name => (found name).1
  obtain ⟨us, heq', hus⟩ := exists_pairs hfs fun name => (found name).2
  have hnames : (zs.map Prod.fst).Nodup := nodup_of_isRecord (heq ▸ hes)
  have hnames' : (us.map Prod.fst).Nodup := nodup_of_isRecord (heq' ▸ hfs)
  let turn : String × Value × Value → String × Value × Value := fun z => (z.1, z.2.2, z.2.1)
  -- both lists of pairs have the same members, each once
  have horder : zs.Perm (us.map turn) := by
    have hturn : (us.map turn).Nodup := hnames'.of_map.map fun y z h => by
      obtain ⟨hname, h⟩ := Prod.mk.inj h
      obtain ⟨hw, hv⟩ := Prod.mk.inj h
      exact Prod.ext hname (Prod.ext hv hw)
    refine (List.perm_ext_iff_of_nodup hnames.of_map hturn).mpr fun z => ?_
    rw [hzs, and_comm, ← hus (turn z)]
    exact ⟨fun h => List.mem_map.mpr ⟨_, h, rfl⟩, fun h => by
      obtain ⟨u, hu, rfl⟩ := List.mem_map.mp h
      exact hu⟩
  have hreordered := @dict R zs (us.map turn) hnames horder fun z hz => by
    obtain ⟨hv, hw⟩ := (hzs z).mp hz
    have h := hrel z.1
    rw [hv, hw] at h
    cases h with
    | some h => exact h
  rw [List.map_map, ← heq] at hreordered
  exact (show fs = us.map _ from heq') ▸ hreordered

/-- Two dictionaries are reorderings of each other when they hold reordered
values under the same names. -/
theorem dict_iff : Reordered R (.dict es) w ↔ ∃ fs : Entries, w = .dict fs ∧ es.IsRecord ∧
    fs.IsRecord ∧ ∀ name, Option.Rel (Reordered R) (es.get? name) (fs.get? name) := by
  constructor
  · intro h
    generalize hv : Value.dict es = v at h
    cases h with
    | @dict zs zs' hnames horder h =>
        obtain rfl := Value.dict.inj hv
        exact ⟨_, rfl, isRecord_pairs _ hnames,
          isRecord_pairs _ ((horder.map Prod.fst).nodup_iff.mp hnames), get?_pairs hnames horder h⟩
    | atom h => subst hv; cases h
    | _ => cases hv
  · rintro ⟨fs, rfl, hes, hfs, hrel⟩
    exact dict_of_get? hes hfs hrel

/-! ## Entries of reordered dictionaries -/

section entries

variable {name : String}

theorem get? (h : Reordered R (.dict es) (.dict fs)) (name : String) :
    Option.Rel (Reordered R) (es.get? name) (fs.get? name) := by
  obtain ⟨_, heq, -, -, hrel⟩ := dict_iff.mp h
  exact Value.dict.inj heq ▸ hrel name

theorem record (h : Reordered R (.dict es) (.dict fs)) : es.IsRecord ∧ fs.IsRecord := by
  obtain ⟨_, heq, hes, hfs, -⟩ := dict_iff.mp h
  exact ⟨hes, Value.dict.inj heq ▸ hfs⟩

theorem put (h : Reordered R (.dict es) (.dict fs)) (hv : Reordered R v w) :
    Reordered R (.dict (es.put (.str name) v)) (.dict (fs.put (.str name) w)) := by
  refine dict_of_get? (h.record.1.put name v) (h.record.2.put name w) fun other => ?_
  by_cases hname : other = name
  · subst hname
    rw [Entries.get?_put_self, Entries.get?_put_self]
    exact .some hv
  · rw [Entries.get?_put_of_ne hname, Entries.get?_put_of_ne hname]
    exact h.get? other

theorem erase (h : Reordered R (.dict es) (.dict fs)) (name : String) :
    Reordered R (.dict (es.erase (.str name))) (.dict (fs.erase (.str name))) := by
  refine dict_of_get? (h.record.1.erase _) (h.record.2.erase _) fun other => ?_
  by_cases hname : other = name
  · subst hname
    rw [Entries.get?_erase_self, Entries.get?_erase_self]
    exact .none
  · rw [Entries.get?_erase_of_ne hname, Entries.get?_erase_of_ne hname]
    exact h.get? other

theorem update {es' fs' : Entries} (h : Reordered R (.dict es) (.dict es'))
    (h' : Reordered R (.dict fs) (.dict fs')) :
    Reordered R (.dict (es.update fs)) (.dict (es'.update fs')) := by
  refine dict_of_get? (h.record.1.update h'.record.1) (h.record.2.update h'.record.2) fun name => ?_
  rw [h'.record.1.get?_update, h'.record.2.get?_update]
  have hover := h'.get? name
  have hunder := h.get? name
  generalize fs.get? name = x, fs'.get? name = x' at hover
  cases hover with
  | some hvw => exact .some hvw
  | none => exact hunder

end entries

/-! ## Heights -/

theorem height_eq (h : Reordered R v w) : v.height = w.height := by
  have all : ∀ zs : List (Value × Value), (∀ z ∈ zs, z.1.height = z.2.height) →
      heightAll (zs.map Prod.fst) = heightAll (zs.map Prod.snd) := by
    intro zs hzs
    induction zs with
    | nil => rfl
    | cons z rest ih =>
        obtain ⟨hz, hrest⟩ := List.forall_mem_cons.mp hzs
        rw [List.map_cons, List.map_cons, heightAll, heightAll, hz, ih hrest]
  induction h with
  | atom _ | schema _ | set _ _ _ | frozenset _ _ _ => rfl
  | list _ ih | tuple _ ih => exact congrArg (· + 1) (all _ ih)
  | @dict zs zs' _ horder _ ih =>
      have hbound : ∀ n, heightEntries (zs.map fun z => (.str z.1, z.2.1)) ≤ n ↔
          heightEntries (zs'.map fun z => (.str z.1, z.2.2)) ≤ n := by
        intro n
        rw [heightEntries_le_iff, heightEntries_le_iff, List.forall_mem_map, List.forall_mem_map]
        exact forall_mem_perm horder fun z hz => by rw [ih z hz]
      exact congrArg (· + 1)
        (Nat.le_antisymm ((hbound _).mpr (Nat.le_refl _)) ((hbound _).mp (Nat.le_refl _)))

end Value.Reordered

end Conform
