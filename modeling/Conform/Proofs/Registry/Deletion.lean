/-
# `Proofs.Registry.Deletion` — the verdict on a deletion

Whether a definition can be deleted is read off a table that grows with
every definition and shrinks with every deletion.  The verdict is the one
that the live definitions give all the same: a deletion is refused exactly
when one of them has an alias of the definition among its parents, those
that do are reported once for every such alias, and a granted deletion takes
out the aliases of the definition and nothing else.

Parents are older than their children.  So nobody inherits from the
youngest definition, and the definitions can be deleted from the youngest to
the oldest; that both tables are empty then rests on `Trim`, which says that
no definition has a list of dependents without a member.
-/
import Conform.Proofs.Registry.Run
import Conform.Proofs.Registry.Ancestors

namespace Conform.Registry

variable {r s : Registry} {d e : Definition} {key p : Value}

/-! ## An invariant of all runs -/

/-- What the empty registry has, and what definitions that enter and leave
preserve, every registry has that requests make. -/
theorem handle_induction {P : Registry → Prop} (hempty : P empty)
    (henter : ∀ {r s d}, P r → Entered r s d → P s)
    (hleave : ∀ {r d}, P r → P (r.remove d)) (requests : List Request) :
    P (requests.foldl handle empty) := by
  have builtins : ∀ (cs : List BuiltinController) (r : Registry), (∀ c ∈ cs, c.aliases ≠ []) →
      P r → P (r.defineBuiltins cs).1 := by
    intro cs
    induction cs with
    | nil => exact fun _ _ h => h
    | cons c rest ih =>
        intro r hcs h
        simp only [defineBuiltins]
        cases hc : r.defineBuiltin c with
        | error _ => exact h
        | ok x =>
            have hentered := entered_of_defineBuiltin (hcs c List.mem_cons_self) hc
            exact ih x.1 (fun c' hc' => hcs c' (List.mem_cons_of_mem _ hc')) (henter h hentered)
  refine List.foldlRecOn requests handle hempty fun r h q _ => ?_
  cases q with
  | define p =>
      simp only [handle]
      cases hp : r.define p with
      | error _ => exact h
      | ok x => exact henter h (entered_of_define hp)
  | delete key =>
      simp only [handle]
      cases hk : r.delete key with
      | error _ => exact h
      | ok s =>
          rcases delete_ok hk with ⟨-, rfl⟩ | ⟨d, -, -, rfl⟩
          · exact h
          · exact hleave h
  | registerBuiltins => exact builtins _ r (by simp [builtinControllers]) h

/-! ## No list of dependents without a member -/

/-- Whoever has a list of dependents has one of them. -/
def Trim (r : Registry) : Prop := ∀ entry ∈ r.dependents, entry.2 ≠ []

theorem ne_nil_of_mem_addDependent {parent : Nat} {table : List (Nat × List Definition)}
    (h : ∀ entry ∈ table, entry.2 ≠ []) : ∀ entry ∈ addDependent parent d table, entry.2 ≠ [] := by
  induction table with
  | nil => simp [addDependent]
  | cons head rest ih =>
      intro entry hentry
      have hrest := ih fun x hx => h x (List.mem_cons_of_mem _ hx)
      simp only [addDependent] at hentry
      split at hentry
      · rcases List.mem_cons.mp hentry with rfl | hentry
        · simp
        · exact h entry (List.mem_cons_of_mem _ hentry)
      · rcases List.mem_cons.mp hentry with rfl | hentry
        · exact h _ List.mem_cons_self
        · exact hrest entry hentry

theorem ne_nil_of_mem_dropDependent {parent : Nat} {table : List (Nat × List Definition)}
    (h : ∀ entry ∈ table, entry.2 ≠ []) :
    ∀ entry ∈ dropDependent parent d table, entry.2 ≠ [] := by
  intro entry hentry
  obtain ⟨⟨n, ds⟩, hmem, heq⟩ := List.mem_filterMap.mp hentry
  by_cases hn : n = parent
  · by_cases hleft : (ds.eraseP (·.id == d.id)).isEmpty
    · simp [hn, hleft] at heq
    · simp only [hn, if_true, hleft, Bool.false_eq_true, if_false, Option.some.injEq] at heq
      obtain rfl := heq
      simpa using hleft
  · simp only [hn, if_false, Option.some.injEq] at heq
    obtain rfl := heq
    exact h _ hmem

theorem Trim.enter (h : Trim r) (hd : Entered r s d) : Trim s := by
  have hs : (r.insert d.aliases d.layer d.inherits).1 = s := by rw [hd.insert]
  rw [← hs]
  refine List.foldlRecOn
    (motive := fun table : List (Nat × List Definition) => ∀ entry ∈ table, entry.2 ≠ [])
    d.inherits _ h fun table htable p _ => ?_
  split
  · exact ne_nil_of_mem_addDependent htable
  · exact htable

theorem Trim.remove (h : Trim r) : Trim (r.remove d) := by
  refine List.foldlRecOn
    (motive := fun table : List (Nat × List Definition) => ∀ entry ∈ table, entry.2 ≠ [])
    d.inherits _ h fun table htable p _ => ?_
  split
  · exact ne_nil_of_mem_dropDependent htable
  · exact htable

theorem trim_run (requests : List Request) : Trim (requests.foldl handle empty) :=
  handle_induction (by simp [Trim, empty]) Trim.enter Trim.remove requests

/-! ## The verdict -/

/-- Those who inherit from a definition, in the order of registration, once
for every alias of it among their parents. -/
def heirs (r : Registry) (d : Definition) : List Definition :=
  r.definitions.flatMap fun e => (e.inherits.filter d.answersTo).map fun _ => e

theorem mem_heirs : e ∈ r.heirs d ↔ e ∈ r.definitions ∧ ∃ p ∈ e.inherits, d.answersTo p = true := by
  simp only [heirs, List.mem_flatMap, List.mem_map, List.mem_filter]
  constructor
  · rintro ⟨x, hx, p, hp, rfl⟩
    exact ⟨hx, p, hp⟩
  · rintro ⟨he, p, hp⟩
    exact ⟨e, he, p, hp, rfl⟩

theorem heirs_eq_nil_iff :
    r.heirs d = [] ↔ ¬ ∃ e ∈ r.definitions, ∃ p ∈ e.inherits, d.answersTo p = true := by
  rw [List.eq_nil_iff_forall_not_mem]
  simp only [mem_heirs, not_exists]

/-- What deleting a live definition by one of its aliases comes to. -/
structure Verdict (r : Registry) (d : Definition) (key : Value) : Prop where
  refused : (∃ ds, r.delete key = .error (.hasDependents ds)) ↔
    ∃ e ∈ r.definitions, ∃ p ∈ e.inherits, d.answersTo p = true
  reported : ∀ error, r.delete key = .error error →
    error = .hasDependents ((r.heirs d).map Definition.descriptor)
  granted : (¬ ∃ e ∈ r.definitions, ∃ p ∈ e.inherits, d.answersTo p = true) →
    ∃ s, r.delete key = .ok s ∧ s.store.Sublist r.store ∧
      (∀ k e, (k, e) ∈ s.store ↔ (k, e) ∈ r.store ∧ e ≠ d) ∧
      ∀ p, s.resolve p = if d.answersTo p then none else r.resolve p

theorem Sound.answersTo_iff (h : Sound r) (hd : d ∈ r.definitions) :
    d.answersTo key = true ↔ r.resolve key = some d := by
  rw [h.resolve_iff, Definition.answersTo_iff]
  exact ⟨fun ha => ⟨hd, ha⟩, fun ha => ha.2⟩

/-- The table lists the heirs. -/
theorem Sound.dependentsOf_eq (h : Sound r) (hd : d ∈ r.definitions) :
    r.dependentsOf d = r.heirs d := by
  rw [dependentsOf, h.dependentsListed d.id, heirs]
  refine flatMap_congr fun e _ => ?_
  rw [List.map_const', mentions, List.countP_eq_length_filter]
  congr 2
  refine List.filter_congr fun p _ => ?_
  rw [Bool.eq_iff_iff, h.answersTo_iff hd, Option.any_eq_true]
  constructor
  · rintro ⟨x, hx, hid⟩
    rw [hx, h.eq_of_id (h.mem_of_resolve hx) hd (beq_iff_eq.mp hid)]
  · exact fun hp => ⟨d, hp, beq_self_eq_true _⟩

theorem Sound.delete_eq (h : Sound r) (hd : d ∈ r.definitions) (hkey : d.answersTo key = true) :
    r.delete key = if (r.heirs d).isEmpty then .ok (r.remove d)
      else .error (.hasDependents ((r.heirs d).map Definition.descriptor)) := by
  simp only [delete, (h.answersTo_iff hd).mp hkey, h.dependentsOf_eq hd]
  cases r.heirs d <;> rfl

theorem Sound.mem_store_remove_iff (h : Sound r) (hd : d ∈ r.definitions) (k : Value)
    (e : Definition) : (k, e) ∈ (r.remove d).store ↔ (k, e) ∈ r.store ∧ e ≠ d := by
  rw [mem_store_remove]
  refine and_congr_right fun hk => not_congr ⟨fun hid => ?_, fun heq => heq ▸ rfl⟩
  exact h.eq_of_id (h.mem_definitions.mpr ⟨k, hk⟩) hd hid

/-- A lookup after a deletion misses the aliases that left, and no others. -/
theorem Sound.resolve_remove_eq (h : Sound r) (hd : d ∈ r.definitions) (p : Value) :
    (r.remove d).resolve p = if d.answersTo p then none else r.resolve p := by
  ext e
  rw [h.resolve_remove]
  split
  · rename_i hp
    rw [(h.answersTo_iff hd).mp hp]
    constructor
    · rintro ⟨heq, hid⟩
      exact absurd (Option.some.inj heq ▸ rfl) hid
    · exact nofun
  · rename_i hp
    refine and_iff_left_of_imp fun he hid => hp ((h.answersTo_iff hd).mpr ?_)
    rw [he, h.eq_of_id (h.mem_of_resolve he) hd hid]

theorem Sound.verdict (h : Sound r) (hd : d ∈ r.definitions) (hkey : d.answersTo key = true) :
    Verdict r d key := by
  have hdelete := h.delete_eq hd hkey
  by_cases hnone : r.heirs d = []
  · have hok : r.delete key = .ok (r.remove d) := by rw [hdelete, hnone]; rfl
    refine ⟨⟨?_, fun hsome => absurd hsome (heirs_eq_nil_iff.mp hnone)⟩, ?_, fun _ => ?_⟩
    · rintro ⟨ds, hds⟩
      cases hok.symm.trans hds
    · intro error herror
      cases hok.symm.trans herror
    · exact ⟨r.remove d, hok, List.filter_sublist, h.mem_store_remove_iff hd,
        h.resolve_remove_eq hd⟩
  · have herror : r.delete key
        = .error (.hasDependents ((r.heirs d).map Definition.descriptor)) := by
      rw [hdelete, if_neg (by simpa using hnone)]
    refine ⟨⟨fun _ => ?_, fun _ => ⟨_, herror⟩⟩, ?_, fun hno => ?_⟩
    · exact not_not.mp fun hno => hnone (heirs_eq_nil_iff.mpr hno)
    · exact fun error he => (Except.error.inj (herror.symm.trans he)).symm
    · exact absurd (heirs_eq_nil_iff.mpr hno) hnone

/-! ## From the youngest to the oldest -/

/-- Nobody inherits from the youngest definition. -/
theorem Sound.heirs_youngest (h : Sound r) {older : List Definition}
    (hsplit : r.definitions = older ++ [d]) : r.heirs d = [] := by
  have hd : d ∈ r.definitions := by rw [hsplit]; simp
  rw [heirs_eq_nil_iff]
  rintro ⟨e, he, p, hp, hans⟩
  have hlt : d.id < e.id := h.id_lt_of_inherits he ⟨p, hp, (h.answersTo_iff hd).mp hans⟩
  have hascending : r.definitions.Pairwise fun x y => x.id < y.id := distinct_ascending h.ascending
  rw [hsplit, List.pairwise_append] at hascending
  rw [hsplit, List.mem_append, List.mem_singleton] at he
  rcases he with he | rfl
  · exact Nat.lt_asymm hlt (hascending.2.2 e he d List.mem_cons_self)
  · exact Nat.lt_irrefl _ hlt

theorem Sound.definitions_remove_youngest (h : Sound r) {older : List Definition}
    (hsplit : r.definitions = older ++ [d]) : (r.remove d).definitions = older := by
  have hascending : r.definitions.Pairwise fun x y => x.id < y.id := distinct_ascending h.ascending
  rw [hsplit, List.pairwise_append] at hascending
  rw [definitions_remove, hsplit, List.filter_append]
  have holder : older.filter (·.id != d.id) = older := by
    rw [List.filter_eq_self]
    intro e he
    have hlt : e.id < d.id := hascending.2.2 e he d List.mem_cons_self
    simpa using Nat.ne_of_lt hlt
  rw [holder]
  simp

/-- Without definitions both tables are empty. -/
theorem Sound.tables_eq_nil (h : Sound r) (htrim : Trim r) (hnone : r.definitions = []) :
    r.store = [] ∧ r.dependents = [] := by
  constructor
  · rw [List.eq_nil_iff_forall_not_mem]
    rintro ⟨k, e⟩ he
    have : e ∈ r.definitions := h.mem_definitions.mpr ⟨k, he⟩
    simp [hnone] at this
  · have hlookup : ∀ n, (r.dependents.lookup n).getD [] = [] := by
      intro n
      rw [h.dependentsListed n, hnone]
      rfl
    cases htable : r.dependents with
    | nil => rfl
    | cons entry rest =>
        have hfirst := hlookup entry.1
        rw [htable, List.lookup_cons, beq_self_eq_true] at hfirst
        exact absurd hfirst (htrim entry (htable ▸ List.mem_cons_self))

/-- Each definition goes when its turn comes, the youngest first. -/
theorem Sound.foldlM_delete (h : Sound r) (htrim : Trim r) {keys : List Value}
    (hkeys : List.Forall₂ (fun key d => d.answersTo key = true) keys r.definitions.reverse) :
    ∃ s, keys.foldlM delete r = .ok s ∧ s.store = [] ∧ s.dependents = [] := by
  induction keys generalizing r with
  | nil =>
      have hnone : r.definitions = [] := List.reverse_eq_nil_iff.mp (List.forall₂_nil_left_iff.mp hkeys)
      exact ⟨r, rfl, h.tables_eq_nil htrim hnone⟩
  | cons key rest ih =>
      obtain ⟨d, younger, hkey, hrest, hreverse⟩ := List.forall₂_cons_left_iff.mp hkeys
      have hsplit : r.definitions = younger.reverse ++ [d] := by
        rw [← List.reverse_cons, ← hreverse, List.reverse_reverse]
      have hd : d ∈ r.definitions := by rw [hsplit]; simp
      have hheirs := h.heirs_youngest hsplit
      have hdelete : r.delete key = .ok (r.remove d) := by
        rw [h.delete_eq hd hkey, hheirs]
        rfl
      have hsound := h.remove hd (by rw [h.dependentsOf_eq hd, hheirs])
      rw [List.foldlM_cons, hdelete, ok_bind]
      refine ih hsound htrim.remove ?_
      rw [h.definitions_remove_youngest hsplit, List.reverse_reverse]
      exact hrest

/-- In every registry that requests make, the verdict on a deletion is that
of the live definitions, and deleting these from the last to the first, each
by any of its aliases, leaves the registry empty. -/
theorem deletion_run (requests : List Request) :
    let r := requests.foldl handle empty
    (∀ d ∈ r.definitions, ∀ key, d.answersTo key = true → Verdict r d key) ∧
      ∀ keys, List.Forall₂ (fun key d => d.answersTo key = true) keys r.definitions.reverse →
        ∃ s, keys.foldlM delete r = .ok s ∧ s.store = [] ∧ s.dependents = [] := by
  have sound : Sound (requests.foldl handle empty) :=
    registry_run requests ▸ (kept_run requests).sound
  exact ⟨fun d hd key hkey => sound.verdict hd hkey,
    fun keys hkeys => sound.foldlM_delete (trim_run requests) hkeys⟩

/-- `b` names `a` by both of its aliases.  Then `a` cannot be deleted, with
`b` reported twice, until `b` is. -/
theorem deletion_run_twice :
    let define : List String → List String → Request := fun names parents =>
      .define ⟨.list (names.map .str), .callable (.builder "" []), .list (parents.map .str),
        .none, .none⟩
    let r := [define ["a", "A"] [], define ["b"] ["A", "a"]].foldl handle empty
    (∃ a ∈ r.definitions, a.answersTo (.str "a") = true ∧ Verdict r a (.str "a") ∧
      (r.heirs a).map Definition.name = ["b", "b"]) ∧
    ∃ s, [.str "b", .str "A"].foldlM delete r = .ok s ∧ s.store = [] ∧ s.dependents = [] := by
  intro define r
  have hfirst : ∃ a ∈ r.definitions, a.answersTo (.str "a") = true ∧
      (r.heirs a).map Definition.name = ["b", "b"] := by
    refine ⟨_, List.mem_cons_self, by decide, by decide⟩
  obtain ⟨a, ha, hkey, hheirs⟩ := hfirst
  refine ⟨⟨a, ha, hkey, (deletion_run _).1 a ha _ hkey, hheirs⟩, (deletion_run _).2 _ ?_⟩
  exact .cons (by decide) (.cons (by decide) .nil)

end Conform.Registry
