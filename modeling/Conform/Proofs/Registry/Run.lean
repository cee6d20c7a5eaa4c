/-
# `Proofs.Registry.Run` — registries over whole runs

A run is any sequence of requests to a registry that is empty at first; a
request that is refused changes nothing, except that the registration of the
controllers of this library keeps those before the refused one.  Beside the
registry a log is kept from the answers alone: every definition with the
registry it was made in, and the definitions left by the deletions.

`integrity_run` says that after any run the tables of the registry and the
log agree.
-/
import Conform.Registry.Builtin
import Conform.Proofs.Outcome
import Conform.Proofs.Registry.Sound

namespace Conform

open Value (sameKey sameKey_symm sameKey_trans sameKey_self)

/-- Whether a key is one of the aliases. -/
def Definition.answersTo (d : Definition) (key : Value) : Bool :=
  key.hashable && d.aliases.any (sameKey · key)

theorem Definition.answersTo_iff {d : Definition} {key : Value} :
    d.answersTo key = true ↔ key.hashable = true ∧ ∃ a ∈ d.aliases, sameKey a key = true := by
  simp [answersTo]

namespace Registry

/-! ## Requests and the log -/

inductive Request where
  | define (p : Proposal)
  | delete (key : Value)
  | registerBuiltins

/-- The registry after a request. -/
def handle (r : Registry) : Request → Registry
  | .define p =>
      match r.define p with
      | .ok (r', _) => r'
      | .error _ => r
  | .delete key =>
      match r.delete key with
      | .ok r' => r'
      | .error _ => r
  | .registerBuiltins => r.registerBuiltins.1

structure Log where
  registry : Registry
  /-- Each definition so far, with the registry that it was made in. -/
  made : List (Registry × Definition)
  /-- The definitions that no deletion was granted for. -/
  live : List Definition

namespace Log

def empty : Log := ⟨Registry.empty, [], []⟩

def enter (l : Log) (r : Registry) (d : Definition) : Log :=
  ⟨r, l.made ++ [(l.registry, d)], l.live ++ [d]⟩

def defineBuiltins (l : Log) : List BuiltinController → Log
  | [] => l
  | c :: rest =>
      match l.registry.defineBuiltin c with
      | .ok (r, d) => (l.enter r d).defineBuiltins rest
      | .error _ => l

def handle (l : Log) : Request → Log
  | .define p =>
      match l.registry.define p with
      | .ok (r, d) => l.enter r d
      | .error _ => l
  | .delete key =>
      match l.registry.delete key with
      | .ok r => ⟨r, l.made, l.live.filter (!·.answersTo key)⟩
      | .error _ => l
  | .registerBuiltins => l.defineBuiltins builtinControllers

end Log

/-- The log of a run. -/
def run (requests : List Request) : Log := requests.foldl Log.handle Log.empty

theorem registry_defineBuiltins :
    ∀ (cs : List BuiltinController) (l : Log),
      (l.defineBuiltins cs).registry = (l.registry.defineBuiltins cs).1
  | [], _ => rfl
  | c :: rest, l => by
      simp only [Log.defineBuiltins, Registry.defineBuiltins]
      cases l.registry.defineBuiltin c with
      | error _ => rfl
      | ok x => exact registry_defineBuiltins rest (l.enter x.1 x.2)

theorem registry_handle (l : Log) (q : Request) :
    (l.handle q).registry = l.registry.handle q := by
  cases q with
  | define p =>
      simp only [Log.handle, handle]
      cases l.registry.define p <;> rfl
  | delete key =>
      simp only [Log.handle, handle]
      cases l.registry.delete key <;> rfl
  | registerBuiltins => exact registry_defineBuiltins _ l

/-- The log of a run has the registry of the run. -/
theorem registry_run (requests : List Request) :
    (run requests).registry = requests.foldl handle empty :=
  (List.foldl_hom Log.registry fun l q => (registry_handle l q).symm).symm

/-! ## What an accepted definition passed -/

/-- A definition entered after passing all checks. -/
structure Entered (r r' : Registry) (d : Definition) : Prop where
  aliases : d.aliases ≠ []
  free : ∀ a ∈ d.aliases, a.hashable = true ∧ find? r.store a = none
  parents : ∀ p ∈ d.inherits, ∃ e, r.resolve p = some e
  number : d.layer.id = r.count
  insert : r.insert d.aliases d.layer d.inherits = (r', d)

theorem entered_of_defineCandidate {r r' : Registry} {d : Definition} {c : Candidate}
    (hne : c.aliases ≠ []) (h : r.defineCandidate c = .ok (r', d)) : Entered r r' d := by
  simp only [defineCandidate, bind_eq_ok, lift_config_eq_ok, lift_eq_ok, pure_eq_ok] at h
  obtain ⟨_, haliases, _, hparents, _, -, h⟩ := h
  obtain rfl : (r.insert c.aliases _ c.inherits).2 = d := congrArg Prod.snd h
  exact ⟨hne, checkAliases_ok haliases, checkParents_ok hparents, rfl, h⟩

theorem aliases_of_read {p : Proposal} {c : Candidate} (h : p.read = .ok c) : c.aliases ≠ [] := by
  simp only [Proposal.read] at h
  split at h
  · simp at h
  · rename_i hne
    split at h
    · simp only [bind_eq_ok, pure_eq_ok] at h
      obtain ⟨_, -, _, -, rfl⟩ := h
      simpa using hne
    · simp at h
    · simp at h

theorem entered_of_define {r r' : Registry} {d : Definition} {p : Proposal}
    (h : r.define p = .ok (r', d)) : Entered r r' d := by
  obtain ⟨_, hread, h⟩ := bind_eq_ok.mp h
  exact entered_of_defineCandidate (aliases_of_read hread) h

theorem entered_of_defineBuiltin {r r' : Registry} {d : Definition} {c : BuiltinController}
    (hne : c.aliases ≠ []) (h : r.defineBuiltin c = .ok (r', d)) : Entered r r' d :=
  entered_of_defineCandidate hne h

/-! ## The invariant of a run -/

structure Kept (l : Log) : Prop where
  sound : Sound l.registry
  listed : l.registry.definitions = l.live
  inOrder : l.live.Sublist (l.made.map (·.2))
  /-- Numbers were given once, in order. -/
  numbers : l.made.Pairwise fun x y => x.2.id < y.2.id
  numbered : ∀ x ∈ l.made, x.2.id < l.registry.count
  /-- What a live definition's parents resolved to, they resolve to still. -/
  parents : ∀ x ∈ l.made, x.2 ∈ l.live →
    ∀ p ∈ x.2.inherits, ∃ e, x.1.resolve p = some e ∧ l.registry.resolve p = some e

theorem kept_empty : Kept Log.empty where
  sound := sound_empty
  listed := rfl
  inOrder := List.Sublist.refl _
  numbers := List.Pairwise.nil
  numbered := by simp [Log.empty]
  parents := by simp [Log.empty]

theorem Kept.enter {l : Log} {r : Registry} {d : Definition} (h : Kept l)
    (hd : Entered l.registry r d) : Kept (l.enter r d) := by
  have hr : (l.registry.insert d.aliases d.layer d.inherits).1 = r := by rw [hd.insert]
  have hd' : (l.registry.insert d.aliases d.layer d.inherits).2 = d := by rw [hd.insert]
  have keep : ∀ {key : Value} {e : Definition}, l.registry.resolve key = some e →
      r.resolve key = some e := fun hk => hr ▸ resolve_insert hd.aliases hd.free hk
  have hcount : r.count = l.registry.count + 1 := by rw [← hr]; rfl
  refine
    { sound := hr ▸ h.sound.insert hd.aliases hd.free hd.parents hd.number
      listed := ?_, inOrder := ?_, numbers := ?_, numbered := ?_, parents := ?_ }
  · have hinsert := definitions_insert d.inherits h.sound hd.aliases hd.free hd.number
    rw [hr, hd', h.listed] at hinsert
    exact hinsert
  · simpa [Log.enter] using h.inOrder
  · refine List.pairwise_append.mpr ⟨h.numbers, List.pairwise_singleton _ _, fun x hx y hy => ?_⟩
    obtain rfl := List.mem_singleton.mp hy
    show x.2.id < d.layer.id
    rw [hd.number]
    exact h.numbered x hx
  · intro x hx
    show x.2.id < r.count
    rcases List.mem_append.mp hx with hx | hx
    · have := h.numbered x hx
      omega
    · obtain rfl := List.mem_singleton.mp hx
      show d.layer.id < r.count
      rw [hd.number]
      omega
  · intro x hx hlive p hp
    rcases List.mem_append.mp hx with hx | hx
    · have hold : x.2 ∈ l.live := by
        rcases List.mem_append.mp hlive with hlive | hlive
        · exact hlive
        · have hlt := h.numbered x hx
          rw [List.mem_singleton.mp hlive, Definition.id, hd.number] at hlt
          omega
      obtain ⟨e, hbefore, hnow⟩ := h.parents x hx hold p hp
      exact ⟨e, hbefore, keep hnow⟩
    · obtain rfl := List.mem_singleton.mp hx
      obtain ⟨e, he⟩ := hd.parents p hp
      exact ⟨e, he, keep he⟩

/-- The live definitions that a key answers for are the one it resolves to. -/
theorem Kept.answersTo_iff {l : Log} (h : Kept l) {d : Definition} {key : Value}
    (hd : d ∈ l.live) : d.answersTo key = true ↔ l.registry.resolve key = some d := by
  rw [h.sound.resolve_iff, h.listed, Definition.answersTo_iff]
  exact ⟨fun ha => ⟨hd, ha⟩, fun ha => ha.2⟩

theorem Kept.delete {l : Log} {key : Value} (h : Kept l) : Kept (l.handle (.delete key)) := by
  simp only [Log.handle]
  cases hr : l.registry.delete key with
  | error _ => exact h
  | ok r =>
      rcases delete_ok hr with ⟨hk, rfl⟩ | ⟨d, hk, hdeps, rfl⟩
      · have all : l.live.filter (!·.answersTo key) = l.live := by
          rw [List.filter_eq_self]
          intro d hd
          have : d.answersTo key ≠ true := fun ha => by
            simpa [hk] using (h.answersTo_iff hd).mp ha
          simpa using this
        simpa only [all] using h
      · have hd : d ∈ l.registry.definitions := h.sound.mem_of_resolve hk
        have live : l.live.filter (!·.answersTo key) = (l.registry.remove d).definitions := by
          rw [definitions_remove, h.listed]
          refine List.filter_congr fun e he => ?_
          rw [Bool.eq_iff_iff]
          simp only [Bool.not_eq_true', bne_iff_ne, ne_eq, ← Bool.not_eq_true,
            h.answersTo_iff he, hk, Option.some.injEq, not_iff_not]
          constructor
          · exact fun heq => heq ▸ rfl
          · exact fun hid => (h.sound.eq_of_id (h.listed ▸ he) hd hid).symm
        have sub : (l.registry.remove d).definitions.Sublist l.live := by
          rw [definitions_remove, h.listed]
          exact List.filter_sublist
        simp only [live]
        refine
          { sound := h.sound.remove hd hdeps
            listed := rfl, inOrder := sub.trans h.inOrder
            numbers := h.numbers, numbered := h.numbered, parents := ?_ }
        intro x hx hlive p hp
        obtain ⟨e, hbefore, hnow⟩ := h.parents x hx (sub.subset hlive) p hp
        have hmem : x.2 ∈ l.registry.definitions := h.listed ▸ sub.subset hlive
        exact ⟨e, hbefore, h.sound.resolve_remove.mpr
          ⟨hnow, h.sound.parent_ne hdeps hmem hp hnow⟩⟩

theorem Kept.defineBuiltins :
    ∀ {cs : List BuiltinController} {l : Log}, (∀ c ∈ cs, c.aliases ≠ []) → Kept l →
      Kept (l.defineBuiltins cs)
  | [], _, _, h => h
  | c :: rest, l, hcs, h => by
      simp only [Log.defineBuiltins]
      cases hc : l.registry.defineBuiltin c with
      | error _ => exact h
      | ok x =>
          have hne := hcs c List.mem_cons_self
          exact Kept.defineBuiltins (fun c' hc' => hcs c' (List.mem_cons_of_mem _ hc'))
            (h.enter (entered_of_defineBuiltin hne hc))

theorem Kept.handle {l : Log} (h : Kept l) (q : Request) : Kept (l.handle q) := by
  cases q with
  | define p =>
      simp only [Log.handle]
      cases hp : l.registry.define p with
      | error _ => exact h
      | ok x => exact h.enter (entered_of_define hp)
  | delete key => exact h.delete
  | registerBuiltins => exact h.defineBuiltins (by simp [builtinControllers])

theorem kept_run (requests : List Request) : Kept (run requests) :=
  List.foldlRecOn requests Log.handle kept_empty fun _ h q _ => h.handle q

/-! ## The agreement of the tables and the log -/

structure Integrity (l : Log) : Prop where
  /-- A key has a definition exactly when it is an alias of a live one. -/
  resolves : ∀ key d, l.registry.resolve key = some d ↔ d ∈ l.live ∧ d.answersTo key = true
  /-- What the store has is an alias of a live definition. -/
  stored : ∀ k d, (k, d) ∈ l.registry.store → d ∈ l.live ∧ k ∈ d.aliases
  /-- And it has all of them, equal ones once. -/
  covered : ∀ d ∈ l.live, ∀ a ∈ d.aliases,
    ∃ k, (k, d) ∈ l.registry.store ∧ (k = a ∨ sameKey k a = true)
  /-- No two live definitions share an alias. -/
  apart : ∀ d ∈ l.live, ∀ e ∈ l.live, ∀ a ∈ d.aliases, ∀ b ∈ e.aliases,
    sameKey a b = true → d = e
  /-- The parents of a live definition are those that it was made with, they
  are live and they were made before it. -/
  parents : ∀ before d, (before, d) ∈ l.made → d ∈ l.live → ∀ p ∈ d.inherits,
    ∃ e, before.resolve p = some e ∧ l.registry.resolve p = some e ∧ [e, d].Sublist l.live
  /-- The chain of a live definition is the one its parents have now. -/
  chains : ∀ d ∈ l.live, d.chain = l.registry.inheritedChain d.inherits ++ [d.layer]
  /-- The live definitions are listed, each once, in the order they were
  made. -/
  listed : l.registry.definitions = l.live
  once : (l.made.map (·.2)).Nodup
  inOrder : l.live.Sublist (l.made.map (·.2))

/-- Two live definitions stand in the order of their numbers. -/
theorem Kept.pair_sublist {l : Log} (h : Kept l) {d e : Definition} (hd : d ∈ l.live)
    (he : e ∈ l.live) (hlt : e.id < d.id) : [e, d].Sublist l.live := by
  have ascending : l.live.Pairwise fun x y => x.id < y.id :=
    h.listed ▸ distinct_ascending h.sound.ascending
  obtain ⟨before, after, hsplit⟩ := List.append_of_mem he
  rw [hsplit] at hd ascending ⊢
  rw [List.pairwise_append] at ascending
  rcases List.mem_append.mp hd with hd | hd
  · have := ascending.2.2 d hd e List.mem_cons_self
    omega
  · rcases List.mem_cons.mp hd with rfl | hd
    · omega
    · exact ((List.singleton_sublist.mpr hd).cons_cons e).trans (List.sublist_append_right _ _)

theorem Kept.integrity {l : Log} (h : Kept l) : Integrity l := by
  have live : ∀ {d : Definition}, d ∈ l.live ↔ ∃ k, (k, d) ∈ l.registry.store := by
    intro d
    rw [← h.listed]
    exact h.sound.mem_definitions
  have resolves : ∀ key d, l.registry.resolve key = some d ↔
      d ∈ l.live ∧ d.answersTo key = true := fun key d => by
    rw [h.sound.resolve_iff, h.listed, Definition.answersTo_iff]
  refine
    { resolves, listed := h.listed, inOrder := h.inOrder
      stored := fun k d hk => ⟨live.mpr ⟨k, hk⟩, h.sound.isAlias _ hk⟩
      covered := ?_, apart := ?_, parents := ?_, chains := ?_, once := ?_ }
  · intro d hd a ha
    obtain ⟨k, hk⟩ := live.mp hd
    exact (h.sound.hasKey _ hk a ha).2
  · intro d hd e he a ha b hb hab
    obtain ⟨k, hk⟩ := live.mp hd
    obtain ⟨l', hl⟩ := live.mp he
    have hb' := (h.sound.hasKey _ hl b hb).1
    have hd' := (resolves b d).mpr ⟨hd, Definition.answersTo_iff.mpr ⟨hb', a, ha, hab⟩⟩
    have he' := (resolves b e).mpr ⟨he, Definition.answersTo_iff.mpr
      ⟨hb', b, hb, sameKey_self (sameKey_symm a hab)⟩⟩
    exact Option.some.inj (hd'.symm.trans he')
  · intro before d hmade hd p hp
    obtain ⟨e, hbefore, hnow⟩ := h.parents _ hmade hd p hp
    obtain ⟨k, hk⟩ := live.mp hd
    obtain ⟨f, hf, hlt⟩ := h.sound.parents _ hk p hp
    obtain rfl : f = e := Option.some.inj (hf.symm.trans hnow)
    exact ⟨f, hbefore, hnow, h.pair_sublist hd ((resolves p f).mp hnow).1 hlt⟩
  · intro d hd
    obtain ⟨k, hk⟩ := live.mp hd
    exact h.sound.chains _ hk
  · rw [List.Nodup, List.pairwise_map]
    exact h.numbers.imp fun hlt heq => absurd hlt (by simp [heq])

/-- After any run the registry and its log agree. -/
theorem integrity_run (requests : List Request) :
    (run requests).registry = requests.foldl handle empty ∧ Integrity (run requests) :=
  ⟨registry_run requests, (kept_run requests).integrity⟩

end Registry

end Conform
