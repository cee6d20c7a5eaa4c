/-
# `Proofs.Registry.Extends` — compiling in a larger registry

One registry extends another when it has all answers of the other.  What
compiles in the smaller one compiles in the larger one to the same schema,
after the same build steps: a lookup while compiling either has an answer,
which is kept, or ends the run.  The converse does not hold, since a type that
nothing answers to may be defined later.

A definition extends the registry that it enters, and the registry that a
deletion was granted for extends what is left.  A definition that was just
made has no heirs, so it can be deleted by any of its aliases, and both
tables are then as they were.
-/
import Conform.Proofs.Config.Height
import Conform.Proofs.Registry.Deletion

namespace Conform

/-! ## Runs that succeed -/

/-- The second run is the first, as far as that succeeds. -/
def Build.Persists {α : Type} (b b' : Build α) : Prop := ∀ a, b.result = .ok a → b' = b

theorem Build.parallel_persists : Build.Parallel Build.Persists where
  same _ _ _ := rfl
  bind {α β b b' f f'} hb hf c hc := by
    obtain ⟨a, ha, hfa⟩ := bind_eq_ok.mp (Build.result_bind ▸ hc)
    rw [hb a ha]
    refine build_bind_congr fun x hx => ?_
    obtain rfl : a = x := Except.ok.inj (ha.symm.trans hx)
    exact hf a ha c hfa

namespace Registry

/-- Every answer of the first registry is an answer of the second. -/
def Extends (r r' : Registry) : Prop := ∀ key d, r.resolve key = some d → r'.resolve key = some d

variable {r r' : Registry}

/-- What is not found ends the run. -/
theorem Extends.along (h : Extends r r') : r.Along Build.Persists r' := by
  intro type b b' hb
  cases hfound : r.resolve type with
  | none => exact nofun
  | some d =>
      rw [h type d hfound]
      exact hb d

/-- What compiles, compiles to the same schema in a larger registry. -/
theorem Extends.compile (h : Extends r r') (configuration additional : Value) :
    (Conform.compile r configuration additional).Persists
      (Conform.compile r' configuration additional) := by
  induction hn : configuration.height using Nat.strongRecOn
    generalizing configuration additional with
  | ind n ih =>
      subst hn
      rw [Conform.compile, Conform.compile]
      refine compileWith_along Build.parallel_persists h.along fun w hw config hconfig step => ?_
      refine Options.ofStep_along Build.parallel_persists (fun c hc a => ?_)
        (handed_of_given hconfig) step
      have hlower := Nat.lt_of_lt_of_le hc.2 (height_le_of_single hw)
      rw [if_pos hlower, if_pos hlower]
      exact ih c.height hlower c a rfl

theorem Extends.compile_ok (h : Extends r r') {configuration additional : Value} {s : Schema}
    (hs : r.compile configuration additional = .ok s) :
    r'.compile configuration additional = .ok s := by
  rw [Registry.compile, h.compile configuration additional s hs]
  exact hs

/-! ## Definitions that enter and leave -/

variable {d : Definition} {key : Value}

theorem Entered.extends (hd : Entered r r' d) : Extends r r' := by
  intro key e he
  have hr' : (r.insert d.aliases d.layer d.inherits).1 = r' := by rw [hd.insert]
  exact hr' ▸ resolve_insert hd.aliases hd.free he

theorem extends_of_delete (h : Sound r) (hdelete : r.delete key = .ok r') : Extends r' r := by
  rcases delete_ok hdelete with ⟨-, rfl⟩ | ⟨d, -, -, rfl⟩
  · exact fun _ _ he => he
  · exact fun _ _ he => (h.resolve_remove.mp he).1

/-- Those who inherit can be told from the store. -/
theorem Sound.dependentsOf_congr {s : Registry} (hr : Sound r) (hs : Sound s)
    (hstore : r.store = s.store) (e : Definition) : r.dependentsOf e = s.dependentsOf e := by
  have hresolve : ∀ p, r.resolve p = s.resolve p := fun p => by rw [resolve, resolve, hstore]
  have hdefinitions : r.definitions = s.definitions := by rw [definitions, definitions, hstore]
  rw [dependentsOf, dependentsOf, hr.dependentsListed, hs.dependentsListed, hdefinitions]
  exact flatMap_congr fun x _ => by rw [mentions_congr fun p _ => hresolve p]

section entered

variable (h : Sound r) (hd : Entered r r' d)
include h hd

theorem Entered.sound : Sound r' := by
  have hsound := h.insert hd.aliases hd.free hd.parents hd.number
  rwa [hd.insert] at hsound

theorem Entered.definitions : r'.definitions = r.definitions ++ [d] := by
  have hdefinitions := definitions_insert d.inherits h hd.aliases hd.free hd.number
  rwa [hd.insert] at hdefinitions

/-- Taking out what was just entered leaves the store as it was. -/
theorem Entered.store_remove : (r'.remove d).store = r.store := by
  obtain ⟨keys, hstore, -⟩ := store_insert d.layer d.inherits hd.aliases hd.free
  rw [hd.insert] at hstore
  have hold : r.store.filter (fun e => e.2.id != d.id) = r.store := by
    refine List.filter_eq_self.mpr fun e he => bne_iff_ne.mpr (Nat.ne_of_lt ?_)
    rw [Definition.id, Definition.id, hd.number]
    exact h.numbered e he
  have hnew : (keys.map (·, d)).filter (fun e => e.2.id != d.id) = [] := by
    refine List.filter_eq_nil_iff.mpr (List.forall_mem_map.mpr fun k _ => ?_)
    rw [bne_self_eq_false]
    exact Bool.false_ne_true
  rw [Registry.store_remove, hstore, List.filter_append, hold, hnew, List.append_nil]

/-- What was just entered can be deleted by every alias, and leaves both tables
as they were. -/
theorem Entered.delete (hkey : d.answersTo key = true) :
    ∃ s, r'.delete key = .ok s ∧ s.store = r.store ∧ ∀ e, s.dependentsOf e = r.dependentsOf e := by
  have hsound := hd.sound h
  have hsplit := hd.definitions h
  have hlive : d ∈ r'.definitions := hsplit ▸ List.mem_append_right _ List.mem_cons_self
  have hheirs := hsound.heirs_youngest hsplit
  have hleft : Sound (r'.remove d) :=
    hsound.remove hlive ((hsound.dependentsOf_eq hlive).trans hheirs)
  refine ⟨r'.remove d, ?_, hd.store_remove h, hleft.dependentsOf_congr h (hd.store_remove h)⟩
  rw [hsound.delete_eq hlive hkey, hheirs]
  rfl

end entered

/-- In every registry that requests make, what compiles still compiles to the
same schema after a further definition, and what compiles after a deletion
compiled to the same schema before.  Deleting a new definition by any of its
aliases undoes it. -/
theorem compile_monotone (requests : List Request) :
    let r := requests.foldl handle empty
    (∀ p r' d, r.define p = .ok (r', d) →
      (∀ configuration additional s, r.compile configuration additional = .ok s →
        r'.compile configuration additional = .ok s) ∧
      ∀ key, d.answersTo key = true → ∃ s, r'.delete key = .ok s ∧ s.store = r.store ∧
        ∀ e, s.dependentsOf e = r.dependentsOf e) ∧
    ∀ key r', r.delete key = .ok r' →
      ∀ configuration additional s, r'.compile configuration additional = .ok s →
        r.compile configuration additional = .ok s := by
  have hsound : Sound (requests.foldl handle empty) :=
    registry_run requests ▸ (kept_run requests).sound
  constructor
  · intro p r' d hdefine
    have hd := entered_of_define hdefine
    exact ⟨fun _ _ _ => hd.extends.compile_ok, fun _ => hd.delete hsound⟩
  · intro key r' hdelete _ _ _
    exact (extends_of_delete hsound hdelete).compile_ok

/-- `c` names `b` by both of its aliases and one of them twice.  What compiled
before it is defined compiles afterwards, and its deletion by the second alias
leaves `b` without dependents again.  What compiles when `b` is deleted
instead compiled while it was there. -/
theorem compile_monotone_aliases :
    let define : List String → List String → Proposal := fun names parents =>
      ⟨.list (names.map .str), .callable (.builder "" [("size", .int 0)]),
        .list (parents.map .str), .none, .none⟩
    let r := [Request.define (define ["a"] []), .define (define ["b", "B"] ["a"])].foldl handle empty
    let configuration : String → Value := fun type =>
      .dict [(.str "type", .str type), (.str "size", .int 3)]
    (∃ r' d s, r.define (define ["c", "C"] ["b", "B", "b"]) = .ok (r', d) ∧
      r.compile (configuration "b") .none = .ok s ∧ r'.compile (configuration "b") .none = .ok s ∧
      d.answersTo (.str "C") = true ∧ ∃ r'', r'.delete (.str "C") = .ok r'' ∧
        r''.store = r.store ∧ ∀ e, r''.dependentsOf e = r.dependentsOf e) ∧
    ∃ r' s, r.delete (.str "B") = .ok r' ∧ r'.compile (configuration "a") .none = .ok s ∧
      r.compile (configuration "a") .none = .ok s := by
  intro define r configuration
  obtain ⟨hdefine, hdelete⟩ := compile_monotone
    [Request.define (define ["a"] []), .define (define ["b", "B"] ["a"])]
  constructor
  · obtain ⟨s, hs⟩ : ∃ s, r.compile (configuration "b") .none = .ok s := by
      refine exists_eq_ok ?_
      rw [Registry.compile, compile_eq]
      decide +kernel
    obtain ⟨⟨r', d⟩, hentered, hkey⟩ : ∃ x, r.define (define ["c", "C"] ["b", "B", "b"]) = .ok x ∧
        x.2.answersTo (.str "C") = true := exists_ok (by decide)
    obtain ⟨hkept, hundone⟩ := hdefine _ r' d hentered
    exact ⟨r', d, s, hentered, hs, hkept _ _ s hs, hkey, hundone _ hkey⟩
  · obtain ⟨r', hdeleted, hcompiles⟩ : ∃ r', r.delete (.str "B") = .ok r' ∧
        (r'.compile (configuration "a") .none).toOption.isSome = true := by
      refine exists_ok ?_
      simp only [Registry.compile, compile_eq]
      decide +kernel
    obtain ⟨s, hs⟩ := exists_eq_ok hcompiles
    exact ⟨r', s, hdeleted, hs, hdelete _ r' hdeleted _ _ s hs⟩

end Registry

end Conform
