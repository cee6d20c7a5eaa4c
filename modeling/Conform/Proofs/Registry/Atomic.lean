/-
# `Proofs.Registry.Atomic` — a refused change leaves no trace

`Registry.InPlace` writes to the tables one entry at a time and takes no
write back.  A change in place nevertheless comes to what the pure operation
comes to, and leaves the registry that the pure operation gives or, when it
is refused, the one it found: all that can refuse a definition or a deletion
is read before the first write.

The writes cannot fail.  The aliases were free, so each is put at the end of
the store; a parent that was there before is there afterwards.
-/
import Conform.Registry.InPlace
import Conform.Proofs.Registry.Run

namespace Conform

/-! ## Changes, step by step -/

namespace Edit

variable {α β : Type} {r s : Registry}

/-- What a pure operation amounts to in place: a refused one leaves the
registry it found. -/
def settle (r : Registry) : Outcome (Registry × α) → Outcome α × Registry
  | .ok (s, a) => (.ok a, s)
  | .error e => (.error e, r)

@[simp] theorem on_pure {a : α} : (pure a : Edit α).on r = (.ok a, r) := rfl

@[simp] theorem on_throw {e : Failure} : (throw e : Edit α).on r = (.error e, r) := rfl

@[simp] theorem on_get : (get : Edit Registry).on r = (.ok r, r) := rfl

@[simp] theorem on_modify {f : Registry → Registry} :
    (modify f : Edit Unit).on r = (.ok (), f r) := rfl

@[simp] theorem on_lift {x : Outcome α} : (liftM x : Edit α).on r = (x, r) := rfl

@[simp] theorem on_lift_fault {x : Except Fault α} :
    (liftM x : Edit α).on r = (liftM x, r) := rfl

theorem on_bind_of_ok {x : Edit α} {f : α → Edit β} {a : α} (h : x.on r = (.ok a, s)) :
    (x >>= f).on r = (f a).on s := by
  rw [on, ExceptT.run_bind, StateT.run_bind, show x.run.run r = _ from h]
  rfl

theorem on_bind_of_error {x : Edit α} {f : α → Edit β} {e : Failure}
    (h : x.on r = (.error e, s)) : (x >>= f).on r = (.error e, s) := by
  rw [on, ExceptT.run_bind, StateT.run_bind, show x.run.run r = _ from h]
  rfl

/-- A step that reads, taken for one after another, reads. -/
theorem on_forM_reading {f : α → Edit Unit} {g : α → Outcome Unit}
    (h : ∀ a, (f a).on r = (g a, r)) (xs : List α) : (xs.forM f).on r = (xs.forM g, r) := by
  induction xs with
  | nil => rfl
  | cons x rest ih =>
      show (f x >>= fun _ => rest.forM f).on r = (g x >>= fun _ => rest.forM g, r)
      cases hx : g x with
      | error e => rw [on_bind_of_error (by rw [h x, hx]), error_bind]
      | ok u => rw [on_bind_of_ok (by rw [h x, hx]), ok_bind, ih]

end Edit

namespace Registry.InPlace

open Edit
open Value (sameKey)

variable {r s : Registry} {d : Definition} {key : Value}

/-! ## What can refuse a change only reads -/

theorem on_stored (h : r.resolve key = some d) : (stored key).on r = (.ok d, r) := by
  rw [stored, on_bind_of_ok on_get]
  simp [h]

theorem on_requireAlias (key : Value) :
    (requireAlias key).on r = (liftM (r.checkAliases [key]), r) := by
  by_cases hh : key.hashable
  · by_cases hc : r.contains key
    · simp [requireAlias, checkAliases, hh, hc, on_bind_of_ok on_get]
      rfl
    · simp [requireAlias, checkAliases, hh, hc, on_bind_of_ok on_get]
      rfl
  · simp [requireAlias, checkAliases, hh]
    rfl

theorem on_requireParent (parent : Value) :
    (requireParent parent).on r = (liftM (r.checkParents [parent]), r) := by
  by_cases hc : r.contains parent
  · simp [requireParent, checkParents, hc, on_bind_of_ok on_get]
    rfl
  · simp [requireParent, checkParents, hc, on_bind_of_ok on_get]
    rfl

theorem forM_checkAliases (aliases : List Value) :
    aliases.forM (fun a => (liftM (r.checkAliases [a]) : Outcome Unit))
      = liftM (r.checkAliases aliases) := by
  induction aliases with
  | nil => rfl
  | cons key rest ih =>
      show (liftM (r.checkAliases [key]) >>= fun _ => rest.forM _) = _
      rw [ih]
      by_cases hh : key.hashable
      · by_cases hc : r.contains key
        · simp only [checkAliases, hh, hc, Bool.not_true, Bool.false_eq_true, if_false, if_true]
          rfl
        · simp only [checkAliases, hh, hc, Bool.not_true, Bool.false_eq_true, if_false]
          rfl
      · simp only [checkAliases, hh, Bool.not_false, if_true]
        rfl

theorem forM_checkParents (parents : List Value) :
    parents.forM (fun p => (liftM (r.checkParents [p]) : Outcome Unit))
      = liftM (r.checkParents parents) := by
  induction parents with
  | nil => rfl
  | cons parent rest ih =>
      show (liftM (r.checkParents [parent]) >>= fun _ => rest.forM _) = _
      rw [ih]
      by_cases hc : r.contains parent
      · simp only [checkParents, hc, if_true]
        rfl
      · simp only [checkParents, hc, Bool.false_eq_true, if_false]
        rfl

/-- Live parents have chains to gather. -/
theorem on_gatherChain (parents : List Value) (chain : List Layer)
    (h : ∀ p ∈ parents, ∃ e, r.resolve p = some e) :
    (parents.foldlM (fun chain parent => do
        return addLayers chain (← stored parent).chain) chain : Edit (List Layer)).on r
      = (.ok (parents.foldl (fun acc p =>
          addLayers acc ((r.resolve p).map Definition.chain |>.getD [])) chain), r) := by
  induction parents generalizing chain with
  | nil => rfl
  | cons p rest ih =>
      obtain ⟨e, he⟩ := h p List.mem_cons_self
      rw [List.foldlM_cons, List.foldl_cons, on_bind_of_ok (a := addLayers chain e.chain) (s := r)]
      · simpa [he] using ih _ fun q hq => h q (List.mem_cons_of_mem _ hq)
      · rw [on_bind_of_ok (on_stored he)]
        rfl

/-! ## What writes cannot fail -/

/-- A definition is put under its own keys and under free ones: in the place
of itself, or at the end. -/
theorem putUnder_eq {store : List (Value × Definition)}
    (h : ∀ e ∈ store, sameKey e.1 key = true → e.2 = d) :
    putUnder d key store = storeUnder d [key] store := by
  simp only [storeUnder]
  induction store with
  | nil => rfl
  | cons e rest ih =>
      obtain ⟨k, f⟩ := e
      by_cases hk : sameKey k key = true
      · obtain rfl : f = d := h (k, f) List.mem_cons_self hk
        simp [putUnder, find?, hk]
      · have ih := ih fun e he => h e (List.mem_cons_of_mem _ he)
        simp only [putUnder, hk, Bool.false_eq_true, if_false, ih]
        have hfind : find? ((k, f) :: rest) key = find? rest key := by
          simp [find?, hk]
        rw [hfind]
        split <;> rfl

theorem on_forM_enter (aliases : List Value)
    (h : ∀ a ∈ aliases, ∀ e ∈ r.store, sameKey e.1 a = true → e.2 = d) :
    (aliases.forM (enter d)).on r = (.ok (), { r with store := storeUnder d aliases r.store }) := by
  induction aliases generalizing r with
  | nil => rfl
  | cons key rest ih =>
      have own := h key List.mem_cons_self
      have later : ∀ a ∈ rest, ∀ e ∈ storeUnder d [key] r.store, sameKey e.1 a = true → e.2 = d := by
        intro a ha e he hs
        simp only [storeUnder] at he
        split at he
        · exact h a (List.mem_cons_of_mem _ ha) e he hs
        · rcases List.mem_append.mp he with he | he
          · exact h a (List.mem_cons_of_mem _ ha) e he hs
          · rw [List.mem_singleton.mp he]
      show (enter d key >>= fun _ => rest.forM (enter d)).on r = _
      rw [enter, on_bind_of_ok on_modify, putUnder_eq own, ih later]
      rfl

/-- Live parents have dependents to write to. -/
theorem on_forM_enterDependent (parents : List Value)
    (h : ∀ p ∈ parents, ∃ e, r.resolve p = some e) :
    (parents.forM (enterDependent d)).on r
      = (.ok (), { r with
          dependents := parents.foldl (fun acc p =>
            match find? r.store p with
            | some parent => addDependent parent.id d acc
            | none => acc) r.dependents }) := by
  induction parents generalizing r with
  | nil => rfl
  | cons p rest ih =>
      obtain ⟨e, he⟩ := h p List.mem_cons_self
      have hfind : find? r.store p = some e := (resolve_eq_some_iff.mp he).2
      have first : (enterDependent d p).on r
          = (.ok (), { r with dependents := addDependent e.id d r.dependents }) := by
        rw [enterDependent, on_bind_of_ok (on_stored he), on_modify]
      have later : ∀ q ∈ rest, ∃ f,
          resolve { r with dependents := addDependent e.id d r.dependents } q = some f :=
        fun q hq => h q (List.mem_cons_of_mem _ hq)
      show (enterDependent d p >>= fun _ => rest.forM (enterDependent d)).on r = _
      rw [on_bind_of_ok first, ih later]
      simp only [List.foldl_cons, hfind]

theorem on_forM_strikeDependent (parents : List Value) :
    (parents.forM (strikeDependent d)).on r
      = (.ok (), { r with
          dependents := parents.foldl (fun acc p =>
            match find? r.store p with
            | some parent => dropDependent parent.id d acc
            | none => acc) r.dependents }) := by
  induction parents generalizing r with
  | nil => rfl
  | cons p rest ih =>
      show (strikeDependent d p >>= fun _ => rest.forM (strikeDependent d)).on r = _
      cases hp : find? r.store p with
      | none =>
          have first : (strikeDependent d p).on r = (.ok (), r) := by
            rw [strikeDependent, on_bind_of_ok on_get, hp, on_pure]
          rw [on_bind_of_ok first, ih]
          simp only [List.foldl_cons, hp]
      | some e =>
          have first : (strikeDependent d p).on r
              = (.ok (), { r with dependents := dropDependent e.id d r.dependents }) := by
            rw [strikeDependent, on_bind_of_ok on_get, hp, on_modify]
          rw [on_bind_of_ok first, ih]
          simp only [List.foldl_cons, hp]

/-! ## Changes in place and pure ones -/

theorem on_examine (c : Candidate) :
    (examine c).on r
      = (do
          r.checkAliases c.aliases
          r.checkParents c.inherits
          Definition.checkName (Definition.nameOf c.aliases)
          return r.inheritedChain c.inherits, r) := by
  have aliases : (c.aliases.forM requireAlias).on r = (liftM (r.checkAliases c.aliases), r) := by
    rw [on_forM_reading on_requireAlias, forM_checkAliases]
  have parents : (c.inherits.forM requireParent).on r = (liftM (r.checkParents c.inherits), r) := by
    rw [on_forM_reading on_requireParent, forM_checkParents]
  rw [examine]
  cases haliases : r.checkAliases c.aliases with
  | error e => exact on_bind_of_error (by rw [aliases, haliases]; rfl)
  | ok _ =>
      rw [on_bind_of_ok (by rw [aliases, haliases]; rfl)]
      cases hparents : r.checkParents c.inherits with
      | error e => exact on_bind_of_error (by rw [parents, hparents]; rfl)
      | ok _ =>
          have chain : (gatherChain c.inherits).on r = (.ok (r.inheritedChain c.inherits), r) :=
            on_gatherChain c.inherits [] (checkParents_ok hparents)
          rw [on_bind_of_ok (by rw [parents, hparents]; rfl), on_bind_of_ok chain]
          cases Definition.checkName (Definition.nameOf c.aliases) <;> rfl

theorem on_write (haliases : ∀ a ∈ d.aliases, a.hashable = true ∧ find? r.store a = none)
    (hparents : ∀ p ∈ d.inherits, ∃ e, r.resolve p = some e)
    (hchain : d.chain = r.inheritedChain d.inherits ++ [d.layer]) :
    (write d).on r = (.ok (), (r.insert d.aliases d.layer d.inherits).1) := by
  have free : ∀ a ∈ d.aliases, ∀ e ∈ ({ r with count := r.count + 1 } : Registry).store,
      sameKey e.1 a = true → e.2 = d := by
    intro a ha e he hs
    rw [find?_eq_none_iff.mp (haliases a ha).2 e he] at hs
    exact absurd hs Bool.false_ne_true
  have stay : ∀ p ∈ d.inherits, ∃ e,
      resolve { r with store := storeUnder d d.aliases r.store, count := r.count + 1 } p = some e := by
    intro p hp
    obtain ⟨e, he⟩ := hparents p hp
    obtain ⟨hh, hf⟩ := resolve_eq_some_iff.mp he
    obtain ⟨keys, hstore, -⟩ := storeUnder_eq d d.aliases r.store
    refine ⟨e, resolve_eq_some_iff.mpr ⟨hh, ?_⟩⟩
    rw [hstore, find?_append_of_isSome (by simp [hf]), hf]
  rw [write, on_bind_of_ok on_modify, on_bind_of_ok (on_forM_enter d.aliases free)]
  obtain ⟨aliases, layer, inherits, chain⟩ := d
  obtain rfl : chain = r.inheritedChain inherits ++ [layer] := hchain
  exact on_forM_enterDependent inherits stay

/-- A definition in place comes to the pure one. -/
theorem on_defineCandidate (c : Candidate) :
    (defineCandidate c).on r = settle r (r.defineCandidate c) := by
  have examined := on_examine (r := r) c
  simp only [defineCandidate, Registry.defineCandidate]
  cases haliases : r.checkAliases c.aliases with
  | error e => exact on_bind_of_error (by rw [examined, haliases]; rfl)
  | ok _ =>
  cases hparents : r.checkParents c.inherits with
  | error e => exact on_bind_of_error (by rw [examined, haliases, hparents]; rfl)
  | ok _ =>
  cases hname : Definition.checkName (Definition.nameOf c.aliases) with
  | error e => exact on_bind_of_error (by rw [examined, haliases, hparents, hname]; rfl)
  | ok _ =>
      rw [haliases, hparents, hname] at examined
      rw [on_bind_of_ok examined, on_bind_of_ok on_get]
      let layer : Layer := ⟨r.count, Definition.nameOf c.aliases, c.build, c.check, c.finish⟩
      exact on_bind_of_ok (on_write (d := (r.insert c.aliases layer c.inherits).2)
        (checkAliases_ok haliases) (checkParents_ok hparents) rfl)

theorem on_define (p : Proposal) : (define p).on r = settle r (r.define p) := by
  rw [define, Registry.define]
  cases p.read with
  | error e => rfl
  | ok c => exact on_defineCandidate c

theorem on_defineBuiltin (c : BuiltinController) :
    (defineBuiltin c).on r = settle r ((fun x => (x.1, ())) <$> r.defineBuiltin c) := by
  rw [defineBuiltin, Registry.defineBuiltin]
  cases h : r.defineCandidate c.candidate with
  | error e => exact on_bind_of_error (by rw [on_defineCandidate, h]; rfl)
  | ok x => rw [on_bind_of_ok (by rw [on_defineCandidate, h]; rfl)]; rfl

theorem on_delete (key : Value) :
    (delete key).on r = settle r ((·, ()) <$> (liftM (r.delete key) : Outcome Registry)) := by
  rw [delete, Registry.delete, on_bind_of_ok on_get]
  cases r.resolve key with
  | none => rfl
  | some d =>
      simp only
      rw [on_bind_of_ok on_get]
      cases hd : r.dependentsOf d with
      | nil =>
          simp only
          show (strike d >>= fun _ => d.inherits.forM (strikeDependent d)).on r = _
          rw [strike, on_bind_of_ok on_modify, on_forM_strikeDependent]
          rfl
      | cons e rest =>
          simp only
          rfl

theorem on_forM_defineBuiltin (cs : List BuiltinController) :
    (cs.forM defineBuiltin).on r
      = (match (r.defineBuiltins cs).2 with
          | none => .ok ()
          | some e => .error e, (r.defineBuiltins cs).1) := by
  induction cs generalizing r with
  | nil => rfl
  | cons c rest ih =>
      show (defineBuiltin c >>= fun _ => rest.forM defineBuiltin).on r = _
      rw [defineBuiltins]
      cases hc : r.defineBuiltin c with
      | error e => exact on_bind_of_error (by rw [on_defineBuiltin, hc]; rfl)
      | ok x =>
          rw [on_bind_of_ok (by rw [on_defineBuiltin, hc]; rfl)]
          exact ih

/-- The request of `Proofs.Registry.Run` as an operation in place. -/
def ofRequest : Request → Operation
  | .define p => .define p
  | .delete key => .delete key
  | .registerBuiltins => .registerBuiltins

/-- What follows a change writes nothing. -/
theorem snd_on_map {α β : Type} {x : Edit α} {g : α → β} :
    ((x >>= fun a => pure (g a)).on r).2 = (x.on r).2 := by
  cases hx : x.on r with
  | mk y t =>
      cases y with
      | ok a => rw [on_bind_of_ok hx, on_pure]
      | error e => rw [on_bind_of_error hx]

theorem snd_on_ofRequest (q : Request) : ((ofRequest q).perform.on r).2 = r.handle q := by
  cases q with
  | define p =>
      refine snd_on_map.trans ?_
      rw [on_define, handle]
      cases r.define p <;> rfl
  | delete key =>
      refine snd_on_map.trans ?_
      rw [on_delete, handle]
      cases r.delete key <;> rfl
  | registerBuiltins =>
      refine snd_on_map.trans ?_
      rw [registerBuiltins, on_forM_defineBuiltin]
      rfl

theorem snd_session (ops : List Operation) :
    (session r ops).2 = ops.foldl (fun s op => (op.perform.on s).2) r := by
  induction ops generalizing r with
  | nil => rfl
  | cons op rest ih =>
      simp only [session, List.foldl_cons]
      exact ih

/-- Requests in place reach the registry that the pure ones reach. -/
theorem reached_ofRequest (requests : List Request) :
    reached (requests.map ofRequest) = requests.foldl handle empty := by
  rw [reached, snd_session, List.foldl_map]
  congr 1
  funext s q
  exact snd_on_ofRequest q

/-! ## Refused changes -/

theorem eq_of_settle_error {α : Type} {x : Outcome (Registry × α)} {e : Failure}
    (h : settle r x = (.error e, s)) : s = r := by
  cases x with
  | ok y => simp [settle] at h
  | error _ => exact (Prod.mk.inj h).2.symm

/-- What follows a change does not refuse. -/
theorem on_of_map_error {α β : Type} {x : Edit α} {g : α → β} {e : Failure}
    (h : (x >>= fun a => pure (g a)).on r = (.error e, s)) : x.on r = (.error e, s) := by
  cases hx : x.on r with
  | mk y t =>
      cases y with
      | ok a =>
          rw [on_bind_of_ok hx, on_pure] at h
          cases h
      | error f =>
          rw [on_bind_of_error hx] at h
          cases h
          rfl

/-- The controllers before a refused one were registered, one after another,
and nothing else happened. -/
theorem forM_defineBuiltin_error {e : Failure} (cs : List BuiltinController)
    (h : (cs.forM defineBuiltin).on r = (.error e, s)) :
    ∃ added c rest, cs = added ++ c :: rest ∧ (added.forM defineBuiltin).on r = (.ok (), s) ∧
      (defineBuiltin c).on s = (.error e, s) := by
  induction cs generalizing r with
  | nil => cases h
  | cons c rest ih =>
      change (defineBuiltin c >>= fun _ => rest.forM defineBuiltin).on r = _ at h
      cases hc : (defineBuiltin c).on r with
      | mk y t =>
          cases y with
          | error f =>
              rw [on_bind_of_error hc] at h
              obtain ⟨rfl, rfl⟩ : f = e ∧ t = s := by simpa using h
              have ht : t = r := eq_of_settle_error ((on_defineBuiltin c).symm.trans hc)
              exact ⟨[], c, rest, rfl, by rw [ht]; rfl, by rw [← ht] at hc; exact hc⟩
          | ok u =>
              rw [on_bind_of_ok hc] at h
              obtain ⟨added, d, more, hsplit, hadded, hd⟩ := ih h
              refine ⟨c :: added, d, more, by rw [hsplit]; rfl, ?_, hd⟩
              show (defineBuiltin c >>= fun _ => added.forM defineBuiltin).on r = _
              rw [on_bind_of_ok hc, hadded]

/-- A refused operation leaves the registry it found, unless it registers
several controllers. -/
theorem eq_of_perform_error {op : Operation} {e : Failure} (hop : op ≠ .registerBuiltins)
    (h : op.perform.on r = (.error e, s)) : s = r := by
  cases op with
  | define p => exact eq_of_settle_error ((on_define p).symm.trans (on_of_map_error h))
  | delete key => exact eq_of_settle_error ((on_delete key).symm.trans (on_of_map_error h))
  | registerBuiltins => exact absurd rfl hop
  | get key => exact absurd (on_of_map_error h) nofun
  | has key => exact absurd (on_of_map_error h) nofun
  | list => exact absurd (on_of_map_error h) nofun
  | compile configuration additional =>
      simp only [Operation.perform, on_bind_of_ok on_get] at h
      have hcompile := on_lift.symm.trans (on_of_map_error h)
      exact (Prod.mk.inj hcompile).2.symm

/-- After any run, a refused operation leaves the tables, the list and the
outcome of all that follows as they were; a refused registration of the
controllers of this library leaves what the controllers before the refused
one make of the registry. -/
theorem refused_leaves (ops : List Operation) (op : Operation) {e : Failure} {r : Registry}
    (h : op.perform.on (reached ops) = (.error e, r)) :
    (op ≠ .registerBuiltins →
      r.store = (reached ops).store ∧ r.dependents = (reached ops).dependents ∧
      r.definitions = (reached ops).definitions ∧
      ∀ later, session r later = session (reached ops) later) ∧
    (op = .registerBuiltins →
      ∃ added c rest, builtinControllers = added ++ c :: rest ∧
        (added.forM defineBuiltin).on (reached ops) = (.ok (), r) ∧
        (defineBuiltin c).on r = (.error e, r)) := by
  constructor
  · intro hop
    obtain rfl := eq_of_perform_error hop h
    exact ⟨rfl, rfl, rfl, fun _ => rfl⟩
  · rintro rfl
    exact forM_defineBuiltin_error builtinControllers (on_of_map_error h)

/-- With one alias of this library taken, a definition is refused for its
second alias, and so is the third controller of this library. -/
theorem refused_leaves_taken :
    let text : List Value → Operation := fun aliases =>
      .define ⟨.list aliases, .callable (.builder "text" []), .list [], .none, .none⟩
    let ops := [text [.str "boolean"]]
    let refusal : Failure := .config (.aliasInUse (.str "boolean"))
    (∃ r, (text [.str "other", .str "boolean"]).perform.on (reached ops) = (.error refusal, r) ∧
      r.store = (reached ops).store ∧ r.dependents = (reached ops).dependents ∧
      r.definitions = (reached ops).definitions ∧
      ∀ later, session r later = session (reached ops) later) ∧
    ∃ r, Operation.registerBuiltins.perform.on (reached ops) = (.error refusal, r) ∧
      ∃ added c rest, builtinControllers = added ++ c :: rest ∧
        (added.forM defineBuiltin).on (reached ops) = (.ok (), r) ∧
        (defineBuiltin c).on r = (.error refusal, r) := by
  intro text ops refusal
  have second : ((text [.str "other", .str "boolean"]).perform.on (reached ops)).1
      = .error refusal := rfl
  have third : (Operation.registerBuiltins.perform.on (reached ops)).1 = .error refusal := rfl
  generalize hr : (text [.str "other", .str "boolean"]).perform.on (reached ops) = x at second
  generalize hr' : Operation.registerBuiltins.perform.on (reached ops) = y at third
  obtain ⟨_, r⟩ := x
  obtain ⟨_, r'⟩ := y
  subst second third
  exact ⟨⟨r, rfl, (refused_leaves ops _ hr).1 nofun⟩, ⟨r', rfl, (refused_leaves ops _ hr').2 rfl⟩⟩

end Registry.InPlace

end Conform
