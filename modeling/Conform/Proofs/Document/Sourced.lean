/-
# `Proofs.Document.Sourced` — the loader compiles patterns and nothing else

A document is a tree, and whether a text in it is a pattern or data is a matter
of its place.  The walk of the loader is compared to the list of what it comes by.
It fails with the failure of the first configuration in that list to have one
(`failure?_patternsWithin`).  If there is none, taking the sources of the patterns
undoes it (`sourced_of_patternsWithin`), so that no text is lost and no order is
changed, and what it comes by is touched in compiled patterns only
(`visits_of_patternsWithin`).

Not every text that does not compile is a configuration error.  One that counts too
far, or that asks for letters of two sorts, is refused by the compiler of patterns
in another way than a malformed one, and the loader lets this through.
-/
import Conform.Proofs.Document.Loaded

namespace Conform

/-! ## Patterns as text again -/

mutual

/-- The value with the source of every compiled text pattern in its place. -/
def Value.sourced : Value → Value
  | .pattern ⟨.text source, _, _⟩ => .str source
  | .list items => .list (Value.sourcedAll items)
  | .dict es => .dict (Value.sourcedEntries es)
  | v => v
termination_by structural v => v

def Value.sourcedAll : List Value → List Value
  | [] => []
  | v :: rest => v.sourced :: Value.sourcedAll rest
termination_by structural vs => vs

def Value.sourcedEntries : List (Value × Value) → List (Value × Value)
  | [] => []
  | (key, v) :: rest => (key, v.sourced) :: Value.sourcedEntries rest
termination_by structural es => es

end

/-- Nothing, a flag, a number, a text, a list or a dictionary. -/
def Value.isPlain : Value → Bool
  | .none | .bool _ | .int _ | .float _ | .str _ | .list _ | .dict _ => true
  | _ => false

/-- A value that is plain all the way down, with no two equal keys in a dictionary. -/
structure Value.IsTree (v : Value) : Prop where
  document : v.isDocument = true
  plain : v.everywhere isPlain = true

namespace Value

variable {v w : Value} {items compiled : List Value} {es fs : Entries}

theorem sourcedAll_eq_map : sourcedAll items = items.map sourced := by
  induction items with
  | nil => rfl
  | cons v rest ih => rw [sourcedAll, ih, List.map_cons]

theorem sourcedEntries_eq_map : sourcedEntries es = es.map fun e => (e.1, e.2.sourced) := by
  induction es with
  | nil => rfl
  | cons e rest ih => rw [sourcedEntries, ih, List.map_cons]

theorem sourcedAll_eq (h : List.Forall₂ (fun v w => w.sourced = v) items compiled) :
    sourcedAll compiled = items := by
  rw [sourcedAll_eq_map, ← List.forall₂_eq_eq_eq, List.forall₂_map_left_iff]
  exact h.flip

theorem sourcedEntries_eq
    (h : List.Forall₂ (fun x y => y.1 = x.1 ∧ y.2.sourced = x.2) es fs) :
    sourcedEntries fs = es := by
  rw [sourcedEntries_eq_map, ← List.forall₂_eq_eq_eq, List.forall₂_map_left_iff]
  exact h.flip.imp fun _ _ hsame => Prod.ext hsame.1 hsame.2

namespace IsTree

theorem item (h : (Value.list items).IsTree) (hw : w ∈ items) : w.IsTree :=
  ⟨(everywhere_list.mp h.document).2 w hw, (everywhere_list.mp h.plain).2 w hw⟩

theorem entry (h : (Value.dict es).IsTree) {e : Value × Value} (he : e ∈ es) : e.2.IsTree :=
  ⟨((everywhere_dict.mp h.document).2 e he).2, ((everywhere_dict.mp h.plain).2 e he).2⟩

theorem option (h : (Value.dict es).IsTree) {name : String} (hget : es.get? name = some v) :
    v.IsTree := by
  obtain ⟨_, hmem, -⟩ := Entries.mem_of_find? hget
  exact h.entry hmem

theorem apart (h : (Value.dict es).IsTree) : es.KeysApart :=
  of_decide_eq_true (everywhere_dict.mp h.document).1

theorem sourced (hv : v.IsTree) : v.sourced = v := by
  induction hheight : v.height using Nat.strongRecOn generalizing v with
  | ind n ih =>
      subst hheight
      cases v with
      | list items =>
          refine congrArg Value.list (sourcedAll_eq (List.forall₂_same.mpr fun w hw => ?_))
          exact ih _ (height_lt_of_listed? (v := .list items) rfl hw) (hv.item hw) rfl
      | dict es =>
          refine congrArg Value.dict (sourcedEntries_eq (List.forall₂_same.mpr fun e he => ?_))
          have hlower := height_le_of_mem_entries (show (e.1, e.2) ∈ es from he)
          exact ⟨rfl, ih _ (Nat.lt_succ_of_le hlower) (hv.entry he) rfl⟩
      | pattern p => exact absurd (of_everywhere hv.plain) Bool.false_ne_true
      | _ => rfl

end IsTree

end Value

namespace Document

variable {inner : String → Value → Outcome Value} {place name : String} {given es fs : Entries}
  {v w : Value} {n : Nat}

/-! ## Once is enough -/

theorem ownPattern_same (h : ∀ v, given.get? "pattern" = some v → v.text? = none) :
    ownPattern place given = .ok given := by
  unfold ownPattern Entries.getD
  cases hv : given.get? "pattern" with
  | none => rfl
  | some v =>
      rw [Option.getD_some, h v hv]
      rfl

theorem propertyPatterns_same (h : ∀ declared, given.get? "properties" = some (.dict declared) →
    ∀ e ∈ declared, (∃ name, e.1.display = .ok name) ∧ ∀ place, inner place e.2 = .ok e.2) :
    propertyPatterns inner place given given = .ok given := by
  unfold propertyPatterns Entries.getD
  cases hv : given.get? "properties" with
  | none => rfl
  | some v =>
      cases v with
      | dict declared =>
          have hdeclared : declared.mapM (fun e => (do
              let name ← e.1.display
              return (e.1, ← inner (below place ("properties." ++ name)) e.2) : Outcome _))
                = .ok (declared.map id) := by
            refine mapM_eq_map fun e he => ?_
            obtain ⟨⟨name, hname⟩, hinner⟩ := h declared hv e he
            rw [hname, lift_ok, ok_bind, hinner, ok_bind]
            rfl
          rw [Option.getD_some]
          show List.mapM _ declared >>= _ = _
          rw [hdeclared, List.map_id, ok_bind, Entries.put_eq_self hv]
          rfl
      | _ => rfl

theorem innerPatterns_same
    (h : ∀ v, given.get? name = some v → inner (below place name) v = .ok v) :
    innerPatterns inner place name given given = .ok given := by
  unfold innerPatterns
  cases hv : given.get? name with
  | none => rfl
  | some v =>
      show (inner (below place name) v >>= fun w => _) = _
      rw [h v hv, ok_bind, Entries.put_eq_self hv]
      rfl

/-- The walk leaves alone what was loaded. -/
theorem patternsWithin_of_loaded (hv : v.Loaded) : patternsWithin n place v = .ok v := by
  induction n generalizing place v with
  | zero => rfl
  | succ n ih =>
      cases v with
      | list items =>
          have hitems : items.zipIdx.mapM (fun x =>
              patternsWithin n (place ++ "[" ++ toString x.2 ++ "]") x.1)
                = .ok (items.zipIdx.map Prod.fst) :=
            mapM_eq_map fun x hx => ih (hv.listed rfl x.1 (List.fst_mem_of_mem_zipIdx hx))
          rw [List.zipIdx_map_fst] at hitems
          show List.mapM _ items.zipIdx >>= _ = _
          rw [hitems]
          rfl
      | dict given =>
          rw [patternsWithin, ownPattern_same fun _ => hv.pattern, ok_bind,
            propertyPatterns_same fun _ hget e he =>
              ⟨hv.named hget e he, fun _ => ih (hv.properties hget e he)⟩, ok_bind,
            innerPatterns_same fun _ hget => ih (hv.schema hget), ok_bind,
            innerPatterns_same fun _ hget => ih (hv.oneOf hget)]
          rfl
      | _ => rfl

/-! ## Only patterns -/

theorem Walked.option (h : Walked inner place given es) (hname : name ∈ walkedNames)
    (hv : given.get? name = some v) (hw : es.get? name = some w) :
    OwnPattern v w ∨ Declared inner place v w ∨ ∃ place', inner place' v = .ok w := by
  simp only [walkedNames, List.mem_cons, List.not_mem_nil, or_false] at hname
  obtain ⟨-, hpattern, hproperties, hschema, honeOf⟩ := h
  rcases hname with rfl | rfl | rfl | rfl
  · rw [hv, hw, Option.rel_some_some] at hpattern
    exact .inl hpattern
  · rw [hv, hw, Option.rel_some_some] at hproperties
    exact .inr (.inl hproperties)
  · rw [hv, hw, Option.rel_some_some] at hschema
    exact .inr (.inr ⟨_, hschema⟩)
  · rw [hv, hw, Option.rel_some_some] at honeOf
    exact .inr (.inr ⟨_, honeOf⟩)

theorem source_of_compile {source : String} {mode : Pattern.Mode} {p : Pattern}
    (h : Pattern.compile source mode = .ok p) : p.source = .text source := by
  unfold Pattern.compile at h
  split at h
  · cases h
  · split at h
    · cases h
    · exact Except.ok.inj h ▸ rfl

theorem OwnPattern.sourced (h : OwnPattern v w) (hv : v.IsTree) : w.sourced = v := by
  cases h with
  | @compiled source p text compiles =>
      obtain ⟨found, mode, node⟩ := p
      obtain rfl : found = .text source := source_of_compile compiles
      cases v with
      | str s => exact congrArg Value.str (Option.some.inj text).symm
      | member m => exact absurd (Value.of_everywhere hv.plain) Bool.false_ne_true
      | _ => cases text
  | other => exact hv.sourced

/-- If the walk is undone on what is lower than a dictionary, then on the dictionary. -/
theorem Walked.sourced (h : Walked inner place given es) (hgiven : (Value.dict given).IsTree)
    (hinner : ∀ place v w, v.height < (Value.dict given).height → v.IsTree →
      inner place v = .ok w → w.sourced = v) : (Value.dict es).sourced = .dict given := by
  have hoption : ∀ name ∈ walkedNames, ∀ v w : Value, given.get? name = some v →
      es.get? name = some w → w.sourced = v := by
    intro name hname v w hget hget'
    have hlower := Nat.lt_succ_of_le (Value.height_of_get? hget)
    have hv := hgiven.option hget
    rcases h.option hname hget hget' with hpattern | hdeclared | ⟨place, hw⟩
    · exact hpattern.sourced hv
    · cases hdeclared with
      | other => exact hv.sourced
      | dict heach =>
          refine congrArg Value.dict (Value.sourcedEntries_eq (forall₂_imp ?_ heach))
          intro x hx y _ hxy
          have hlowest := Nat.lt_succ_of_le (Value.height_le_of_mem_entries hx)
          obtain ⟨hkey, _, -, hw⟩ := hxy
          exact ⟨hkey, hinner _ _ _ (Nat.lt_trans hlowest hlower) (hv.entry hx) hw⟩
    · exact hinner place v w hlower hv hw
  refine congrArg Value.dict (Value.sourcedEntries_eq (forall₂_imp ?_ h.kept))
  intro x hx y hy hxy
  obtain ⟨hkey, hkept⟩ := hxy
  refine ⟨hkey, ?_⟩
  by_cases hother : ∀ name ∈ walkedNames, Value.sameKey x.1 (.str name) = false
  · rw [hkept hother]
    exact (hgiven.entry hx).sourced
  · push Not at hother
    obtain ⟨name, hname, hsame⟩ := hother
    have hsame := Bool.ne_false_iff.mp hsame
    exact hoption name hname _ _ (hgiven.apart.find?_eq hx hsame)
      ((h.kept.apart hgiven.apart).find?_eq hy (hkey ▸ hsame))

/-- Taking the sources of the patterns undoes the walk. -/
theorem sourced_of_patternsWithin (hheight : v.height < n) (hv : v.IsTree)
    (h : patternsWithin n place v = .ok w) : w.sourced = v := by
  induction n generalizing place v w with
  | zero => exact absurd hheight (Nat.not_lt_zero _)
  | succ n ih =>
      cases v with
      | list items =>
          obtain ⟨compiled, rfl, hcompiled⟩ := items_of_patternsWithin h
          have hitems : List.Forall₂ (fun (x : Value × Nat) w => w.sourced = x.1) items.zipIdx
              compiled := by
            refine forall₂_imp (fun x hx w _ hw => ?_) hcompiled
            have hitem := List.fst_mem_of_mem_zipIdx hx
            have hlower : x.1.height < (Value.list items).height :=
              Value.height_lt_of_listed? rfl hitem
            exact ih (Nat.lt_of_lt_of_le hlower (Nat.le_of_lt_succ hheight)) (hv.item hitem) hw
          refine congrArg Value.list (Value.sourcedAll_eq ?_)
          rw [← List.zipIdx_map_fst 0 items]
          exact List.forall₂_map_left_iff.mpr hitems
      | dict given =>
          obtain ⟨es, rfl, hwalked⟩ := walked_of_patternsWithin h
          exact hwalked.sourced hv fun place v w hlower =>
            ih (Nat.lt_of_lt_of_le hlower (Nat.le_of_lt_succ hheight))
      | pattern p => exact absurd (Value.of_everywhere hv.plain) Bool.false_ne_true
      | _ =>
          obtain rfl := Except.ok.inj h
          rfl

/-! ## Only there -/

/-- A value that the walk comes by, before and after.  A dictionary has a compiled
pattern where it had one as text, and is otherwise as it was but for the options
that the walk goes on with. -/
inductive Touched : Value → Value → Prop
  | dict {es fs : Entries} (kept : es.KeptBut walkedNames fs)
      (pattern : Option.Rel OwnPattern (es.get? "pattern") (fs.get? "pattern"))
      (properties : ∀ v, es.get? "properties" = some v → v.isDict = false →
        fs.get? "properties" = some v) : Touched (.dict es) (.dict fs)
  | list {items items' : List Value} (length : items'.length = items.length) :
      Touched (.list items) (.list items')
  | other {v : Value} (hlist : ∀ items, v ≠ .list items) (hdict : v.isDict = false) : Touched v v

theorem Walked.touched (h : Walked inner place given es) : Touched (.dict given) (.dict es) := by
  refine .dict h.kept h.pattern fun v hv hdict => ?_
  have hproperties := h.properties
  rw [hv] at hproperties
  cases hw : Entries.get? es "properties" with
  | none =>
      rw [hw] at hproperties
      cases hproperties
  | some w =>
      rw [hw, Option.rel_some_some] at hproperties
      cases hproperties with
      | dict => cases hdict
      | other => rfl

theorem touched_of_patternsWithin (h : patternsWithin (n + 1) place v = .ok w) : Touched v w := by
  cases v with
  | list items =>
      obtain ⟨compiled, rfl, hcompiled⟩ := items_of_patternsWithin h
      refine .list ?_
      rw [← hcompiled.length_eq, List.length_zipIdx]
  | dict given =>
      obtain ⟨es, rfl, hwalked⟩ := walked_of_patternsWithin h
      exact hwalked.touched
  | _ =>
      obtain rfl := Except.ok.inj h
      exact .other (fun _ heq => by cases heq) rfl

theorem forall₂_zipIdx {α β : Type} {R : α × Nat → β → Prop} {xs : List α} {ys : List β} {k : Nat}
    (h : List.Forall₂ R (xs.zipIdx k) ys) :
    List.Forall₂ (fun x y => y.2 = x.2 ∧ R x y.1) (xs.zipIdx k) (ys.zipIdx k) := by
  induction xs generalizing ys k with
  | nil =>
      cases h
      exact .nil
  | cons x rest ih =>
      rw [List.zipIdx_cons] at h ⊢
      cases h with
      | cons hhead hrest => exact .cons ⟨rfl, hhead⟩ (ih hrest)

theorem Walked.declared (h : Walked inner place given es) :
    List.Forall₂ (fun x y => y.1 = x.1 ∧ ∃ name, x.1.display = .ok name ∧
        inner (below place ("properties." ++ name)) x.2 = .ok y.2)
      (declaredIn given) (declaredIn es) := by
  have hproperties := h.properties
  unfold declaredIn Entries.getD
  generalize given.get? "properties" = x at hproperties
  generalize es.get? "properties" = y at hproperties
  cases hproperties with
  | none => exact .nil
  | @some v w hdeclared =>
      cases hdeclared with
      | dict each => exact each
      | other hdict =>
          cases v with
          | dict => cases hdict
          | _ => exact .nil

/-- A stop before and after: its place can be told, and its value has been walked there. -/
def WalkedAt (n : Nat) (a b : Stop) : Prop :=
  ∃ place, a.1 = .ok place ∧ b.1 = .ok place ∧ patternsWithin n place a.2 = .ok b.2

/-- What the walk goes on with has been walked, place by place. -/
theorem inside_of_patternsWithin (h : patternsWithin (n + 1) place v = .ok w) :
    List.Forall₂ (WalkedAt n) (inside place v) (inside place w) := by
  cases v with
  | list items =>
      obtain ⟨compiled, rfl, hcompiled⟩ := items_of_patternsWithin h
      refine List.forall₂_map_left_iff.mpr (List.forall₂_map_right_iff.mpr
        ((forall₂_zipIdx hcompiled).imp fun x y => ?_))
      rintro ⟨hindex, hitem⟩
      exact ⟨_, rfl, by rw [hindex], hitem⟩
  | dict given =>
      obtain ⟨es, rfl, hwalked⟩ := walked_of_patternsWithin h
      have hoption : ∀ name {x y : Option Value},
          Option.Rel (fun v w => patternsWithin n (below place name) v = .ok w) x y →
          List.Forall₂ (WalkedAt n) (x.toList.map (.ok (below place name), ·))
            (y.toList.map (.ok (below place name), ·)) := by
        intro name x y hrel
        cases hrel with
        | none => exact .nil
        | some hw => exact .cons ⟨_, rfl, rfl, hw⟩ .nil
      refine List.rel_append (List.rel_append ?_ (hoption _ hwalked.schema))
        (hoption _ hwalked.oneOf)
      refine List.forall₂_map_left_iff.mpr (List.forall₂_map_right_iff.mpr
        (hwalked.declared.imp fun x y => ?_))
      rintro ⟨hkey, name, hname, hinner⟩
      exact ⟨_, by rw [propertyPlace, hname]; rfl, by rw [propertyPlace, hkey, hname]; rfl, hinner⟩
  | _ =>
      obtain rfl := Except.ok.inj h
      exact .nil

/-- What the walk comes by afterwards is what it came by before, place by place. -/
theorem visits_of_patternsWithin (hheight : v.height < n) (h : patternsWithin n place v = .ok w) :
    List.Forall₂ (fun a b => b.1 = a.1 ∧ Touched a.2 b.2) (visits place v) (visits place w) := by
  induction n generalizing place v w with
  | zero => exact absurd hheight (Nat.not_lt_zero _)
  | succ n ih =>
      rw [visits_eq, visits_eq]
      refine .cons ⟨rfl, touched_of_patternsWithin h⟩ (List.rel_flatMap
        (forall₂_imp (fun a ha b _ hab => ?_) (inside_of_patternsWithin h)) fun _ _ hab => hab)
      have hlower := height_inside ha
      obtain ⟨_, v⟩ := a
      obtain ⟨_, w⟩ := b
      obtain ⟨place, rfl, rfl, hinner⟩ := hab
      exact ih (Nat.lt_of_lt_of_le hlower (Nat.le_of_lt_succ hheight)) hinner

/-! ## Failures -/

/-- The failure of an outcome. -/
def failure? {α : Type} : Outcome α → Option Failure
  | .ok _ => none
  | .error e => some e

theorem failure?_eq_some {α : Type} {x : Outcome α} {e : Failure} :
    failure? x = some e ↔ x = .error e := by
  cases x <;> simp [failure?]

theorem failure?_bind {α β : Type} {x : Outcome α} {f : α → Outcome β} {e : Option Failure}
    (h : ∀ a, x = .ok a → failure? (f a) = e) : failure? (x >>= f) = (failure? x).or e := by
  cases x with
  | error e => rfl
  | ok a => exact h a rfl

theorem failure?_bind_pure {α β : Type} {x : Outcome α} {g : α → β} :
    failure? (x >>= fun a => pure (g a)) = failure? x := by
  cases x <;> rfl

theorem failure?_mapM {α β : Type} {f : α → Outcome β} {xs : List α} :
    failure? (xs.mapM f) = xs.findSome? fun x => failure? (f x) := by
  induction xs with
  | nil => rfl
  | cons x rest ih =>
      rw [List.mapM_cons, List.findSome?_cons, ← ih,
        failure?_bind (e := failure? (rest.mapM f)) fun _ _ => failure?_bind_pure]
      cases failure? (f x) <;> rfl

/-- The failure of a pattern that stands at a place. -/
def patternFailure? (place source : String) : Option Failure :=
  match Pattern.compile source .plain with
  | .ok _ => none
  | .error .malformed => some (.config (.badPattern place source))
  | .error .countTooLarge => some (.fault .overflow)
  | .error .conflictingModes => some (.fault .badValue)

/-- The failure of a stop: its place cannot be told, or the configuration there has a
pattern that does not compile. -/
def failureAt : Stop → Option Failure
  | (.error fault, _) => some (.fault fault)
  | (.ok place, .dict es) => (Entries.getD es "pattern" .none).text?.bind fun source =>
      patternFailure? (below place "pattern") source
  | _ => none

/-- What `inner` makes of a stop. -/
def walkFrom (inner : String → Value → Outcome Value) (a : Stop) : Outcome Value := do
  inner (← a.1) a.2

theorem failure?_ownPattern :
    failure? (ownPattern place given) = failureAt (.ok place, .dict given) := by
  show _ = (given.getD "pattern" .none).text?.bind _
  unfold ownPattern
  cases (given.getD "pattern" .none).text? with
  | none => rfl
  | some source =>
      refine failure?_bind_pure.trans ?_
      show failure? (patternAt _ _) = patternFailure? _ _
      unfold patternAt patternFailure?
      split <;> simp_all [failure?]

theorem failure?_propertyPatterns : failure? (propertyPatterns inner place given es)
    = (declaredIn given).findSome? fun e =>
        failure? (walkFrom inner (propertyPlace place e.1, e.2)) := by
  unfold propertyPatterns declaredIn
  cases given.getD "properties" .none with
  | dict declared =>
      refine failure?_bind_pure.trans (failure?_mapM.trans ?_)
      refine congrArg (List.findSome? · declared) (funext fun e => ?_)
      obtain ⟨key, v⟩ := e
      unfold walkFrom propertyPlace
      dsimp only
      cases key.display with
      | error fault => rfl
      | ok name => exact failure?_bind_pure
  | _ => rfl

theorem failure?_innerPatterns : failure? (innerPatterns inner place name given es)
    = (given.get? name).bind fun v => failure? (inner (below place name) v) := by
  unfold innerPatterns
  cases given.get? name with
  | none => rfl
  | some v => exact failure?_bind_pure

/-- The failure of a step is the value's own, or that of the first value inside to fail. -/
theorem failure?_step : failure? (patternsWithin (n + 1) place v)
    = (failureAt (.ok place, v)).or
        ((inside place v).findSome? fun a => failure? (walkFrom (patternsWithin n) a)) := by
  cases v with
  | list items =>
      rw [patternsWithin, inside, List.findSome?_map]
      exact failure?_bind_pure.trans failure?_mapM
  | dict given =>
      rw [patternsWithin, ← failure?_ownPattern]
      have hoption : ∀ name es, failure? (innerPatterns (patternsWithin n) place name given es)
          = ((Entries.get? given name).toList.map (.ok (below place name), ·)).findSome?
              fun a => failure? (walkFrom (patternsWithin n) a) := fun name es => by
        rw [failure?_innerPatterns]
        cases Entries.get? given name with
        | none => rfl
        | some v => exact List.findSome?_singleton.symm
      rw [inside, List.findSome?_append, List.findSome?_append, Option.or_assoc,
        List.findSome?_map, ← hoption _ given, ← hoption _ given]
      refine failure?_bind fun es _ => ?_
      refine (failure?_bind fun es' _ => ?_).trans
        (congrArg (Option.or · _) failure?_propertyPatterns)
      refine (failure?_bind fun es'' _ => ?_).trans
        (congrArg (Option.or · _) ((hoption _ _).trans (hoption _ _).symm))
      exact failure?_bind_pure.trans ((hoption _ _).trans (hoption _ _).symm)
  | _ => rfl

theorem findSome?_flatMap {α β γ : Type} {f : α → Option γ} {g : α → List β} {p : β → Option γ}
    {xs : List α} (h : ∀ x ∈ xs, f x = (g x).findSome? p) :
    xs.findSome? f = (xs.flatMap g).findSome? p := by
  induction xs with
  | nil => rfl
  | cons x rest ih =>
      rw [List.flatMap_cons, List.findSome?_append, List.findSome?_cons, h x List.mem_cons_self,
        ih fun y hy => h y (List.mem_cons_of_mem _ hy)]
      cases (g x).findSome? p <;> rfl

/-- The failure of a walk is that of the first configuration it comes by that fails. -/
theorem failure?_patternsWithin (hheight : v.height < n) :
    failure? (patternsWithin n place v) = (visits place v).findSome? failureAt := by
  induction n generalizing place v with
  | zero => exact absurd hheight (Nat.not_lt_zero _)
  | succ n ih =>
      have hinside : (inside place v).findSome? (fun a => failure? (walkFrom (patternsWithin n) a))
          = ((inside place v).flatMap visitsFrom).findSome? failureAt := by
        refine findSome?_flatMap fun a ha => ?_
        have hlower := Nat.lt_of_lt_of_le (height_inside ha) (Nat.le_of_lt_succ hheight)
        obtain ⟨place | fault, v⟩ := a
        · rfl
        · exact ih hlower
      rw [failure?_step, visits_eq, List.findSome?_cons, hinside]
      cases failureAt (.ok place, v) <;> rfl

/-- **The loader compiles the patterns of configurations and nothing else.**
Loading a tree fails exactly if some configuration that the walk comes by has a
text as its pattern that does not compile, and with the failure of the first of
them: a configuration error that says the place, where the text is malformed.
Otherwise taking the sources of the patterns gives the tree back, loading it again
changes nothing, and what the walk comes by differs in compiled patterns only. -/
theorem compilePatterns_exact (hv : v.IsTree) (place : String) :
    (∀ e, compilePatterns place v = .error e ↔ (visits place v).findSome? failureAt = some e) ∧
    ∀ w, compilePatterns place v = .ok w →
      w.sourced = v ∧ (∀ place', compilePatterns place' w = .ok w) ∧
        List.Forall₂ (fun a b => b.1 = a.1 ∧ Touched a.2 b.2) (visits place v)
          (visits place w) := by
  have hheight : v.height < v.height + 1 := Nat.lt_succ_self _
  refine ⟨fun e => ?_, fun w hw => ⟨?_, fun place' => ?_, ?_⟩⟩
  · rw [← failure?_patternsWithin hheight, failure?_eq_some]
    rfl
  · exact sourced_of_patternsWithin hheight hv hw
  · exact patternsWithin_of_loaded (loaded_of_patternsWithin hheight hv.document hw)
  · exact visits_of_patternsWithin hheight hw

theorem patternFailure?_repeated (place : String) : patternFailure? place "x+" = none := by
  obtain ⟨p, hp⟩ : ∃ p, Pattern.compile "x+" .plain = .ok p := exists_eq_ok (by decide +kernel)
  rw [patternFailure?, hp]

theorem patternFailure?_unclosed (place : String) :
    patternFailure? place "(" = some (.config (.badPattern place "(")) := by
  have hmalformed : Pattern.compile "(" .plain = .error .malformed := by decide +kernel
  rw [patternFailure?, hmalformed]

/-- The second of a property's alternatives is the first to fail, although the
schema of all properties stands before them. -/
theorem compilePatterns_exact_nested :
    let strings : String → Value := fun source => .dict [(.str "pattern", .str source)]
    let tree : String → Value := fun source => .dict [
      (.str "schema", strings source),
      (.str "default", strings "("),
      (.str "properties", .dict [(.str "a", .list [strings "x+", strings source])])]
    (tree "(").IsTree ∧ (tree "y?").IsTree ∧
      (visits "" (tree "(")).findSome? failureAt
        = some (.config (.badPattern "properties.a[1].pattern" "(")) ∧
      ∃ w, compilePatterns "" (tree "y?") = .ok w ∧ w.sourced = tree "y?" := by
  intro strings tree
  have hbad : (tree "(").IsTree := ⟨by decide +kernel, by decide +kernel⟩
  have hgood : (tree "y?").IsTree := ⟨by decide +kernel, by decide +kernel⟩
  have hinside : inside "" (tree "(") = [(.ok "properties.a", .list [strings "x+", strings "("]),
      (.ok "schema", strings "(")] := rfl
  have hitems : inside "properties.a" (.list [strings "x+", strings "("])
      = [(.ok "properties.a[0]", strings "x+"), (.ok "properties.a[1]", strings "(")] := by
    have hzero : Nat.repr 0 = "0" := by decide
    have hone : Nat.repr 1 = "1" := by decide
    simp [inside, hzero, hone]
  have hvisits : visits "" (tree "(") = [(.ok "", tree "("),
      (.ok "properties.a", .list [strings "x+", strings "("]),
      (.ok "properties.a[0]", strings "x+"), (.ok "properties.a[1]", strings "("),
      (.ok "schema", strings "(")] := by
    have hnone (place source : String) : inside place (strings source) = [] := rfl
    simp [visits_eq, visitsFrom, hinside, hitems, hnone]
  have hrefused : (visits "" (tree "(")).findSome? failureAt
      = some (.config (.badPattern "properties.a[1].pattern" "(")) := by
    have hat (place source : String) : failureAt (.ok place, strings source)
        = patternFailure? (below place "pattern") source := rfl
    rw [hvisits]
    simp only [List.findSome?_cons, hat, patternFailure?_repeated, patternFailure?_unclosed]
    rfl
  refine ⟨hbad, hgood, hrefused, ?_⟩
  obtain ⟨w, hw⟩ : ∃ w, compilePatterns "" (tree "y?") = .ok w :=
    exists_eq_ok (by decide +kernel)
  exact ⟨w, hw, ((compilePatterns_exact hgood "").2 w hw).1⟩

/-- A pattern that counts too far is no configuration error. -/
theorem compilePatterns_countTooLarge :
    compilePatterns "" (.dict [(.str "pattern", .str "a\x7b4294967296\x7d")])
      = .error (.fault .overflow) := by
  have hcounts : Pattern.compile "a\x7b4294967296\x7d" .plain = .error .countTooLarge := by
    decide +kernel
  have hown : ownPattern "" [(.str "pattern", .str "a\x7b4294967296\x7d")]
      = .error (.fault .overflow) := by
    show patternAt _ "a\x7b4294967296\x7d" >>= _ = _
    rw [patternAt, hcounts]
    rfl
  rw [compilePatterns, patternsWithin, hown]
  rfl

end Document

end Conform
