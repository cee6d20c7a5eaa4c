/-
# `Proofs.Document.Walk` — where the loader looks for patterns

The loader goes over a configuration once.  Of a dictionary it rewrites four
options one after another, each as the dictionary was given and each in its
place; `Document.Walked` is what the four come to.  What it goes on with is
`Document.inside`, and all that it comes by is `Document.visits`, in its order.
-/
import Conform.Document.Patterns
import Conform.Proofs.Value.Reordered

namespace Conform

theorem exists_of_rel {α β : Type} {R : α → β → Prop} {x : Option α} {y : Option β} {b : β}
    (h : Option.Rel R x y) (hb : y = some b) : ∃ a, x = some a ∧ R a b := by
  cases h with
  | none => cases hb
  | some hR => exact ⟨_, rfl, Option.some.inj hb ▸ hR⟩

/-! ## Entries with options replaced -/

namespace Entries

/-- Dictionaries with the same keys in the same order, and the same values but
under some names. -/
def KeptBut (names : List String) (es fs : Entries) : Prop :=
  List.Forall₂ (fun x y => y.1 = x.1 ∧
    ((∀ name ∈ names, Value.sameKey x.1 (.str name) = false) → y.2 = x.2)) es fs

variable {names names' : List String} {name : String} {es fs gs : Entries} {key v w : Value}

theorem KeptBut.refl : es.KeptBut names es := List.forall₂_same.mpr fun _ _ => ⟨rfl, fun _ => rfl⟩

theorem KeptBut.trans (h : es.KeptBut names fs) (h' : fs.KeptBut names' gs) :
    es.KeptBut (names ++ names') gs := by
  refine forall₂_trans (fun x y _ z _ hxy hyz => ?_) h.flip h'
  obtain ⟨hkey, hvalue⟩ := hxy
  obtain ⟨hkey', hvalue'⟩ := hyz
  refine ⟨hkey'.trans hkey, fun hother => ?_⟩
  rw [List.forall_mem_append] at hother
  exact (hvalue' (hkey ▸ hother.2)).trans (hvalue hother.1)

theorem KeptBut.keys (h : es.KeptBut names fs) : fs.map (·.1) = es.map (·.1) :=
  map_eq_of_forall₂ h.flip fun _ _ hsame => hsame.1

theorem KeptBut.apart (h : es.KeptBut names fs) (hes : es.KeysApart) : fs.KeysApart := by
  rw [KeysApart, h.keys]
  exact hes

theorem KeysApart.find?_eq (h : es.KeysApart) {e : Value × Value} (he : e ∈ es)
    (hkey : Value.sameKey e.1 key = true) :
    es.find? key = some e.2 := by
  induction es with
  | nil => cases he
  | cons f rest ih =>
      obtain ⟨hhead, hrest⟩ := List.pairwise_cons.mp h
      rw [find?]
      rcases List.mem_cons.mp he with rfl | he
      · rw [if_pos hkey]
      · have hapart := hhead e.1 (List.mem_map_of_mem he)
        rw [Value.sameKey_comm, Value.sameKey_congr hkey, Value.sameKey_comm] at hapart
        rw [hapart, if_neg Bool.false_ne_true]
        exact ih hrest he

/-- A value put in the place of another leaves the others. -/
theorem keptBut_put (h : es.get? name = some v) : es.KeptBut [name] (es.put (.str name) w) := by
  induction es with
  | nil => cases h
  | cons e rest ih =>
      rw [get?, find?] at h
      rw [put]
      split at h
      · rename_i hsame
        rw [if_pos hsame]
        refine .cons ⟨rfl, fun hother => ?_⟩ KeptBut.refl
        rw [hother name (List.mem_singleton.mpr rfl)] at hsame
        cases hsame
      · rename_i hdiffer
        rw [if_neg hdiffer]
        exact .cons ⟨rfl, fun _ => rfl⟩ (ih h)

/-- Dictionaries that agree but for an option: a related value stands in the place of
its value, or the value is as it was and related to itself. -/
inductive Rewrites (name : String) (R : Value → Value → Prop) (es : Entries) : Entries → Prop
  | same (h : ∀ v, es.get? name = some v → R v v) : Rewrites name R es es
  | put {v w : Value} (hv : es.get? name = some v) (hw : R v w) :
      Rewrites name R es (es.put (.str name) w)

namespace Rewrites

variable {R : Value → Value → Prop}

theorem kept (h : es.Rewrites name R fs) : es.KeptBut [name] fs := by
  cases h with
  | same => exact .refl
  | put hv => exact keptBut_put hv

theorem others (h : es.Rewrites name R fs) {other : String} (hne : other ≠ name) :
    fs.get? other = es.get? other := by
  cases h with
  | same => rfl
  | put => exact get?_put_of_ne hne

theorem option (h : es.Rewrites name R fs) : Option.Rel R (es.get? name) (fs.get? name) := by
  cases h with
  | same h =>
      cases hv : es.get? name with
      | none => exact .none
      | some v => exact .some (h v hv)
  | put hv hw =>
      rw [hv, get?_put_self]
      exact .some hw

end Rewrites

end Entries

namespace Document

/-! ## The options of a configuration -/

variable {inner : String → Value → Outcome Value} {place name : String} {given es fs : Entries}
  {v w : Value}

/-- What becomes of the pattern of a configuration. -/
inductive OwnPattern : Value → Value → Prop
  | compiled {v : Value} {source : String} {p : Pattern} (text : v.text? = some source)
      (compiles : Pattern.compile source .plain = .ok p) : OwnPattern v (.pattern p)
  | other {v : Value} (text : v.text? = none) : OwnPattern v v

theorem OwnPattern.text?_eq_none (h : OwnPattern v w) : w.text? = none := by
  cases h with
  | compiled => rfl
  | other text => exact text

/-- What becomes of the properties. -/
inductive Declared (inner : String → Value → Outcome Value) (place : String) :
    Value → Value → Prop
  | dict {es fs : Entries} (each : List.Forall₂ (fun x y => y.1 = x.1 ∧
      ∃ name, x.1.display = .ok name ∧
        inner (below place ("properties." ++ name)) x.2 = .ok y.2) es fs) :
      Declared inner place (.dict es) (.dict fs)
  | other {v : Value} (h : v.isDict = false) : Declared inner place v v

theorem ownPattern_rewrites (h : ownPattern place given = .ok fs) :
    given.Rewrites "pattern" OwnPattern fs := by
  unfold ownPattern at h
  rw [Entries.getD] at h
  split at h
  · rename_i source hsource
    simp only [bind_eq_ok, pure_eq_ok] at h
    obtain ⟨w, hw, rfl⟩ := h
    cases hv : given.get? "pattern" with
    | none =>
        rw [hv] at hsource
        cases hsource
    | some v =>
        rw [hv] at hsource
        refine .put hv ?_
        unfold patternAt at hw
        split at hw
        · rename_i p hp
          obtain rfl := Except.ok.inj hw
          exact .compiled hsource hp
        all_goals cases hw
  · rename_i hnone
    obtain rfl := Except.ok.inj h
    refine .same fun v hv => .other ?_
    rwa [hv] at hnone

theorem propertyPatterns_rewrites (hgiven : es.get? "properties" = given.get? "properties")
    (h : propertyPatterns inner place given es = .ok fs) :
    es.Rewrites "properties" (Declared inner place) fs := by
  unfold propertyPatterns at h
  rw [Entries.getD, ← hgiven] at h
  split at h
  · rename_i declared hdeclared
    obtain ⟨v, hv, rfl⟩ : ∃ v, es.get? "properties" = some v ∧ v = .dict declared := by
      cases hv : es.get? "properties" with
      | none =>
          rw [hv] at hdeclared
          cases hdeclared
      | some v => exact ⟨v, rfl, by rwa [hv] at hdeclared⟩
    simp only [bind_eq_ok, pure_eq_ok, mapM_eq_ok] at h
    obtain ⟨compiled, hcompiled, rfl⟩ := h
    refine .put hv (.dict (hcompiled.imp fun x y => ?_))
    rintro ⟨key, hkey, w, hw, rfl⟩
    exact ⟨rfl, key, lift_eq_ok.mp hkey, hw⟩
  · rename_i hother
    obtain rfl := Except.ok.inj h
    refine .same fun v hv => .other ?_
    rw [hv] at hother
    cases v with
    | dict declared => exact absurd rfl (hother declared)
    | _ => rfl

theorem innerPatterns_rewrites (hgiven : es.get? name = given.get? name)
    (h : innerPatterns inner place name given es = .ok fs) :
    es.Rewrites name (fun v w => inner (below place name) v = .ok w) fs := by
  unfold innerPatterns at h
  rw [← hgiven] at h
  split at h
  · rename_i v hv
    simp only [bind_eq_ok, pure_eq_ok] at h
    obtain ⟨w, hw, rfl⟩ := h
    exact .put hv hw
  · rename_i hnone
    obtain rfl := Except.ok.inj h
    refine .same fun v hv => ?_
    rw [hnone] at hv
    cases hv

/-- The options that may hold patterns and configurations. -/
def walkedNames : List String := ["pattern", "properties", "schema", "one_of"]

/-- What the walk makes of a configuration. -/
structure Walked (inner : String → Value → Outcome Value) (place : String) (es fs : Entries) :
    Prop where
  kept : es.KeptBut walkedNames fs
  pattern : Option.Rel OwnPattern (es.get? "pattern") (fs.get? "pattern")
  properties : Option.Rel (Declared inner place) (es.get? "properties") (fs.get? "properties")
  schema : Option.Rel (fun v w => inner (below place "schema") v = .ok w)
    (es.get? "schema") (fs.get? "schema")
  oneOf : Option.Rel (fun v w => inner (below place "one_of") v = .ok w)
    (es.get? "one_of") (fs.get? "one_of")

/-- The items of a list are walked one by one, each at its place. -/
theorem items_of_patternsWithin {n : Nat} {items : List Value}
    (h : patternsWithin (n + 1) place (.list items) = .ok w) :
    ∃ compiled, w = .list compiled ∧ List.Forall₂ (fun (x : Value × Nat) y =>
      patternsWithin n (place ++ "[" ++ toString x.2 ++ "]") x.1 = .ok y) items.zipIdx compiled := by
  simp only [patternsWithin, bind_eq_ok, pure_eq_ok, mapM_eq_ok] at h
  obtain ⟨compiled, hcompiled, rfl⟩ := h
  exact ⟨compiled, rfl, hcompiled⟩

/-- The four options are rewritten one after another, none of them twice. -/
theorem walked_of_patternsWithin {n : Nat}
    (h : patternsWithin (n + 1) place (.dict given) = .ok w) :
    ∃ fs, w = .dict fs ∧ Walked (patternsWithin n) place given fs := by
  simp only [patternsWithin, bind_eq_ok, pure_eq_ok] at h
  obtain ⟨es₁, hown, es₂, hproperties, es₃, hschema, es₄, honeOf, rfl⟩ := h
  have hfirst := ownPattern_rewrites hown
  have hsecond := propertyPatterns_rewrites (hfirst.others (by decide)) hproperties
  have hthird := innerPatterns_rewrites
    ((hsecond.others (by decide)).trans (hfirst.others (by decide))) hschema
  have hfourth := innerPatterns_rewrites ((hthird.others (by decide)).trans
    ((hsecond.others (by decide)).trans (hfirst.others (by decide)))) honeOf
  refine ⟨es₄, rfl, ((hfirst.kept.trans hsecond.kept).trans hthird.kept).trans hfourth.kept,
    ?_, ?_, ?_, ?_⟩
  · rw [hfourth.others (by decide), hthird.others (by decide), hsecond.others (by decide)]
    exact hfirst.option
  · rw [hfourth.others (by decide), hthird.others (by decide), ← hfirst.others (by decide)]
    exact hsecond.option
  · rw [hfourth.others (by decide), ← hfirst.others (by decide), ← hsecond.others (by decide)]
    exact hthird.option
  · rw [← hfirst.others (by decide), ← hsecond.others (by decide), ← hthird.others (by decide)]
    exact hfourth.option

/-! ## What the walk comes by -/

/-- The properties of a configuration, if they are given as a dictionary. -/
def declaredIn (es : Entries) : Entries :=
  match es.getD "properties" .none with
  | .dict declared => declared
  | _ => []

theorem mem_declaredIn {x : Value × Value} (h : x ∈ declaredIn es) :
    es.get? "properties" = some (.dict (declaredIn es)) := by
  unfold declaredIn Entries.getD at *
  cases hv : es.get? "properties" with
  | none =>
      rw [hv] at h
      cases h
  | some v =>
      rw [hv] at h
      cases v with
      | dict declared => rfl
      | _ => cases h

/-- A stop of the walk: a value, and its place if that can be told. -/
abbrev Stop := Except Fault String × Value

/-- The place of a property, unless its name cannot be written. -/
def propertyPlace (place : String) (key : Value) : Except Fault String :=
  key.display.map fun name => below place ("properties." ++ name)

/-- What the walk goes on with from a value, in order. -/
def inside (place : String) : Value → List Stop
  | .list items => items.zipIdx.map fun x => (.ok (place ++ "[" ++ toString x.2 ++ "]"), x.1)
  | .dict es =>
      ((declaredIn es).map fun e => (propertyPlace place e.1, e.2)) ++
        (Entries.get? es "schema").toList.map (.ok (below place "schema"), ·) ++
        (Entries.get? es "one_of").toList.map (.ok (below place "one_of"), ·)
  | _ => []

theorem height_inside {a : Stop} (h : a ∈ inside place v) : a.2.height < v.height := by
  cases v with
  | list items =>
      obtain ⟨⟨item, i⟩, hmem, rfl⟩ := List.mem_map.mp h
      exact Value.height_lt_of_listed? (v := .list items) rfl (List.fst_mem_of_mem_zipIdx hmem)
  | dict es =>
      have hoption : ∀ name, a ∈ (Entries.get? es name).toList.map (.ok (below place name), ·) →
          a.2.height < (Value.dict es).height := fun name h => by
        obtain ⟨w, hw, rfl⟩ := List.mem_map.mp h
        exact Nat.lt_succ_of_le (Value.height_of_get? (Option.mem_toList.mp hw))
      rcases List.mem_append.mp h with h | h
      · rcases List.mem_append.mp h with h | h
        · obtain ⟨e, he, rfl⟩ := List.mem_map.mp h
          have hdeclared := Value.height_of_get? (mem_declaredIn he)
          have hlower := Value.height_le_of_mem_entries he
          simp only [Value.height] at hdeclared ⊢
          omega
        · exact hoption "schema" h
      · exact hoption "one_of" h
  | _ => cases h

/-- All that the walk comes by: a value, and then what it comes by from there.  It
gets no further where it cannot tell the place. -/
def visits (place : String) (v : Value) : List Stop :=
  (.ok place, v) :: (inside place v).attach.flatMap fun a =>
    match a.1.1 with
    | .ok place => visits place a.1.2
    | .error fault => [(.error fault, a.1.2)]
termination_by v.height
decreasing_by exact height_inside a.2

/-- What the walk comes by from a stop on. -/
def visitsFrom : Stop → List Stop
  | (.ok place, v) => visits place v
  | (.error fault, v) => [(.error fault, v)]

theorem visits_eq :
    visits place v = (.ok place, v) :: (inside place v).flatMap visitsFrom := by
  have hmap := List.flatMap_map (l := (inside place v).attach) Subtype.val visitsFrom
  rw [List.attach_map_subtype_val] at hmap
  rw [visits, hmap]
  refine congrArg (_ :: List.flatMap · _) (funext fun a => ?_)
  obtain ⟨⟨place | fault, w⟩, _⟩ := a <;> rfl

end Document

end Conform
