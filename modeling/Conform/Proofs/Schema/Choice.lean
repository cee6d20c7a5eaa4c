/-
# `Proofs.Schema.Choice` — which alternative a value belongs to

A value belongs to the first alternative that accepts it, and the search
gets there only if each one before it answers.  `Chosen` is that search as a
relation.  Leaving out alternatives whose digest occurred before does not
change what it finds, as long as alternatives with one digest accept the
same values: what is left out was refused where it first occurred.
-/
import Conform.Proofs.Config.Compiled
import Conform.Proofs.Schema.Accepts

namespace Conform.Schema

variable {v : Value} {s t : Instance} {ss : List Instance}

/-- The first of some schemas that accepts a value, where those before it
refuse it and none fails to answer. -/
inductive Chosen (v : Value) : List Instance → Instance → Prop
  | here {s : Instance} {rest : List Instance} :
      (single s).accepts v = .ok true → Chosen v (s :: rest) s
  | later {s t : Instance} {rest : List Instance} :
      (single s).accepts v = .ok false → Chosen v rest t → Chosen v (s :: rest) t

theorem Chosen.mem (h : Chosen v ss t) : t ∈ ss := by
  induction h with
  | here _ => exact List.mem_cons_self
  | later _ _ ih => exact List.mem_cons_of_mem _ ih

theorem Chosen.accepts (h : Chosen v ss t) : (single t).accepts v = .ok true := by
  induction h with
  | here h => exact h
  | later _ _ ih => exact ih

theorem not_chosen_nil : ¬ Chosen v [] t := nofun

theorem chosen_cons_of_refused {rest : List Instance} (h : (single s).accepts v = .ok false) :
    Chosen v (s :: rest) t ↔ Chosen v rest t := by
  constructor
  · intro hc
    cases hc with
    | here ha => cases h.symm.trans ha
    | later _ hc => exact hc
  · exact .later h

/-! ## The search -/

theorem accepts_eq_false : (single s).accepts v = .ok false ↔
    ∃ e, (single s).error v (.str "") = .ok (some e) := by
  unfold Schema.accepts accepted
  cases (single s).error v (.str "") with
  | error e => simp
  | ok x => cases x <;> simp

theorem Chosen.run (h : Chosen v ss t) : ∀ i : Nat,
    ∃ n, Search.run Schema.error v i ((ss.map single).map .schema) = .ok (.found n (.single t)) := by
  induction h with
  | here h =>
      intro i
      refine ⟨i, ?_⟩
      rw [List.map_cons, List.map_cons, Search.run, accepts_eq_true.mp h]
      rfl
  | later h _ ih =>
      intro i
      obtain ⟨e, he⟩ := accepts_eq_false.mp h
      obtain ⟨n, hn⟩ := ih (i + 1)
      refine ⟨n, ?_⟩
      rw [List.map_cons, List.map_cons, Search.run, he, ok_bind, hn]
      rfl

theorem Chosen.of_refused {before after : List Instance}
    (hbefore : ∀ s ∈ before, (single s).accepts v = .ok false)
    (ht : (single t).accepts v = .ok true) : Chosen v (before ++ t :: after) t := by
  induction before with
  | nil => exact .here ht
  | cons s rest ih =>
      obtain ⟨hs, hrest⟩ := List.forall_mem_cons.mp hbefore
      exact .later hs (ih hrest)

theorem chosen_of_run {u : Schema} {n i : Nat}
    (h : Search.run Schema.error v i ((ss.map single).map .schema) = .ok (.found n u)) :
    ∃ t, u = single t ∧ Chosen v ss t := by
  obtain ⟨before, after, heq, -, hu, hbefore⟩ := run_eq_found.mp h
  obtain ⟨firsts, rest, rfl, rfl, hrest⟩ := List.map_eq_append_iff.mp heq
  obtain ⟨t, later, rfl, rfl, rfl⟩ := List.map_eq_cons_iff.mp hrest
  refine ⟨t, rfl, .of_refused (fun s hs => ?_) (accepts_eq_true.mpr hu)⟩
  exact accepts_eq_false.mpr (hbefore _ (List.mem_map_of_mem hs))

/-- A schema accepts what one of its members is chosen for. -/
theorem accepts_iff_chosen (u : Schema) (v : Value) :
    u.accepts v = .ok true ↔ ∃ t, Chosen v u.members t := by
  cases u with
  | single s =>
      constructor
      · exact fun h => ⟨s, .here h⟩
      · rintro ⟨t, h⟩
        cases h with
        | here h => exact h
        | later _ h => exact absurd h not_chosen_nil
  | multi members =>
      rw [accepts_eq_true, error_multi, searchMembers_eq]
      constructor
      · intro h
        obtain ⟨found, hfound, h⟩ := bind_eq_ok.mp h
        cases found with
        | found n u => exact (chosen_of_run hfound).imp fun _ ht => ht.2
        | refused errors => simp [Instance.searchVerdict] at h
      · rintro ⟨t, h⟩
        have h : Chosen v members t := h
        obtain ⟨n, hn⟩ := h.run 0
        rw [hn]
        rfl

/-- And brings it to the normal form of that member. -/
theorem Chosen.normalize {u : Schema} (h : Chosen v u.members t) :
    u.normalize v = (single t).normalize v := by
  cases u with
  | single s =>
      cases h with
      | here _ => rfl
      | later _ h => exact absurd h not_chosen_nil
  | multi members =>
      have h : Chosen v members t := h
      obtain ⟨n, hn⟩ := h.run 0
      rw [normalize_multi, searchMembers_eq, hn]
      rfl

/-! ## Repeated digests -/

/-- Leaving out repeated schemas leaves the chosen one, if schemas with one
digest decide alike.  Those left out on account of `seen` refuse the value. -/
theorem chosen_dropRepeated {seen : List String}
    (hsame : ∀ s ∈ ss, ∀ t ∈ ss, s.hash = t.hash → (single s).accepts v = (single t).accepts v)
    (hseen : ∀ s ∈ ss, s.hash ∈ seen → (single s).accepts v = .ok false) :
    Chosen v (dropRepeated seen ss) t ↔ Chosen v ss t := by
  induction ss generalizing seen with
  | nil => exact Iff.rfl
  | cons s rest ih =>
      have hsame' : ∀ u ∈ rest, ∀ w ∈ rest, u.hash = w.hash →
          (single u).accepts v = (single w).accepts v := fun u hu w hw =>
        hsame u (List.mem_cons_of_mem _ hu) w (List.mem_cons_of_mem _ hw)
      have hseen' : ∀ u ∈ rest, u.hash ∈ seen → (single u).accepts v = .ok false :=
        fun u hu => hseen u (List.mem_cons_of_mem _ hu)
      simp only [dropRepeated]
      split
      · rename_i hs
        have hrefused := hseen s List.mem_cons_self (List.contains_iff_mem.mp hs)
        rw [chosen_cons_of_refused hrefused]
        exact ih hsame' hseen'
      · -- what is left out from here on has the digest of `s` or an older one
        have hnext : (single s).accepts v = .ok false →
            ∀ u ∈ rest, u.hash ∈ s.hash :: seen → (single u).accepts v = .ok false := by
          intro hrefused u hu hmem
          rcases List.mem_cons.mp hmem with heq | hmem
          · exact (hsame u (List.mem_cons_of_mem _ hu) s List.mem_cons_self heq).trans hrefused
          · exact hseen' u hu hmem
        constructor
        · intro h
          cases h with
          | here h => exact .here h
          | later hrefused h =>
              exact .later hrefused ((ih hsame' (hnext hrefused)).mp h)
        · intro h
          cases h with
          | here h => exact .here h
          | later hrefused h =>
              exact .later hrefused ((ih hsame' (hnext hrefused)).mpr h)

/-- Every digest is kept, or occurred before. -/
theorem exists_mem_dropRepeated {seen : List String} (h : s ∈ ss) :
    s.hash ∈ seen ∨ ∃ t ∈ dropRepeated seen ss, t.hash = s.hash := by
  induction ss generalizing seen with
  | nil => cases h
  | cons u rest ih =>
      simp only [dropRepeated]
      rcases List.mem_cons.mp h with rfl | h
      · split
        · rename_i hs
          exact .inl (List.contains_iff_mem.mp hs)
        · exact .inr ⟨s, List.mem_cons_self, rfl⟩
      · split
        · exact ih h
        · have later : s.hash ∈ u.hash :: seen ∨
              ∃ t ∈ dropRepeated (u.hash :: seen) rest, t.hash = s.hash := ih h
          rcases later with hmem | ⟨t, ht, heq⟩
          · rcases List.mem_cons.mp hmem with heq | hmem
            · exact .inr ⟨u, List.mem_cons_self, heq.symm⟩
            · exact .inl hmem
          · exact .inr ⟨t, List.mem_cons_of_mem _ ht, heq⟩

/-- A schema of what is left decides like all of them. -/
theorem chosen_of_members {u : Schema} (hu : u.members = dropRepeated [] ss)
    (hsame : ∀ s ∈ ss, ∀ t ∈ ss, s.hash = t.hash → ∀ v, (single s).accepts v = (single t).accepts v) :
    (∀ v, u.accepts v = .ok true ↔ ∃ t, Chosen v ss t) ∧
      ∀ v t, Chosen v ss t → u.normalize v = (single t).normalize v := by
  have chosen : ∀ v t, Chosen v u.members t ↔ Chosen v ss t := by
    intro v t
    rw [hu]
    exact chosen_dropRepeated (fun s hs t ht heq => hsame s hs t ht heq v)
      fun s _ h => absurd h List.not_mem_nil
  constructor
  · intro v
    rw [accepts_iff_chosen]
    exact exists_congr (chosen v)
  · exact fun v t h => ((chosen v t).mpr h).normalize

/-! ## Flags of several schemas -/

variable {f : Instance → Bool} {name : String}

theorem allFlag_eq (h : ∀ s ∈ ss, s.flag name = .ok (f s)) :
    Instance.allFlag name ss = .ok (ss.all f) := by
  induction ss with
  | nil => rfl
  | cons s rest ih =>
      have hrest := ih fun u hu => h u (List.mem_cons_of_mem _ hu)
      rw [Instance.allFlag, h s List.mem_cons_self, ok_bind, List.all_cons, hrest]
      cases f s <;> rfl

theorem firstFlag_eq (h : ∀ s ∈ ss, s.flag name = .ok (f s)) :
    ∃ found, Instance.firstFlag name ss = .ok found ∧ found.isSome = ss.any f := by
  induction ss with
  | nil => exact ⟨none, rfl, rfl⟩
  | cons s rest ih =>
      obtain ⟨found, hfound, hsome⟩ := ih fun u hu => h u (List.mem_cons_of_mem _ hu)
      rw [Instance.firstFlag, h s List.mem_cons_self, ok_bind, List.any_cons]
      cases f s with
      | true => exact ⟨some s, rfl, rfl⟩
      | false => exact ⟨found, hfound, hsome⟩

/-- The first schema that has a flag is one of them and has it. -/
theorem mem_of_firstFlag (h : Instance.firstFlag name ss = .ok (some s)) :
    s ∈ ss ∧ s.flag name = .ok true := by
  induction ss with
  | nil => cases h
  | cons t rest ih =>
      rw [Instance.firstFlag] at h
      obtain ⟨b, hb, h⟩ := bind_eq_ok.mp h
      cases b with
      | true =>
          obtain rfl := Option.some.inj (Except.ok.inj h)
          exact ⟨List.mem_cons_self, hb⟩
      | false => exact (ih h).imp_left (List.mem_cons_of_mem _)

/-- A schema is required when each of its members is. -/
theorem required_eq {u : Schema} (hne : u.members ≠ [])
    (h : ∀ s ∈ u.members, s.flag "required" = .ok (f s)) : u.required = .ok (u.members.all f) := by
  cases u with
  | single s => simpa [Schema.required, members] using h s List.mem_cons_self
  | multi ms =>
      have hne : ms.isEmpty = false := by simpa [members] using hne
      rw [Schema.required, hne, if_neg Bool.false_ne_true]
      exact allFlag_eq h

/-- And has a default when one of them has. -/
theorem hasDefault_eq {u : Schema} (h : ∀ s ∈ u.members, s.flag "has_default" = .ok (f s)) :
    u.hasDefault = .ok (u.members.any f) := by
  cases u with
  | single s => simpa [Schema.hasDefault, members] using h s List.mem_cons_self
  | multi ms =>
      have h : ∀ s ∈ ms, s.flag "has_default" = .ok (f s) := h
      obtain ⟨found, hfound, hsome⟩ := firstFlag_eq h
      rw [Schema.hasDefault, hfound, ok_bind, hsome]
      rfl

/-- A flag that schemas with one digest share holds of all, or of some, as it
does of those that are left. -/
theorem all_dropRepeated {ss : List Instance} (hf : ∀ s ∈ ss, ∀ t ∈ ss, s.hash = t.hash → f s = f t) :
    (dropRepeated [] ss).all f = ss.all f := by
  rw [Bool.eq_iff_iff, List.all_eq_true, List.all_eq_true]
  have hsub := dropRepeated_sublist ss []
  constructor
  · intro h s hs
    obtain ⟨t, ht, heq⟩ := (exists_mem_dropRepeated hs).resolve_left List.not_mem_nil
    rw [← hf t (hsub.subset ht) s hs heq]
    exact h t ht
  · exact fun h s hs => h s (hsub.subset hs)

theorem any_dropRepeated {ss : List Instance} (hf : ∀ s ∈ ss, ∀ t ∈ ss, s.hash = t.hash → f s = f t) :
    (dropRepeated [] ss).any f = ss.any f := by
  have hnot : ∀ s ∈ ss, ∀ t ∈ ss, s.hash = t.hash → (!f s) = !f t := fun s hs t ht heq => by
    rw [hf s hs t ht heq]
  rw [List.any_eq_not_all_not, List.any_eq_not_all_not, all_dropRepeated hnot]

end Conform.Schema
