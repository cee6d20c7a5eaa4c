/-
# `Proofs.Digest.Same` — what values with one outline have in common

A digest keeps of a value its outline.  For the data that the checks of a
schema read, this is enough: flags and integers are the same, schemas have one
digest, and what is unset is told from what is set.
-/
import Conform.Proofs.Schema.Tokens
import Conform.Proofs.Schema.Legible

namespace Conform

/-! ## Numbers are not constants -/

/-- Whether a digit occurs in a text, as in every finite number. -/
def HasDigit (s : String) : Prop := ∃ c ∈ s.toList, c.isDigit = true

theorem HasDigit.append_left {s : String} (h : HasDigit s) (t : String) : HasDigit (s ++ t) := by
  obtain ⟨c, hc, hdigit⟩ := h
  exact ⟨c, by rw [String.toList_append]; exact List.mem_append_left _ hc, hdigit⟩

theorem HasDigit.append_right {t : String} (h : HasDigit t) (s : String) : HasDigit (s ++ t) := by
  obtain ⟨c, hc, hdigit⟩ := h
  exact ⟨c, by rw [String.toList_append]; exact List.mem_append_right _ hc, hdigit⟩

theorem not_hasDigit_null : ¬ HasDigit "null" := by
  rintro ⟨c, hc, hdigit⟩
  have hall : "null".toList.all (fun d => !d.isDigit) = true := by decide
  have hnot := List.all_eq_true.mp hall c hc
  rw [hdigit] at hnot
  cases hnot

theorem hasDigit_ofList {ds : List Char} (hne : ds ≠ []) (h : ∀ c ∈ ds, c.isDigit = true) :
    HasDigit (String.ofList ds) := by
  obtain ⟨c, hc⟩ := List.exists_mem_of_ne_nil ds hne
  exact ⟨c, by rw [String.toList_ofList]; exact hc, h c hc⟩

theorem hasDigit_toDigits (n : Nat) : HasDigit (String.ofList (Nat.toDigits 10 n)) :=
  hasDigit_ofList Nat.toDigits_ne_nil fun _ hc =>
    Nat.isDigit_of_mem_toDigits (by decide) (by decide) hc

theorem hasDigit_int (n : Int) : HasDigit (toString n) := by
  have hnat : ∀ m : Nat, HasDigit m.repr := fun m => by
    rw [Nat.repr_eq_ofList_toDigits]
    exact hasDigit_toDigits m
  rw [Int.toString_eq_repr, Int.repr_eq_if]
  split
  · exact hnat _
  · exact (hnat _).append_right _

theorem hasDigit_units (f : Binary64.Format) (units : Nat) :
    HasDigit (Binary64.unitsText f units) := by
  have hds := hasDigit_toDigits (Binary64.shortest f units).digits
  have hdigits : ∀ c ∈ (Binary64.shortest f units).leading.1, c.isDigit = true := fun c hc =>
    Nat.isDigit_of_mem_toDigits (by decide) (by decide) hc
  have hne : (Binary64.shortest f units).leading.1 ≠ [] := Nat.toDigits_ne_nil
  have htake : ∀ n : Nat, 0 < n →
      HasDigit (String.ofList ((Binary64.shortest f units).leading.1.take n)) := by
    intro n hn
    refine hasDigit_ofList (fun h => ?_) fun c hc => hdigits c (List.mem_of_mem_take hc)
    rcases List.take_eq_nil_iff.mp h with hzero | hempty
    · omega
    · exact hne hempty
  unfold Binary64.unitsText
  dsimp only
  split
  · unfold Decimal.positional
    split
    · exact hds.append_right _
    · dsimp only
      split
      · exact (hds.append_left _).append_left _
      · rename_i hlead _
        exact ((htake _ (by omega)).append_left _).append_left _
  · exact (((htake 1 (by omega)).append_left _).append_left _).append_left _

theorem hasDigit_finite (negative : Bool) (m : Magnitude) :
    HasDigit (StableText.ofFloat (.finite negative m)) := by
  show HasDigit ((if negative then "-" else "") ++ _)
  refine HasDigit.append_right ?_ _
  split
  · exact ⟨'0', by decide, rfl⟩
  · exact hasDigit_units _ _

theorem ofFloat_ne_null (x : Binary64) : StableText.ofFloat x ≠ "null" := by
  cases x with
  | nan => decide
  | infinite negative => cases negative <;> decide
  | finite negative m =>
      intro h
      exact not_hasDigit_null (h ▸ hasDigit_finite negative m)

/-! ## One text -/

namespace Value

/-- The text of the canonical form. -/
def canonicalText (v : Value) : Except Fault String := do StableText.ofValue (← v.canonical)

/-- Values that a digest does not tell apart. -/
def SameText (v w : Value) : Prop :=
  ∃ text, v.canonicalText = .ok text ∧ w.canonicalText = .ok text

theorem canonicalText_eq (v : Value) : v.canonicalText = Tree.render <$> v.outline := by
  rw [canonicalText, outline]
  cases v.canonical with
  | error e => rfl
  | ok c => exact StableText.ofValue_eq c

/-- One text is one outline. -/
theorem sameText_iff {v w : Value} : v.SameText w ↔ ∃ t, v.outline = .ok t ∧ w.outline = .ok t := by
  simp only [SameText, canonicalText_eq, map_eq_ok]
  constructor
  · rintro ⟨text, ⟨t, ht, hrender⟩, u, hu, hrender'⟩
    obtain rfl := Tree.render_inj (hrender.trans hrender'.symm)
    exact ⟨t, ht, hu⟩
  · rintro ⟨t, ht, hu⟩
    exact ⟨t.render, ⟨t, ht, rfl⟩, t, hu, rfl⟩

theorem sameText_of_token {v w : Value} {token : String} (hv : v.isCallable = false)
    (hw : w.isCallable = false) (hvt : v.token = .ok token) (hwt : w.token = .ok token) :
    v.SameText w :=
  sameText_iff.mpr (outline_eq_of_token hv hw hvt hwt)

theorem SameText.outline {v w : Value} {t u : Tree} (h : v.SameText w) (hv : v.outline = .ok t)
    (hw : w.outline = .ok u) : t = u := by
  obtain ⟨t', ht, hu⟩ := sameText_iff.mp h
  rw [hv] at ht
  rw [hw] at hu
  exact (Except.ok.inj ht).trans (Except.ok.inj hu).symm

/-! ## Flags and integers -/

theorem SameText.word {v w : Value} {s t : String} {hs : Word.Spells s} {ht : Word.Spells t}
    (h : v.SameText w) (hv : v.outline = .ok (.word (.ofText s hs)))
    (hw : w.outline = .ok (.word (.ofText t ht))) : s = t := by
  have hrender := congrArg Tree.render (h.outline hv hw)
  rw [StableText.render_word, StableText.render_word] at hrender
  exact hrender

theorem SameText.bool {a b : Bool} (h : (Value.bool a).SameText (.bool b)) : a = b := by
  have htext := h.word rfl rfl
  revert htext
  cases a <;> cases b <;> decide

end Value

/-- A number is read back from its digits. -/
theorem ofDigitChars_repr (n : Nat) : Nat.ofDigitChars 10 n.repr.toList 0 = n := by
  rw [Nat.toList_repr]
  exact Nat.ofDigitChars_ten_toDigits

/-- A sign is no digit. -/
theorem repr_ne_signed (m n : Nat) : m.repr ≠ "-" ++ n.repr := by
  intro h
  have hsign : '-' ∈ m.repr.toList := by
    rw [h, String.toList_append]
    exact List.mem_append_left _ (by decide)
  rw [Nat.toList_repr] at hsign
  exact absurd (Nat.isDigit_of_mem_toDigits (by decide) (by decide) hsign) (by decide)

theorem toString_int_inj {m n : Int} (h : toString m = toString n) : m = n := by
  have hnat : ∀ {a b : Nat}, a.repr = b.repr → a = b := fun {a b} hab => by
    rw [← ofDigitChars_repr a, hab, ofDigitChars_repr]
  rw [Int.toString_eq_repr, Int.toString_eq_repr, Int.repr_eq_if, Int.repr_eq_if] at h
  split at h <;> split at h
  · have := hnat h
    omega
  · exact absurd h (repr_ne_signed _ _)
  · exact absurd h.symm (repr_ne_signed _ _)
  · have := hnat ((String.append_right_inj _).mp h)
    omega

namespace Value

theorem SameText.int {m n : Int} (h : (Value.int m).SameText (.int n)) : m = n := by
  obtain ⟨text, hm, hn⟩ := h
  obtain ⟨-, rfl⟩ := written_eq_ok.mp hm
  obtain ⟨-, htext⟩ := written_eq_ok.mp hn
  exact toString_int_inj htext.symm

/-! ## What is unset -/

theorem SameText.symm {v w : Value} (h : v.SameText w) : w.SameText v := by
  obtain ⟨text, hv, hw⟩ := h
  exact ⟨text, hw, hv⟩

/-- What is set is not taken for what is absent. -/
theorem SameText.optional {α : Type} {f : α → Value} {a b : Option α}
    (ha : ∀ x, a = some x → ¬ Value.none.SameText (f x))
    (hb : ∀ y, b = some y → ¬ Value.none.SameText (f y))
    (h : (Conform.optional f a).SameText (Conform.optional f b)) :
    (a = .none ∧ b = .none) ∨ ∃ x y, a = some x ∧ b = some y ∧ (f x).SameText (f y) := by
  cases a with
  | none =>
      cases b with
      | none => exact .inl ⟨rfl, rfl⟩
      | some y => exact absurd h (hb y rfl)
  | some x =>
      cases b with
      | none => exact absurd h.symm (ha x rfl)
      | some y => exact .inr ⟨x, y, rfl, rfl, h⟩

/-- A number is written with a digit, or in words of its own. -/
theorem not_none_of_isReal {v : Value} (h : v.isReal = true) : ¬ Value.none.SameText v := by
  intro hnone
  have hint : ∀ {n : Int}, v.canonicalText = Number.text n → False := by
    intro n hv
    obtain ⟨text, hnull, hn⟩ := hnone
    obtain rfl := Except.ok.inj hnull
    obtain ⟨-, htext⟩ := written_eq_ok.mp (hv.symm.trans hn)
    exact not_hasDigit_null (htext ▸ hasDigit_int n)
  unfold isReal at h
  split at h
  · exact hint rfl
  · exact ofFloat_ne_null _ (hnone.word rfl rfl).symm
  · exact hint rfl
  · exact hint rfl
  · exact ofFloat_ne_null _ (hnone.word rfl rfl).symm
  · exact ofFloat_ne_null _ (hnone.word rfl rfl).symm
  · cases h

theorem not_none_tuple {items : List Value} : ¬ Value.none.SameText (.tuple items) := by
  intro hnone
  obtain ⟨t, ht, hitems⟩ := sameText_iff.mp hnone
  rw [outline_tuple] at hitems
  obtain ⟨ts, rfl, -⟩ := outline_list.mp hitems
  cases ht

theorem not_none_schema {s : Schema} (h : s.answers = true) : ¬ Value.none.SameText (.schema s) := by
  intro hnone
  cases hnone.outline rfl (outline_schema h)

theorem not_none_pattern {p : Pattern} : ¬ Value.none.SameText (.pattern p) := by
  intro hnone
  obtain ⟨s, hs⟩ := text_of_token hnone.choose_spec.2
  cases hnone.outline rfl (outline_pattern hs)

/-! ## Data of schemas -/

theorem SameText.list {vs ws : List Value} (h : (Value.tuple vs).SameText (.tuple ws)) :
    List.Forall₂ SameText vs ws := by
  obtain ⟨t, hv, hw⟩ := sameText_iff.mp h
  rw [outline_tuple] at hv hw
  obtain ⟨ts, rfl, hvs⟩ := outline_list.mp hv
  obtain ⟨us, heq, hws⟩ := outline_list.mp hw
  obtain rfl := Tree.list.inj heq
  clear h hv hw heq
  induction hvs generalizing ws with
  | nil =>
      cases hws
      exact .nil
  | cons hv _ ih =>
      cases hws with
      | cons hw hws => exact .cons (sameText_iff.mpr ⟨_, hv, hw⟩) (ih hws)

theorem SameText.schema {s t : Schema} (hs : s.answers = true) (ht : t.answers = true)
    (h : (Value.schema s).SameText (.schema t)) : s.hash = t.hash :=
  Schema.mark_inj (h.outline (outline_schema hs) (outline_schema ht))

theorem mode_code_inj : ∀ {m n : Pattern.Mode}, m.code = n.code → m = n := by
  have hbits : ∀ a b c d e a' b' c' d' e' : Bool,
      Pattern.Mode.code ⟨a, b, c, d, e⟩ = Pattern.Mode.code ⟨a', b', c', d', e'⟩ →
        a = a' ∧ b = b' ∧ c = c' ∧ d = d' ∧ e = e' := by decide +kernel
  rintro ⟨a, b, c, d, e⟩ ⟨a', b', c', d', e'⟩ h
  obtain ⟨rfl, rfl, rfl, rfl, rfl⟩ := hbits _ _ _ _ _ _ _ _ _ _ h
  rfl

theorem SameText.pattern {p q : Pattern} (h : (Value.pattern p).SameText (.pattern q)) :
    p.source = q.source ∧ p.mode = q.mode := by
  obtain ⟨s, hs⟩ := text_of_token h.choose_spec.1
  obtain ⟨t, ht⟩ := text_of_token h.choose_spec.2
  have hentries := Tree.object.inj (h.outline (outline_pattern hs) (outline_pattern ht))
  obtain ⟨hsource, hflags⟩ := List.cons.inj hentries
  have hcode := congrArg Tree.render (Prod.mk.inj (List.cons.inj hflags).1).2
  rw [StableText.render_word, StableText.render_word] at hcode
  obtain rfl := Tree.text.inj (Prod.mk.inj hsource).2
  have hp := Pattern.source_of_text hs
  have hq := Pattern.source_of_text ht
  have hflags : p.flags = q.flags := Int.ofNat.inj (toString_int_inj hcode)
  rw [Pattern.flags, Pattern.flags, hp, hq] at hflags
  exact ⟨hp.trans hq.symm, mode_code_inj hflags⟩

theorem SameText.schemas {ts us : List Schema} (ht : ∀ t ∈ ts, t.answers = true)
    (hu : ∀ u ∈ us, u.answers = true)
    (h : (Value.tuple (ts.map .schema)).SameText (.tuple (us.map .schema))) :
    List.Forall₂ (fun t u => t.hash = u.hash) ts us := by
  have hitems := List.forall₂_map_left_iff.mp (List.forall₂_map_right_iff.mp h.list)
  clear h
  induction hitems with
  | nil => exact .nil
  | cons hhead _ ih =>
      refine .cons (hhead.schema (ht _ List.mem_cons_self) (hu _ List.mem_cons_self)) ?_
      exact ih (fun t h => ht t (List.mem_cons_of_mem _ h)) fun u h =>
        hu u (List.mem_cons_of_mem _ h)

/-- Every property has one with the same digest, under a key with the same
text. -/
theorem SameText.properties {props props' : List (Value × Schema)}
    (hanswers : ∀ e ∈ props, e.2.answers = true) (hanswers' : ∀ e ∈ props', e.2.answers = true)
    (hwritten : ∀ e ∈ props, e.1.hasDisplay = true)
    (hwritten' : ∀ e ∈ props', e.1.hasDisplay = true)
    (hkeys : (props.map fun e => e.1.textSpelling).Nodup)
    (hkeys' : (props'.map fun e => e.1.textSpelling).Nodup)
    (h : (Value.dict (Demand.entries props)).SameText (.dict (Demand.entries props'))) :
    ∀ e ∈ props, ∃ e' ∈ props', e.1.textSpelling = e'.1.textSpelling ∧ e.2.hash = e'.2.hash := by
  obtain ⟨sorted, houtline, hperm⟩ := outline_properties props hanswers hwritten hkeys
  obtain ⟨sorted', houtline', hperm'⟩ := outline_properties props' hanswers' hwritten' hkeys'
  obtain rfl := Tree.object.inj (h.outline houtline houtline')
  intro e he
  have hmem := (hperm.symm.trans hperm').subset (List.mem_map_of_mem he)
  obtain ⟨e', he', heq⟩ := List.mem_map.mp hmem
  obtain ⟨htext, hmark⟩ := Prod.mk.inj heq
  exact ⟨e', he', htext.symm, (Schema.mark_inj hmark).symm⟩

end Value

end Conform
