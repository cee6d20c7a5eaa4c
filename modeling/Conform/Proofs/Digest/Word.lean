/-
# `Proofs.Digest.Word` — numbers and constants are words

The texts that stand in a digest without quotes consist of digits, letters,
signs and points; none of them holds a quote, a bracket, a comma, a colon or
a line feed.
-/
import Conform.Digest.StableText
import Conform.Proofs.Digest.Tree

namespace Conform

namespace Word

/-- Texts that are words. -/
def Spells (s : String) : Prop := s ≠ "" ∧ ∀ c ∈ s.toList, isWordChar c = true

-- Read through the text: with all of the library in sight, the instance found
-- for a bounded statement about characters goes through every character there is.
instance (s : String) : Decidable (Spells s) :=
  decidable_of_iff (s ≠ "" ∧ s.toList.all isWordChar = true)
    (and_congr_right fun _ => List.all_eq_true)

def ofText (s : String) (h : Spells s) : Word :=
  ⟨s.toList, fun hnil => h.1 (String.toList_eq_nil_iff.mp hnil), h.2⟩

theorem isWordChar_of_isDigit {c : Char} (h : c.isDigit = true) : isWordChar c = true := by
  have hrange := Char.isDigit_iff_toNat.mp h
  have ne : ∀ d : Char, d.toNat < 48 ∨ 57 < d.toNat → (c != d) = true := by
    intro d hd
    refine bne_iff_ne.mpr fun heq => ?_
    subst heq
    have h0 : '0'.toNat = 48 := rfl
    have h9 : '9'.toNat = 57 := rfl
    omega
  simp only [isWordChar, Bool.and_eq_true]
  exact ⟨⟨⟨⟨⟨⟨⟨ne _ (by decide), ne _ (by decide)⟩, ne _ (by decide)⟩, ne _ (by decide)⟩,
    ne _ (by decide)⟩, ne _ (by decide)⟩, ne _ (by decide)⟩, ne _ (by decide)⟩

theorem spells_append {s t : String} (hs : Spells s) (ht : ∀ c ∈ t.toList, isWordChar c = true) :
    Spells (s ++ t) := by
  refine ⟨fun h => hs.1 (String.append_eq_empty_iff.mp h).1, fun c hc => ?_⟩
  rw [String.toList_append] at hc
  rcases List.mem_append.mp hc with hc | hc
  · exact hs.2 c hc
  · exact ht c hc

theorem spells_digits {ds : List Char} (hne : ds ≠ []) (h : ∀ c ∈ ds, c.isDigit = true) :
    Spells (String.ofList ds) := by
  constructor
  · intro hempty
    exact hne (by rw [← String.toList_ofList (l := ds), hempty]; rfl)
  · intro c hc
    rw [String.toList_ofList] at hc
    exact isWordChar_of_isDigit (h c hc)

theorem spells_nat (n : Nat) : Spells n.repr := by
  rw [Nat.repr_eq_ofList_toDigits]
  exact spells_digits Nat.toDigits_ne_nil fun c hc =>
    Nat.isDigit_of_mem_toDigits (by decide) (by decide) hc

theorem spells_int (n : Int) : Spells (toString n) := by
  rw [Int.toString_eq_repr, Int.repr_eq_if]
  split
  · exact spells_nat _
  · exact spells_append (by decide) (spells_nat _).2

theorem plain_of_all {s : String} (h : s.toList.all isWordChar = true) :
    ∀ c ∈ s.toList, isWordChar c = true :=
  List.all_eq_true.mp h

theorem plain_digits {ds : List Char} (h : ∀ c ∈ ds, c.isDigit = true) :
    ∀ c ∈ (String.ofList ds).toList, isWordChar c = true := by
  intro c hc
  rw [String.toList_ofList] at hc
  exact isWordChar_of_isDigit (h c hc)

theorem plain_append {s t : String} (hs : ∀ c ∈ s.toList, isWordChar c = true)
    (ht : ∀ c ∈ t.toList, isWordChar c = true) : ∀ c ∈ (s ++ t).toList, isWordChar c = true := by
  intro c hc
  rw [String.toList_append] at hc
  rcases List.mem_append.mp hc with hc | hc
  · exact hs c hc
  · exact ht c hc

theorem plain_zeros (n : Nat) : ∀ c ∈ (Decimal.zeros n).toList, isWordChar c = true := by
  refine plain_digits fun c hc => ?_
  rw [List.eq_of_mem_replicate hc]
  rfl

section decimal

variable {ds : List Char} (hne : ds ≠ []) (h : ∀ c ∈ ds, c.isDigit = true) (lead : Int)
include hne h

theorem spells_positional : Spells (Decimal.positional ds lead) := by
  unfold Decimal.positional
  split
  · exact spells_append (spells_append (by decide) (plain_zeros _)) (plain_digits h)
  · dsimp only
    split
    · exact spells_append (spells_append (spells_digits hne h) (plain_zeros _))
        (plain_of_all (by decide))
    · rename_i hlead _
      have htake : ds.take (lead + 1).toNat ≠ [] := by
        intro hnil
        rcases List.take_eq_nil_iff.mp hnil with hzero | hempty
        · omega
        · exact hne hempty
      refine spells_append (spells_append (spells_digits htake ?_) (plain_of_all (by decide)))
        (plain_digits ?_)
      · exact fun c hc => h c (List.mem_of_mem_take hc)
      · exact fun c hc => h c (List.mem_of_mem_drop hc)

theorem spells_scientific : Spells (Decimal.scientific ds lead) := by
  have hrest : ∀ c ∈ ds.drop 1, c.isDigit = true := fun c hc => h c (List.mem_of_mem_drop hc)
  have hexponent : ∀ c ∈ (Decimal.exponentText lead).toList, isWordChar c = true := by
    have hdigits : ∀ c ∈ (toString lead.natAbs).toList, isWordChar c = true :=
      (spells_nat lead.natAbs).2
    unfold Decimal.exponentText
    refine plain_append (plain_of_all (by split <;> decide)) ?_
    split
    · exact plain_append (plain_of_all (by decide)) hdigits
    · exact hdigits
  have htake : ds.take 1 ≠ [] := by
    cases ds with
    | nil => exact absurd rfl hne
    | cons d ds => exact List.cons_ne_nil _ _
  unfold Decimal.scientific
  refine spells_append (spells_append (spells_append (spells_digits htake ?_) ?_)
    (plain_of_all (by decide))) hexponent
  · exact fun c hc => h c (List.mem_of_mem_take hc)
  · split
    · nofun
    · exact plain_append (plain_of_all (by decide)) (plain_digits hrest)

end decimal

theorem spells_float (x : Binary64) : Spells (StableText.ofFloat x) := by
  cases x with
  | nan => decide
  | infinite negative => cases negative <;> decide
  | finite negative m =>
      have hunits : Spells (if m.units = 0 then "0.0" else Binary64.unitsText .double m.units) := by
        split
        · decide
        · have hdigits : ∀ c ∈ (Binary64.shortest .double m.units).leading.1, c.isDigit = true :=
            fun c hc => Nat.isDigit_of_mem_toDigits (by decide) (by decide) hc
          unfold Binary64.unitsText
          dsimp only
          split
          · exact spells_positional Nat.toDigits_ne_nil hdigits _
          · exact spells_scientific Nat.toDigits_ne_nil hdigits _
      show Spells ((if negative then "-" else "") ++ _)
      cases negative with
      | true => exact spells_append (by decide) hunits.2
      | false =>
          rw [if_neg Bool.false_ne_true, String.empty_append]
          exact hunits

end Word

end Conform
