/-
# `Proofs.Schema.Faithful` — digests that keep what the checks read

Alternatives are told apart by their digests.  `Faithful` says which values must
not be confused for schemas with one digest to decide alike: those that a check
could tell apart.  Schemas of plain data are faithful, because plain data can be
read back from a digest; what is assumed then is about digests and callables
alone.
-/
import Conform.Proofs.Digest.Plain
import Conform.Proofs.Schema.Inside

namespace Conform

namespace Schema

/-- One of some schemas, or inside one. -/
def Among (ss : List Instance) (u : Schema) : Prop := ∃ s ∈ ss, (Schema.single s).Inside u

/-- The text that the digest of a schema is taken of. -/
def digested : Schema → Except Fault String
  | .single s => Attributes.digested s.attributes
  | .multi members => return String.join (members.map Instance.hash)

/-- A value is an attribute of schemas under a name. -/
def Records (ss : List Instance) (name : String) (v : Value) : Prop :=
  ∃ t, Among ss (.single t) ∧ t.attributes.lookup name = some v

/-- Texts, callables and patterns are known by what stands for them. -/
structure Named (ss : List Instance) : Prop where
  /-- The digests of different texts are different. -/
  digest : ∀ u w, Among ss u → Among ss w → ∀ x y, u.digested = .ok x → w.digested = .ok y →
    Sha256.hexDigest x = Sha256.hexDigest y → x = y
  /-- A callable does not go by a name that reads like attributes. -/
  token : ∀ name f, Records ss name (.callable f) → ∀ token, f.token = .ok token →
    IsClear Plan.attributeNames token ∧ token ≠ "null"
  /-- Validators with one token do the same. -/
  validator : ∀ f g, Records ss "validator" (.callable f) → Records ss "validator" (.callable g) →
    f.token = g.token → ∀ v, f.apply v = g.apply v
  /-- A pattern is known by its source and its mode. -/
  pattern : ∀ p q, Records ss "pattern" (.pattern p) → Records ss "pattern" (.pattern q) →
    p.source = q.source → p.mode = q.mode → p = q

/-- What is confused in the digests of some schemas makes no difference to their
checks. -/
structure Faithful (ss : List Instance) : Prop extends Named ss where
  /-- Listed values with one text are strictly equal to the same values. -/
  enum : ∀ xs ys, Records ss "enum" (.tuple xs) → Records ss "enum" (.tuple ys) →
    ∀ x ∈ xs, ∀ y ∈ ys, x.SameText y → ∀ v, Value.strictEqual x v = Value.strictEqual y v
  /-- Listed values with one text can both be shown in a message, or neither. -/
  shown : ∀ xs ys, Records ss "enum" (.tuple xs) → Records ss "enum" (.tuple ys) →
    ∀ x ∈ xs, ∀ y ∈ ys, x.SameText y → x.hasLiteral = y.hasLiteral
  /-- Bounds with one text compare to every number in the same way. -/
  bound : ∀ name a b, Records ss name a → Records ss name b → a.isReal = true → b.isReal = true →
    a.SameText b → ∀ c (v : Value), v.isReal = true → v.holds c a = v.holds c b
  /-- The keys of an object are apart, and so are their texts. -/
  apart : ∀ es, Records ss "properties" (.dict es) →
    es.Pairwise fun a b => Value.sameKey a.1 b.1 = false ∧
      a.1.textSpelling ≠ b.1.textSpelling
  /-- Keys with one text are one key. -/
  key : ∀ es fs, Records ss "properties" (.dict es) → Records ss "properties" (.dict fs) →
    ∀ a ∈ es, ∀ b ∈ fs, a.1.textSpelling = b.1.textSpelling →
      ∀ k, Value.sameKey a.1 k = Value.sameKey b.1 k

end Schema

/-! ## Plain data -/

namespace Value

/-- Plain values without dictionaries. -/
inductive IsListed (F : Binary64 → Prop) : Value → Prop
  | none : IsListed F .none
  | bool (b : Bool) : IsListed F (.bool b)
  | int {n : Int} (hn : Number.isWritable n = true) : IsListed F (.int n)
  | float {x : Binary64} (hx : F x) : IsListed F (.float x)
  | str (s : String) : IsListed F (.str s)
  | list {items : List Value} (hitems : ∀ v ∈ items, IsListed F v) : IsListed F (.list items)

variable {F : Binary64 → Prop} {v w : Value}

theorem IsListed.isPlain (h : v.IsListed F) : v.IsPlain F := by
  induction h with
  | none => exact .none
  | bool b => exact .bool b
  | int hn => exact .int hn
  | float hx => exact .float hx
  | str s => exact .str s
  | list _ ih => exact .list ih

/-- Without dictionaries there is no order to disregard. -/
theorem IsListed.eq_of_same (h : v.IsListed F) (hsame : Same v w) : v = w := by
  induction h generalizing w with
  | none | bool _ | int _ | float _ | str _ =>
      cases hsame
      rfl
  | list _ ih =>
      cases hsame with
      | list hitems =>
          have heq := forall₂_imp (fun x hx _ _ hxy => ih x hx hxy) hitems
          rw [List.forall₂_eq_eq_eq] at heq
          rw [heq]

/-- So such values are read back from their texts. -/
theorem IsListed.eq_of_sameText (hF : AreWritten F) (hv : v.IsListed F) (hw : w.IsListed F)
    (h : v.SameText w) : v = w := by
  obtain ⟨t, hvt, hwt⟩ := sameText_iff.mp h
  exact hv.eq_of_same (hv.isPlain.same hF hw.isPlain hvt hwt)

end Value

namespace Schema

/-- Schemas of plain data: what is listed and what bounds a number is read back
from a digest, and properties go by texts. -/
structure ArePlain (F : Binary64 → Prop) (ss : List Instance) : Prop where
  enum : ∀ xs, Records ss "enum" (.tuple xs) → ∀ x ∈ xs, x.IsListed F
  bound : ∀ name a, Records ss name a → a.isReal = true → a.IsListed F
  apart : ∀ es, Records ss "properties" (.dict es) → (es.map (·.1)).Nodup
  key : ∀ es, Records ss "properties" (.dict es) → ∀ e ∈ es, ∃ s, e.1 = .str s

/-- Digests of plain data are faithful. -/
theorem ArePlain.faithful {F : Binary64 → Prop} {ss : List Instance} (hF : AreWritten F)
    (h : ArePlain F ss) (hnamed : Named ss) : Faithful ss where
  toNamed := hnamed
  enum xs ys hxs hys x hx y hy hxy v := by
    rw [(h.enum xs hxs x hx).eq_of_sameText hF (h.enum ys hys y hy) hxy]
  shown xs ys hxs hys x hx y hy hxy := by
    rw [(h.enum xs hxs x hx).eq_of_sameText hF (h.enum ys hys y hy) hxy]
  bound name a b ha hb har hbr hab c v _ := by
    rw [(h.bound name a ha har).eq_of_sameText hF (h.bound name b hb hbr) hab]
  apart es hes := by
    have hdistinct := List.pairwise_map.mp (h.apart es hes)
    refine hdistinct.imp_of_mem fun {a b} ha hb hne => ?_
    obtain ⟨s, hs⟩ := h.key es hes a ha
    obtain ⟨t, ht⟩ := h.key es hes b hb
    rw [hs, ht] at hne ⊢
    have hst : s ≠ t := fun heq => hne (heq ▸ rfl)
    exact ⟨Value.sameKey_str_ne hst, hst⟩
  key es fs hes hfs a ha b hb htext k := by
    obtain ⟨s, hs⟩ := h.key es hes a ha
    obtain ⟨t, ht⟩ := h.key fs hfs b hb
    rw [hs, ht] at htext ⊢
    have hst : s = t := htext
    rw [hst]

end Schema

end Conform
