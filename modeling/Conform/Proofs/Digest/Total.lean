/-
# `Proofs.Digest.Total` — what can be digested

A value has a token unless there is something in it that cannot be told: a number
or an array of fixed representation, an integer with too many digits, a pattern for
bytes, a callable without a token.  Everything else reduces to plain data in which
every dictionary has texts for its keys, and such data has a tree: its keys can be
put in order, and its atoms can be written.
-/
import Conform.Proofs.Digest.Sorted
import Conform.Proofs.Config.Building
import Conform.Proofs.Config.Throughout
import Conform.Proofs.Schema.Legible

namespace Conform

namespace Value

/-- Whether a digest can tell what a value is, apart from what it holds. -/
def canBeTold : Value → Bool
  | .int n => Number.isWritable n
  | .member m => m.hasLiteral
  | .pattern p => p.text?.isSome
  | .callable f => f.token.toOption.isSome
  | .scalar _ | .tensor _ => false
  | _ => true

/-- Whether everything in a value can be told. -/
def isDigestible (v : Value) : Bool := v.everywhere canBeTold

/-- The whole part of a double has few digits. -/
theorem isWritable_of_truncate {x : Binary64} {n : Int} (h : x.truncate? = some n) :
    Number.isWritable n = true := by
  cases x with
  | nan | infinite negative => cases h
  | finite negative m =>
      obtain ⟨units, hexact⟩ := m
      obtain rfl := Option.some.inj h
      have hlog : units.log2 < 2098 := of_decide_eq_true (Bool.and_eq_true_iff.mp hexact).1
      refine Number.isWritable_of_log2_lt (m := units) ?_ hlog (by decide)
      rw [Int.natAbs_tdiv]
      cases negative with
      | false => exact Nat.div_le_self _ _
      | true =>
          rw [if_pos rfl, Int.natAbs_neg]
          exact Nat.div_le_self _ _

theorem lenient_canBeTold : Lenient canBeTold where
  added v hadded := by
    cases v with
    | int n => exact eq_of_beq hadded ▸ rfl
    | _ => first | rfl | cases hadded
  count v n hint htold hn := by
    unfold isInteger at hint
    split at hint
    · exact Except.ok.inj hn ▸ htold
    · exact Except.ok.inj hn ▸ htold
    · cases htold
    · rename_i x
      cases x with
      | nan | infinite negative => cases hn
      | finite negative m =>
          obtain rfl := Except.ok.inj hn
          exact isWritable_of_truncate (x := .finite negative m) rfl
    · cases htold
    · cases htold
    · cases hint

/-- Plain data that has a tree. -/
def HasTree (c : Value) : Prop := ∃ t, StableText.tree c = .ok t

variable {c v : Value} {cs items : List Value} {es : Entries}

theorem HasTree.list (h : ∀ c ∈ cs, c.HasTree) : (Value.list cs).HasTree := by
  obtain ⟨ts, hts⟩ := exists_forall₂ h
  exact ⟨.list ts, by rw [StableText.tree, StableText.itemTrees_eq, mapM_eq_ok.mpr hts]; rfl⟩

/-- Texts as keys can be put in order. -/
theorem HasTree.dict (h : ∀ e ∈ es, (∃ s, e.1 = .str s) ∧ e.2.HasTree) :
    (Value.dict es).HasTree := by
  have hentries : ∀ e ∈ es, ∃ u : String × Tree,
      (e.1, StableText.tree e.2) = StableText.textEntry u := by
    intro e he
    obtain ⟨⟨s, hs⟩, t, ht⟩ := h e he
    exact ⟨(s, t), Prod.ext hs ht⟩
  obtain ⟨us, hus⟩ := exists_forall₂ hentries
  refine ⟨.object (us.mergeSort fun a b => textBelow a.1 b.1), ?_⟩
  rw [StableText.tree, StableText.entryTrees_eq, map_eq_of_forall₂ hus fun _ _ h => h,
    StableText.objectTree_texts]

theorem HasTree.tagged (name : String) (h : c.HasTree) : (tagged name c).HasTree :=
  .dict (List.forall_mem_singleton.mpr ⟨⟨name, rfl⟩, h⟩)

theorem HasTree.str (s : String) : (Value.str s).HasTree := ⟨_, rfl⟩

theorem HasTree.text (h : c.HasTree) : ∃ s, StableText.ofValue c = .ok s := by
  obtain ⟨t, ht⟩ := h
  exact ⟨t.render, by rw [StableText.ofValue_eq, ht]; rfl⟩

/-- The elements of a set are written as texts. -/
theorem canonicalSet_ok (hcs : canonicalItems items = .ok cs) (h : ∀ c ∈ cs, c.HasTree) :
    ∃ c, (Value.set items).canonical = .ok c ∧ c.HasTree := by
  obtain ⟨texts, htexts⟩ := exists_forall₂ fun c hc => (h c hc).text
  have hlist :
      (Value.list ((texts.mergeSort fun a b => compareTexts a b != .gt).map .str)).HasTree :=
    .list (List.forall_mem_map.mpr fun s _ => .str s)
  refine ⟨_, ?_, hlist.tagged "$set"⟩
  rw [canonical, hcs, ok_bind, mapM_eq_ok.mpr htexts]
  rfl

theorem Callable.token_ok {f : Callable} (h : (Value.callable f).isDigestible = true) :
    ∃ s, f.token = .ok s :=
  exists_eq_ok (of_everywhere h)

theorem HasTree.int {n : Int} (h : Number.isWritable n = true) : (Value.int n).HasTree :=
  ⟨_, StableText.intTree_ok h⟩

mutual

/-- What can be told at every depth can be written. -/
theorem hasLiteral_of_digestible : ∀ v : Value, v.isDigestible = true → v.hasLiteral = true
  | .list items, h =>
      haveLiterals_iff.mpr (haveLiterals_of_digestible items (everywhere_list.mp h).2)
  | .tuple items, h =>
      haveLiterals_iff.mpr (haveLiterals_of_digestible items (everywhere_tuple.mp h).2)
  | .set items, h =>
      haveLiterals_iff.mpr (haveLiterals_of_digestible items (everywhere_set.mp h).2)
  | .frozenset items, h =>
      haveLiterals_iff.mpr (haveLiterals_of_digestible items (everywhere_frozenset.mp h).2)
  | .dict entries, h =>
      entriesHaveLiterals_iff.mpr
        (entriesHaveLiterals_of_digestible entries (everywhere_dict.mp h).2)
  | .int _, h | .member _, h => of_everywhere h
  | .none, _ | .undefined, _ | .bool _, _ | .float _, _ | .str _, _ | .bytes _, _
  | .aliasKey _, _ | .pattern _, _ | .scalar _, _ | .tensor _, _ | .moment _, _ | .object _, _
  | .callable _, _ | .code _, _ | .schema _, _ => rfl
termination_by structural v => v

theorem haveLiterals_of_digestible :
    ∀ vs : List Value, (∀ v ∈ vs, v.isDigestible = true) → ∀ v ∈ vs, v.hasLiteral = true
  | [], _ => List.forall_mem_nil _
  | v :: rest, h => by
      rw [List.forall_mem_cons] at h ⊢
      exact ⟨hasLiteral_of_digestible v h.1, haveLiterals_of_digestible rest h.2⟩
termination_by structural vs => vs

theorem entriesHaveLiterals_of_digestible :
    ∀ es : List (Value × Value), (∀ e ∈ es, e.1.isDigestible = true ∧ e.2.isDigestible = true) →
      ∀ e ∈ es, e.1.hasLiteral = true ∧ e.2.hasLiteral = true
  | [], _ => List.forall_mem_nil _
  | (key, v) :: rest, h => by
      rw [List.forall_mem_cons] at h ⊢
      exact ⟨⟨hasLiteral_of_digestible key h.1.1, hasLiteral_of_digestible v h.1.2⟩,
        entriesHaveLiterals_of_digestible rest h.2⟩
termination_by structural es => es

end

mutual

/-- What can be digested reduces to plain data with a tree. -/
theorem canonical_ok : ∀ v : Value, v.isDigestible = true → ∃ c, v.canonical = .ok c ∧ c.HasTree
  | .list items, h => by
      obtain ⟨cs, hcs, htrees⟩ := canonicalItems_ok items (everywhere_list.mp h).2
      exact ⟨.list cs, by rw [canonical, hcs]; rfl, .list htrees⟩
  | .tuple items, h => by
      obtain ⟨cs, hcs, htrees⟩ := canonicalItems_ok items (everywhere_tuple.mp h).2
      exact ⟨.list cs, by rw [canonical, hcs]; rfl, .list htrees⟩
  | .set items, h => by
      obtain ⟨cs, hcs, htrees⟩ := canonicalItems_ok items (everywhere_set.mp h).2
      exact canonicalSet_ok hcs htrees
  | .frozenset items, h => by
      obtain ⟨cs, hcs, htrees⟩ := canonicalItems_ok items (everywhere_frozenset.mp h).2
      exact canonicalSet_ok hcs htrees
  | .dict entries, h => by
      obtain ⟨es, hes, htrees⟩ := canonicalEntries_ok entries (everywhere_dict.mp h).2
      have hkept := Entries.forall_ofList (P := fun k => ∃ s, k = .str s) (Q := HasTree) htrees
      exact ⟨_, by rw [canonical, hes]; rfl, .dict hkept⟩
  | .callable f, h => by
      obtain ⟨s, hs⟩ := Callable.token_ok h
      exact ⟨_, by rw [canonical, hs]; rfl, .tagged _ (.str s)⟩
  | .member ⟨family, name, content⟩, h => by
      cases content with
      | plain n =>
          have hliteral : Member.literal ⟨family, name, .plain n⟩ = .ok _ :=
            written_eq_ok.mpr ⟨of_everywhere h, rfl⟩
          exact ⟨_, by simp only [canonical, hliteral]; rfl, .tagged "$enum" (.str _)⟩
      | number n => exact ⟨_, rfl, _, StableText.intTree_ok (of_everywhere h)⟩
      | text s => exact ⟨_, rfl, _, rfl⟩
  | .schema s, _ => by
      refine ⟨_, rfl, ?_⟩
      split
      · exact .tagged _ (.str _)
      · exact .tagged _ (.str _)
  | .pattern p, h => by
      obtain ⟨s, hs⟩ := Option.isSome_iff_exists.mp (of_everywhere h)
      refine ⟨_, rfl, .dict ?_⟩
      rintro e (_ | ⟨_, _ | ⟨_, ⟨⟩⟩⟩)
      · rw [Pattern.source_of_text hs]
        exact ⟨⟨_, rfl⟩, .str s⟩
      · exact ⟨⟨_, rfl⟩, .int p.isWritable_flags⟩
  | .scalar s, h => by cases of_everywhere h
  | .tensor t, h => by cases of_everywhere h
  | .undefined, _ => ⟨_, rfl, .tagged _ ⟨_, rfl⟩⟩
  | .none, _ | .bool _, _ | .float _, _ | .str _, _ => ⟨_, rfl, _, rfl⟩
  | .int n, h => ⟨_, rfl, .int (of_everywhere h)⟩
  | .bytes _, _ | .aliasKey _, _ | .object _, _ | .moment _, _ | .code _, _ =>
      ⟨_, rfl, .tagged _ (.str _)⟩
termination_by structural v => v

theorem canonicalItems_ok : ∀ vs : List Value, (∀ v ∈ vs, v.isDigestible = true) →
    ∃ cs, canonicalItems vs = .ok cs ∧ ∀ c ∈ cs, c.HasTree
  | [], _ => ⟨[], rfl, List.forall_mem_nil _⟩
  | v :: rest, h => by
      obtain ⟨hv, hrest⟩ := List.forall_mem_cons.mp h
      obtain ⟨c, hc, htree⟩ := canonical_ok v hv
      obtain ⟨cs, hcs, htrees⟩ := canonicalItems_ok rest hrest
      exact ⟨c :: cs, by rw [canonicalItems, hc, hcs]; rfl,
        List.forall_mem_cons.mpr ⟨htree, htrees⟩⟩
termination_by structural vs => vs

theorem canonicalEntries_ok : ∀ es : List (Value × Value),
    (∀ e ∈ es, e.1.isDigestible = true ∧ e.2.isDigestible = true) →
    ∃ cs, canonicalEntries es = .ok cs ∧ ∀ e ∈ cs, (∃ s, e.1 = .str s) ∧ e.2.HasTree
  | [], _ => ⟨[], rfl, List.forall_mem_nil _⟩
  | (key, v) :: rest, h => by
      obtain ⟨hv, hrest⟩ := List.forall_mem_cons.mp h
      obtain ⟨c, hc, htree⟩ := canonical_ok v hv.2
      obtain ⟨cs, hcs, htrees⟩ := canonicalEntries_ok rest hrest
      have hkey := asText_ok (hasDisplay_of_hasLiteral (hasLiteral_of_digestible key hv.1))
      exact ⟨(.str key.textSpelling, c) :: cs, by rw [canonicalEntries, hkey, hc, hcs]; rfl,
        List.forall_mem_cons.mpr ⟨⟨⟨_, rfl⟩, htree⟩, htrees⟩⟩
termination_by structural es => es

end

/-- What can be digested has a token. -/
theorem token_of_digestible (h : v.isDigestible = true) : ∃ s, v.token = .ok s := by
  cases hcallable : v.isCallable with
  | true =>
      cases v with
      | callable f => exact Callable.token_ok h
      | _ => cases hcallable
  | false =>
      obtain ⟨c, hc, t, ht⟩ := canonical_ok v h
      exact ⟨t.render, Value.token_ok hcallable (by rw [outline, hc]; exact ht)⟩

end Value

/-- Attributes that can be digested have a digest. -/
theorem Attributes.hash_of_digestible {attrs : Attributes}
    (h : attrs.Everywhere Value.canBeTold) :
    ∃ hash, attrs.hash = .ok hash :=
  attrs.hash_ok fun e he => Value.token_of_digestible (h e he)

/-- A configuration whose options are those of a plan compiles to it, if the attributes
can be digested, one by one. -/
theorem Plan.compile_of_digestible {p : Plan} (config : Entries) (c : BuiltinController)
    (hresolve : Registry.builtin.resolve (typedEntries config).2 = some c.definition)
    (hkind : c.kind = p.demand.kind)
    (htyped : Options.typed (typedEntries config).1 = .ok p.common)
    (hdemand : p.demand.kind ≠ .typed →
      (Options.ofKind (compile .builtin) (typedEntries config).1 p.demand.kind).result
        = .ok p.demand.attributes)
    (h : p.attributes.all (·.2.isDigestible) = true) :
    ∃ hash, (compile .builtin (.dict config)
        (optional (fun b => .dict (markEntries (some b))) p.required)).result
      = .ok (.single (p.toInstance hash)) := by
  obtain ⟨hash, hhash⟩ := Attributes.hash_of_digestible (List.all_eq_true.mp h)
  exact ⟨hash, Plan.compile_eq_plan config c hresolve hkind htyped hdemand hhash⟩

end Conform
