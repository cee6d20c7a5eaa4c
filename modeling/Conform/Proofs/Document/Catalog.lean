/-
# `Proofs.Document.Catalog` — the names in a catalog

The keys of a document are values of any kind, and no two of them are equal
(`Document.read_apart`).  The names in a catalog are texts, namely what the keys are
written out as.  Writing out does not keep keys apart: one and the text of its digit
are two keys and one name.  Then the later entry takes the place of the earlier one,
whose schema is lost.  `loadCatalog_exact` says what becomes of a document in general,
and that nothing is lost exactly where no two keys are written out alike.
-/
import Mathlib.Data.List.Induction
import Conform.Document.Load
import Conform.Proofs.Digest.Total
import Conform.Proofs.Value.Reordered

namespace Conform

/-! ## The keys of a document -/

namespace Document

theorem collect_apart {pairs : List (Value × Value)} {es fs : Entries} (hes : es.KeysApart)
    (h : (Node.collect pairs es).run = .ok (some fs)) : fs.KeysApart := by
  induction pairs generalizing es with
  | nil =>
      obtain rfl := Option.some.inj (Except.ok.inj h)
      exact hes
  | cons x rest ih =>
      rw [Node.collect] at h
      split at h
      · exact ih (hes.put _ _) h
      · cases h

theorem run_bind_eq {α β : Type} {x : Content α} {f : α → Content β} {b : β}
    (h : (x >>= f).run = .ok (some b)) : ∃ a, x.run = .ok (some a) ∧ (f a).run = .ok (some b) := by
  rw [OptionT.run_bind] at h
  obtain ⟨a?, ha, h⟩ := bind_eq_ok.mp h
  cases a? with
  | none => cases h
  | some a => exact ⟨a, ha, h⟩

theorem scalar_ne_dict {text : String} {tag : Tag} {es : Entries} :
    Scalar.value? text tag ≠ .ok (some (.dict es)) := by
  intro h
  cases tag with
  | binary =>
      obtain ⟨bs, -, hbs⟩ := Option.map_eq_some_iff.mp (Except.ok.inj h)
      cases hbs
  | bool =>
      rw [Scalar.value?] at h
      split at h <;> cases h
  | int | float | timestamp =>
      simp only [Scalar.value?, bind_eq_ok, pure_eq_ok] at h
      obtain ⟨a, -, ha⟩ := h
      cases ha
  | _ => cases h

theorem valueWithin_apart {n : Nat} {node : Node} {es : Entries}
    (h : (node.valueWithin n).run = .ok (some (.dict es))) : es.KeysApart := by
  cases n with
  | zero => cases h
  | succ n =>
      unfold Node.valueWithin at h
      split at h
      · cases h
      · exact absurd h scalar_ne_dict
      · obtain ⟨_, -, h⟩ := run_bind_eq h
        cases h
      · obtain ⟨_, -, h⟩ := run_bind_eq h
        cases h
      · dsimp only at h
        split at h
        · obtain ⟨_, hfailure, -⟩ := run_bind_eq h
          cases hfailure
        · split at h
          · obtain ⟨pairs, -, h⟩ := run_bind_eq h
            obtain ⟨fs, hfs, h⟩ := run_bind_eq h
            have hempty : Entries.KeysApart [] := List.Pairwise.nil
            have heq := Option.some.inj (Except.ok.inj h)
            split at heq
            · cases heq
            · exact Value.dict.inj heq ▸ collect_apart hempty hfs
          · cases h
      · cases h

theorem read_apart {file : String} {text : Option String} {es : Entries}
    (h : read file text = .ok (.dict es)) : es.KeysApart := by
  unfold read at h
  split at h
  · split at h
    · cases h
    · obtain rfl := Value.dict.inj (Except.ok.inj h)
      exact .nil
    · obtain ⟨v?, hv, h⟩ := bind_eq_ok.mp h
      split at h
      · cases h
      · obtain rfl := Value.dict.inj (Except.ok.inj h)
        exact .nil
      · obtain rfl := Except.ok.inj h
        exact valueWithin_apart (lift_eq_ok.mp hv)
  · cases h

end Document

/-! ## Entering schemas by name -/

namespace Registry

variable {name other : String} {s : Schema} {catalog named : List (String × Schema)}

theorem names_enterSchema : (enterSchema name s catalog).map (·.1)
    = if name ∈ catalog.map (·.1) then catalog.map (·.1) else catalog.map (·.1) ++ [name] := by
  induction catalog with
  | nil => rfl
  | cons e rest ih =>
      obtain ⟨n, t⟩ := e
      rw [enterSchema, List.map_cons]
      by_cases hn : n = name
      · rw [if_pos hn, if_pos (hn ▸ List.mem_cons_self), List.map_cons]
      · rw [if_neg hn, List.map_cons, ih]
        by_cases hmem : name ∈ rest.map (·.1)
        · rw [if_pos hmem, if_pos (List.mem_cons_of_mem _ hmem)]
        · rw [if_neg hmem, if_neg (List.not_mem_cons_of_ne_of_not_mem (Ne.symm hn) hmem),
            List.cons_append]

theorem lookup_cons_eq {rest : List (String × Schema)} :
    List.lookup other ((name, s) :: rest) = if other = name then some s else rest.lookup other := by
  rw [List.lookup_cons]
  by_cases h : other = name
  · rw [if_pos h, beq_iff_eq.mpr h]
  · rw [if_neg h, beq_eq_false_iff_ne.mpr h]

theorem lookup_enterSchema : (enterSchema name s catalog).lookup other
    = if other = name then some s else catalog.lookup other := by
  induction catalog with
  | nil => exact lookup_cons_eq
  | cons e rest ih =>
      obtain ⟨n, t⟩ := e
      rw [enterSchema]
      by_cases hn : n = name
      · subst hn
        rw [if_pos rfl, lookup_cons_eq, lookup_cons_eq]
        split <;> rfl
      · rw [if_neg hn, lookup_cons_eq, lookup_cons_eq, ih]
        by_cases hother : other = n
        · rw [if_pos hother, if_pos hother, if_neg (hother ▸ hn)]
        · rw [if_neg hother, if_neg hother]

/-- The schemas under their names, the last of each name in the place of the first. -/
def catalogOf (named : List (String × Schema)) : List (String × Schema) :=
  named.foldl (fun catalog e => enterSchema e.1 e.2 catalog) []

theorem catalogOf_append {e : String × Schema} :
    catalogOf (named ++ [e]) = enterSchema e.1 e.2 (catalogOf named) := by
  rw [catalogOf, List.foldl_append]
  rfl

/-- The names of a catalog, in the order in which they first occur. -/
theorem names_catalogOf : (catalogOf named).map (·.1) = (named.map (·.1)).eraseDups := by
  induction named using List.reverseRecOn with
  | nil => rfl
  | append_singleton named e ih =>
      rw [catalogOf_append, names_enterSchema, ih, List.map_append, List.eraseDups_append]
      by_cases hmem : e.1 ∈ named.map (·.1)
      · rw [if_pos (List.mem_eraseDups.mpr hmem)]
        simp [List.removeAll, hmem]
      · rw [if_neg (mt List.mem_eraseDups.mp hmem)]
        simp [List.removeAll, hmem, List.eraseDups_cons]

theorem nodup_catalogOf : ((catalogOf named).map (·.1)).Nodup := by
  induction named using List.reverseRecOn with
  | nil => exact .nil
  | append_singleton named e ih =>
      rw [catalogOf_append, names_enterSchema]
      split
      · exact ih
      · rename_i hmem
        rw [List.nodup_append_comm, List.singleton_append, List.nodup_cons]
        exact ⟨hmem, ih⟩

/-- What a catalog has under a name is what came last. -/
theorem lookup_catalogOf : (catalogOf named).lookup name = named.reverse.lookup name := by
  induction named using List.reverseRecOn with
  | nil => rfl
  | append_singleton named e ih =>
      rw [catalogOf_append, lookup_enterSchema, ih, List.reverse_append]
      exact lookup_cons_eq.symm

theorem enterSchema_of_not_mem (h : name ∉ catalog.map (·.1)) :
    enterSchema name s catalog = catalog ++ [(name, s)] := by
  induction catalog with
  | nil => rfl
  | cons e rest ih =>
      obtain ⟨n, t⟩ := e
      have hne : n ≠ name := fun heq => h (heq ▸ List.mem_cons_self)
      rw [enterSchema, if_neg hne, ih fun hmem => h (List.mem_cons_of_mem _ hmem),
        List.cons_append]

/-- Nothing is lost exactly if no name occurs twice. -/
theorem catalogOf_eq_iff : catalogOf named = named ↔ (named.map (·.1)).Nodup := by
  constructor
  · intro h
    rw [← h]
    exact nodup_catalogOf
  · intro h
    induction named using List.reverseRecOn with
    | nil => rfl
    | append_singleton named e ih =>
        rw [List.map_append, List.map_singleton, List.nodup_append_comm, List.singleton_append,
          List.nodup_cons] at h
        rw [catalogOf_append, ih h.2, enterSchema_of_not_mem h.1]

/-! ## Loading a catalog -/

variable {r : Registry} {file : String} {text : Option String} {entries : Entries}

/-- The names that the keys of a document become, with the schemas that its entries
compile to. -/
def CompilesTo (r : Registry) : Entries → List (String × Schema) → Prop :=
  List.Forall₂ fun e n => e.1.asText = .ok n.1 ∧
    ∃ c, Document.compilePatterns n.1 e.2 = .ok c ∧ r.compile c .none = .ok n.2

theorem foldlM_catalog (hcompile : r.CompilesTo entries named)
    (catalog : List (String × Schema)) :
    entries.foldlM (fun catalog (key, v) => do
        let name ← key.asText
        let s ← r.compile (← Document.compilePatterns name v) .none
        return enterSchema name s catalog) catalog
      = (.ok (named.foldl (fun catalog e => enterSchema e.1 e.2 catalog) catalog) :
          Outcome (List (String × Schema))) := by
  induction hcompile generalizing catalog with
  | nil => rfl
  | cons hhead _ ih =>
      obtain ⟨hname, c, hc, hs⟩ := hhead
      rw [List.foldlM_cons]
      dsimp only
      rw [hname, lift_ok, ok_bind, hc, ok_bind, hs, ok_bind]
      exact ih _

theorem loadCatalog_eq (hread : Document.read file text = .ok (.dict entries))
    (hcompile : r.CompilesTo entries named) :
    r.loadCatalog file text = .ok (catalogOf named) := by
  rw [loadCatalog, hread, ok_bind]
  exact foldlM_catalog hcompile []

/-- Texts are written out as they are, so that none of them is written out like another. -/
theorem nodup_names (h : entries.KeysApart) (hcompile : r.CompilesTo entries named)
    (htexts : ∀ e ∈ entries, ∃ name, e.1 = .str name) : (named.map (·.1)).Nodup := by
  have hkeys : List.Forall₂ (fun (e : Value × Value) n => e.1 = .str n.1) entries named := by
    refine forall₂_imp (fun e he n _ hn => ?_) hcompile
    obtain ⟨name, hname⟩ := htexts e he
    rw [hname] at hn ⊢
    exact congrArg _ (Except.ok.inj hn.1)
  refine List.pairwise_map.mpr (forall₂_pairwise ?_ hkeys (List.pairwise_map.mp h))
  intro d e m n hapart hd he hsame
  rw [hd, he, Value.sameKey_str.mpr hsame] at hapart
  cases hapart

/-- **A catalog has a schema for each name.**  If all keys of a document can be written
out and all its entries compile, its catalog has the names that the keys are written out
as, in the order in which they first occur, each with the schema of the last entry of
that name.  This is an entry for each key, in order, with its own schema, exactly if no
two keys are written out alike; and so it is if all keys are texts. -/
theorem loadCatalog_exact (hread : Document.read file text = .ok (.dict entries))
    (hcompile : r.CompilesTo entries named) :
    ∃ catalog, r.loadCatalog file text = .ok catalog ∧
      catalog.map (·.1) = (named.map (·.1)).eraseDups ∧
      (∀ name, catalog.lookup name = named.reverse.lookup name) ∧
      (catalog = named ↔ (named.map (·.1)).Nodup) ∧
      ((∀ e ∈ entries, ∃ name, e.1 = .str name) → catalog = named) := by
  refine ⟨_, loadCatalog_eq hread hcompile, names_catalogOf, fun name => lookup_catalogOf,
    catalogOf_eq_iff, fun htexts => ?_⟩
  exact catalogOf_eq_iff.mpr (nodup_names (Document.read_apart hread) hcompile htexts)

/-! ## Two entries -/

/-- A document that gives two names a type each. -/
def typesUnder (key key' : Value) : Entries :=
  [(key, .dict [(.str "type", .str "string")]), (key', .dict [(.str "type", .str "number")])]

/-- Whether two keys are the same text, or the same integer. -/
def isSameKey : Value → Value → Bool
  | .str a, .str b => a == b
  | .int a, .int b => a == b
  | _, _ => false

theorem eq_of_isSameKey {k l : Value} (h : isSameKey k l = true) : k = l := by
  unfold isSameKey at h
  split at h
  · rw [eq_of_beq h]
  · rw [eq_of_beq h]
  · cases h

/-- Whether a value is such a document. -/
def isTypesUnder (key key' : Value) : Value → Bool
  | .dict [(k, .dict [(.str a, .str b)]), (k', .dict [(.str c, .str d)])] =>
      isSameKey k key && isSameKey k' key' &&
        decide ([a, b, c, d] = ["type", "string", "type", "number"])
  | _ => false

theorem read_typesUnder {key key' : Value}
    (h : (Document.read file text).toOption.any (isTypesUnder key key') = true) :
    Document.read file text = .ok (.dict (typesUnder key key')) := by
  obtain ⟨v, hv, hshape⟩ := exists_ok h
  rw [hv]
  unfold isTypesUnder at hshape
  split at hshape
  · rename_i k a b k' c d
    rw [Bool.and_eq_true, Bool.and_eq_true, decide_eq_true_iff] at hshape
    obtain ⟨⟨hk, hk'⟩, hnames⟩ := hshape
    obtain rfl := eq_of_isSameKey hk
    obtain rfl := eq_of_isSameKey hk'
    simp only [List.cons.injEq, and_true] at hnames
    obtain ⟨rfl, rfl, rfl, rfl⟩ := hnames
    rfl
  · cases hshape

theorem compilesTo_typesUnder {key key' : Value} {name name' : String}
    (hkey : key.asText = .ok name) (hkey' : key'.asText = .ok name') : ∃ s t : Instance,
    builtin.CompilesTo (typesUnder key key') [(name, .single s), (name', .single t)] ∧
      s.controller = "string" ∧ t.controller = "number" := by
  obtain ⟨hash, hs⟩ := Plan.compile_of_digestible
    (p := .plain (.str "string") (.string none 0 none) none)
    [(.str "type", .str "string")] builtinControllers[7] rfl rfl rfl (fun _ => rfl) rfl
  obtain ⟨hash', ht⟩ := Plan.compile_of_digestible
    (p := .plain (.str "number") (.number false false false none none) none)
    [(.str "type", .str "number")] builtinControllers[4] rfl rfl rfl (fun _ => rfl) rfl
  exact ⟨_, _, .cons ⟨hkey, _, rfl, hs⟩ (.cons ⟨hkey', _, rfl, ht⟩ .nil), rfl, rfl⟩

/-- Two texts keep their order, although it is not that of the alphabet. -/
theorem loadCatalog_exact_texts : ∃ s t : Instance,
    builtin.loadCatalog "schema.yaml" (some "b:\n  type: string\na:\n  type: number\n")
      = .ok [("b", .single s), ("a", .single t)] := by
  obtain ⟨s, t, hcompile, -⟩ := compilesTo_typesUnder
    (rfl : (Value.str "b").asText = .ok "b") (rfl : (Value.str "a").asText = .ok "a")
  have hread : Document.read "schema.yaml" (some "b:\n  type: string\na:\n  type: number\n")
      = .ok (.dict (typesUnder (.str "b") (.str "a"))) := read_typesUnder (by decide +kernel)
  obtain ⟨catalog, hload, -, -, -, htexts⟩ := loadCatalog_exact hread hcompile
  refine ⟨s, t, hload.trans (congrArg Except.ok (htexts ?_))⟩
  exact List.forall_mem_cons.mpr ⟨⟨_, rfl⟩, List.forall_mem_singleton.mpr ⟨_, rfl⟩⟩

/-- The number one and the text of its digit are two keys and one name. -/
theorem loadCatalog_collides : ∃ s t : Instance,
    Document.read "schema.yaml" (some "1:\n  type: string\n\"1\":\n  type: number\n")
        = .ok (.dict (typesUnder (.int 1) (.str "1"))) ∧
      builtin.CompilesTo (typesUnder (.int 1) (.str "1")) [("1", .single s), ("1", .single t)] ∧
      builtin.loadCatalog "schema.yaml" (some "1:\n  type: string\n\"1\":\n  type: number\n")
        = .ok [("1", .single t)] := by
  have hkey : (Value.int 1).asText = .ok "1" := by decide +kernel
  obtain ⟨s, t, hcompile, -⟩ := compilesTo_typesUnder hkey
    (rfl : (Value.str "1").asText = .ok "1")
  have hread : Document.read "schema.yaml" (some "1:\n  type: string\n\"1\":\n  type: number\n")
      = .ok (.dict (typesUnder (.int 1) (.str "1"))) := read_typesUnder (by decide +kernel)
  exact ⟨s, t, hread, hcompile, loadCatalog_eq hread hcompile⟩

end Registry

end Conform
