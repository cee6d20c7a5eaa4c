/-
# `Proofs.Schema.Tokens` — the tokens of a plan's attributes

What the attributes of a compiled schema look like in a digest: the schemas
inside stand as their digests, the properties in the order of their keys as
texts.
-/
import Conform.Proofs.Digest.Sorted
import Conform.Proofs.Config.Building

namespace Conform

/-! ## Entries under different keys -/

namespace Entries

theorem put_fresh {key v : Value} {es : Entries} (h : ∀ e ∈ es, Value.sameKey e.1 key = false) :
    es.put key v = es ++ [(key, v)] := by
  induction es with
  | nil => rfl
  | cons e rest ih =>
      obtain ⟨k, w⟩ := e
      have hk := h (k, w) List.mem_cons_self
      rw [put, hk, if_neg Bool.false_ne_true, ih fun e he => h e (List.mem_cons_of_mem _ he)]
      rfl

theorem update_fresh {more es : Entries}
    (h : (es ++ more).Pairwise fun a b => Value.sameKey a.1 b.1 = false) :
    es.update more = es ++ more := by
  induction more generalizing es with
  | nil =>
      rw [List.append_nil]
      rfl
  | cons e rest ih =>
      have hput : es.put e.1 e.2 = es ++ [e] :=
        put_fresh fun u hu => (List.pairwise_append.mp h).2.2 u hu e List.mem_cons_self
      have hrest : (es ++ [e]).update rest = es ++ [e] ++ rest := ih (by simpa using h)
      rw [List.append_assoc] at hrest
      show List.foldl _ (es.put e.1 e.2) rest = _
      rw [hput]
      exact hrest

/-- Entries under different keys are those of a dictionary. -/
theorem ofList_eq {es : Entries} (h : es.Pairwise fun a b => Value.sameKey a.1 b.1 = false) :
    ofList es = es := update_fresh h

end Entries

/-! ## Schemas -/

/-- A plan can be asked, so its token is its digest. -/
theorem Plan.answers (p : Plan) (hash : String) :
    (Schema.single (p.toInstance hash)).answers = true := by
  have herror := p.lookup_eq_none (by decide : "error" ∉ Plan.attributeNames)
  simp only [Schema.answers, Plan.toInstance, herror]

theorem Schema.Compiled.answers {t : Schema} (h : t.Compiled) : t.answers = true := by
  cases h with
  | single p hash => exact p.answers hash
  | multi => rfl

/-- The outline of a schema. -/
def Schema.mark (t : Schema) : Tree := .object [("$schema", .text t.hash)]

theorem Schema.mark_inj {t u : Schema} (h : t.mark = u.mark) : t.hash = u.hash := by
  simpa [mark] using h

/-! ## Properties -/

namespace Value

section properties

variable {props : List (Value × Schema)}

theorem canonicalEntries_schemas (h : ∀ e ∈ props, e.2.answers = true)
    (hwritten : ∀ e ∈ props, e.1.hasDisplay = true) :
    canonicalEntries (Demand.entries props)
      = .ok (props.map fun e => (.str e.1.textSpelling, tagged "$schema" (.str e.2.hash))) := by
  induction props with
  | nil => rfl
  | cons e rest ih =>
      rw [List.forall_mem_cons] at h hwritten
      have hrest := ih h.2 hwritten.2
      rw [Demand.entries] at hrest
      rw [Demand.entries, List.map_cons, canonicalEntries, asText_ok hwritten.1, hrest, canonical,
        if_pos h.1]
      rfl

/-- Entries under different texts, whatever is kept in them. -/
theorem ofList_texts (f : Value × Schema → Value)
    (hkeys : (props.map fun e => e.1.textSpelling).Nodup) :
    Entries.ofList (props.map fun e => (.str e.1.textSpelling, f e))
      = props.map fun e => (.str e.1.textSpelling, f e) := by
  refine Entries.ofList_eq ?_
  rw [List.pairwise_map]
  exact (List.pairwise_map.mp hkeys).imp sameKey_str_ne

theorem entryTrees_schemas :
    StableText.entryTrees
        (props.map fun e => (.str e.1.textSpelling, tagged "$schema" (.str e.2.hash)))
      = (props.map fun e => (e.1.textSpelling, e.2.mark)).map StableText.textEntry := by
  rw [StableText.entryTrees_eq, List.map_map, List.map_map]
  exact List.map_congr_left fun e _ => congrArg _ (tree_tagged ..)

/-- Properties appear under their keys as texts. -/
theorem outline_properties (props : List (Value × Schema))
    (hanswers : ∀ e ∈ props, e.2.answers = true) (hwritten : ∀ e ∈ props, e.1.hasDisplay = true)
    (hkeys : (props.map fun e => e.1.textSpelling).Nodup) :
    ∃ sorted : List (String × Tree),
      (Value.dict (Demand.entries props)).outline = .ok (.object sorted) ∧
        sorted.Perm (props.map fun e => (e.1.textSpelling, e.2.mark)) := by
  refine ⟨_, ?_, List.mergeSort_perm _ fun a b => textBelow a.1 b.1⟩
  rw [outline, canonical, canonicalEntries_schemas hanswers hwritten, ok_bind, pure_eq, ok_bind,
    StableText.tree, ofList_texts _ hkeys, entryTrees_schemas, StableText.objectTree_texts]

end properties

end Value

/-! ## Digests -/

/-- The attributes of a plan are digested in the order of their names. -/
theorem Plan.sortedPublic_eq {p : Plan} {attrs : Attributes} (hperm : attrs.Perm p.attributes)
    (hsorted : (attrs.map (·.1)).Pairwise fun s t => textBelow s t = true) :
    p.attributes.sortedPublic = attrs := by
  exact Attributes.sortedPublic_eq p.names_nodup
    (fun e he => isPublic_of_mem_attributeNames e.1 (p.names_subset (List.mem_map_of_mem he)))
    hperm hsorted

/-- A plan has a digest when what is given in it has a token. -/
theorem Plan.hash_ok {p : Plan}
    (henum : ∀ items, p.enum = some items → ∃ token, (Value.tuple items).token = .ok token)
    (htransform : p.transform = none) (hvalidator : p.validator = none)
    (hdefault : ∃ token, p.default.token = .ok token) (htype : ∃ token, p.type.token = .ok token)
    (hdemand : ∀ e ∈ p.demand.attributes, ∃ token, e.2.token = .ok token) :
    ∃ hash, p.attributes.hash = .ok hash := by
  have none : ∃ token, Value.none.token = .ok token := ⟨_, Value.token_ok rfl rfl⟩
  have flag : ∀ b, ∃ token, (Value.bool b).token = .ok token := fun b =>
    ⟨_, Value.token_ok rfl rfl⟩
  refine Attributes.hash_ok fun e he => ?_
  rcases List.mem_append.mp he with he | he
  · rcases List.mem_append.mp he with he | he
    · simp only [Plan.common, htransform, hvalidator, List.mem_cons, List.not_mem_nil,
        or_false] at he
      rcases he with rfl | rfl | rfl | rfl | rfl | rfl
      · exact hdefault
      · cases hitems : p.enum with
        | none => exact none
        | some items => exact henum items hitems
      · exact flag _
      · exact none
      · exact htype
      · exact none
    · exact hdemand e he
  · obtain ⟨b, -, rfl⟩ := List.mem_map.mp he
    exact flag b

theorem Plan.hash_ok_of_unlisted {p : Plan} (henum : p.enum = none) (htransform : p.transform = none)
    (hvalidator : p.validator = none) (hdefault : ∃ token, p.default.token = .ok token)
    (htype : ∃ token, p.type.token = .ok token)
    (hdemand : ∀ e ∈ p.demand.attributes, ∃ token, e.2.token = .ok token) :
    ∃ hash, p.attributes.hash = .ok hash := by
  refine p.hash_ok (fun items hitems => ?_) htransform hvalidator hdefault htype hdemand
  rw [henum] at hitems
  cases hitems

end Conform
