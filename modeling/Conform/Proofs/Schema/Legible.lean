/-
# `Proofs.Schema.Legible` — what a digest says about the words of refusals

A digest is taken of the tokens of all attributes, and a token writes down the
integers in a value.  So what a plan with a digest is refused for can be put
in words: the bounds and names that refusals show can be written, and the
pattern is one for texts.
-/
import Conform.Proofs.Outcome
import Conform.Proofs.Schema.Plan
import Conform.Proofs.Value.Written

namespace Conform

/-- What takes part in a digest has a token. -/
theorem Attributes.token_of_hash {attrs : Attributes} {hash : String} (h : attrs.hash = .ok hash)
    {name : String} {v : Value} (hv : (name, v) ∈ attrs) (hpublic : isPublic name = true) :
    ∃ token, v.token = .ok token := by
  simp only [Attributes.hash, lines, bind_eq_ok] at h
  obtain ⟨_, hlines, -⟩ := h
  have hmem : (name, v) ∈ attrs.sortedPublic :=
    List.mem_mergeSort.mpr (List.mem_filter.mpr ⟨hv, hpublic⟩)
  obtain ⟨_, -, hline⟩ := forall₂_mem_left (mapM_eq_ok.mp hlines) hmem
  simp only [line, bind_eq_ok] at hline
  obtain ⟨token, htoken, -⟩ := hline
  exact ⟨token, htoken⟩

theorem Pattern.source_of_text {p : Pattern} {s : String} (h : p.text? = some s) :
    p.source = .text s := by
  unfold text? at h
  split at h
  · rename_i hsource
    rw [hsource, Option.some.inj h]
  · cases h

/-! ## Tokens that are there -/

/-- An object can be written only if the values of its entries can be. -/
theorem StableText.object_ok {entries : List (Value × Except Fault String)} {s : String}
    (h : object entries = .ok s) {e : Value × Except Fault String} (he : e ∈ entries) :
    ∃ t, e.2 = .ok t := by
  rw [object] at h
  split at h
  · simp only [bind_eq_ok] at h
    obtain ⟨_, hparts, -⟩ := h
    obtain ⟨_, -, hpart⟩ := forall₂_mem_left (mapM_eq_ok.mp hparts) (List.mem_mergeSort.mpr he)
    simp only [bind_eq_ok] at hpart
    obtain ⟨_, -, t, ht, -⟩ := hpart
    exact ⟨t, ht⟩
  · cases h

namespace Value

variable {v : Value} {token : String}

/-- A number with a token can stand in running text. -/
theorem hasDisplay_of_token (hv : v.isReal = true) (h : v.token = .ok token) :
    v.hasDisplay = true := by
  unfold isReal at hv
  split at hv
  · exact (written_eq_ok.mp h).1
  · rfl
  · exact (written_eq_ok.mp h).1
  all_goals first | rfl | cases hv

/-- A pattern with a token is one for texts. -/
theorem text_of_token {p : Pattern} (h : (pattern p).token = .ok token) : ∃ s, p.text? = some s := by
  obtain ⟨source, mode, node⟩ := p
  cases source with
  | text s => exact ⟨s, rfl⟩
  | bytes bs locale =>
      -- bytes are no plain data, so the entry for the source has no text
      have hobject : StableText.object
          [(.str "$pattern", .error .typeMismatch), (.str "flags", Number.text _)] = .ok token := h
      obtain ⟨_, ht⟩ := StableText.object_ok hobject List.mem_cons_self
      cases ht

/-- In plain data, entries stand under the texts of their keys. -/
theorem canonicalEntries_eq_ok {es cs : Entries} :
    canonicalEntries es = .ok cs ↔
      List.Forall₂ (fun e c => (∃ text, e.1.asText = .ok text ∧ c.1 = .str text) ∧
        e.2.canonical = .ok c.2) es cs := by
  induction es generalizing cs with
  | nil => cases cs <;> simp [canonicalEntries]
  | cons e rest ih =>
      simp only [canonicalEntries, bind_eq_ok, pure_eq_ok, ih]
      constructor
      · rintro ⟨text, htext, c, hc, cs, hcs, rfl⟩
        exact .cons ⟨⟨text, htext, rfl⟩, hc⟩ hcs
      · intro h
        cases h with
        | @cons _ c _ cs hc hcs =>
            obtain ⟨⟨text, htext, hkey⟩, hvalue⟩ := hc
            exact ⟨text, htext, c.2, hvalue, cs, hcs, by rw [← hkey]⟩

/-- The keys of a dictionary with a token can stand in running text. -/
theorem hasDisplay_key_of_token {entries : Entries} (h : (dict entries).token = .ok token)
    {k w : Value} (hk : (k, w) ∈ entries) : k.hasDisplay = true := by
  simp only [Value.token, canonical, bind_eq_ok] at h
  obtain ⟨_, ⟨cs, hcs, -⟩, -⟩ := h
  obtain ⟨_, -, ⟨_, hkey, -⟩, -⟩ := forall₂_mem_left (canonicalEntries_eq_ok.mp hcs) hk
  exact (written_eq_ok.mp hkey).1

end Value

/-! ## Plans with a digest -/

theorem isReal_of_isInteger {b : Value} (h : b.isInteger = true) : b.isReal = true := by
  unfold Value.isInteger at h
  split at h
  all_goals first | rfl | cases h

namespace Demand

section tokens

variable {d : Demand} (h : ∀ e ∈ d.attributes, ∃ token, e.2.token = .ok token)

include h

/-- A number among the attributes can stand in running text. -/
theorem hasDisplay_of_tokens (name : String) {b : Value} (hb : (name, b) ∈ d.attributes)
    (hreal : b.isReal = true) : b.hasDisplay = true := by
  obtain ⟨token, htoken⟩ := h _ hb
  exact Value.hasDisplay_of_token hreal htoken

/-- The bounds of texts and arrays are plain integers. -/
theorem lengths_of_tokens (high low : String) {most : Option Int} {least : Int}
    (hmost : (high, optional .int most) ∈ d.attributes)
    (hleast : (low, .int least) ∈ d.attributes) :
    ∀ w ∈ most.toList.map Value.int ++ [.int least], w.hasDisplay = true := by
  refine List.forall_mem_append.mpr ⟨List.forall_mem_map.mpr fun n hn => ?_,
    List.forall_mem_singleton.mpr (hasDisplay_of_tokens h low hleast rfl)⟩
  obtain rfl := Option.mem_toList.mp hn
  exact hasDisplay_of_tokens h high hmost rfl

theorem shown_of_tokens (hd : d.Proper) : ∀ w ∈ d.shown, w.hasDisplay = true := by
  cases d with
  | number exclusiveMax exclusiveMin integer most least =>
      refine List.forall_mem_append.mpr ⟨fun w hw => ?_, fun w hw => ?_⟩
      · obtain rfl := Option.mem_toList.mp hw
        exact hasDisplay_of_tokens h "max" (by simp [attributes, optional]) (hd.1 w rfl)
      · obtain rfl := Option.mem_toList.mp hw
        exact hasDisplay_of_tokens h "min" (by simp [attributes, optional]) (hd.2 w rfl)
  | function most least named =>
      refine List.forall_mem_append.mpr ⟨fun w hw => ?_, List.forall_mem_singleton.mpr ?_⟩
      · obtain rfl := Option.mem_toList.mp hw
        exact hasDisplay_of_tokens h "max_arguments" (by simp [attributes, optional])
          (isReal_of_isInteger (hd.1 w rfl))
      · exact hasDisplay_of_tokens h "min_arguments" (by simp [attributes])
          (isReal_of_isInteger hd.2)
  | string most least pattern =>
      exact lengths_of_tokens h "max_length" "min_length" (by simp [attributes])
        (by simp [attributes])
  | array most least item unique =>
      exact lengths_of_tokens h "max_items" "min_items" (by simp [attributes])
        (by simp [attributes])
  | object allowNull clean properties generic =>
      obtain ⟨token, htoken⟩ := h ("properties", .dict (entries properties)) (by simp [attributes])
      exact List.forall_mem_map.mpr fun e he =>
        Value.hasDisplay_key_of_token htoken (List.mem_map_of_mem he)
  | _ => exact List.forall_mem_nil _

theorem text_of_tokens {q : Pattern} (hq : d.pattern? = some q) : ∃ s, q.text? = some s := by
  cases d with
  | string most least pattern =>
      obtain rfl : pattern = some q := hq
      obtain ⟨token, htoken⟩ := h ("pattern", .pattern q) (by simp [attributes, optional])
      exact Value.text_of_token htoken
  | _ => cases hq

/-- Tokens of all attributes make a demand legible. -/
theorem legible_of_tokens (hd : d.Proper) : d.Legible :=
  ⟨shown_of_tokens h hd, fun _ hq => text_of_tokens h hq⟩

end tokens

end Demand

theorem Plan.legible_of_hash {p : Plan} {hash : String} (hp : p.demand.Proper)
    (h : p.attributes.hash = .ok hash) : p.demand.Legible := by
  refine Demand.legible_of_tokens (fun e he => ?_) hp
  have hmem : e ∈ p.attributes := List.mem_append_left _ (List.mem_append_right _ he)
  exact Attributes.token_of_hash h hmem
    (isPublic_of_mem_attributeNames e.1 (p.names_subset (List.mem_map_of_mem hmem)))

end Conform
