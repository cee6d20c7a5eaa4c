/-
# `Proofs.Digest.Reordered` — a digest does not see an order

In the text that stands for a value, the entries of every dictionary follow
their keys and the elements of every set follow their texts.  So a reordered
value has the text that the value has, as long as the schemas inside do, and
reordered attributes are digested from the same lines.

Keys are texts, each once, and are told apart by the order; two elements of
a set may share a text, but then it does not matter which comes first.
-/
import Conform.Proofs.Value.Reordered
import Conform.Proofs.Digest.Plain

namespace Conform

/-! ## Outlines of dictionaries and sets, taken apart -/

theorem StableText.tree_texts (texts : List String) :
    tree (.list (texts.map .str)) = .ok (.list (texts.map .text)) := by
  have hitems : (texts.map .str).mapM tree = .ok (texts.map .text) :=
    mapM_eq_ok.mpr <| List.forall₂_map_left_iff.mpr <| List.forall₂_map_right_iff.mpr <|
      List.forall₂_same.mpr fun _ _ => rfl
  rw [tree, itemTrees_eq, hitems]
  rfl

/-- An object has a tree only if the values of its entries have trees. -/
theorem StableText.objectTree_ok {entries : List (Value × Except Fault Tree)} {t : Tree}
    (h : objectTree entries = .ok t) {e : Value × Except Fault Tree} (he : e ∈ entries) :
    ∃ u, e.2 = .ok u := by
  have hobject := object_eq entries
  rw [h] at hobject
  obtain ⟨_, hs⟩ := object_ok hobject (List.mem_map_of_mem he)
  obtain ⟨u, hu, -⟩ := map_eq_ok.mp hs
  exact ⟨u, hu⟩

namespace Value

/-- A record with an outline has one for every entry. -/
theorem outlines_of_record {es : Entries} (hes : es.IsRecord) {t : Tree}
    (h : (Value.dict es).outline = .ok t) :
    ∃ us : List (String × Tree),
      List.Forall₂ (fun e u => e.1 = .str u.1 ∧ e.2.outline = .ok u.2) es us := by
  obtain ⟨_, hcanonical, htree⟩ := bind_eq_ok.mp h
  obtain ⟨cs, hcs, hcanonical⟩ := bind_eq_ok.mp hcanonical
  obtain rfl := Except.ok.inj hcanonical
  have hentries := canonicalEntries_eq_ok.mp hcs
  have hkeys : cs.map (·.1) = es.map (·.1) := by
    have hsame : List.Forall₂ (fun e c : Value × Value => c.1 = e.1) es cs := by
      refine forall₂_imp (fun e he c _ hc => ?_) hentries
      obtain ⟨name, hname⟩ := hes.texts _ (List.mem_map_of_mem he)
      obtain ⟨⟨text, htext, hkey⟩, -⟩ := hc
      rw [hname] at htext ⊢
      rw [hkey, ← Except.ok.inj htext]
      rfl
    exact map_eq_of_forall₂ hsame.flip fun _ _ h => h
  have hfresh : cs.Pairwise fun a b => sameKey a.1 b.1 = false := by
    have hdistinct := hkeys ▸ hes.distinct
    refine (List.pairwise_map.mp hdistinct).imp_of_mem fun {a b} ha hb hne => ?_
    obtain ⟨s, hs⟩ := hes.texts a.1 (hkeys ▸ List.mem_map_of_mem ha)
    obtain ⟨t, ht⟩ := hes.texts b.1 (hkeys ▸ List.mem_map_of_mem hb)
    rw [hs, ht] at hne ⊢
    exact sameKey_str_ne fun heq => hne (congrArg _ heq)
  rw [Entries.ofList_eq hfresh, StableText.tree, StableText.entryTrees_eq] at htree
  have hitems : ∀ e ∈ es, ∃ u : String × Tree, e.1 = .str u.1 ∧ e.2.outline = .ok u.2 := by
    intro e he
    obtain ⟨name, hname⟩ := hes.texts _ (List.mem_map_of_mem he)
    obtain ⟨c, hc, -, hec⟩ := forall₂_mem_left hentries he
    obtain ⟨u, hu⟩ := StableText.objectTree_ok htree (List.mem_map_of_mem hc)
    exact ⟨(name, u), hname, by rw [outline, hec]; exact hu⟩
  exact exists_forall₂ hitems

/-- The outline of a set has the texts of its elements in their order. -/
theorem outline_set {items : List Value} {t : Tree} :
    (Value.set items).outline = .ok t ↔
      ∃ texts, List.Forall₂ (fun v s => v.canonicalText = .ok s) items texts ∧
        t = .object [("$set", .list ((texts.mergeSort textBelow).map .text))] := by
  have hset : ∀ texts : List String,
      StableText.tree (tagged "$set" (.list ((texts.mergeSort textBelow).map .str)))
        = .ok (.object [("$set", .list ((texts.mergeSort textBelow).map .text))]) := by
    intro texts
    rw [tree_tagged, StableText.tree_texts]
    rfl
  have houtline : (Value.set items).outline
      = (items.mapM canonical >>= fun cs => cs.mapM StableText.ofValue) >>= fun texts =>
          pure (Tree.object [("$set", .list ((texts.mergeSort textBelow).map .text))]) := by
    rw [outline, canonical, canonicalItems_eq]
    simp only [bind_assoc, pure_bind]
    exact congrArg _ (funext fun cs => congrArg _ (funext hset))
  rw [houtline, bind_eq_ok]
  simp only [mapM_mapM_eq_ok, pure_eq_ok]
  exact exists_congr fun texts => and_congr_right' eq_comm

/-- Frozen or not, sets have one outline. -/
theorem outline_frozenset (items : List Value) :
    (Value.frozenset items).outline = (Value.set items).outline := rfl

namespace Reordered

variable {R : Schema → Schema → Prop} {v w : Value}

/-! ## Texts of reordered values -/

theorem outline_elements {zs zs' : List (Value × Value)} (horder : zs.Perm zs')
    (h : ∀ z ∈ zs, ∀ t, z.1.outline = .ok t → z.2.outline = .ok t) {t : Tree}
    (ht : (Value.set (zs.map Prod.fst)).outline = .ok t) :
    (Value.set (zs'.map Prod.snd)).outline = .ok t := by
  obtain ⟨texts, htexts, rfl⟩ := outline_set.mp ht
  rw [List.forall₂_map_left_iff] at htexts
  have hmoved : List.Forall₂ (fun z s => z.2.canonicalText = .ok s) zs texts := by
    refine forall₂_imp (fun z hz s _ hs => ?_) htexts
    rw [canonicalText_eq, map_eq_ok] at hs ⊢
    obtain ⟨u, hu, rfl⟩ := hs
    exact ⟨u, h z hz u hu, rfl⟩
  obtain ⟨texts', htexts', hperm⟩ := List.perm_comp_forall₂ horder.symm hmoved
  rw [mergeSort_texts hperm.symm]
  exact outline_set.mpr ⟨texts', List.forall₂_map_left_iff.mpr htexts', rfl⟩

/-- A reordered value has the outline that the value has. -/
theorem outline (hR : ∀ s t, R s t → (Value.schema s).outline = (Value.schema t).outline)
    (h : Reordered R v w) {t : Tree} (ht : v.outline = .ok t) : w.outline = .ok t := by
  induction h generalizing t with
  | atom _ => exact ht
  | schema h => exact hR _ _ h ▸ ht
  | list _ ih =>
      obtain ⟨ts, rfl, hts⟩ := outline_list.mp ht
      rw [List.forall₂_map_left_iff] at hts
      refine outline_list.mpr ⟨ts, rfl, List.forall₂_map_left_iff.mpr ?_⟩
      exact forall₂_imp (fun z hz u _ hu => ih z hz hu) hts
  | tuple _ ih =>
      rw [outline_tuple] at ht ⊢
      obtain ⟨ts, rfl, hts⟩ := outline_list.mp ht
      rw [List.forall₂_map_left_iff] at hts
      refine outline_list.mpr ⟨ts, rfl, List.forall₂_map_left_iff.mpr ?_⟩
      exact forall₂_imp (fun z hz u _ hu => ih z hz hu) hts
  | set horder _ ih => exact outline_elements horder (fun z hz u hu => ih z hz hu) ht
  | frozenset horder _ ih =>
      rw [outline_frozenset] at ht ⊢
      exact outline_elements horder (fun z hz u hu => ih z hz hu) ht
  | @dict zs zs' hnames horder _ ih =>
      have hrecord := isRecord_pairs (fun z => z.2.1) hnames
      obtain ⟨us, hus⟩ := outlines_of_record hrecord ht
      have hdistinct := nodup_texts (hus.imp fun _ _ h => h.1) hrecord.distinct
      rw [outline_dict hus hdistinct] at ht
      obtain rfl := Except.ok.inj ht
      rw [List.forall₂_map_left_iff] at hus
      have hmoved : List.Forall₂ (fun z u => Value.str z.1 = .str u.1 ∧ z.2.2.outline = .ok u.2)
          zs us := forall₂_imp (fun z hz u _ hu => ⟨hu.1, ih z hz hu.2⟩) hus
      obtain ⟨us', hus', hperm⟩ := List.perm_comp_forall₂ horder.symm hmoved
      rw [outline_dict (List.forall₂_map_left_iff.mpr hus')
        ((hperm.map (·.1)).nodup_iff.mpr hdistinct), mergeSort_congr hdistinct hperm]

theorem token (hR : ∀ s t, R s t → (Value.schema s).outline = (Value.schema t).outline)
    (h : Reordered R v w) {text : String} (htext : v.token = .ok text) : w.token = .ok text := by
  cases hcallable : v.isCallable with
  | true =>
      have hatom : v.isAtom = true := by
        cases v <;> first | rfl | cases hcallable
      rw [h.eq_of_atom hatom]
      exact htext
  | false =>
      have hcallable' : w.isCallable = false := by
        cases h <;> first | rfl | exact hcallable
      obtain ⟨t, ht, rfl⟩ := outline_of_token hcallable htext
      exact token_ok hcallable' (h.outline hR ht)

end Reordered

end Value

/-- Attributes under the same names, reordered. -/
def Attributes.Reordered (R : Schema → Schema → Prop) (attrs attrs' : Attributes) : Prop :=
  List.Forall₂ (fun e e' => e.1 = e'.1 ∧ e.2.Reordered R e'.2) attrs attrs'

namespace Attributes.Reordered

variable {R : Schema → Schema → Prop} {attrs attrs' : Attributes} {name : String}

/-- Reordered attributes are digested from the same lines. -/
theorem lines (hR : ∀ s t, R s t → (Value.schema s).outline = (Value.schema t).outline)
    (h : Attributes.Reordered R attrs attrs') {ls : List String} (hls : attrs.lines = .ok ls) :
    attrs'.lines = .ok ls := by
  refine mapM_eq_ok.mpr (forall₂_trans ?_ (forall₂_sortedPublic h) (mapM_eq_ok.mp hls))
  rintro ⟨name, v⟩ ⟨_, w⟩ - l - ⟨rfl, hvw⟩ hl
  obtain ⟨token, htoken, hl⟩ := bind_eq_ok.mp hl
  rw [← hl, line, hvw.token hR htoken]
  rfl

/-- The same name stands for a value and its reordering. -/
theorem lookup (h : Attributes.Reordered R attrs attrs') (name : String) :
    Option.Rel (Value.Reordered R) (attrs.lookup name) (attrs'.lookup name) := by
  induction h with
  | nil => exact .none
  | @cons e e' _ _ he _ ih =>
      obtain ⟨n, v⟩ := e
      obtain ⟨n', w⟩ := e'
      obtain ⟨rfl, hvw⟩ := he
      rw [List.lookup_cons, List.lookup_cons]
      cases name == n with
      | true => exact .some hvw
      | false => exact ih

end Attributes.Reordered

end Conform
