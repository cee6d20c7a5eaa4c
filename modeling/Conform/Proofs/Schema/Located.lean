/-
# `Proofs.Schema.Located` — which children an error of a container names

An array names the positions of the items that it refuses, an object the keys.
That they are exactly the refused ones is a matter of a single check
(`locatesItems`, `locatesEntries`).  At depth an error is that of a schema inside
about a part of the value, but for the place, which the container around it has
filled in (`Schema.Compiled.comesFrom`): so what a check lists, the errors in the
tree of an error list as well.

No key has two errors because a dictionary has no key twice, neither the value
nor the dictionary of properties that was configured.  The latter may be the
outcome of merging, which keeps keys apart.
-/
import Conform.Proofs.Schema.Answered
import Conform.Proofs.Schema.Bounds
import Conform.Proofs.Schema.Reported
import Conform.Proofs.Config.Throughout
import Conform.Proofs.Value.Reordered

namespace Conform

/-! ## What the errors of a container list -/

/-- The errors of the items that a schema refuses: their positions increase,
those of the refused items occur and no others, and each error is the schema's own
of the item at its position. -/
structure Schema.LocatesItems (t : Schema) (items : List Value) (errors : List ErrorInfo) :
    Prop where
  increasing : errors.Pairwise fun d e => ∃ i j, d.index = some i ∧ e.index = some j ∧ i < j
  refused : ∀ i w, items[i]? = some w → ((∃ e ∈ errors, e.index = some i) ↔ t.accepts w = .ok false)
  own : ∀ e ∈ errors, ∃ i w e₀, items[i]? = some w ∧ t.error w (indexLead i) = .ok (some e₀) ∧
    e = e₀.atIndex i

/-- The errors of the entries of an object: one for each required property that is
missing, in the order of their declaration, then one for each entry whose governing
schema refuses it, in the order of the entries, and that schema's own.  No key
has two. -/
structure LocatesEntries (properties : List (Value × Schema)) (generic : Option Schema)
    (es : Entries) (errors : List ErrorInfo) : Prop where
  split : ∃ refused, errors = (missingKeys properties es).map .missing ++ refused ∧
    List.Forall₂ (fun x e => ∃ t name e₀, Demand.governing properties generic x.1 = some t ∧
        x.1.display = .ok name ∧ t.error x.2 (keyLead name) = .ok (some e₀) ∧ e = e₀.atKey x.1)
      (refusedEntries properties generic es) refused
  apart : errors.Pairwise fun d e => Value.sameKey d.property e.property = false

theorem refuses_iff {t : Schema} {w : Value} : t.refuses w = true ↔ t.accepts w = .ok false := by
  unfold Schema.refuses
  split
  · rename_i b hb
    cases b <;> simp [hb]
  · simp_all

theorem locatesItems {t : Schema} (ht : t.Compiled) {items : List Value} {errors : List ErrorInfo}
    (h : Instance.itemErrors Schema.error (.schema t) 0 items = .ok errors) :
    t.LocatesItems items errors := by
  have hlisted := itemErrors_refused ht h
  have hown : ∀ e ∈ errors, ∃ i w e₀, items[i]? = some w ∧
      t.error w (indexLead i) = .ok (some e₀) ∧ e = e₀.atIndex i := by
    intro e he
    obtain ⟨⟨w, i⟩, hx, e₀, herror, rfl⟩ := forall₂_mem_right hlisted he
    have hmem := (List.mem_filter.mp hx).1
    exact ⟨i, w, e₀, List.mem_zipIdx_iff_getElem?.mp hmem, herror, rfl⟩
  refine ⟨?_, fun i w hw => ⟨?_, ?_⟩, hown⟩
  · have hpositions : items.zipIdx.Pairwise fun x y => x.2 < y.2 := by
      rw [← List.pairwise_map (f := Prod.snd) (R := (· < ·)), List.zipIdx_map_snd]
      exact List.pairwise_lt_range'
    refine forall₂_pairwise ?_ hlisted (hpositions.filter _)
    rintro x y _ _ hlt ⟨d, -, rfl⟩ ⟨e, -, rfl⟩
    exact ⟨x.2, y.2, rfl, rfl, hlt⟩
  · rintro ⟨e, he, hindex⟩
    obtain ⟨j, u, e₀, hu, herror, rfl⟩ := hown e he
    obtain rfl : j = i := Option.some.inj hindex
    obtain rfl : u = w := Option.some.inj (hu.symm.trans hw)
    rw [← refuses_iff, ht.refuses_eq herror]
    rfl
  · intro hrefused
    have hmem : (w, i) ∈ items.zipIdx.filter fun x => t.refuses x.1 :=
      List.mem_filter.mpr ⟨List.mem_zipIdx_iff_getElem?.mpr hw, refuses_iff.mpr hrefused⟩
    obtain ⟨e, he, e₀, -, rfl⟩ := forall₂_mem_left hlisted hmem
    exact ⟨_, he, rfl⟩

theorem mem_missingKeys {properties : List (Value × Schema)} {es : Entries} {key : Value}
    (h : key ∈ missingKeys properties es) : es.contains key = false := by
  obtain ⟨e, he, rfl⟩ := List.mem_map.mp h
  have hmissing := (Bool.and_eq_true_iff.mp (List.mem_filter.mp he).2).2
  rwa [Bool.not_eq_true'] at hmissing

theorem locatesEntries {properties : List (Value × Schema)} {generic : Option Schema}
    (hparts : ∀ t ∈ properties.map (·.2) ++ generic.toList, t.Compiled) {es : Entries}
    {refused : List ErrorInfo} (hproperties : Entries.KeysApart (Demand.entries properties))
    (hentries : es.KeysApart)
    (h : Instance.entryErrors Schema.error (Demand.entries properties) (optional .schema generic) es
      = .ok refused) :
    LocatesEntries properties generic es ((missingKeys properties es).map .missing ++ refused) := by
  have hrefused := entryErrors_refused hparts h
  have hkeys : List.Forall₂ (fun (x : Value × Value) e => e.property = x.1)
      (refusedEntries properties generic es) refused :=
    hrefused.imp fun x e => by
      rintro ⟨t, name, e₀, -, -, -, rfl⟩
      rfl
  refine ⟨⟨refused, rfl, hrefused⟩, List.pairwise_append.mpr ⟨?_, ?_, ?_⟩⟩
  · refine List.pairwise_map.mpr (List.pairwise_map.mpr ?_)
    have hdeclared : properties.Pairwise fun d e => Value.sameKey d.1 e.1 = false := by
      simpa [Entries.KeysApart, Demand.entries, List.pairwise_map] using hproperties
    exact hdeclared.filter _
  · refine forall₂_pairwise ?_ hkeys (List.Pairwise.filter _ (List.pairwise_map.mp hentries))
    intro x x' e e' hapart hx hx'
    rwa [hx, hx']
  · intro d hd e he
    obtain ⟨key, hkey, rfl⟩ := List.mem_map.mp hd
    obtain ⟨x, hx, hproperty⟩ := forall₂_mem_right hkeys he
    have habsent : es.find? key = none :=
      Option.isNone_iff_eq_none.mp (Option.isSome_eq_false_iff.mp (mem_missingKeys hkey))
    rw [hproperty, Value.sameKey_comm]
    exact Entries.find?_eq_none_iff.mp habsent x (List.mem_filter.mp hx).1

/-! ## At every depth -/

/-- The errors in the tree of an error. -/
inductive ErrorInfo.Within (e : ErrorInfo) : ErrorInfo → Prop
  | self : Within e e
  | part {d f : ErrorInfo} (h : Within e d) (hf : f ∈ d.errors) : Within e f

/-- What a value is asked about, at any depth. -/
def Value.Reaches : Value → Value → Prop := Relation.ReflTransGen Value.HandsOn

/-- The error of another value, but for the place. -/
def ErrorInfo.SameButPlace (d e : ErrorInfo) : Prop :=
  d.message = e.message ∧ d.kind = e.kind ∧ d.errors = e.errors

/-- An error without parts, or that of a schema inside about a part of the value. -/
def ErrorInfo.ComesFrom (s : Schema) (v : Value) (e : ErrorInfo) : Prop :=
  e.IsLeaf ∨ ∃ t w lead e₀, s.Inside t ∧ v.Reaches w ∧ t.error w (.str lead) = .ok (some e₀) ∧
    e.SameButPlace e₀

theorem comesFrom_part {s t : Schema} {v w : Value} {lead : String} {e f : ErrorInfo}
    (hs : s.Compiled) (ht : s.Inside t) (hw : v.Reaches w)
    (he : t.error w (.str lead) = .ok (some e)) (hf : f ∈ e.errors) : f.ComesFrom s v := by
  cases hs.inside ht with
  | single p hash hproper digest hparts =>
      have hinside : ∀ u ∈ p.demand.parts, s.Inside u := fun u hu =>
        .part ht (by rwa [p.parts_toInstance hash])
      cases reported_error hproper.demand hproper.legible e he with
      | leaf h =>
          rw [h.1] at hf
          cases hf
      | @items _ _ u _ _ _ hd harray hkind herrors =>
          have hu : u ∈ p.demand.parts := by simp [hd, Demand.parts]
          obtain ⟨x, hx, e₀, herror, rfl⟩ :=
            forall₂_mem_right (itemErrors_refused (hparts u hu) herrors) hf
          have hitem := List.fst_mem_of_mem_zipIdx (List.mem_filter.mp hx).1
          exact .inr ⟨u, x.1, _, e₀, hinside u hu, hw.tail (.item harray hitem), herror,
            rfl, rfl, rfl⟩
      | entries hd hobject hkind hentries herrors =>
          rw [herrors] at hf
          rcases List.mem_append.mp hf with hf | hf
          · obtain ⟨key, -, rfl⟩ := List.mem_map.mp hf
            exact .inl (ErrorInfo.isLeaf_missing key)
          · have hgoverning : ∀ u ∈ _, u ∈ p.demand.parts := fun u hu => by
              rw [hd]
              exact hu
            obtain ⟨x, hx, u, name, e₀, hgoverned, -, herror, rfl⟩ := forall₂_mem_right
              (entryErrors_refused (fun u hu => hparts u (hgoverning u hu)) hentries) hf
            exact .inr ⟨u, x.2, _, e₀, hinside u (hgoverning u (Demand.mem_of_governing hgoverned)),
              hw.tail (.entry hobject (List.mem_filter.mp hx).1), herror, rfl, rfl, rfl⟩
      | variants hd hkind herrors =>
          obtain ⟨u, hu, herror⟩ := forall₂_mem_right herrors hf
          exact .inr ⟨u, w, "", f, hinside u (by rwa [hd]), hw, herror, rfl, rfl, rfl⟩
  | multi members each =>
      obtain ⟨errors, rfl, heach⟩ := error_multi_refused.mp he
      obtain ⟨u, hu, herror⟩ := forall₂_mem_right heach hf
      exact .inr ⟨_, w, "", f, .member ht hu, hw, herror, rfl, rfl, rfl⟩

/-- Every error in the tree comes from a schema inside. -/
theorem Schema.Compiled.comesFrom {s : Schema} (hs : s.Compiled) {v : Value} {lead : String}
    {e d : ErrorInfo} (he : s.error v (.str lead) = .ok (some e)) (hd : e.Within d) :
    d.ComesFrom s v := by
  induction hd with
  | self => exact .inr ⟨s, v, lead, e, .self, .refl, he, rfl, rfl, rfl⟩
  | part _ hf ih =>
      rcases ih with hleaf | ⟨t, w, lead', e₀, ht, hw, herror, -, -, herrors⟩
      · rw [hleaf.1] at hf
        cases hf
      · rw [herrors] at hf
        exact comesFrom_part hs ht hw herror hf

/-! ## Dictionaries -/

/-- Whether the keys of a dictionary are apart, as those of every dictionary are that
was filled entry by entry. -/
def Value.hasKeysApart : Value → Bool
  | .dict es => decide (Entries.KeysApart es)
  | _ => true

theorem Value.hasKeysApart_dict {es : Entries} :
    (Value.dict es).hasKeysApart = true ↔ es.KeysApart := by
  rw [hasKeysApart, decide_eq_true_iff]

theorem merges_hasKeysApart : Merges Value.hasKeysApart where
  none := rfl
  empty := Value.hasKeysApart_dict.mpr .nil
  update _ _ hes _ := Value.hasKeysApart_dict.mpr (Value.hasKeysApart_dict.mp hes).update
  erase _ key hes := Value.hasKeysApart_dict.mpr ((Value.hasKeysApart_dict.mp hes).erase key)

/-- The items of an array of one dimension are numbers, flags and texts. -/
theorem Tensor.hasKeysApart_of_arrayItems {t : Tensor} {items : List Value} {w : Value}
    (h : (Value.tensor t).arrayItems? = some items) (hw : w ∈ items) :
    w.everywhere Value.hasKeysApart = true := by
  obtain ⟨format, shape, cells⟩ := t
  have plain : ∀ c : Cell, c.plain.everywhere Value.hasKeysApart = true := by
    intro c
    cases c <;> rfl
  match shape, h with
  | [n], h =>
      obtain rfl := Option.some.inj h
      obtain ⟨row, hrow, hw⟩ := List.mem_flatten.mp hw
      obtain ⟨cells', -, rfl⟩ := List.mem_map.mp hrow
      obtain ⟨c, -, rfl⟩ := List.mem_map.mp hw
      exact plain c

theorem Value.HandsOn.hasKeysApart {v w : Value} (h : v.HandsOn w)
    (hv : v.everywhere hasKeysApart = true) : w.everywhere hasKeysApart = true := by
  cases h with
  | self => exact hv
  | entry hobject he =>
      subst hobject
      exact ((everywhere_dict.mp hv).2 _ he).2
  | item harray hitem =>
      cases v with
      | list items =>
          obtain rfl := Option.some.inj harray
          exact (everywhere_list.mp hv).2 w hitem
      | tuple items =>
          obtain rfl := Option.some.inj harray
          exact (everywhere_tuple.mp hv).2 w hitem
      | tensor t =>
          exact Tensor.hasKeysApart_of_arrayItems harray hitem
      | _ => cases harray

theorem Value.Reaches.hasKeysApart {v w : Value} (h : v.Reaches w)
    (hv : v.everywhere hasKeysApart = true) : w.everywhere hasKeysApart = true := by
  induction h with
  | refl => exact hv
  | tail _ hpart ih => exact hpart.hasKeysApart ih

/-- What the errors of a container say about its children. -/
structure Instance.Locates (t : Instance) (v : Value) (e : ErrorInfo) : Prop where
  items : e.kind = .arrayItems → ∃ item items, t.get "schema" = .ok (.schema item) ∧
    v.arrayItems? = some items ∧ item.LocatesItems items e.errors
  entries : e.kind = .objectProperties → ∃ properties generic es,
    t.get "properties" = .ok (.dict (Demand.entries properties)) ∧
      t.get "schema" = .ok (optional .schema generic) ∧ v = .dict es ∧
      LocatesEntries properties generic es e.errors

section compile

variable {c v : Value} {s : Schema} {lead : String} {e : ErrorInfo}

/-- The declared properties of an object are the keys of one dictionary. -/
theorem declared_apart {p : Plan} {config : Entries} {required : Option Bool}
    {allowNull clean : Bool} {properties : List (Value × Schema)} {generic : Option Schema}
    (hread : p.ReadFrom config required)
    (hd : p.demand = .object allowNull clean properties generic)
    (hc : (Value.dict config).everywhere Value.hasKeysApart = true) :
    Entries.KeysApart (Demand.entries properties) := by
  have hreads := hread.reads
  rw [hd] at hreads
  obtain ⟨declared, _, hdeclared, -, hproperties, -⟩ := hreads
  have hkeys : (Demand.entries properties).map (·.1) = declared.map (·.1) := by
    rw [Demand.entries, List.map_map]
    exact map_eq_of_forall₂ hproperties.flip fun _ _ h => h.1.symm
  rw [Entries.KeysApart, hkeys]
  rcases Options.propertiesOption_cases hdeclared with rfl | hget
  · exact .nil
  · rw [get?_typedEntries_of_ne config (by decide)] at hget
    have hes := (Value.everywhere_dict.mp hc).2.get? hget
    exact Value.hasKeysApart_dict.mp (Value.of_everywhere hes)

theorem locates_inside (hs : Registry.builtin.compile c .none = .ok s)
    (hc : c.everywhere Value.hasKeysApart = true) {t : Instance} (ht : s.Inside (.single t))
    (hv : v.everywhere Value.hasKeysApart = true)
    (he : (Schema.single t).error v (.str lead) = .ok (some e)) : t.Locates v e := by
  obtain ⟨config, required, hnested, hcompile⟩ := makes_inside hs ht t (List.mem_singleton.mpr rfl)
  obtain ⟨p, hash, heq, hread, -⟩ := plan_of_compile hcompile
  obtain rfl := Schema.single.inj heq
  cases reported_error hread.proper.demand hread.proper.legible e he with
  | leaf h =>
      obtain ⟨-, hkind⟩ := h
      constructor <;> intro h <;> rw [h] at hkind <;> cases hkind
  | @items _ _ u _ _ _ hd harray hkind herrors =>
      refine ⟨fun _ => ?_, fun hkind' => ?_⟩
      · have hu : u ∈ p.demand.parts := by simp [hd, Demand.parts]
        exact ⟨u, _, Plan.get_of_demand hash hd "schema" (by decide) rfl, harray,
          locatesItems (hread.parts u hu) herrors⟩
      · rw [hkind] at hkind'
        exact absurd hkind' (by decide)
  | @entries _ _ properties generic es _ _ hd hobject hkind hentries herrors =>
      refine ⟨fun hkind' => ?_, fun _ => ?_⟩
      · rw [hkind] at hkind'
        exact absurd hkind' (by decide)
      · refine ⟨properties, generic, es, Plan.get_of_demand hash hd "properties" (by decide) rfl,
          Plan.get_of_demand hash hd "schema" (by decide) rfl, hobject, ?_⟩
        subst hobject
        rw [herrors]
        refine locatesEntries (fun u hu => hread.parts u (by rw [hd]; exact hu)) ?_
          (Value.hasKeysApart_dict.mp (Value.of_everywhere hv)) hentries
        exact declared_apart hread hd (merges_hasKeysApart.nested hnested hc)
  | variants hd hkind herrors =>
      refine ⟨fun hkind' => ?_, fun hkind' => ?_⟩
      · rw [hkind] at hkind'
        exact absurd hkind' (by decide)
      · rw [hkind] at hkind'
        exact absurd hkind' (by decide)

/-- **The errors of a container name the children it refuses**, at any depth of
the tree of errors.  An error of an array lists, by increasing position, the
items that the schema of the items refuses, and no others.  That of an object
lists the required properties that are missing, as they are declared, and then
the entries whose schema refuses their values, in their order; no key has two
errors.  Each error is the schema's own, after the lead that says where. -/
theorem errors_located (hs : Registry.builtin.compile c .none = .ok s)
    (hc : c.everywhere Value.hasKeysApart = true) (hv : v.everywhere Value.hasKeysApart = true)
    (he : s.error v (.str lead) = .ok (some e)) :
    (∀ t, s = .single t → t.Locates v e) ∧
    ∀ d, e.Within d → d.kind = .arrayItems ∨ d.kind = .objectProperties →
      ∃ t w lead' e₀, s.Inside (.single t) ∧ v.Reaches w ∧
        (Schema.single t).error w (.str lead') = .ok (some e₀) ∧ d.SameButPlace e₀ ∧
        t.Locates w d := by
  constructor
  · rintro t rfl
    exact locates_inside hs hc .self hv he
  · intro d hd hkind
    rcases (compiled_of_compile hs).comesFrom he hd with
      ⟨-, hleaf⟩ | ⟨t, w, lead', e₀, ht, hw, herror, hsame⟩
    · rcases hkind with h | h <;> rw [h] at hleaf <;> cases hleaf
    · cases t with
      | single t =>
          have hlocates := locates_inside hs hc ht (hw.hasKeysApart hv) herror
          refine ⟨t, w, lead', e₀, ht, hw, herror, hsame, ?_⟩
          obtain ⟨-, hkinds, herrors⟩ := hsame
          refine ⟨fun h => ?_, fun h => ?_⟩
          · rw [herrors]
            exact hlocates.items (hkinds ▸ h)
          · rw [herrors]
            exact hlocates.entries (hkinds ▸ h)
      | multi members =>
          obtain ⟨errors, rfl, -⟩ := error_multi_refused.mp herror
          have hmulti : d.kind = .multi := hsame.2.1
          rw [hmulti] at hkind
          exact absurd hkind (by decide)

end compile

/-! ## A tree of errors -/

/-- An object with an array of numbers from zero to five. -/
def treeOptions : Entries :=
  [(.str "type", .str "object"), (.str "properties", .dict [(.str "a", .dict rangesOptions)])]

def treePlan (hash hash' : String) : Plan :=
  .plain (.str "object") (.object true false
    [(.str "a", .single ((rangesPlan hash (some false)).toInstance hash'))] none) none

theorem compile_tree : ∃ hash hash' hash'', Registry.builtin.compile (.dict treeOptions) .none
    = .ok (.single ((treePlan hash hash').toInstance hash'')) := by
  obtain ⟨hash, hash', hranges⟩ := compile_ranges (some false)
  have hproperty : (compileMerged (compile .builtin) (.str "a") .none (.dict rangesOptions)).result
      = .ok (.single ((rangesPlan hash (some false)).toInstance hash')) :=
    compileMerged_optional (.str "a") rfl rfl hranges
      ((rangesPlan hash (some false)).flag_required hash')
  exact ⟨hash, hash', Plan.compile_of_digestible (p := treePlan hash hash') treeOptions
    builtinControllers[5] rfl rfl rfl
    (fun _ => object_attributes rfl rfl rfl hproperty rfl rfl) rfl⟩

/-- Seven is too much, and so is an array and an object with it. -/
theorem tree_refuses {hash hash' hash'' : String}
    (hs : (Schema.single ((treePlan hash hash').toInstance hash'')).Compiled) :
    (Schema.single ((treePlan hash hash').toInstance hash'')).accepts
      (.dict [(.str "a", .list [.int 7])]) = .ok false := by
  have hobject := hs.parts_compiled
  rw [Plan.parts_toInstance] at hobject
  have harray := (hobject _ (List.mem_singleton.mpr rfl)).parts_compiled
  rw [Plan.parts_toInstance] at harray
  have hnumber : (Schema.single ((rangePlan (.int 0)).toInstance hash)).accepts (.int 7)
      = .ok false := by
    have hbounds : (rangePlan (.int 0)).demand.Proper :=
      ⟨fun b hb => Option.some.inj hb ▸ rfl, fun b hb => Option.some.inj hb ▸ rfl⟩
    have hlegible : (rangePlan (.int 0)).demand.Legible :=
      ⟨List.forall_mem_cons.mpr ⟨rfl, List.forall_mem_singleton.mpr rfl⟩, nofun⟩
    rw [Schema.accepts_single hash hbounds hlegible nofun]
    rfl
  have hitems : (Schema.single ((rangesPlan hash (some false)).toInstance hash')).accepts
      (.list [.int 7]) = .ok false := by
    have hlegible : (rangesPlan hash (some false)).demand.Legible :=
      ⟨List.forall_mem_cons.mpr ⟨rfl, List.forall_mem_singleton.mpr rfl⟩, nofun⟩
    rw [Schema.accepts_single (p := rangesPlan hash (some false)) hash' trivial hlegible harray]
    show askAll (Schema.accepts _) [.int 7] = _
    rw [askAll_cons, hnumber]
    rfl
  have hmarked : (treePlan hash hash').demand.Proper := by
    intro e he
    obtain rfl := List.mem_singleton.mp he
    exact fun s hs => ⟨false, by rw [List.mem_singleton.mp hs]; rfl⟩
  have hlegible : (treePlan hash hash').demand.Legible := ⟨List.forall_mem_singleton.mpr rfl, nofun⟩
  rw [Schema.accepts_single hash'' hmarked hlegible hobject]
  show askAll (Demand.askEntry Schema.accepts _ _) [(.str "a", .list [.int 7])] >>= _ = _
  rw [askAll_cons]
  show (Schema.accepts _ _ >>= _) >>= _ = _
  rw [hitems]
  rfl

/-- What is wrong with a dictionary is wrong with its entries. -/
theorem tree_reports {hash hash' hash'' : String} {es : Entries} :
    Reports (fun e => e.kind = .objectProperties)
      ((Schema.single ((treePlan hash hash').toInstance hash'')).error (.dict es) (.str "")) := by
  rw [Schema.error_single, Instance.errorWith,
    (treePlan hash hash').require_toInstance hash'' (by decide), orEmpty_str]
  simp only [lift_ok, ok_bind]
  rw [(treePlan hash hash').checks_toInstance]
  refine .firstOf (show Reports _ (.ok none) from .none) ?_
  refine .firstOf (.bind fun _ _ => .bind fun _ _ => .bind fun _ _ => .bind fun _ _ =>
    reported_summarized (fun e hkind _ => hkind) _) .none

theorem errors_located_nested :
    ∃ s v e, Registry.builtin.compile (.dict treeOptions) .none = .ok s ∧
      s.error v (.str "") = .ok (some e) ∧ e.kind = .objectProperties ∧
        ∀ t, s = .single t → t.Locates v e := by
  obtain ⟨hash, hash', hash'', hs⟩ := compile_tree
  have hcompiled := compiled_of_compile hs
  have hrefused := tree_refuses hcompiled
  rw [← hcompiled.accepted_error _ ""] at hrefused
  obtain ⟨r, he, hr⟩ := map_eq_ok.mp hrefused
  obtain ⟨e, rfl⟩ : ∃ e, r = some e := Option.isSome_iff_exists.mp (by cases r <;> simp_all)
  exact ⟨_, _, e, hs, he, tree_reports e he, (errors_located hs (by decide) (by decide) he).1⟩

end Conform
