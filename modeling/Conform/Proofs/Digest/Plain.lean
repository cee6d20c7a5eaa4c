/-
# `Proofs.Digest.Plain` — plain attributes can be read back

Flags, numbers, texts, lists and dictionaries stand in a digested text as
what they are.  So attributes of such values have one text exactly when
they have the same names and the same values, where only the order of the
entries of a dictionary does not count.  What numbers and constants are is
told by the characters that occur: a constant has no digit, an integer no
point and no exponent.  An integer with too many digits cannot be written, and
attributes that hold one have no text.
-/
import Conform.Proofs.Digest.Lines
import Conform.Proofs.Digest.Same
import Mathlib.Data.List.Perm.Basic

namespace Conform

/-! ## Plain values -/

/-- Finite floats that are told apart by their texts. -/
structure AreWritten (F : Binary64 → Prop) : Prop where
  finite : ∀ x, F x → x.isFinite = true
  inj : ∀ x y, F x → F y → x.text = y.text → x = y

namespace Value

/-- Values built from `none`, flags, integers that can be written, floats of `F`,
texts, lists, and dictionaries under different texts. -/
inductive IsPlain (F : Binary64 → Prop) : Value → Prop
  | none : IsPlain F .none
  | bool (b : Bool) : IsPlain F (.bool b)
  | int {n : Int} (hn : Number.isWritable n = true) : IsPlain F (.int n)
  | float {x : Binary64} (hx : F x) : IsPlain F (.float x)
  | str (s : String) : IsPlain F (.str s)
  | list {items : List Value} (hitems : ∀ v ∈ items, IsPlain F v) : IsPlain F (.list items)
  | dict {entries : Entries} (hkeys : ∀ e ∈ entries, ∃ s, e.1 = .str s)
      (hdistinct : (entries.map (·.1)).Nodup) (hvalues : ∀ e ∈ entries, IsPlain F e.2) :
      IsPlain F (.dict entries)

mutual

/-- Values that are the same at every depth, but for the order of the entries
of dictionaries. -/
inductive Same : Value → Value → Prop
  | none : Same .none .none
  | bool (b : Bool) : Same (.bool b) (.bool b)
  | int (n : Int) : Same (.int n) (.int n)
  | float (x : Binary64) : Same (.float x) (.float x)
  | str (s : String) : Same (.str s) (.str s)
  | list {vs ws : List Value} (hitems : List.Forall₂ Same vs ws) : Same (.list vs) (.list ws)
  | dict {es fs gs : Entries} (hentries : List.Forall₂ SameEntry es fs) (horder : fs.Perm gs) :
      Same (.dict es) (.dict gs)

/-- The same value under one key. -/
inductive SameEntry : Value × Value → Value × Value → Prop
  | under (key : Value) {v w : Value} (hvalue : Same v w) : SameEntry (key, v) (key, w)

end

/-! ## Constants and numbers -/

/-- What a value without quotes and parts is written as. -/
def word? : Value → Option String
  | .none => some "null"
  | .bool b => some (if b then "true" else "false")
  | .int n => some (toString n)
  | .float x => some (StableText.ofFloat x)
  | _ => .none

def hasPoint (s : String) : Bool := s.toList.any fun c => c == '.' || c == 'e'

/-- Whether there is a digit in a word, and a point or an exponent. -/
def wordMarks (s : String) : Bool × Bool := (s.toList.any Char.isDigit, hasPoint s)

theorem wordMarks_bool (b : Bool) : wordMarks (if b then "true" else "false") = (false, true) := by
  cases b <;> decide

theorem wordMarks_int (n : Int) : wordMarks (toString n) = (true, false) := by
  have hnat : ∀ m : Nat, ∀ c ∈ m.repr.toList, c.isDigit = true := by
    intro m c hc
    rw [Nat.repr_eq_ofList_toDigits, String.toList_ofList] at hc
    exact Nat.isDigit_of_mem_toDigits (by decide) (by decide) hc
  have hchars : ∀ c ∈ (toString n).toList, c = '-' ∨ c.isDigit = true := by
    rw [Int.toString_eq_repr, Int.repr_eq_if]
    split
    · exact fun c hc => .inr (hnat _ c hc)
    · intro c hc
      rw [String.toList_append] at hc
      rcases List.mem_append.mp hc with hc | hc
      · exact .inl (List.mem_singleton.mp hc)
      · exact .inr (hnat _ c hc)
  refine Prod.ext ?_ ?_
  · exact List.any_eq_true.mpr (hasDigit_int n)
  · refine List.any_eq_false.mpr fun c hc => ?_
    rcases hchars c hc with rfl | hdigit
    · decide
    · intro hmark
      rcases Bool.or_eq_true_iff.mp hmark with hpoint | hexponent
      · rw [eq_of_beq hpoint] at hdigit
        cases hdigit
      · rw [eq_of_beq hexponent] at hdigit
        cases hdigit

@[simp] theorem hasPoint_append (s t : String) :
    hasPoint (s ++ t) = (hasPoint s || hasPoint t) := by
  rw [hasPoint, String.toList_append, List.any_append]
  rfl

theorem hasPoint_positional (ds : List Char) (lead : Int) :
    hasPoint (Decimal.positional ds lead) = true := by
  have hzero : hasPoint "0." = true := by decide
  have hwhole : hasPoint ".0" = true := by decide
  have hpoint : hasPoint "." = true := by decide
  unfold Decimal.positional
  split
  · simp [hzero]
  · dsimp only
    split
    · simp [hwhole]
    · simp [hpoint]

theorem hasPoint_scientific (ds : List Char) (lead : Int) :
    hasPoint (Decimal.scientific ds lead) = true := by
  have hexponent : hasPoint "e" = true := by decide
  simp [Decimal.scientific, hexponent]

/-- A finite float has a point, or else an exponent. -/
theorem wordMarks_float {x : Binary64} (h : x.isFinite = true) :
    wordMarks (StableText.ofFloat x) = (true, true) := by
  cases x with
  | nan => cases h
  | infinite negative => cases h
  | finite negative m =>
      refine Prod.ext (List.any_eq_true.mpr (hasDigit_finite negative m)) ?_
      show hasPoint ((if negative then "-" else "") ++ _) = true
      rw [hasPoint_append, Bool.or_eq_true]
      right
      split
      · decide
      · unfold Binary64.unitsText
        dsimp only
        split
        · exact hasPoint_positional _ _
        · exact hasPoint_scientific _ _

variable {F : Binary64 → Prop} {v w : Value}

/-- The marks of what a value is written as. -/
def marks : Value → Bool × Bool
  | .none => (false, false)
  | .bool _ => (false, true)
  | .int _ => (true, false)
  | _ => (true, true)

theorem wordMarks_word (hF : AreWritten F) (hv : v.IsPlain F) {s : String} (hs : v.word? = some s) :
    wordMarks s = v.marks := by
  cases hv with
  | none =>
      obtain rfl := Option.some.inj hs
      decide
  | bool b =>
      obtain rfl := Option.some.inj hs
      exact wordMarks_bool b
  | int _ =>
      obtain rfl := Option.some.inj hs
      exact wordMarks_int _
  | float hx =>
      obtain rfl := Option.some.inj hs
      exact wordMarks_float (hF.finite _ hx)
  | str | list | dict => cases hs

theorem ofFloat_of_isFinite {x : Binary64} (h : x.isFinite = true) :
    StableText.ofFloat x = x.text := by
  cases x with
  | nan => cases h
  | infinite negative => cases h
  | finite negative m => rfl

/-- Constants and numbers are what they are written as. -/
theorem same_of_word (hF : AreWritten F) (hv : v.IsPlain F) (hw : w.IsPlain F) {s : String}
    (hvs : v.word? = some s) (hws : w.word? = some s) : Same v w := by
  have hmarks : v.marks = w.marks :=
    (wordMarks_word hF hv hvs).symm.trans (wordMarks_word hF hw hws)
  have hwords := hvs.trans hws.symm
  cases hv with
  | none =>
      cases hw with
      | none => exact .none
      | str | list | dict => cases hws
      | _ => cases hmarks
  | bool b =>
      cases hw with
      | bool c =>
          have heq : b = c := by
            revert hwords
            cases b <;> cases c <;> decide
          exact heq ▸ .bool b
      | str | list | dict => cases hws
      | _ => cases hmarks
  | @int m _ =>
      cases hw with
      | @int n _ =>
          have heq : m = n := toString_int_inj (Option.some.inj hwords)
          exact heq ▸ .int m
      | str | list | dict => cases hws
      | _ => cases hmarks
  | @float x hx =>
      cases hw with
      | @float y hy =>
          have htext : x.text = y.text := by
            rw [← ofFloat_of_isFinite (hF.finite x hx), ← ofFloat_of_isFinite (hF.finite y hy)]
            exact Option.some.inj hwords
          exact hF.inj x y hx hy htext ▸ .float x
      | str | list | dict => cases hws
      | _ => cases hmarks
  | str | list | dict => cases hvs

/-! ## Outlines -/

theorem outline_word (hv : v.IsPlain F) {s : String} (h : v.word? = some s) :
    ∃ hs, v.outline = .ok (.word (.ofText s hs)) := by
  cases hv with
  | none | bool _ | float _ =>
      obtain rfl := Option.some.inj h
      exact ⟨_, rfl⟩
  | int hn =>
      obtain rfl := Option.some.inj h
      exact ⟨_, StableText.intTree_ok hn⟩
  | str | list | dict => cases h

/-- Entries under different texts have their outlines in the order of the
texts. -/
theorem outline_dict {es : Entries} {us : List (String × Tree)}
    (h : List.Forall₂ (fun e u => e.1 = .str u.1 ∧ e.2.outline = .ok u.2) es us)
    (hdistinct : (us.map (·.1)).Nodup) :
    (Value.dict es).outline
      = .ok (.object (us.mergeSort fun a b => textBelow a.1 b.1)) := by
  have hentries : ∃ cs, canonicalEntries es = .ok cs ∧
      StableText.entryTrees cs = us.map StableText.textEntry ∧
        cs.map (·.1) = us.map fun u => .str u.1 := by
    clear hdistinct
    induction h with
    | nil => exact ⟨[], rfl, rfl, rfl⟩
    | @cons e u es us hu _ ih =>
        obtain ⟨key, v⟩ := e
        obtain ⟨rfl, hv⟩ := hu
        obtain ⟨c, hc, htree⟩ := bind_eq_ok.mp hv
        obtain ⟨cs, hcs, htrees, hkeys⟩ := ih
        refine ⟨(.str u.1, c) :: cs, ?_, ?_, ?_⟩
        · rw [canonicalEntries, hc, hcs]
          rfl
        · rw [StableText.entryTrees, htree, htrees]
          rfl
        · rw [List.map_cons, List.map_cons, hkeys]
  obtain ⟨cs, hcs, htrees, hkeys⟩ := hentries
  have hfresh : cs.Pairwise fun a b => sameKey a.1 b.1 = false := by
    have hpairs : (us.map fun u => Value.str u.1).Pairwise fun a b => sameKey a b = false :=
      List.pairwise_map.mpr ((List.pairwise_map.mp hdistinct).imp sameKey_str_ne)
    rw [← hkeys] at hpairs
    exact List.pairwise_map.mp hpairs
  rw [outline, canonical, hcs, ok_bind, pure_eq, ok_bind, Entries.ofList_eq hfresh,
    StableText.tree, htrees, StableText.objectTree_texts]

/-- Texts are different where the keys that they stand for are. -/
theorem nodup_texts {es : Entries} {us : List (String × Tree)}
    (h : List.Forall₂ (fun e u => e.1 = .str u.1) es us) (hdistinct : (es.map (·.1)).Nodup) :
    (us.map (·.1)).Nodup := by
  have hmap : es.map (·.1) = us.map fun u => .str u.1 := by
    clear hdistinct
    induction h with
    | nil => rfl
    | cons hu _ ih => rw [List.map_cons, List.map_cons, ih, hu]
  rw [hmap] at hdistinct
  exact List.Nodup.of_map Value.str (by rwa [List.map_map])

/-- Plain values have outlines, and the same values have one. -/
theorem IsPlain.outline_ok (h : v.IsPlain F) :
    ∃ t, v.outline = .ok t ∧ ∀ w, Same v w → w.outline = .ok t := by
  induction h with
  | none | bool _ | float _ | str _ =>
      refine ⟨_, rfl, fun w hw => ?_⟩
      cases hw
      rfl
  | int hn =>
      refine ⟨_, StableText.intTree_ok hn, fun w hw => ?_⟩
      cases hw
      exact StableText.intTree_ok hn
  | list _ ih =>
      obtain ⟨ts, hts⟩ := exists_forall₂ ih
      refine ⟨.list ts, outline_list.mpr ⟨ts, rfl, hts.imp fun _ _ h => h.1⟩, fun w hw => ?_⟩
      cases hw with
      | list hitems =>
          exact outline_list.mpr
            ⟨ts, rfl, forall₂_trans (fun _ _ _ _ _ hsame h => h.2 _ hsame) hitems hts⟩
  | @dict entries hkeys hdistinct _ ih =>
      have htrees : ∀ e ∈ entries, ∃ u : String × Tree, e.1 = .str u.1 ∧ e.2.outline = .ok u.2 ∧
          ∀ w, Same e.2 w → w.outline = .ok u.2 := by
        intro e he
        obtain ⟨s, hs⟩ := hkeys e he
        obtain ⟨t, ht⟩ := ih e he
        exact ⟨(s, t), hs, ht⟩
      obtain ⟨us, hus⟩ := exists_forall₂ htrees
      have hnames := nodup_texts (hus.imp fun _ _ h => h.1) hdistinct
      refine ⟨_, outline_dict (hus.imp fun _ _ h => ⟨h.1, h.2.1⟩) hnames, fun w hw => ?_⟩
      cases hw with
      | @dict _ fs gs hentries horder =>
          have hfs : List.Forall₂ (fun e u => e.1 = .str u.1 ∧ e.2.outline = .ok u.2) fs us := by
            refine forall₂_trans (fun e f _ u _ hsame h => ?_) hentries hus
            cases hsame with
            | under key hvalue => exact ⟨h.1, h.2.2 _ hvalue⟩
          obtain ⟨us', hgs, hperm⟩ := List.perm_comp_forall₂ horder.symm hfs
          rw [outline_dict hgs ((hperm.map (·.1)).nodup_iff.mpr hnames),
            mergeSort_congr hnames hperm]

theorem entry_outlines {es : Entries} (hkeys : ∀ e ∈ es, ∃ s, e.1 = .str s)
    (hvalues : ∀ e ∈ es, IsPlain F e.2) :
    ∃ us : List (String × Tree),
      List.Forall₂ (fun e u => e.1 = .str u.1 ∧ e.2.outline = .ok u.2) es us :=
  exists_forall₂ fun e he => by
    obtain ⟨s, hs⟩ := hkeys e he
    obtain ⟨t, ht, -⟩ := (hvalues e he).outline_ok
    exact ⟨(s, t), hs, ht⟩

/-- The outline of a dictionary is an object. -/
theorem exists_object {es : Entries} {t : Tree} (h : (Value.dict es).outline = .ok t) :
    ∃ us, t = .object us := by
  obtain ⟨c, hc, h⟩ := bind_eq_ok.mp h
  obtain ⟨cs, -, hc⟩ := bind_eq_ok.mp hc
  obtain rfl := Except.ok.inj hc
  unfold StableText.tree StableText.objectTree at h
  split at h
  · obtain ⟨sorted, -, h⟩ := bind_eq_ok.mp h
    exact ⟨sorted, (Except.ok.inj h).symm⟩
  · cases h

/-- What kind of outline a plain value has. -/
theorem IsPlain.outline_cases (h : v.IsPlain F) {t : Tree} (ht : v.outline = .ok t) :
    (∃ s hs, v.word? = some s ∧ t = .word (.ofText s hs)) ∨ (∃ s, v = .str s ∧ t = .text s) ∨
      (∃ items ts, v = .list items ∧ t = .list ts) ∨ ∃ es us, v = .dict es ∧ t = .object us := by
  cases h with
  | none | bool _ | float _ => exact .inl ⟨_, _, rfl, (Except.ok.inj ht).symm⟩
  | int hn =>
      exact .inl ⟨_, _, rfl, Except.ok.inj (ht.symm.trans (StableText.intTree_ok hn))⟩
  | str s => exact .inr (.inl ⟨s, rfl, (Except.ok.inj ht).symm⟩)
  | list hitems =>
      obtain ⟨ts, rfl, -⟩ := outline_list.mp ht
      exact .inr (.inr (.inl ⟨_, ts, rfl, rfl⟩))
  | dict hkeys hdistinct hvalues =>
      obtain ⟨us, rfl⟩ := exists_object ht
      exact .inr (.inr (.inr ⟨_, us, rfl, rfl⟩))

theorem same_of_outline_word (hF : AreWritten F) (hv : v.IsPlain F) (hw : w.IsPlain F)
    {s : String} {t : Tree} (hs : v.word? = some s) (hvt : v.outline = .ok t)
    (hwt : w.outline = .ok t) : Same v w := by
  obtain ⟨hspells, hword⟩ := outline_word hv hs
  obtain rfl := Except.ok.inj (hword.symm.trans hvt)
  obtain ⟨s', hs', hws, heq⟩ | ⟨s', -, heq⟩ | ⟨_, _, -, heq⟩ | ⟨_, _, -, heq⟩ :=
    hw.outline_cases hwt
  · have htext := congrArg Tree.render heq
    rw [StableText.render_word, StableText.render_word] at htext
    exact same_of_word hF hv hw hs (htext ▸ hws)
  · cases heq
  · cases heq
  · cases heq

/-- Plain values with one outline are the same. -/
theorem IsPlain.same (hF : AreWritten F) (hv : v.IsPlain F) {t : Tree} (hw : w.IsPlain F)
    (hvt : v.outline = .ok t) (hwt : w.outline = .ok t) : Same v w := by
  induction hv generalizing w t with
  | none => exact same_of_outline_word hF .none hw rfl hvt hwt
  | bool b => exact same_of_outline_word hF (.bool b) hw rfl hvt hwt
  | int hn => exact same_of_outline_word hF (.int hn) hw rfl hvt hwt
  | float hx => exact same_of_outline_word hF (.float hx) hw rfl hvt hwt
  | str s =>
      obtain rfl := Except.ok.inj hvt
      obtain ⟨_, _, -, heq⟩ | ⟨s', rfl, heq⟩ | ⟨_, _, -, heq⟩ | ⟨_, _, -, heq⟩ :=
        hw.outline_cases hwt
      · cases heq
      · exact Tree.text.inj heq ▸ .str s
      · cases heq
      · cases heq
  | @list items hitems ih =>
      obtain ⟨ts, rfl, hts⟩ := outline_list.mp hvt
      obtain ⟨_, _, -, heq⟩ | ⟨_, -, heq⟩ | ⟨ws, ts', rfl, heq⟩ | ⟨_, _, -, heq⟩ :=
        hw.outline_cases hwt
      · cases heq
      · cases heq
      · obtain rfl := Tree.list.inj heq
        obtain ⟨us, heq', hus⟩ := outline_list.mp hwt
        obtain rfl := Tree.list.inj heq'
        cases hw with
        | list hws =>
            refine .list (forall₂_trans (fun u v hv w hw hvu hwu => ?_) hts.flip hus.flip)
            exact ih v hv (hws w hw) hvu hwu
      · cases heq
  | @dict es hkeys hdistinct hvalues ih =>
      obtain ⟨_, rfl⟩ := exists_object hvt
      obtain ⟨_, _, -, heq⟩ | ⟨_, -, heq⟩ | ⟨_, _, -, heq⟩ | ⟨gs, _, rfl, -⟩ :=
        hw.outline_cases hwt
      · cases heq
      · cases heq
      · cases heq
      · cases hw with
        | dict hkeys' hdistinct' hvalues' =>
            obtain ⟨us, hus⟩ := entry_outlines hkeys hvalues
            obtain ⟨us', hus'⟩ := entry_outlines hkeys' hvalues'
            rw [outline_dict hus (nodup_texts (hus.imp fun _ _ h => h.1) hdistinct)] at hvt
            rw [outline_dict hus' (nodup_texts (hus'.imp fun _ _ h => h.1) hdistinct')] at hwt
            have hsorted := Tree.object.inj (Except.ok.inj (hvt.trans hwt.symm))
            have hperm : us.Perm us' :=
              ((List.mergeSort_perm us _).symm.trans (.of_eq hsorted)).trans
                (List.mergeSort_perm us' _)
            obtain ⟨fs, hfs, horder⟩ := List.perm_comp_forall₂ hperm hus'.flip
            refine .dict (forall₂_trans (fun u e he f hf heu hfu => ?_) hus.flip hfs) horder
            obtain ⟨key, v⟩ := e
            obtain ⟨key', w⟩ := f
            obtain rfl : key = key' := heu.1.trans hfu.1.symm
            exact .under key (ih _ he (hvalues' _ (horder.subset hf)) heu.2 hfu.2)

theorem IsPlain.not_callable (h : v.IsPlain F) : v.isCallable = false := by
  cases h <;> rfl

/-- The token of a value that has one. -/
def tokenText (v : Value) : String :=
  match v.token with
  | .ok s => s
  | .error _ => ""

theorem IsPlain.token_ok (h : v.IsPlain F) : v.token = .ok v.tokenText := by
  obtain ⟨t, ht, -⟩ := h.outline_ok
  rw [tokenText, Value.token_ok h.not_callable ht]

/-- Plain values have one token exactly when they are the same. -/
theorem tokenText_eq_iff (hF : AreWritten F) (hv : v.IsPlain F) (hw : w.IsPlain F) :
    v.tokenText = w.tokenText ↔ Same v w := by
  constructor
  · intro h
    obtain ⟨t, hvt, hwt⟩ :=
      outline_eq_of_token hv.not_callable hw.not_callable hv.token_ok (h ▸ hw.token_ok)
    exact hv.same hF hw hvt hwt
  · intro h
    obtain ⟨t, ht, hsame⟩ := hv.outline_ok
    rw [tokenText, tokenText, Value.token_ok hv.not_callable ht,
      Value.token_ok hw.not_callable (hsame w h)]

end Value

/-! ## Attributes -/

namespace Attributes

/-- Plain values under different names, none of them private and none with an
equals sign or a line feed. -/
structure IsPlain (F : Binary64 → Prop) (attrs : Attributes) : Prop where
  names : AreNames (attrs.map (·.1))
  distinct : (attrs.map (·.1)).Nodup
  values : ∀ e ∈ attrs, e.2.IsPlain F

/-- The same values under the same names. -/
structure Same (attrs attrs' : Attributes) : Prop where
  names : ∀ name, name ∈ attrs.map (·.1) ↔ name ∈ attrs'.map (·.1)
  values : ∀ name v w, (name, v) ∈ attrs → (name, w) ∈ attrs' → v.Same w

variable {F : Binary64 → Prop} {attrs attrs' : Attributes}

/-- The names with the tokens. -/
def tokens (attrs : Attributes) : List (String × String) := attrs.map fun e => (e.1, e.2.tokenText)

theorem IsPlain.lines_eq (h : attrs.IsPlain F) :
    attrs.lines = .ok ((attrs.tokens.mergeSort fun a b => textBelow a.1 b.1).map
      fun u => u.1 ++ "=" ++ u.2) := by
  have hpublic := sortedPublic_of_public fun e he => (h.names e.1 (List.mem_map_of_mem he)).2.2
  have hline : ∀ e ∈ attrs.mergeSort fun a b => textBelow a.1 b.1,
      line e = .ok (e.1 ++ "=" ++ e.2.tokenText) := by
    intro e he
    rw [line, (h.values e (List.mem_mergeSort.mp he)).token_ok]
    rfl
  rw [lines, hpublic, tokens, ← map_mergeSort_text (fun e => (e.1, e.2.tokenText)) (·.1) attrs,
    List.map_map]
  exact mapM_eq_map hline

theorem IsPlain.areClear (h : attrs.IsPlain F) (hne : attrs ≠ []) {names : List String}
    (hnames : ∀ e ∈ attrs, e.1 ∈ names) : AreClear names attrs := by
  refine ⟨hnames, fun e he token htoken => ?_, hne⟩
  obtain ⟨t, -, rfl⟩ := Value.outline_of_token (h.values e he).not_callable htoken
  exact isClear_render names t

/-- Only without attributes there is no text. -/
theorem IsPlain.eq_nil (h : attrs.IsPlain F) {ls : List String} (hls : attrs.lines = .ok ls)
    (htext : "\n".intercalate ls = "") : attrs = [] := by
  by_contra hne
  obtain ⟨e, he⟩ := List.exists_mem_of_ne_nil attrs hne
  have hequals := equals_mem_text hls he (h.names e.1 (List.mem_map_of_mem he)).2.2
  rw [htext] at hequals
  cases hequals

/-- The same attributes have the same tokens under the same names. -/
theorem Same.tokens_perm (hF : AreWritten F) (h : attrs.IsPlain F) (h' : attrs'.IsPlain F)
    (hsame : attrs.Same attrs') : attrs.tokens.Perm attrs'.tokens := by
  have htokens : ∀ name v w, (name, v) ∈ attrs → (name, w) ∈ attrs' → v.tokenText = w.tokenText :=
    fun name v w hv hw =>
      (Value.tokenText_eq_iff hF (h.values _ hv) (h'.values _ hw)).mpr (hsame.values name v w hv hw)
  have hnodup : ∀ {as : Attributes}, (as.map (·.1)).Nodup → as.tokens.Nodup := by
    intro as has
    refine List.Nodup.of_map Prod.fst ?_
    rw [tokens, List.map_map]
    exact has
  rw [List.perm_ext_iff_of_nodup (hnodup h.distinct) (hnodup h'.distinct)]
  rintro ⟨name, token⟩
  constructor
  · intro hmem
    obtain ⟨⟨_, v⟩, hv, heq⟩ := List.mem_map.mp hmem
    obtain ⟨rfl, rfl⟩ := Prod.mk.inj heq
    obtain ⟨⟨_, w⟩, hw, rfl⟩ := List.mem_map.mp ((hsame.names _).mp (List.mem_map_of_mem hv))
    exact List.mem_map.mpr ⟨_, hw, Prod.ext rfl (htokens _ _ _ hv hw).symm⟩
  · intro hmem
    obtain ⟨⟨_, w⟩, hw, heq⟩ := List.mem_map.mp hmem
    obtain ⟨rfl, rfl⟩ := Prod.mk.inj heq
    obtain ⟨⟨_, v⟩, hv, rfl⟩ := List.mem_map.mp ((hsame.names _).mpr (List.mem_map_of_mem hw))
    exact List.mem_map.mpr ⟨_, hv, Prod.ext rfl (htokens _ _ _ hv hw)⟩

/-- One text has the same values under the names that it has. -/
theorem same_of_text (hF : AreWritten F) (h : attrs.IsPlain F) (h' : attrs'.IsPlain F)
    {ls ls' : List String} (hls : attrs.lines = .ok ls) (hls' : attrs'.lines = .ok ls')
    (htext : "\n".intercalate ls = "\n".intercalate ls') (hne : attrs ≠ []) (hne' : attrs' ≠ []) :
    attrs.Same attrs' := by
  have hnames : AreNames (attrs.map (·.1) ++ attrs'.map (·.1)) := fun name hname =>
    (List.mem_append.mp hname).elim (h.names name) (h'.names name)
  have hclear := h.areClear hne fun e he => List.mem_append_left (attrs'.map (·.1))
    (List.mem_map_of_mem (f := Prod.fst) he)
  have hclear' := h'.areClear hne' fun e he => List.mem_append_right (attrs.map (·.1))
    (List.mem_map_of_mem (f := Prod.fst) he)
  constructor
  · intro name
    constructor
    · intro hname
      obtain ⟨⟨_, v⟩, hv, rfl⟩ := List.mem_map.mp hname
      obtain ⟨w, -, hw, -, -⟩ := token_of_text hnames hclear hclear' hls hls' htext hv
      exact List.mem_map.mpr ⟨_, hw, rfl⟩
    · intro hname
      obtain ⟨⟨_, w⟩, hw, rfl⟩ := List.mem_map.mp hname
      obtain ⟨v, -, hv, -, -⟩ := token_of_text hnames hclear' hclear hls' hls htext.symm hw
      exact List.mem_map.mpr ⟨_, hv, rfl⟩
  · intro name v w hv hw
    obtain ⟨w', token, hw', hvt, hwt⟩ := token_of_text hnames hclear hclear' hls hls' htext hv
    have heq := List.inj_on_of_nodup_map h'.distinct hw hw' rfl
    obtain rfl := (Prod.mk.inj heq).2
    have htoken := (h.values _ hv).token_ok.symm.trans hvt
    have htoken' := (h'.values _ hw).token_ok.symm.trans hwt
    exact (Value.tokenText_eq_iff hF (h.values _ hv) (h'.values _ hw)).mp
      (Except.ok.inj (htoken.trans htoken'.symm))

/-- Plain attributes have one digested text exactly when they have the same
names and the same values. -/
theorem digested_eq_iff (hF : AreWritten F) (h : attrs.IsPlain F) (h' : attrs'.IsPlain F) :
    ∃ text text', attrs.digested = .ok text ∧ attrs'.digested = .ok text' ∧
      (text = text' ↔ attrs.Same attrs') := by
  have hls := h.lines_eq
  have hls' := h'.lines_eq
  refine ⟨_, _, by rw [digested, hls]; rfl, by rw [digested, hls']; rfl, ?_, ?_⟩
  · intro htext
    have hempty : ((tokens []).mergeSort fun a b => textBelow a.1 b.1) = [] :=
      List.mergeSort_nil
    by_cases hne : attrs = []
    · subst hne
      rw [hempty] at htext
      obtain rfl := h'.eq_nil hls' htext.symm
      exact ⟨fun _ => Iff.rfl, fun _ _ _ hv => absurd hv List.not_mem_nil⟩
    by_cases hne' : attrs' = []
    · subst hne'
      rw [hempty] at htext
      exact absurd (h.eq_nil hls htext) hne
    exact same_of_text hF h h' hls hls' htext hne hne'
  · intro hsame
    have hnodup : (attrs.tokens.map (·.1)).Nodup := by
      rw [tokens, List.map_map]
      exact h.distinct
    rw [mergeSort_congr hnodup (hsame.tokens_perm hF h h').symm]

/-- A zero with either sign. -/
def IsZero (x : Binary64) : Prop := ∃ b, x = .zero b

/-- The order of names and keys does not show, the sign of a zero does. -/
theorem digested_zeros :
    (∃ text text',
      digested [("max", .int 1), ("enum", .dict [(.str "a", .none), (.str "b", .bool true)])]
        = .ok text ∧
      digested [("enum", .dict [(.str "b", .bool true), (.str "a", .none)]), ("max", .int 1)]
        = .ok text' ∧ text = text') ∧
    ∃ text text', digested [("max", .float (.zero false))] = .ok text ∧
      digested [("max", .float (.zero true))] = .ok text' ∧ text ≠ text' := by
  have hzeros : AreWritten IsZero := by
    constructor
    · rintro x ⟨b, rfl⟩
      rfl
    · rintro x y ⟨b, rfl⟩ ⟨c, rfl⟩ h
      revert h
      cases b <;> cases c <;> decide
  have hmax : AreNames ["max"] := by decide
  have hsingle : ∀ b, IsPlain IsZero [("max", .float (.zero b))] := by
    refine fun b => ⟨hmax, List.nodup_singleton _, fun e he => ?_⟩
    rw [List.mem_singleton.mp he]
    exact .float ⟨b, rfl⟩
  have hplain : IsPlain IsZero
      [("max", .int 1), ("enum", .dict [(.str "a", .none), (.str "b", .bool true)])] := by
    refine ⟨by decide, by decide, ?_⟩
    simpa using ⟨.int rfl, .dict (by simp) (by simp) (by simpa using ⟨.none, .bool true⟩)⟩
  have hplain' : IsPlain IsZero
      [("enum", .dict [(.str "b", .bool true), (.str "a", .none)]), ("max", .int 1)] := by
    refine ⟨by decide, by decide, ?_⟩
    simpa using ⟨.dict (by simp) (by simp) (by simpa using ⟨.bool true, .none⟩), .int rfl⟩
  constructor
  · obtain ⟨text, text', h, h', hiff⟩ := digested_eq_iff hzeros hplain hplain'
    refine ⟨text, text', h, h', hiff.mpr ⟨?_, ?_⟩⟩
    · intro name
      simp [or_comm]
    · intro name v w hv hw
      simp only [List.mem_cons, Prod.mk.injEq, List.not_mem_nil, or_false] at hv hw
      rcases hv with ⟨rfl, rfl⟩ | ⟨rfl, rfl⟩
      · obtain rfl := (hw.resolve_left fun h => absurd h.1 (by decide)).2
        exact .int 1
      · obtain rfl := (hw.resolve_right fun h => absurd h.1 (by decide)).2
        exact .dict (.cons (.under _ .none) (.cons (.under _ (.bool true)) .nil)) (.swap _ _ [])
  · obtain ⟨text, text', h, h', hiff⟩ := digested_eq_iff hzeros (hsingle false) (hsingle true)
    refine ⟨text, text', h, h', fun heq => ?_⟩
    cases (hiff.mp heq).values "max" _ _ List.mem_cons_self List.mem_cons_self

theorem digested_of_unwritable {n : Int} (hn : Number.isWritable n = false) :
    digested [("max", .int n)] = .error .badValue := by
  have hpublic : ∀ e ∈ [("max", Value.int n)], isPublic e.1 = true :=
    List.forall_mem_singleton.mpr (by decide : isPublic "max" = true)
  have hline : line ("max", .int n) = .error .badValue := by
    show (Number.text n >>= fun token => pure ("max=" ++ token)) = _
    rw [Number.text_error hn]
    rfl
  rw [digested, lines, sortedPublic_of_public hpublic, List.mergeSort_singleton, List.mapM_cons,
    hline]
  rfl

/-- An integer with too many digits is the same as itself, but has no text. -/
theorem undigested_beyondDigits :
    Same [("max", .int Number.beyondDigits)] [("max", .int Number.beyondDigits)] ∧
      digested [("max", .int Number.beyondDigits)] = .error .badValue := by
  refine ⟨⟨fun _ => Iff.rfl, fun name v w hv hw => ?_⟩,
    digested_of_unwritable Number.isWritable_beyondDigits⟩
  obtain ⟨-, rfl⟩ := Prod.mk.inj (List.mem_singleton.mp hv)
  obtain ⟨-, rfl⟩ := Prod.mk.inj (List.mem_singleton.mp hw)
  exact .int _

end Attributes

end Conform
