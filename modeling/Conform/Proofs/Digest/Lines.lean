/-
# `Proofs.Digest.Lines` — what a digested text says

The digested text of a schema has a line for each public attribute, and that of
alternatives is their digests in a row.  Both can be read back: digests are of
one length and hold no equals sign, and a line belongs to the attribute whose
name it begins with.  A token of several lines, which only a callable has, must
not have a later line that begins like an attribute.
-/
import Conform.Digest.Attributes
import Conform.Proofs.Digest.Outline

namespace Conform

/-! ## Digests in a row -/

namespace Sha256

theorem hexPadded_length {width n : Nat} (hwidth : 0 < width) (h : n < 16 ^ width) :
    (Text.hexPadded width n).length = width := by
  have hle : (Nat.toDigits 16 n).length ≤ width :=
    (Nat.length_toDigits_le_iff (by decide) hwidth).mpr h
  rw [Text.hexPadded, List.length_append, List.length_replicate]
  omega

/-- The digits of base sixteen. -/
def hexDigits : List Char := "0123456789abcdef".toList

theorem mem_toDigits (n : Nat) : ∀ c ∈ Nat.toDigits 16 n, c ∈ hexDigits := by
  have hdigit : ∀ d < 16, Nat.digitChar d ∈ hexDigits := by decide
  induction n using Nat.strongRecOn with
  | ind n ih =>
      intro c h
      rw [Nat.toDigits_eq_if (by decide)] at h
      split at h
      · rename_i hn
        exact List.mem_singleton.mp h ▸ hdigit n hn
      · rename_i hn
        rcases List.mem_append.mp h with h | h
        · exact ih (n / 16) (by omega) c h
        · exact List.mem_singleton.mp h ▸ hdigit (n % 16) (by omega)

theorem mem_hexPadded (width n : Nat) : ∀ c ∈ Text.hexPadded width n, c ∈ hexDigits := by
  intro c h
  rcases List.mem_append.mp h with h | h
  · rw [(List.mem_replicate.mp h).2]
    decide
  · exact mem_toDigits n c h

theorem hexDigest_length (s : String) : (hexDigest s).toList.length = 64 := by
  have hword : ∀ w : UInt32, (Text.hexPadded 8 w.toNat).length = 8 := fun w =>
    hexPadded_length (by decide) w.toNat_lt
  simp [hexDigest, Chain.hex, hword]

theorem mem_hexDigest (s : String) : ∀ c ∈ (hexDigest s).toList, c ∈ hexDigits := by
  intro c h
  rw [hexDigest, Chain.hex, String.toList_ofList] at h
  obtain ⟨w, -, hw⟩ := List.mem_flatMap.mp h
  exact mem_hexPadded _ _ c hw

theorem equals_hexDigest (s : String) : '=' ∉ (hexDigest s).toList := fun h =>
  absurd (mem_hexDigest s _ h) (by decide)

end Sha256

/-- Texts of one length are told apart in a row. -/
theorem join_inj {n : Nat} (hn : 0 < n) :
    ∀ {xs ys : List String}, (∀ x ∈ xs, x.toList.length = n) → (∀ y ∈ ys, y.toList.length = n) →
      String.join xs = String.join ys → xs = ys := by
  have hchars : ∀ {xs ys : List String}, (∀ x ∈ xs, x.toList.length = n) →
      (∀ y ∈ ys, y.toList.length = n) → xs.flatMap String.toList = ys.flatMap String.toList →
        xs = ys := by
    intro xs
    induction xs with
    | nil =>
        intro ys _ hy h
        cases ys with
        | nil => rfl
        | cons y ys =>
            have hlength := hy y List.mem_cons_self
            rw [List.flatMap_cons] at h
            rw [(List.append_eq_nil_iff.mp h.symm).1, List.length_nil] at hlength
            omega
    | cons x xs ih =>
        intro ys hx hy h
        have hlength := hx x List.mem_cons_self
        cases ys with
        | nil =>
            rw [List.flatMap_cons] at h
            rw [(List.append_eq_nil_iff.mp h).1, List.length_nil] at hlength
            omega
        | cons y ys =>
            rw [List.flatMap_cons, List.flatMap_cons] at h
            obtain ⟨hhead, htail⟩ :=
              List.append_inj h (hlength.trans (hy y List.mem_cons_self).symm)
            rw [String.toList_inj.mp hhead,
              ih (fun z hz => hx z (List.mem_cons_of_mem _ hz))
                (fun z hz => hy z (List.mem_cons_of_mem _ hz)) htail]
  intro xs ys hx hy h
  refine hchars hx hy ?_
  rw [← String.toList_join, ← String.toList_join, h]

/-! ## Lines in a text -/

section blocks

variable {α : Type} {p : α → Bool}

/-- A first line that opens a block, and others that do not. -/
def IsBlock (p : α → Bool) (block : List α) : Prop :=
  ∃ first rest, block = first :: rest ∧ p first = true ∧ ∀ l ∈ rest, p l = false

/-- Where a block ends, nothing follows or another one opens. -/
theorem takeWhile_block {rest : List α} {blocks : List (List α)} (hrest : ∀ l ∈ rest, p l = false)
    (hblocks : ∀ b ∈ blocks, IsBlock p b) :
    (rest ++ blocks.flatten).takeWhile (fun l => !p l) = rest := by
  have hall : ∀ l ∈ rest, (!p l) = true := fun l hl => by rw [hrest l hl]; rfl
  have hnext : blocks.flatten.takeWhile (fun l => !p l) = [] := by
    cases blocks with
    | nil => rfl
    | cons b bs =>
        obtain ⟨first, others, rfl, hfirst, -⟩ := hblocks b List.mem_cons_self
        simp [hfirst]
  rw [List.takeWhile_append_of_pos hall, hnext, List.append_nil]

/-- Blocks are told apart by how they open. -/
theorem blocks_inj {bs cs : List (List α)} (hb : ∀ b ∈ bs, IsBlock p b) (hc : ∀ c ∈ cs, IsBlock p c)
    (h : bs.flatten = cs.flatten) : bs = cs := by
  induction bs generalizing cs with
  | nil =>
      cases cs with
      | nil => rfl
      | cons c cs =>
          obtain ⟨first, rest, rfl, -, -⟩ := hc c List.mem_cons_self
          cases h
  | cons b bs ih =>
      obtain ⟨first, rest, rfl, hfirst, hrest⟩ := hb b List.mem_cons_self
      cases cs with
      | nil => cases h
      | cons c cs =>
          obtain ⟨first', rest', rfl, hfirst', hrest'⟩ := hc c List.mem_cons_self
          rw [List.flatten_cons, List.flatten_cons, List.cons_append, List.cons_append] at h
          obtain ⟨rfl, htail⟩ := List.cons.inj h
          have hbs : ∀ b ∈ bs, IsBlock p b := fun b hm => hb b (List.mem_cons_of_mem _ hm)
          have hcs : ∀ c ∈ cs, IsBlock p c := fun c hm => hc c (List.mem_cons_of_mem _ hm)
          have heq : rest = rest' := by
            rw [← takeWhile_block hrest hbs, htail, takeWhile_block hrest' hcs]
          subst heq
          rw [ih hbs hcs (List.append_cancel_left htail)]

end blocks

/-- The lines of joined texts are those of each. -/
theorem splitOn_intercalate_flatMap {ls : List (List Char)} (h : ls ≠ []) :
    (['\n'].intercalate ls).splitOn '\n' = ls.flatMap (List.splitOn '\n') := by
  induction ls with
  | nil => exact absurd rfl h
  | cons l rest ih =>
      cases rest with
      | nil => simp
      | cons m rest =>
          rw [List.intercalate_cons_cons, List.append_assoc, List.singleton_append,
            List.splitOn_append_cons_self, ih (List.cons_ne_nil _ _)]
          rfl

theorem mem_intercalate {sep l : List Char} {c : Char} (hc : c ∈ l) {ls : List (List Char)}
    (h : l ∈ ls) : c ∈ sep.intercalate ls := by
  induction ls with
  | nil => cases h
  | cons m rest ih =>
      cases rest with
      | nil =>
          rw [List.intercalate_singleton, ← List.mem_singleton.mp h]
          exact hc
      | cons m' rest =>
          rw [List.intercalate_cons_cons]
          rcases List.mem_cons.mp h with rfl | h
          · exact List.mem_append_left _ (List.mem_append_left _ hc)
          · exact List.mem_append_right _ (ih h)

/-- Texts that open and do not open again are told apart when they are joined by
line feeds. -/
theorem intercalate_inj {p : List Char → Bool} {xs ys : List String}
    (hx : ∀ x ∈ xs, IsBlock p (x.toList.splitOn '\n'))
    (hy : ∀ y ∈ ys, IsBlock p (y.toList.splitOn '\n')) (hxs : xs ≠ []) (hys : ys ≠ [])
    (h : "\n".intercalate xs = "\n".intercalate ys) : xs = ys := by
  have hlines : ∀ zs : List String, zs ≠ [] →
      ("\n".intercalate zs).toList.splitOn '\n' = (zs.map fun z => z.toList.splitOn '\n').flatten := by
    intro zs hzs
    rw [String.toList_intercalate]
    show (['\n'].intercalate (zs.map String.toList)).splitOn '\n' = _
    rw [splitOn_intercalate_flatMap (by simpa using hzs), List.flatMap_map, List.flatMap_def]
  have hflat : (xs.map fun z => z.toList.splitOn '\n').flatten
      = (ys.map fun z => z.toList.splitOn '\n').flatten := by
    rw [← hlines xs hxs, ← hlines ys hys, h]
  have hmap := blocks_inj (List.forall_mem_map.mpr hx) (List.forall_mem_map.mpr hy) hflat
  refine List.map_injective_iff.mpr ?_ hmap
  intro s t hst
  have hjoin := congrArg (List.intercalate ['\n']) hst
  rw [List.intercalate_splitOn, List.intercalate_splitOn] at hjoin
  exact String.toList_inj.mp hjoin

/-! ## Lines of attributes -/

/-- The line of an attribute up to its token. -/
def opening (name : String) : List Char := name.toList ++ ['=']

/-- Whether a line begins like one of an attribute. -/
def opens (names : List String) (l : List Char) : Bool :=
  names.any fun name => (opening name).isPrefixOf l

/-- A token whose later lines do not begin like an attribute. -/
def IsClear (names : List String) (token : String) : Prop :=
  ∀ l ∈ (token.toList.splitOn '\n').tail, opens names l = false

theorem isClear_render (names : List String) (t : Tree) : IsClear names t.render := by
  have hline : t.render.toList.splitOn '\n' = [t.render.toList] :=
    List.splitOn_eq_singleton (by
      rw [Tree.render, String.toList_ofList]
      exact Tree.newline_chars t)
  intro l hl
  rw [hline] at hl
  cases hl

theorem splitOn_append {xs ys : List Char} (h : '\n' ∉ xs) :
    (xs ++ ys).splitOn '\n'
      = (xs ++ (ys.splitOn '\n').headD []) :: (ys.splitOn '\n').tail := by
  induction xs with
  | nil =>
      cases hys : ys.splitOn '\n' with
      | nil => exact absurd hys (List.splitOn_ne_nil _ _)
      | cons l ls => simp [hys]
  | cons x xs ih =>
      have hx : ('\n' == x) = false ∧ (x == '\n') = false := by
        refine ⟨?_, ?_⟩ <;> simp only [beq_eq_false_iff_ne] <;> rintro rfl
        · exact h List.mem_cons_self
        · exact h List.mem_cons_self
      rw [List.cons_append, List.splitOn_cons_eq_if_modifyHead, hx.2, if_neg Bool.false_ne_true,
        ih fun hm => h (List.mem_cons_of_mem _ hm)]
      rfl

/-- A line of an attribute is a block. -/
theorem isBlock_line {names : List String} {name token : String} (hname : name ∈ names)
    (hline : '\n' ∉ name.toList) (hclear : IsClear names token) :
    IsBlock (opens names) ((name ++ "=" ++ token).toList.splitOn '\n') := by
  have hopening : '\n' ∉ opening name := by
    intro h
    rcases List.mem_append.mp h with h | h
    · exact hline h
    · cases List.mem_singleton.mp h
  have hsplit : (name ++ "=" ++ token).toList.splitOn '\n'
      = (opening name ++ (token.toList.splitOn '\n').headD []) :: (token.toList.splitOn '\n').tail := by
    rw [String.toList_append, String.toList_append]
    exact splitOn_append hopening
  refine ⟨_, _, hsplit, ?_, hclear⟩
  exact List.any_eq_true.mpr ⟨name, hname, List.isPrefixOf_iff_prefix.mpr (List.prefix_append _ _)⟩

/-- The name of an attribute ends at the first equals sign. -/
theorem line_inj {name name' token token' : String} (h : '=' ∉ name.toList)
    (h' : '=' ∉ name'.toList) (heq : name ++ "=" ++ token = name' ++ "=" ++ token') :
    name = name' ∧ token = token' := by
  have hchars : name.toList ++ '=' :: token.toList = name'.toList ++ '=' :: token'.toList := by
    have htexts := congrArg String.toList heq
    simp only [String.toList_append, List.append_assoc] at htexts
    exact htexts
  have hsplit := congrArg (List.splitOn '=') hchars
  rw [List.splitOn_append_cons_self_of_not_mem h, List.splitOn_append_cons_self_of_not_mem h']
    at hsplit
  obtain rfl := String.toList_inj.mp (List.cons.inj hsplit).1
  have htoken := List.append_cancel_left hchars
  exact ⟨rfl, String.toList_inj.mp (List.cons.inj htoken).2⟩

namespace Attributes

/-- The text that is digested. -/
def digested (attrs : Attributes) : Except Fault String :=
  return "\n".intercalate (← attrs.lines)

theorem hash_eq (attrs : Attributes) : attrs.hash = Sha256.hexDigest <$> attrs.digested := by
  rw [hash, digested]
  cases attrs.lines <;> rfl

variable {attrs attrs' : Attributes} {ls : List String}

/-- Every public attribute has a line. -/
theorem mem_lines (h : attrs.lines = .ok ls) {e : String × Value} (he : e ∈ attrs)
    (hpublic : isPublic e.1 = true) :
    ∃ token, e.2.token = .ok token ∧ e.1 ++ "=" ++ token ∈ ls := by
  have hsorted : e ∈ attrs.sortedPublic :=
    List.mem_mergeSort.mpr (List.mem_filter.mpr ⟨he, hpublic⟩)
  obtain ⟨l, hl, hline⟩ := forall₂_mem_left (mapM_eq_ok.mp h) hsorted
  obtain ⟨token, htoken, hline⟩ := bind_eq_ok.mp hline
  exact ⟨token, htoken, Except.ok.inj hline ▸ hl⟩

/-- Every line is that of an attribute. -/
theorem of_mem_lines (h : attrs.lines = .ok ls) {l : String} (hl : l ∈ ls) :
    ∃ e ∈ attrs, ∃ token, e.2.token = .ok token ∧ l = e.1 ++ "=" ++ token := by
  obtain ⟨e, he, hline⟩ := forall₂_mem_right (mapM_eq_ok.mp h) hl
  obtain ⟨token, htoken, hline⟩ := bind_eq_ok.mp hline
  exact ⟨e, List.mem_of_mem_filter (List.mem_mergeSort.mp he), token, htoken,
    (Except.ok.inj hline).symm⟩

/-- A text with a line has an equals sign. -/
theorem equals_mem_text (h : attrs.lines = .ok ls) {e : String × Value} (he : e ∈ attrs)
    (hpublic : isPublic e.1 = true) : '=' ∈ ("\n".intercalate ls).toList := by
  obtain ⟨token, -, hline⟩ := mem_lines h he hpublic
  have hequals : '=' ∈ (e.1 ++ "=" ++ token).toList := by
    rw [String.toList_append, String.toList_append]
    exact List.mem_append_left _ (List.mem_append_right _ List.mem_cons_self)
  rw [String.toList_intercalate]
  exact mem_intercalate hequals (List.mem_map_of_mem hline)

/-- Names that stand before an equals sign in a line. -/
def AreNames (names : List String) : Prop :=
  ∀ name ∈ names, '=' ∉ name.toList ∧ '\n' ∉ name.toList ∧ isPublic name = true

instance (names : List String) : Decidable (AreNames names) :=
  inferInstanceAs (Decidable (∀ name ∈ names, _))

/-- Attributes under some names, with clear tokens. -/
structure AreClear (names : List String) (attrs : Attributes) : Prop where
  name : ∀ e ∈ attrs, e.1 ∈ names
  clear : ∀ e ∈ attrs, ∀ token, e.2.token = .ok token → IsClear names token
  nonempty : attrs ≠ []

theorem isBlock_of_mem_lines {names : List String} (hnames : AreNames names)
    (hclear : AreClear names attrs) (h : attrs.lines = .ok ls) :
    ∀ l ∈ ls, IsBlock (opens names) (l.toList.splitOn '\n') := by
  intro l hl
  obtain ⟨e, he, token, htoken, rfl⟩ := of_mem_lines h hl
  have hname := hclear.name e he
  exact isBlock_line hname (hnames _ hname).2.1 (hclear.clear e he token htoken)

theorem lines_ne_nil {names : List String} (hnames : AreNames names)
    (hclear : AreClear names attrs) (h : attrs.lines = .ok ls) : ls ≠ [] := by
  obtain ⟨e, he⟩ := List.exists_mem_of_ne_nil attrs hclear.nonempty
  obtain ⟨token, -, hline⟩ := mem_lines h he (hnames _ (hclear.name e he)).2.2
  exact List.ne_nil_of_mem hline

/-- Attributes with one digested text have the same tokens under every name. -/
theorem token_of_text {names : List String} {ls' : List String} (hnames : AreNames names)
    (hclear : AreClear names attrs) (hclear' : AreClear names attrs') (h : attrs.lines = .ok ls)
    (h' : attrs'.lines = .ok ls') (htext : "\n".intercalate ls = "\n".intercalate ls')
    {name : String} {v : Value} (hv : (name, v) ∈ attrs) :
    ∃ w token, (name, w) ∈ attrs' ∧ v.token = .ok token ∧ w.token = .ok token := by
  have hlines := intercalate_inj (isBlock_of_mem_lines hnames hclear h)
    (isBlock_of_mem_lines hnames hclear' h') (lines_ne_nil hnames hclear h)
    (lines_ne_nil hnames hclear' h') htext
  obtain ⟨token, htoken, hline⟩ := mem_lines h hv (hnames _ (hclear.name _ hv)).2.2
  rw [hlines] at hline
  obtain ⟨⟨name', w⟩, hw, token', htoken', heq⟩ := of_mem_lines h' hline
  obtain ⟨rfl, rfl⟩ := line_inj (hnames _ (hclear.name _ hv)).1
    (hnames _ (hclear'.name _ hw)).1 heq
  exact ⟨w, _, hw, htoken, htoken'⟩

end Attributes

end Conform
