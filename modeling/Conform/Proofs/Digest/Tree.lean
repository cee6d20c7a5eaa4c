/-
# `Proofs.Digest.Tree` — plain data is readable from its text

The text of plain data is that of a tree whose leaves are quoted texts and
bare words, numbers among them.  Such a text can be read back in one way
only, also when more text follows: a quoted text ends at the first quote
that is not escaped, a word at the first character that is none of a word,
and a list or an object at its own bracket.
-/
import Conform.Digest.StableText

namespace Conform

/-- A character of a bare word. -/
def isWordChar (c : Char) : Bool :=
  c != '"' && c != ',' && c != ':' && c != '[' && c != ']' && c != '\x7b' && c != '\x7d'
    && c != '\n'

/-- What is written without quotes: a number or a constant. -/
structure Word where
  chars : List Char
  nonempty : chars ≠ []
  plain : ∀ c ∈ chars, isWordChar c = true

/-- Plain data as it is written. -/
inductive Tree where
  | word (w : Word)
  | text (s : String)
  | list (items : List Tree)
  | object (entries : List (String × Tree))

/-- A text between quotes. -/
def quotedChars (s : String) : List Char := '"' :: (s.toList.flatMap StableText.escapeChar ++ ['"'])

namespace Tree

mutual

/-- The characters of a tree. -/
def chars : Tree → List Char
  | word w => w.chars
  | text s => quotedChars s
  | list items => '[' :: ((charsItems items).drop 1 ++ [']'])
  | object entries => '\x7b' :: ((charsEntries entries).drop 1 ++ ['\x7d'])
termination_by structural t => t

/-- The items, each after a comma. -/
def charsItems : List Tree → List Char
  | [] => []
  | t :: rest => ',' :: (t.chars ++ charsItems rest)
termination_by structural ts => ts

/-- The entries, each after a comma. -/
def charsEntries : List (String × Tree) → List Char
  | [] => []
  | (k, t) :: rest => ',' :: (quotedChars k ++ ':' :: (t.chars ++ charsEntries rest))
termination_by structural es => es

end

def render (t : Tree) : String := String.ofList t.chars

end Tree

/-! ## Quoted texts -/

/-- The value of a digit in base sixteen. -/
def hexValue (c : Char) : Nat := if c.isDigit then c.toNat - 48 else c.toNat - 87

/-- The first character of an escaped text, and what follows it. -/
def unescape : List Char → Option (Char × List Char)
  | '\\' :: 'u' :: _ :: _ :: a :: b :: rest =>
      some (Char.ofNat (16 * hexValue a + hexValue b), rest)
  | '\\' :: 'n' :: rest => some ('\n', rest)
  | '\\' :: 'r' :: rest => some ('\r', rest)
  | '\\' :: 't' :: rest => some ('\t', rest)
  | '\\' :: 'f' :: rest => some ('\x0c', rest)
  | '\\' :: 'b' :: rest => some ('\x08', rest)
  | '\\' :: c :: rest => some (c, rest)
  | c :: rest => some (c, rest)
  | [] => none

theorem hexPadded_control :
    ∀ n < 32, ∃ a b, Text.hexPadded 4 n = ['0', '0', a, b] ∧ 16 * hexValue a + hexValue b = n := by
  have h : ∀ n < 32, Text.hexPadded 4 n = ['0', '0', Nat.digitChar (n / 16), Nat.digitChar (n % 16)]
      ∧ 16 * hexValue (Nat.digitChar (n / 16)) + hexValue (Nat.digitChar (n % 16)) = n := by
    decide
  exact fun n hn => ⟨_, _, h n hn⟩

/-- How a character is written between quotes: as a letter that stands for it, as its
number, or as itself. -/
inductive Escapes (c : Char) : List Char → Prop
  | letter {d : Char} (h : ∀ rest, unescape ('\\' :: d :: rest) = some (c, rest))
      (hd : '\n' ≠ d) : Escapes c ['\\', d]
  | number (h : c.toNat < 32) : Escapes c ('\\' :: 'u' :: Text.hexPadded 4 c.toNat)
  | itself (hescape : c ≠ '\\') (hnewline : '\n' ≠ c) : Escapes c [c]

theorem escapes_escapeChar (c : Char) : Escapes c (StableText.escapeChar c) := by
  unfold StableText.escapeChar
  split
  · rename_i h
    rcases Bool.or_eq_true_iff.mp h with h | h
    · obtain rfl := eq_of_beq h
      exact .letter (fun _ => rfl) (by decide)
    · obtain rfl := eq_of_beq h
      exact .letter (fun _ => rfl) (by decide)
  -- the newline, the carriage return, the tab, the form feed and the backspace
  iterate 5
    split
    · rename_i h
      obtain rfl := eq_of_beq h
      exact .letter (fun _ => rfl) (by decide)
  split
  · exact .number ‹_›
  · rename_i hquote hnewline _ _ _ _ _
    refine .itself (fun h => hquote ?_) fun h => hnewline ?_
    · rw [h]
      rfl
    · rw [← h]
      rfl

theorem unescape_escapeChar (c : Char) (rest : List Char) :
    unescape (StableText.escapeChar c ++ rest) = some (c, rest) := by
  generalize hcs : StableText.escapeChar c = cs
  cases hcs ▸ escapes_escapeChar c with
  | letter h _ => exact h rest
  | number h =>
      obtain ⟨a, b, hdigits, hvalue⟩ := hexPadded_control c.toNat h
      rw [hdigits]
      show some (Char.ofNat (16 * hexValue a + hexValue b), rest) = _
      rw [hvalue, Char.ofNat_toNat]
  | itself hescape _ =>
      show unescape (c :: rest) = _
      rw [unescape.eq_def]
      split <;> simp_all

theorem escapeChar_ne_quote (c : Char) (rest rest' : List Char) :
    StableText.escapeChar c ++ rest ≠ '"' :: rest' := by
  intro h
  have hc := unescape_escapeChar c rest
  rw [h] at hc
  obtain ⟨rfl, rfl⟩ := Prod.mk.inj (Option.some.inj hc)
  cases h

/-- An escaped text ends at the first quote. -/
theorem escaped_inj :
    ∀ (s t : List Char) {r r' : List Char},
      s.flatMap StableText.escapeChar ++ '"' :: r = t.flatMap StableText.escapeChar ++ '"' :: r' →
        s = t ∧ r = r'
  | [], [], _, _, h => ⟨rfl, (List.cons.inj h).2⟩
  | [], c :: t, _, _, h => by
      rw [List.flatMap_cons, List.append_assoc] at h
      exact absurd h.symm (escapeChar_ne_quote c _ _)
  | c :: s, [], _, _, h => by
      rw [List.flatMap_cons, List.append_assoc] at h
      exact absurd h (escapeChar_ne_quote c _ _)
  | c :: s, d :: t, _, _, h => by
      rw [List.flatMap_cons, List.flatMap_cons, List.append_assoc, List.append_assoc] at h
      have hread := congrArg unescape h
      rw [unescape_escapeChar, unescape_escapeChar] at hread
      obtain ⟨rfl, hrest⟩ := Prod.mk.inj (Option.some.inj hread)
      obtain ⟨rfl, hr⟩ := escaped_inj s t hrest
      exact ⟨rfl, hr⟩

theorem quotedChars_inj {s t : String} {r r' : List Char}
    (h : quotedChars s ++ r = quotedChars t ++ r') : s = t ∧ r = r' := by
  simp only [quotedChars, List.cons_append, List.append_assoc, List.nil_append] at h
  obtain ⟨hs, hr⟩ := escaped_inj _ _ (List.cons.inj h).2
  exact ⟨String.toList_inj.mp hs, hr⟩

/-! ## Words -/

/-- No word goes on into what follows. -/
def Ended (r : List Char) : Prop := ∀ c ∈ r.head?, isWordChar c = false

theorem ended_nil : Ended [] := nofun

theorem ended_cons {c : Char} {r : List Char} (h : isWordChar c = false) : Ended (c :: r) := by
  intro d hd
  rw [← Option.some.inj hd]
  exact h

namespace Word

theorem takeWhile_append (w : Word) {r : List Char} (hr : Ended r) :
    (w.chars ++ r).takeWhile isWordChar = w.chars := by
  rw [List.takeWhile_append_of_pos w.plain]
  have hnone : r.takeWhile isWordChar = [] := by
    cases r with
    | nil => rfl
    | cons c rest => exact List.takeWhile_cons_of_neg (by simp [hr c rfl])
  rw [hnone, List.append_nil]

theorem inj {w w' : Word} {r r' : List Char} (hr : Ended r) (hr' : Ended r')
    (h : w.chars ++ r = w'.chars ++ r') : w = w' ∧ r = r' := by
  have hchars : w.chars = w'.chars := by
    rw [← w.takeWhile_append hr, h, w'.takeWhile_append hr']
  have hw : w = w' := by
    cases w
    cases w'
    cases hchars
    rfl
  exact ⟨hw, List.append_cancel_left (hchars ▸ h)⟩

/-- No word starts with any other character. -/
theorem ne_cons (w : Word) {c : Char} {r rest : List Char} (hc : isWordChar c = false) :
    w.chars ++ r ≠ c :: rest := by
  intro h
  cases hw : w.chars with
  | nil => exact w.nonempty hw
  | cons d cs =>
      rw [hw] at h
      obtain ⟨rfl, -⟩ := List.cons.inj h
      have := w.plain d (by rw [hw]; exact List.mem_cons_self)
      rw [hc] at this
      cases this

end Word

/-! ## Trees -/

namespace Tree

/-- No tree starts with a closing bracket. -/
theorem chars_ne_close (t : Tree) {c : Char} {r rest : List Char} (hc : c = ']' ∨ c = '\x7d') :
    t.chars ++ r ≠ c :: rest := by
  intro h
  cases t with
  | word w => exact w.ne_cons (by rcases hc with rfl | rfl <;> rfl) h
  | text s =>
      have hhead := (List.cons.inj h).1
      rcases hc with rfl | rfl <;> cases hhead
  | list items =>
      have hhead := (List.cons.inj h).1
      rcases hc with rfl | rfl <;> cases hhead
  | object entries =>
      have hhead := (List.cons.inj h).1
      rcases hc with rfl | rfl <;> cases hhead

theorem quotedChars_ne_close {s : String} {r rest : List Char} :
    quotedChars s ++ r ≠ '\x7d' :: rest := by
  intro h
  cases (List.cons.inj h).1

/-- The comma before the first item is not missed. -/
theorem restore_items {ts us : List Tree} {r r' : List Char}
    (h : (charsItems ts).drop 1 ++ ']' :: r = (charsItems us).drop 1 ++ ']' :: r') :
    charsItems ts ++ ']' :: r = charsItems us ++ ']' :: r' := by
  cases ts with
  | nil =>
      cases us with
      | nil => exact h
      | cons u us =>
          simp only [charsItems, List.drop_succ_cons, List.drop_zero, List.append_assoc] at h
          exact absurd h.symm (u.chars_ne_close (.inl rfl))
  | cons t ts =>
      cases us with
      | nil =>
          simp only [charsItems, List.drop_succ_cons, List.drop_zero, List.append_assoc] at h
          exact absurd h (t.chars_ne_close (.inl rfl))
      | cons u us => exact congrArg (',' :: ·) h

theorem restore_entries {es fs : List (String × Tree)} {r r' : List Char}
    (h : (charsEntries es).drop 1 ++ '\x7d' :: r = (charsEntries fs).drop 1 ++ '\x7d' :: r') :
    charsEntries es ++ '\x7d' :: r = charsEntries fs ++ '\x7d' :: r' := by
  cases es with
  | nil =>
      cases fs with
      | nil => exact h
      | cons f fs =>
          simp only [charsEntries, List.drop_succ_cons, List.drop_zero, List.append_assoc] at h
          exact absurd h.symm quotedChars_ne_close
  | cons e es =>
      cases fs with
      | nil =>
          simp only [charsEntries, List.drop_succ_cons, List.drop_zero, List.append_assoc] at h
          exact absurd h quotedChars_ne_close
      | cons f fs => exact congrArg (',' :: ·) h

theorem ended_items (ts : List Tree) (r : List Char) : Ended (charsItems ts ++ ']' :: r) := by
  cases ts with
  | nil => exact ended_cons rfl
  | cons t ts => exact ended_cons rfl

theorem ended_entries (es : List (String × Tree)) (r : List Char) :
    Ended (charsEntries es ++ '\x7d' :: r) := by
  cases es with
  | nil => exact ended_cons rfl
  | cons e es => exact ended_cons rfl

mutual

/-- A tree is determined by its text, and where the text ends by what follows. -/
theorem chars_inj :
    ∀ (t u : Tree) {r r' : List Char}, Ended r → Ended r' → t.chars ++ r = u.chars ++ r' →
      t = u ∧ r = r'
  | word w, u, r, r', hr, hr', h => by
      cases u with
      | word w' =>
          obtain ⟨rfl, hrest⟩ := Word.inj hr hr' h
          exact ⟨rfl, hrest⟩
      | text s => exact absurd h (w.ne_cons rfl)
      | list items => exact absurd h (w.ne_cons rfl)
      | object entries => exact absurd h (w.ne_cons rfl)
  | text s, u, r, r', hr, hr', h => by
      cases u with
      | word w' => exact absurd h.symm (w'.ne_cons rfl)
      | text s' =>
          obtain ⟨rfl, hrest⟩ := quotedChars_inj h
          exact ⟨rfl, hrest⟩
      | list items => cases (List.cons.inj h).1
      | object entries => cases (List.cons.inj h).1
  | list items, u, r, r', hr, hr', h => by
      cases u with
      | word w' => exact absurd h.symm (w'.ne_cons rfl)
      | text s' => cases (List.cons.inj h).1
      | list items' =>
          simp only [chars, List.cons_append, List.append_assoc, List.nil_append] at h
          obtain ⟨rfl, hrest⟩ := charsItems_inj items items' (restore_items (List.cons.inj h).2)
          exact ⟨rfl, hrest⟩
      | object entries => cases (List.cons.inj h).1
  | object entries, u, r, r', hr, hr', h => by
      cases u with
      | word w' => exact absurd h.symm (w'.ne_cons rfl)
      | text s' => cases (List.cons.inj h).1
      | list items => cases (List.cons.inj h).1
      | object entries' =>
          simp only [chars, List.cons_append, List.append_assoc, List.nil_append] at h
          obtain ⟨rfl, hrest⟩ :=
            charsEntries_inj entries entries' (restore_entries (List.cons.inj h).2)
          exact ⟨rfl, hrest⟩
termination_by structural t => t

theorem charsItems_inj :
    ∀ (ts us : List Tree) {r r' : List Char},
      charsItems ts ++ ']' :: r = charsItems us ++ ']' :: r' → ts = us ∧ r = r'
  | [], us, r, r', h => by
      cases us with
      | nil => exact ⟨rfl, (List.cons.inj h).2⟩
      | cons u us => cases (List.cons.inj h).1
  | t :: ts, us, r, r', h => by
      cases us with
      | nil => cases (List.cons.inj h).1
      | cons u us =>
          simp only [charsItems, List.cons_append, List.append_assoc] at h
          obtain ⟨rfl, hrest⟩ :=
            chars_inj t u (ended_items ts r) (ended_items us r') (List.cons.inj h).2
          obtain ⟨rfl, hr⟩ := charsItems_inj ts us hrest
          exact ⟨rfl, hr⟩
termination_by structural ts => ts

theorem charsEntries_inj :
    ∀ (es fs : List (String × Tree)) {r r' : List Char},
      charsEntries es ++ '\x7d' :: r = charsEntries fs ++ '\x7d' :: r' → es = fs ∧ r = r'
  | [], fs, r, r', h => by
      cases fs with
      | nil => exact ⟨rfl, (List.cons.inj h).2⟩
      | cons f fs => cases (List.cons.inj h).1
  | (k, t) :: es, fs, r, r', h => by
      cases fs with
      | nil => cases (List.cons.inj h).1
      | cons f fs =>
          simp only [charsEntries, List.cons_append, List.append_assoc] at h
          obtain ⟨hk, hvalue⟩ := quotedChars_inj (List.cons.inj h).2
          obtain ⟨ht, hrest⟩ :=
            chars_inj t f.2 (ended_entries es r) (ended_entries fs r') (List.cons.inj hvalue).2
          obtain ⟨rfl, hr⟩ := charsEntries_inj es fs hrest
          exact ⟨by rw [hk, ht], hr⟩
termination_by structural es => es

end

/-- The text of a tree determines it. -/
theorem render_inj {t u : Tree} (h : t.render = u.render) : t = u := by
  have hchars : t.chars = u.chars := String.ofList_injective h
  exact (chars_inj t u ended_nil ended_nil (by rw [hchars])).1

/-! ## One line -/

theorem newline_escapeChar (c : Char) : '\n' ∉ StableText.escapeChar c := by
  have control : ∀ n < 32, '\n' ∉ Text.hexPadded 4 n := by decide
  generalize hcs : StableText.escapeChar c = cs
  cases hcs ▸ escapes_escapeChar c with
  | letter _ hd => simpa using hd
  | number h => simpa using control c.toNat h
  | itself _ hnewline => simpa using hnewline

theorem newline_cons_append {c : Char} {cs ds : List Char} (hc : '\n' ≠ c) (hcs : '\n' ∉ cs)
    (hds : '\n' ∉ ds) : '\n' ∉ c :: (cs ++ ds) := by
  rw [List.mem_cons, List.mem_append, not_or, not_or]
  exact ⟨hc, hcs, hds⟩

theorem newline_quotedChars (s : String) : '\n' ∉ quotedChars s := by
  refine newline_cons_append (by decide) (fun h => ?_) (by decide)
  obtain ⟨c, -, hc⟩ := List.mem_flatMap.mp h
  exact newline_escapeChar c hc

mutual

/-- The text of a tree stays on its line. -/
theorem newline_chars : ∀ t : Tree, '\n' ∉ t.chars
  | word w => fun h => by cases w.plain _ h
  | text s => newline_quotedChars s
  | list items =>
      newline_cons_append (by decide) (fun h => newline_charsItems items (List.mem_of_mem_drop h))
        (by decide)
  | object entries =>
      newline_cons_append (by decide)
        (fun h => newline_charsEntries entries (List.mem_of_mem_drop h)) (by decide)
termination_by structural t => t

theorem newline_charsItems : ∀ ts : List Tree, '\n' ∉ charsItems ts
  | [] => nofun
  | t :: ts => newline_cons_append (by decide) (newline_chars t) (newline_charsItems ts)
termination_by structural ts => ts

theorem newline_charsEntries : ∀ es : List (String × Tree), '\n' ∉ charsEntries es
  | [] => nofun
  | (k, t) :: es =>
      newline_cons_append (by decide) (newline_quotedChars k)
        (newline_cons_append (by decide) (newline_chars t) (newline_charsEntries es))
termination_by structural es => es

end

end Tree

end Conform
