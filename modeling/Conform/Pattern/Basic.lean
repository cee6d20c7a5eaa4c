/-
# `Pattern.Basic` — patterns as data

A pattern describes texts: literals, character sets, anchors, sequences,
alternatives, repetitions, groups and references back to them.  How
characters compare — with or without regard to case, line by line, within
ASCII — is a `Mode`, which a group may change for what it encloses.
-/

namespace Conform

namespace Pattern

/-- How a pattern reads its text. -/
structure Mode where
  foldCase : Bool
  multiline : Bool
  dotAll : Bool
  verbose : Bool
  ascii : Bool
deriving DecidableEq

/-- No option given. -/
def Mode.plain : Mode := ⟨false, false, false, false, false⟩

/-- The bit set of the options that do not choose between letters. -/
def Mode.options (m : Mode) : Nat :=
  2 * m.foldCase.toNat + 8 * m.multiline.toNat + 16 * m.dotAll.toNat + 64 * m.verbose.toNat

/-- The bit set that announces the mode of a pattern for text to readers. -/
def Mode.code (m : Mode) : Nat := m.options + (if m.ascii then 256 else 32)

/-- Options that are switched on or off; the others stay as they are. -/
structure ModeChange where
  foldCase : Option Bool
  multiline : Option Bool
  dotAll : Option Bool
  verbose : Option Bool
  ascii : Option Bool
deriving DecidableEq

/-- The change that changes nothing. -/
def ModeChange.none : ModeChange := ⟨.none, .none, .none, .none, .none⟩

def Mode.apply (m : Mode) (c : ModeChange) : Mode :=
  ⟨c.foldCase.getD m.foldCase, c.multiline.getD m.multiline, c.dotAll.getD m.dotAll,
    c.verbose.getD m.verbose, c.ascii.getD m.ascii⟩

inductive CharKind where
  | digit
  | blank
  | word
deriving DecidableEq

/-- One entry of a character set. -/
inductive SetItem where
  | range (low high : Nat)
  | kind (k : CharKind) (negated : Bool)
deriving DecidableEq

/-- A condition on a position. -/
inductive Anchor where
  | textStart
  | textEnd
  /-- The start of the text, or of a line in a multiline pattern. -/
  | start
  /-- The end of the text or before its last line feed, or the end of a line
  in a multiline pattern. -/
  | stop
  | boundary
  | noBoundary
deriving DecidableEq

/-- Which number of repetitions is tried first, and whether others are
tried at all. -/
inductive Greed where
  | greedy
  | lazy
  | possessive
deriving DecidableEq

/-- The parts of a pattern. -/
inductive Node where
  | empty
  | char (code : Nat)
  | any
  | set (negated : Bool) (items : List SetItem)
  | anchor (a : Anchor)
  | seq (first rest : Node)
  | alt (first rest : Node)
  /-- A group whose text is remembered under its number. -/
  | group (number : Nat) (body : Node)
  | scoped (change : ModeChange) (body : Node)
  | loop (least : Nat) (most : Option Nat) (greed : Greed) (body : Node)
  /-- The text of a group once more. -/
  | again (number : Nat)
  /-- A condition on what follows, or on the `width` characters before. -/
  | look (width : Option Nat) (negated : Bool) (body : Node)
  /-- The first way to match the body, without return to another. -/
  | atomic (body : Node)
  /-- Two ways on, for a group that took part and for one that did not. -/
  | ifGroup (number : Nat) (yes no : Node)
deriving DecidableEq

/-- The numbers of the groups that are referred to. -/
def Node.referred : Node → List Nat
  | .empty | .char _ | .any | .set .. | .anchor _ => []
  | .seq a b | .alt a b => a.referred ++ b.referred
  | .group _ b | .scoped _ b | .loop _ _ _ b | .look _ _ b | .atomic b => b.referred
  | .again n => [n]
  | .ifGroup n a b => n :: (a.referred ++ b.referred)

/-- A repetition without an upper bound counts as this wide. -/
def unboundedWidth : Nat := 1 <<< 64

/-- The least and greatest number of characters that a part consumes;
`groups` gives the widths of the closed groups. -/
def Node.width (groups : List (Nat × Nat × Nat)) : Node → Nat × Nat
  | .empty | .anchor _ | .look .. => (0, 0)
  | .char _ | .any | .set .. => (1, 1)
  | .seq a b =>
      let (l, h) := a.width groups
      let (l', h') := b.width groups
      (min (l + l') unboundedWidth, min (h + h') unboundedWidth)
  | .alt a b | .ifGroup _ a b =>
      let (l, h) := a.width groups
      let (l', h') := b.width groups
      (min l l', max h h')
  | .group _ b | .scoped _ b | .atomic b => b.width groups
  | .loop least most _ b =>
      let (l, h) := b.width groups
      let high := match most with
        | some n => h * n
        | none => if h = 0 then 0 else unboundedWidth
      (min (l * least) unboundedWidth, min high unboundedWidth)
  | .again n => (groups.lookup n).getD (0, 0)

end Pattern

/-- What a pattern was compiled from: text, or bytes, whose letters may be those
of the locale. -/
inductive Pattern.Source where
  | text (s : String)
  | bytes (bs : List UInt8) (locale : Bool)
deriving DecidableEq

/-- A compiled pattern: its source, the mode it was compiled in, and what
the source means. -/
structure Pattern where
  source : Pattern.Source
  mode : Pattern.Mode
  node : Pattern.Node
deriving DecidableEq

namespace Pattern

/-- The text that a pattern was compiled from. -/
def text? (p : Pattern) : Option String :=
  match p.source with
  | .text s => some s
  | .bytes .. => none

/-- The bit set of the options of a pattern.  The one for full letters is that of
patterns for text. -/
def flags (p : Pattern) : Nat :=
  match p.source with
  | .text _ => p.mode.code
  | .bytes _ locale => p.mode.options + (if p.mode.ascii then 256 else 0) + 4 * locale.toNat

end Pattern

end Conform
