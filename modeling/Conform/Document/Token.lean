/-
# `Document.Token` — the tokens of a document

A document is cut into tokens: the brackets and separators of flow style,
the starts and ends that indentation implies in block style, scalars,
anchors and tags.
-/

namespace Conform

namespace Document

/-- What a document says about itself before it begins. -/
inductive Directive where
  /-- The version of the format, by its first number. -/
  | version (major : Nat)
  /-- What a handle of tags stands for. -/
  | handle (name address : String)
  | other
deriving DecidableEq

inductive Token where
  | directive (d : Directive)
  | documentStart
  | documentEnd
  | blockSequenceStart
  | blockMappingStart
  | blockEnd
  | flowSequenceStart
  | flowMappingStart
  | flowSequenceEnd
  | flowMappingEnd
  | flowEntry
  | blockEntry
  | key
  | value
  | alias (name : String)
  | anchor (name : String)
  /-- A tag: its handle, if it has one, and the rest. -/
  | tag (handle : Option String) (suffix : String)
  | scalar (text : String) (plain : Bool)
deriving DecidableEq

/-- Characters that end a line. -/
def isBreak (c : Char) : Bool := ['\n', '\r', '\x85', '\u2028', '\u2029'].contains c

/-- Whether the text stops here, or a blank or the end of the line does. -/
def isGap : Option Char → Bool
  | none => true
  | some c => c == ' ' || c == '\t' || isBreak c

/-- Whether the line or the text stops here. -/
def isLineEnd : Option Char → Bool
  | none => true
  | some c => isBreak c

/-- Characters that a document may hold. -/
def isAllowed (c : Char) : Bool :=
  let n := c.toNat
  n == 0x9 || n == 0xa || n == 0xd || 0x20 ≤ n && n ≤ 0x7e || n == 0x85
    || 0xa0 ≤ n && n ≤ 0xfffd || 0x10000 ≤ n

/-- The text with every line ended by a line feed. -/
def unifyLines : List Char → List Char
  | '\r' :: '\n' :: rest => '\n' :: unifyLines rest
  | '\r' :: rest => '\n' :: unifyLines rest
  | c :: rest => c :: unifyLines rest
  | [] => []

end Document

end Conform
