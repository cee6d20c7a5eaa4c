/-
# `Text.Quoted` — text and bytes between quotes

Quoted text stands between single quotes, or between double quotes when it
holds a single quote and no double one.  A backslash and the surrounding
quote are escaped, tab, line feed and carriage return have letters, and
every character that is not printable is written by its code.
-/
import Conform.Text.Printable

namespace Conform.Text

/-- The digits of `n` in base sixteen, padded with zeros to `width`. -/
def hexPadded (width n : Nat) : List Char :=
  let ds := Nat.toDigits 16 n
  List.replicate (width - ds.length) '0' ++ ds

/-- The quote that surrounds a text. -/
def surroundingQuote (cs : List Char) : Char :=
  if cs.contains '\'' && !cs.contains '"' then '"' else '\''

/-- A character written by its code, in the shortest of the three forms that
holds it. -/
def codeEscape (n : Nat) : List Char :=
  if n < 0x100 then '\\' :: 'x' :: hexPadded 2 n
  else if n < 0x10000 then '\\' :: 'u' :: hexPadded 4 n
  else '\\' :: 'U' :: hexPadded 8 n

/-- One character inside quoted text. -/
def quoteChar (quote c : Char) : List Char :=
  if c == quote || c == '\\' then ['\\', c]
  else if c == '\t' then ['\\', 't']
  else if c == '\n' then ['\\', 'n']
  else if c == '\r' then ['\\', 'r']
  else if isPrintable c then [c]
  else codeEscape c.toNat

/-- Text between quotes. -/
def quoted (s : String) : String :=
  let quote := surroundingQuote s.toList
  String.ofList (quote :: s.toList.flatMap (quoteChar quote) ++ [quote])

/-- One byte inside quoted bytes: as text, but beyond ASCII always by code. -/
def quoteByte (quote : Char) (b : UInt8) : List Char :=
  if b < 0x7f then quoteChar quote (Char.ofNat b.toNat) else codeEscape b.toNat

/-- Bytes between quotes, marked with a leading `b`. -/
def quotedBytes (bs : List UInt8) : String :=
  let quote := surroundingQuote (bs.map (Char.ofNat ·.toNat))
  String.ofList ('b' :: quote :: bs.flatMap (quoteByte quote) ++ [quote])

end Conform.Text
