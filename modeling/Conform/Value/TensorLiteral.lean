/-
# `Value.TensorLiteral` — how arrays of numbers are written

All entries of an array share one layout.  Integers are padded to one
width.  Doubles are aligned at their points and keep at most eight places,
or take the scientific form together when their magnitudes lie far apart.
Long arrays show their edges only.  Shape and format are named when the
entries do not imply them.
-/
import Conform.Value.Number
import Conform.Number.Notation
import Conform.Text.Quoted

namespace Conform

def padLeft (width : Nat) (s : String) : String := "".pushn ' ' (width - s.length) ++ s

def padRight (width : Nat) (s : String) : String := s.pushn ' ' (width - s.length)

namespace Tensor

/-- The greatest number of places after the point. -/
def places : Nat := 8

/-- The digits before and after the point of a positive number of units, cut
to `places` if its shortest form has more. -/
def pointParts (f : Binary64.Format) (units : Nat) : String × String :=
  let d := if units = 0 then ⟨0, 0⟩ else Binary64.shortest f units
  let d : Decimal :=
    if d.exponent < -(places : Int) then
      ⟨Binary64.divNearest (units * 10 ^ places) Binary64.unitsPerOne, -(places : Int)⟩
    else d
  let scale := (-d.exponent).toNat
  let whole := d.digits * 10 ^ d.exponent.toNat / 10 ^ scale
  let part := d.digits * 10 ^ d.exponent.toNat % 10 ^ scale
  let ds := toString part
  let ds := String.ofList (List.replicate (scale - ds.length) '0') ++ ds
  let kept := (ds.toList.reverse.dropWhile (· == '0')).reverse
  (toString whole, if part = 0 then "" else String.ofList kept)

/-- The first digit, the places after it and the exponent of the scientific
form, cut to `places` if its shortest form has more. -/
def exponentParts (f : Binary64.Format) (units : Nat) : String × String × Int :=
  let d : Decimal := if units = 0 then ⟨0, 0⟩ else Binary64.shortest f units
  let (ds, lead) := d.leading
  if ds.length ≤ places + 1 then (String.ofList (ds.take 1), String.ofList (ds.drop 1), lead)
  else
    let cut : Int := lead - places
    let rounded := Binary64.divNearest (units * 10 ^ (-cut).toNat)
      (Binary64.unitsPerOne * 10 ^ cut.toNat)
    let (ds, lead) := (Decimal.mk rounded cut).leading
    let kept := ((ds.take (places + 1)).drop 1).reverse.dropWhile (· == '0')
    (String.ofList (ds.take 1), String.ofList kept.reverse, lead)

/-- A number of units, `num / den`, in a format. -/
def inFormat (f : Binary64.Format) (num den : Nat) : Nat :=
  Binary64.roundUnits f.precision f.least num den

/-- Whether magnitudes this far apart, this large or this small are written
in the scientific form; bounds and ratios are those of the format. -/
def wantsExponent (f : Binary64.Format) (magnitudes : List Nat) : Bool :=
  let one := Binary64.unitsPerOne
  let positive := magnitudes.filter (· != 0)
  match positive.max?, positive.min? with
  | some high, some low =>
      high ≥ 10 ^ 8 * one || low < inFormat f (inFormat .double one (10 ^ 4)) 1
        || inFormat f (high * one) low > 1000 * one
  | _, _ => false

def signText (negative : Bool) : String := if negative then "-" else ""

/-- Texts of doubles in one layout. -/
def floatTexts (f : Binary64.Format) (xs : List Binary64) : List String :=
  let finite := xs.filterMap fun
    | .finite s m => some (s, m.units)
    | _ => none
  let inExponent := wantsExponent f (finite.map (·.2))
  let heads := finite.map fun (s, n) =>
    signText s ++ (if inExponent then (exponentParts f n).1 else (pointParts f n).1)
  let tails := finite.map fun (_, n) =>
    if inExponent then (exponentParts f n).2.1 else (pointParts f n).2
  let exponentDigits := ((finite.map fun (_, n) =>
    (Decimal.exponentText (exponentParts f n).2.2).length - 1).max?).getD 0
  let right := ((tails.map String.length).max?).getD 0
  let afterPoint := if inExponent then right + 2 + exponentDigits else right
  let special := xs.filterMap fun
    | .nan => some 3
    | .infinite s => some (if s then 4 else 3)
    | .finite .. => none
  let left := (((heads.map String.length) ++ special.map (· - (afterPoint + 1))).max?).getD 0
  xs.map fun
    | .finite s m =>
        if inExponent then
          let (d, ds, e) := exponentParts f m.units
          let zeros := "".pushn '0' (right - ds.length)
          let power := toString e.natAbs
          padLeft left (signText s ++ d) ++ "." ++ ds ++ zeros
            ++ (if e < 0 then "e-" else "e+") ++ "".pushn '0' (exponentDigits - power.length) ++ power
        else
          let (d, ds) := pointParts f m.units
          padLeft left (signText s ++ d) ++ "." ++ padRight right ds
    | x => padLeft (left + afterPoint + 1) x.text

/-- Texts of cells in one layout. -/
def cellTexts (format : ElementFormat) (cells : List Cell) : List String :=
  let width := ((cells.map fun
    | .int n => (toString n).length
    | _ => 0).max?).getD 0
  match format with
  | .float64 | .float32 =>
      floatTexts (if format = .float32 then .single else .double)
        (cells.filterMap fun | .float x => some x | _ => none)
  | _ => cells.map fun
    | .int n => if format = .mixed then toString n else padLeft width (toString n)
    | .bool b => if b then (if format = .mixed then "True" else " True") else "False"
    | .text s => Text.quoted s
    | .float x => x.text
    | .other => ""

/-- The greatest length of a line. -/
def lineLimit : Nat := 75

def withoutFinalBlanks (s : String) : String :=
  String.ofList (s.toList.reverse.dropWhile (· == ' ')).reverse

/-- Adds a word to the last line of a text, which is kept apart, or to a new
line if the last one would pass the limit. -/
def addWord (indent : String) (limit : Nat) (text line word : String) : String × String :=
  if limit < line.length + word.length && indent.length < line.length then
    (text ++ withoutFinalBlanks line ++ "\n", indent ++ word)
  else (text, line ++ word)

/-- Adds words with a separator between them. -/
def addWords (separator indent : String) (limit : Nat) : String → String → List String → String
  | text, line, [] => text ++ line
  | text, line, word :: rest =>
      let (text, line) := addWord indent limit text line word
      addWords separator indent limit text (if rest.isEmpty then line else line ++ separator) rest

/-- Words between brackets at a column, on lines within the limit. -/
def bracketed (separator : String) (column limit : Nat) (words : List String) : String :=
  let indent := "".pushn ' ' column
  let text := addWords separator indent limit "" indent words
  "[" ++ String.ofList (text.toList.drop column) ++ "]"

/-- The greatest number of positions that are all written. -/
def listedLimit : Nat := 1000

/-- How many of a dimension are written at each end when it is cut short. -/
def edge : Nat := 3

/-- Whether a dimension of an array that is cut short is cut itself. -/
def isCut (n : Nat) : Bool := 2 * edge < n

/-- What is left of positions when long dimensions lose their middle. -/
def edges : List Nat → List Cell → List Cell
  | [], cells => cells
  | n :: shape, cells =>
      let rows := parts n (volume shape) cells
      let rows := if isCut n then rows.take edge ++ rows.drop (n - edge) else rows
      (rows.map (edges shape)).flatten

/-- Dots in place of the middle of a dimension that was cut. -/
def withDots (cut : Bool) (words : List String) : List String :=
  if cut then words.take edge ++ "..." :: words.drop edge else words

/-- Words of a shape between brackets that begin before a column, on lines
within a limit.  Each dimension says how many parts it has and whether its
middle is left out. -/
def block (separator : String) (column limit : Nat) : List (Nat × Bool) → List String → String
  | [], words => String.join words
  | [(_, cut)], words => bracketed separator column (limit - 1) (withDots cut words)
  | (n, cut) :: rest, words =>
      let rows := (parts n (words.length / n) words).map
        (block separator (column + 1) (limit - 1) rest)
      let gap := withoutFinalBlanks separator ++ "".pushn '\n' rest.length
        ++ "".pushn ' ' column
      "[" ++ gap.intercalate (withDots cut rows) ++ "]"

/-- The entries between brackets that begin at a column, on lines that
leave room for `reserved` characters.  A long array is cut short. -/
def entriesText (separator : String) (column reserved : Nat) (t : Tensor) : String :=
  if t.cells.isEmpty then "[]"
  else
    let long := listedLimit < t.cells.length
    let cells := if long then edges t.shape t.cells else t.cells
    let extents := t.shape.map fun n => if long && isCut n then (2 * edge, true) else (n, false)
    block separator (column + 1) (lineLimit - reserved) extents (cellTexts t.format cells)

/-- The room that a text takes: that of the longest, and of one character at
least. -/
def textWidth (t : Tensor) : Nat :=
  t.cells.foldl (fun width c => match c with | .text s => max width s.length | _ => width) 1

/-- The format, where the entries do not imply it. -/
def formatName? (t : Tensor) : Option String :=
  if t.format = .text then some ("'<U" ++ toString t.textWidth ++ "'")
  else if t.format.isDefault && !t.cells.isEmpty then none
  else some t.format.name

/-- The shape, where the entries do not show it: in a long array, and in one
that is empty in spite of a dimension of some extent. -/
def shapeText? (t : Tensor) : Option String :=
  if listedLimit < t.cells.length || (t.cells.isEmpty && t.shape != [0]) then
    let extents := match t.shape with
      | [n] => toString n ++ ","
      | shape => ", ".intercalate (shape.map toString)
    some ("(" ++ extents ++ ")")
  else none

/-- The entries alone, as they stand in running text. -/
def display (t : Tensor) : String := t.entriesText " " 0 0

/-- The literal form of an array; what the entries do not show goes to a line
of its own where the last line has no room for it. -/
def literal (t : Tensor) : String :=
  let body := "array(" ++ t.entriesText ", " 6 1
  let extras := (t.shapeText?.map ("shape=" ++ ·)).toList
    ++ (t.formatName?.map ("dtype=" ++ ·)).toList
  if extras.isEmpty then body ++ ")"
  else
    let extra := ", ".intercalate extras ++ ")"
    let lastLine := ((body ++ ",").toList.reverse.takeWhile (· != '\n')).length
    let gap := if lineLimit < lastLine + extra.length + 1 then "\n      " else " "
    body ++ "," ++ gap ++ extra

end Tensor

namespace Scalar

/-- The number alone: the text that it is converted to. -/
def asText : Scalar → String
  | .integer _ n => toString n
  | .float64 x => x.text
  | .float32 x => x.textIn .single
  | .bool b => if b then "True" else "False"

/-- The number in running text, where single precision is not told apart. -/
def display : Scalar → String
  | .float32 x => x.text
  | s => s.asText

/-- The literal form of a number of fixed representation. -/
def literal (s : Scalar) : String :=
  match s with
  | .bool _ => "np." ++ s.asText ++ "_"
  | _ => "np." ++ s.formatName ++ "(" ++ s.asText ++ ")"

end Scalar

end Conform
