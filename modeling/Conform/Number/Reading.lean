/-
# `Number.Reading` — numbers from text

An integer is a sign and digits; a double may have a fractional part and an
exponent, or be one of the names of the special values.  Blanks around the
number do not count, and single underscores may stand between digits.  An
integer of too many digits is not read.
-/
import Conform.Number.Binary64
import Conform.Number.Digits
import Conform.Text.Word
import Conform.Text.Case

namespace Conform

namespace Number

/-- The digits at the front without the underscores between them, and what
follows; `inside` holds after a digit. -/
def takeDigits (inside : Bool) : List Char → List Nat × List Char
  | [] => ([], [])
  | c :: rest =>
      match Text.digitValue? c with
      | some d =>
          let (ds, after) := takeDigits true rest
          (d :: ds, after)
      | none =>
          if inside && c == '_' && (rest.head?.bind Text.digitValue?).isSome then
            takeDigits false rest
          else ([], c :: rest)

/-- The number with these decimal digits. -/
def ofDigits (ds : List Nat) : Nat := ds.foldl (10 * · + ·) 0

/-- A leading sign: whether it is negative, and what follows. -/
def takeSign : List Char → Bool × List Char
  | '-' :: rest => (true, rest)
  | '+' :: rest => (false, rest)
  | cs => (false, cs)

def signed (negative : Bool) (n : Nat) : Int := if negative then -(n : Int) else n

/-- Whether a character may surround a number: a blank, but no separator of
information. -/
def isMargin (c : Char) : Bool := Text.isBlank c && !(0x1C ≤ c.toNat && c.toNat ≤ 0x1F)

def withoutMargins (cs : List Char) : List Char :=
  ((cs.dropWhile isMargin).reverse.dropWhile isMargin).reverse

/-- The integer that a text is. -/
def int? (s : String) : Option Int :=
  let (negative, cs) := takeSign (withoutMargins s.toList)
  match takeDigits false cs with
  | (d :: ds, []) =>
      if ds.length < digitLimit then some (signed negative (ofDigits (d :: ds))) else none
  | _ => none

/-- The exponent at the front, zero if there is none. -/
def exponent? : List Char → Option Int
  | [] => some 0
  | c :: rest =>
      if c == 'e' || c == 'E' then
        let (negative, cs) := takeSign rest
        match takeDigits false cs with
        | (d :: ds, []) => some (signed negative (ofDigits (d :: ds)))
        | _ => none
      else none

/-- An unsigned number, given by digits or by name. -/
def magnitude? (negative : Bool) (cs : List Char) : Option Binary64 :=
  let name := Text.lower (String.ofList cs)
  if name = "inf" || name = "infinity" then some (.infinite negative)
  else if name = "nan" then some .nan
  else
    let (whole, rest) := takeDigits false cs
    let (part, rest) := match rest with
      | '.' :: rest => takeDigits false rest
      | _ => ([], rest)
    if whole.isEmpty && part.isEmpty then none
    else (exponent? rest).map fun e =>
      Binary64.ofDecimal negative (ofDigits (whole ++ part)) (e - part.length)

/-- The double that a text is. -/
def float? (s : String) : Option Binary64 :=
  let (negative, cs) := takeSign (withoutMargins s.toList)
  magnitude? negative cs

end Number

end Conform
