/-
# `Document.Scalar` — what scalars stand for

A scalar without quotes stands for nothing, a flag, a number or a text, as
its form tells: `yes` and `off` are flags, `010` is octal, `1:30` counts in
sixties, and `1e3` is a text, because a double needs a point and its
exponent a sign.
-/
import Conform.Number.Reading
import Conform.Document.Timestamp
import Conform.Value.Basic
import Conform.Fault

namespace Conform

namespace Document

/-- What kind of content a node holds. -/
inductive Tag where
  | null
  | bool
  | int
  | float
  | str
  | seq
  | map
  | set
  | timestamp
  | binary
  /-- Entries in order, as pairs. -/
  | pairs
  /-- The key of entries that are taken over from elsewhere. -/
  | merge
  /-- The key of a default content. -/
  | default
  | unknown
deriving DecidableEq

namespace Scalar

/-! ## Forms -/

def isBinary (c : Char) : Bool := c == '0' || c == '1' || c == '_'

def isOctal (c : Char) : Bool := '0' ≤ c && c ≤ '7' || c == '_'

def isDecimal (c : Char) : Bool := c.isDigit || c == '_'

def isHexadecimal (c : Char) : Bool :=
  c.isDigit || 'a' ≤ c && c ≤ 'f' || 'A' ≤ c && c ≤ 'F' || c == '_'

/-- A number of minutes or seconds, in one or two digits. -/
def isSixtieth : List Char → Bool
  | [d] => d.isDigit
  | [t, d] => '0' ≤ t && t ≤ '5' && d.isDigit
  | _ => false

/-- A digit, then digits and underscores. -/
def startsWithDigit : List Char → Bool
  | c :: rest => c.isDigit && rest.all isDecimal
  | [] => false

/-- Whether a text has the form of an integer. -/
def isInteger (cs : List Char) : Bool :=
  match (Number.takeSign cs).2 with
  | '0' :: 'b' :: ds => !ds.isEmpty && ds.all isBinary
  | '0' :: 'x' :: ds => !ds.isEmpty && ds.all isHexadecimal
  | '0' :: ds => ds.all isOctal
  | ds =>
      match ds.splitOn ':' with
      | whole :: sixtieths => startsWithDigit whole && sixtieths.all isSixtieth
      | [] => false

/-- An exponent with its sign, or nothing. -/
def isExponent : List Char → Bool
  | [] => true
  | e :: sign :: ds =>
      (e == 'e' || e == 'E') && (sign == '-' || sign == '+') && !ds.isEmpty && ds.all Char.isDigit
  | _ => false

/-- Digits and underscores, then possibly an exponent. -/
def isFraction (cs : List Char) : Bool := isExponent (cs.dropWhile isDecimal)

/-- Whether a text has the form of a double. -/
def isFloat (cs : List Char) : Bool :=
  let (_, ds) := Number.takeSign cs
  let isSigned := ds.length < cs.length
  match ds.takeWhile (· != '.'), (ds.dropWhile (· != '.')).drop 1 with
  | _, [] => ds.getLast? == some '.' && (
      match (ds.dropLast).splitOn ':' with
      | whole :: sixtieths => startsWithDigit whole && sixtieths.all isSixtieth
      | [] => false)
  | [], part =>
      ["inf", "Inf", "INF"].contains (String.ofList part)
        || !isSigned && ["nan", "NaN", "NAN"].contains (String.ofList part)
        || !isSigned && part.head?.any Char.isDigit && isFraction part
  | whole, part =>
      match whole.splitOn ':' with
      | [digits] => startsWithDigit digits && isFraction part
      | digits :: sixtieths =>
          startsWithDigit digits && sixtieths.all isSixtieth && part.all isDecimal
      | [] => false

/-- The words for yes and no. -/
def flag? (text : String) : Option Bool :=
  if ["yes", "true", "on"].contains text then some true
  else if ["no", "false", "off"].contains text then some false
  else none

/-- A word in small letters, with a capital, or in capitals. -/
def spellings (word : String) : List String := [word, word.capitalize, Text.upper word]

def isFlag (text : String) : Bool :=
  ["yes", "no", "true", "false", "on", "off"].any fun word => (spellings word).contains text

/-- What a scalar without quotes stands for. -/
def tagOf (text : String) : Tag :=
  let cs := text.toList
  if text.isEmpty || text == "~" || (spellings "null").contains text then .null
  else if isFlag text then .bool
  else if isFloat cs then .float
  else if isInteger cs then .int
  else if isTimestamp cs then .timestamp
  else if text == "<<" then .merge
  else if text == "=" then .default
  else .str

/-! ## Contents -/

/-- The number that digits in a base stand for. -/
def natural? (base : Nat) (cs : List Char) : Option Nat :=
  let ds := cs.filterMap fun c =>
    if c.isDigit then some (c.toNat - 48)
    else if 'a' ≤ c && c ≤ 'z' then some (c.toNat - 87)
    else if 'A' ≤ c && c ≤ 'Z' then some (c.toNat - 55)
    else none
  if cs.isEmpty || ds.length != cs.length || ds.any (base ≤ ·) then none
  else some (ds.foldl (base * · + ·) 0)

/-- The sum of numbers, each worth sixty times the next. -/
def inSixties (ns : List Int) : Int := ns.foldl (60 * · + ·) 0

/-- The integer that a scalar stands for, whatever its form. -/
def integer (text : String) : Except Fault Int := do
  let (negative, cs) := Number.takeSign (text.toList.filter (· != '_'))
  let orBad {α : Type} : Option α → Except Fault α
    | some a => .ok a
    | none => .error .badValue
  let magnitude : Int ← match cs with
    | [] => throw .outOfRange
    | ['0'] => pure 0
    | '0' :: 'b' :: ds => (orBad (natural? 2 ds) : Except Fault Nat)
    | '0' :: 'x' :: ds => (orBad (natural? 16 ds) : Except Fault Nat)
    | '0' :: ds => (orBad (natural? 8 ('0' :: ds)) : Except Fault Nat)
    | cs => do
        let parts ← (cs.splitOn ':').mapM fun part => orBad (Number.int? (String.ofList part))
        pure (inSixties parts)
  return if negative then -magnitude else magnitude

/-- The sum of doubles, each worth sixty times the next, from the last. -/
def floatInSixties (xs : List Binary64) : Binary64 :=
  (xs.reverse.foldl (fun (sum, base) x => (sum.add (x.mul (.ofInt base)), base * 60))
    (Binary64.zero false, (1 : Int))).1

/-- The double that a scalar stands for, whatever its form. -/
def float (text : String) : Except Fault Binary64 := do
  let (negative, cs) := Number.takeSign ((Text.lower text).toList.filter (· != '_'))
  let magnitude ← match cs with
    | [] => throw .outOfRange
    | '.' :: name =>
        if name = "inf".toList then pure (.infinite false)
        else if name = "nan".toList then return .nan
        else read cs
    | _ => read cs
  return if negative then magnitude.neg else magnitude
where
  /-- The double of a text without a sign. -/
  read (cs : List Char) : Except Fault Binary64 := do
    let parts ← (cs.splitOn ':').mapM fun part =>
      match Number.float? (String.ofList part) with
      | some x => .ok x
      | none => .error .badValue
    match parts with
    | [x] => return x
    | xs => return floatInSixties xs

/-- The moment that a scalar stands for. -/
def moment (text : String) : Except Fault Moment :=
  match timestamp? text with
  | none => .error .missingAttribute
  | some m => if m.isValid then .ok m else .error .badValue

/-- The place of a character among the sixty-four that stand for six bits. -/
def sextet? (c : Char) : Option Nat :=
  if 'A' ≤ c && c ≤ 'Z' then some (c.toNat - 65)
  else if 'a' ≤ c && c ≤ 'z' then some (c.toNat - 71)
  else if c.isDigit then some (c.toNat + 4)
  else if c == '+' then some 62
  else if c == '/' then some 63
  else none

/-- The bytes of groups of four characters, where others do not count and
padding ends a group; nothing if a group stays open.  `place` counts the
characters of the group so far, `held` is what they leave, and `pads` the
padding since. -/
def groups (place held pads : Nat) : List Char → Option (List UInt8)
  | [] => if place = 0 then some [] else none
  | c :: rest =>
      if c == '=' then
        if 2 ≤ place then
          if 4 ≤ place + pads + 1 then some [] else groups place held (pads + 1) rest
        else groups place held pads rest
      else
        match sextet? c, place with
        | none, _ => groups place held pads rest
        | some n, 0 => groups 1 n 0 rest
        | some n, 1 => (groups 2 (n % 16) 0 rest).map (UInt8.ofNat (held * 4 + n / 16) :: ·)
        | some n, 2 => (groups 3 (n % 4) 0 rest).map (UInt8.ofNat (held * 16 + n / 4) :: ·)
        | some n, _ => (groups 0 0 0 rest).map (UInt8.ofNat (held * 64 + n) :: ·)

/-- The bytes that a scalar in base sixty-four stands for. -/
def binary? (text : String) : Option (List UInt8) :=
  if text.toList.all (·.toNat < 128) then groups 0 0 0 text.toList else none

/-- The value of a scalar of a kind; none if there is no such value. -/
def value? (text : String) : Tag → Except Fault (Option Value)
  | .null => .ok (some .none)
  | .bool =>
      match flag? (Text.lower text) with
      | some b => .ok (some (.bool b))
      | none => .error .missingKey
  | .int => return some (.int (← integer text))
  | .float => return some (.float (← float text))
  | .str => .ok (some (.str text))
  | .timestamp => return some (.moment (← moment text))
  | .binary => .ok ((binary? text).map .bytes)
  | .seq | .map | .set | .pairs | .merge | .default | .unknown => .ok none

end Scalar

end Document

end Conform
