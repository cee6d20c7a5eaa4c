/-
# `Number.Digits` — integers with too many digits

Integers are of any size, but of those with too many decimal digits no text is
written and none is read.
-/
import Conform.Fault

namespace Conform

/-- A spelling, if it can be written. -/
def written (writable : Bool) (spelling : String) : Except Fault String :=
  if writable then .ok spelling else .error .badValue

namespace Number

/-- The greatest number of digits of an integer that is written or read, in
which case leading zeros count. -/
def digitLimit : Nat := 4300

/-- Whether a number has no more than so many digits. -/
def fitsDigits : Nat → Nat → Bool
  | 0, n => n == 0
  | limit + 1, n => n < 10 || fitsDigits limit (n / 10)

/-- Whether an integer has a text. -/
def isWritable (n : Int) : Bool := fitsDigits digitLimit n.natAbs

/-- The decimal digits of an integer. -/
def text (n : Int) : Except Fault String := written (isWritable n) (toString n)

end Number

end Conform
