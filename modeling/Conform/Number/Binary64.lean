/-
# `Number.Binary64` — double precision numbers as exact data

Every finite binary64 number is a whole multiple of `2 ^ (-1074)`, so a
finite number is kept as a sign and a count of those units.  Comparison
with integers and with other doubles is then comparison in `Int`, and
each arithmetic operation is the exact result, rounded once by
`roundUnits`.  Nothing here depends on the machine's own floating point,
so all of it evaluates in the kernel.
-/

namespace Conform

-- Powers are those of the core library, also where there are powers in monoids.
@[default_instance 10001]
instance (priority := high) naturalPower {α : Type} [NatPow α] : Pow α Nat := instPowNat

namespace Binary64

/-- A count of units is a double when it needs at most 53 significant bits
and lies below the overflow bound `2 ^ 1024`. -/
def representable (n : Nat) : Bool :=
  n.log2 < 2098 && n >>> (n.log2 - 52) <<< (n.log2 - 52) == n

end Binary64

/-- The absolute value of a finite double, counted in units of
`2 ^ (-1074)`. -/
structure Magnitude where
  /-- The number of units. -/
  units : Nat
  /-- The count is one that a double can hold. -/
  exact : Binary64.representable units = true
deriving DecidableEq

/-- A double precision number.  Zero keeps its sign. -/
inductive Binary64 where
  /-- Not a number: equal to nothing, itself included. -/
  | nan
  | infinite (negative : Bool)
  | finite (negative : Bool) (magnitude : Magnitude)
deriving DecidableEq

namespace Binary64

/-- One, in units. -/
def unitsPerOne : Nat := 1 <<< 1074

def zero (negative : Bool) : Binary64 :=
  .finite negative ⟨0, by decide⟩

/-- The quotient to the nearest integer; an exact half goes to the even
neighbour. -/
def divNearest (num den : Nat) : Nat :=
  let q := num / den
  match compare (2 * (num % den)) den with
  | .lt => q
  | .gt => q + 1
  | .eq => if q % 2 == 0 then q else q + 1

/-- Rounds `num / den` units to `precision` significant bits, on no grid
finer than `2 ^ least` units. -/
def roundUnits (precision least num den : Nat) : Nat :=
  let step := max ((num / den).log2 + 1 - precision) least
  divNearest num (den <<< step) <<< step

/-- The double nearest to `num / den` units, infinite beyond the overflow
bound. -/
def ofUnits (negative : Bool) (num den : Nat) : Binary64 :=
  let units := roundUnits 53 0 num den
  if exact : representable units = true then .finite negative ⟨units, exact⟩
  else .infinite negative

/-- The double nearest to an integer. -/
def ofInt (n : Int) : Binary64 :=
  ofUnits (n < 0) (n.natAbs * unitsPerOne) 1

/-- The double nearest to `digits * 10 ^ exponent`. -/
def ofDecimal (negative : Bool) (digits : Nat) (exponent : Int) : Binary64 :=
  if digits = 0 then zero negative
  -- beyond these exponents the answer no longer depends on the digits
  else if exponent + (digits.log2 : Int) < -1200 - digits.log2 then zero negative
  else if exponent > 400 then .infinite negative
  else ofUnits negative (digits * 10 ^ exponent.toNat * unitsPerOne) (10 ^ (-exponent).toNat)

/-- The value of a finite double in units, sign included. -/
def signedUnits? : Binary64 → Option Int
  | .finite negative m => some (if negative then -(m.units : Int) else m.units)
  | _ => none

def isNaN : Binary64 → Bool
  | .nan => true
  | _ => false

def isFinite : Binary64 → Bool
  | .finite .. => true
  | _ => false

def neg : Binary64 → Binary64
  | .nan => .nan
  | .infinite s => .infinite !s
  | .finite s m => .finite (!s) m

def abs : Binary64 → Binary64
  | .nan => .nan
  | .infinite _ => .infinite false
  | .finite _ m => .finite false m

/-- A sum or product of finite doubles, given exactly as `total / den`
units; `zeroSign` is the sign of an exact zero. -/
private def ofSigned (zeroSign : Bool) (total : Int) (den : Nat) : Binary64 :=
  if total = 0 then zero zeroSign else ofUnits (total < 0) total.natAbs den

def add : Binary64 → Binary64 → Binary64
  | .nan, _ | _, .nan => .nan
  | .infinite s, .infinite t => if s == t then .infinite s else .nan
  | .infinite s, _ | _, .infinite s => .infinite s
  | .finite s a, .finite t b =>
      let signed (negative : Bool) (n : Nat) : Int := if negative then -(n : Int) else n
      ofSigned (s && t) (signed s a.units + signed t b.units) 1

def mul : Binary64 → Binary64 → Binary64
  | .nan, _ | _, .nan => .nan
  | .infinite s, .infinite t => .infinite (s != t)
  | .infinite s, .finite t m | .finite s m, .infinite t =>
      if m.units = 0 then .nan else .infinite (s != t)
  | .finite s a, .finite t b =>
      if a.units * b.units = 0 then zero (s != t)
      else ofUnits (s != t) (a.units * b.units) unitsPerOne

/-- The nearest single precision number, again as a double: 24 significant
bits, no grid finer than `2 ^ (-149)`, infinite from `2 ^ 128` on. -/
def toSingle : Binary64 → Binary64
  | .finite s m =>
      let units := roundUnits 24 925 m.units 1
      if units.log2 < 1202 then ofUnits s units 1 else .infinite s
  | x => x

/-- Numeric order; `none` when an operand is not a number. -/
def compare? : Binary64 → Binary64 → Option Ordering
  | .nan, _ | _, .nan => none
  | .infinite s, .infinite t => some (compare t.toNat s.toNat)
  | .infinite s, .finite .. => some (if s then .lt else .gt)
  | .finite .., .infinite t => some (if t then .gt else .lt)
  | x@(.finite ..), y@(.finite ..) =>
      match x.signedUnits?, y.signedUnits? with
      | some a, some b => some (compare a b)
      | _, _ => none

/-- The order of a double and an integer, without rounding the integer. -/
def compareInt? (x : Binary64) (n : Int) : Option Ordering :=
  match x with
  | .nan => none
  | .infinite s => some (if s then .lt else .gt)
  | .finite .. => x.signedUnits?.map (compare · (n * unitsPerOne))

/-- A finite double without a fractional part. -/
def isIntegral : Binary64 → Bool
  | .finite _ m => m.units % unitsPerOne == 0
  | _ => false

/-- The bits of a number with a given width of exponent and of fraction, the
sign first.  Numbers of units below the least normal one have exponent zero;
the grid of the least is `2 ^ least` units. -/
def bitsIn (exponentWidth fractionWidth least : Nat) (x : Binary64) : Nat :=
  let special := (1 <<< exponentWidth) - 1
  let encoded (negative : Bool) (exponent fraction : Nat) : Nat :=
    ((if negative then 1 <<< exponentWidth else 0) + exponent) <<< fractionWidth + fraction
  match x with
  | .nan => encoded false special (1 <<< (fractionWidth - 1))
  | .infinite s => encoded s special 0
  | .finite s m =>
      let step := max (m.units.log2 - fractionWidth) least
      let significand := m.units >>> step
      if significand < 1 <<< fractionWidth then encoded s 0 significand
      else encoded s (step - least + 1) (significand - 1 <<< fractionWidth)

/-- The sixty-four bits of a double. -/
def bits (x : Binary64) : Nat := x.bitsIn 11 52 0

/-- The thirty-two bits of a single precision number. -/
def singleBits (x : Binary64) : Nat := x.bitsIn 8 23 925

/-- The integer part of a finite double, toward zero. -/
def truncate? (x : Binary64) : Option Int :=
  x.signedUnits?.map (Int.tdiv · unitsPerOne)

/-- The nearest integer to a finite double; an exact half goes to the even
neighbour. -/
def nearest? : Binary64 → Option Int
  | .finite s m =>
      let n : Int := divNearest m.units unitsPerOne
      some (if s then -n else n)
  | _ => none

end Binary64

end Conform
