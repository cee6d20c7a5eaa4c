/-
# `Text.Folding` — letters that are one letter when case is ignored

Two letters agree without regard to case when they have the same lower
case letter, or lower case letters that share their upper case, as `σ` and
`ς` do.  `caseVariants` lists every code point that agrees with a given
one, so that membership in a range of letters can be decided without
walking the range.
-/
import Conform.Text.Case

namespace Conform.Text

/-- Lower case letters that share their upper case. -/
def sharedUpper : List (List Nat) :=
  [[105, 305], [115, 383], [181, 956], [837, 953, 8126], [912, 8147], [944, 8163], [946, 976],
   [949, 1013], [952, 977], [954, 1008], [960, 982], [961, 1009], [962, 963], [966, 981],
   [1074, 7296], [1076, 7297], [1086, 7298], [1089, 7299], [1090, 7300, 7301], [1098, 7302],
   [1123, 7303], [7304, 42571], [7777, 7835], [64261, 64262]]

/-- The letter that the run maps to `n`. -/
def CaseRun.origin? (r : CaseRun) (n : Nat) : Option Nat :=
  let m := ((n : Int) - r.distance).toNat
  if r.map? m = some n then some m else none

/-- The letters other than `n` whose lower case letter is `n`. -/
def lowerOrigins (n : Nat) : List Nat :=
  lowerRuns.filterMap (·.origin? n)
    ++ lowerSpecial.filterMap fun (m, image) => if image.head? == some n then some m else none

/-- The lower case letter of an ASCII letter; any other code point is kept. -/
def lowerAscii (n : Nat) : Nat :=
  if 65 ≤ n ∧ n ≤ 90 then n + 32 else n

/-- Every code point that agrees with `c` without regard to case: within
ASCII alone, or in all scripts. -/
def caseVariants (ascii : Bool) (c : Char) : List Nat :=
  if ascii then
    let n := lowerAscii c.toNat
    if 97 ≤ n ∧ n ≤ 122 then [n, n - 32] else [n]
  else
    let n := (lowerSimple c).toNat
    let peers := (sharedUpper.find? (·.contains n)).getD [n]
    peers.flatMap fun m => m :: lowerOrigins m

end Conform.Text
