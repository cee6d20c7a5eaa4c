/-
# `Text.Names` — characters by their names

A character may be given by its name, in letters of either case.  Ideographs
and Korean syllables are named by rules, in capital letters only.
-/
import Conform.Text.Case
import Conform.Text.NameTables

namespace Conform.Text

/-- What follows a lead. -/
def afterLead? (lead : String) (name : List Char) : Option (List Char) :=
  if lead.toList.isPrefixOf name then some (name.drop lead.length) else none

/-- The character of a run with this name. -/
def NameRun.find? (r : NameRun) (name : List Char) : Option Nat := do
  let own ← afterLead? r.lead name
  let position ← r.names.findIdx? (·.toList == own)
  return r.first + r.step * position

def upperDigit? (c : Char) : Option Nat :=
  if c.isDigit then some (c.toNat - 48)
  else if 'A' ≤ c && c ≤ 'F' then some (c.toNat - 55)
  else none

/-- A number in base sixteen. -/
def upperNumber? (ds : List Char) : Option Nat :=
  ds.foldlM (fun n c => return 16 * n + (← upperDigit? c)) 0

def inRuns (runs : List NumberedRun) (n : Nat) : Bool :=
  runs.any fun r => r.first ≤ n && n ≤ r.last

/-- The character of some runs with this number as its name; one of five digits
has no leading zero. -/
def numbered? (runs : List NumberedRun) (ds : List Char) : Option Nat := do
  let n ← upperNumber? ds
  if inRuns runs n && ds.length == (if n < 0x10000 then 4 else 5) then some n else none

/-- The ideograph with this name. -/
def ideograph? (name : List Char) : Option Nat := do
  let ds ← afterLead? "CJK UNIFIED IDEOGRAPH-" name
  let n ← upperNumber? ds
  if inRuns ideographRuns n && (ds.length == 4 || ds.length == 5) then some n else none

/-- The position of the longest part that comes first, and what follows it. -/
def longestPart? (parts : List String) (cs : List Char) : Option (Nat × List Char) :=
  parts.zipIdx.foldl (fun best (part, i) =>
    match afterLead? part cs, best with
    | some rest, some (j, shorter) =>
        if rest.length < shorter.length then some (i, rest) else some (j, shorter)
    | some rest, none => some (i, rest)
    | none, best => best) none

/-- The Korean syllable with this name. -/
def syllable? (name : List Char) : Option Nat := do
  let (first, middle, last) := syllableParts
  let (l, cs) ← longestPart? first (← afterLead? "HANGUL SYLLABLE " name)
  let (v, cs) ← longestPart? middle cs
  let (t, cs) ← longestPart? last cs
  if cs.isEmpty then some (0xac00 + (l * 21 + v) * 28 + t) else none

/-- The character that a name stands for. -/
def charNamed? (name : String) : Option Nat :=
  let given := name.toList
  let upper := given.map Char.toUpper
  (syllable? given <|> ideograph? given)
    <|> (nameRuns.findSome? (·.find? upper)
      <|> (nameAliases.find? fun (_, names) => names.any (·.toList == upper)).map (·.1))
    <|> numberedRuns.findSome? fun (lead, runs) => afterLead? lead upper >>= numbered? runs

end Conform.Text
