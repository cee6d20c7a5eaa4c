/-
# `Text.Case` — upper, lower and title case

Full case mapping: a letter may become several, and a capital sigma at the
end of a word becomes a final one.  `lowerSimple` and `upperSimple` map a
letter to one letter, which is what matching without regard to case needs.
-/
import Conform.Text.CaseTables

namespace Conform.Text

/-- The image of a code point under the run that holds it. -/
def CaseRun.map? (r : CaseRun) (n : Nat) : Option Nat :=
  if r.first ≤ n ∧ n ≤ r.last ∧ (n - r.first) % r.step = 0 then some (n + r.distance).toNat
  else none

private def runsMap (runs : List CaseRun) (c : Char) : Char :=
  ((runs.findSome? (·.map? c.toNat)).map Char.ofNat).getD c

private def fullMap (special : List (Nat × List Nat)) (runs : List CaseRun) (c : Char) : List Char :=
  match special.lookup c.toNat with
  | some image => image.map Char.ofNat
  | none => [runsMap runs c]

def lowerFull (c : Char) : List Char := fullMap lowerSpecial lowerRuns c

def upperFull (c : Char) : List Char := fullMap upperSpecial upperRuns c

def titleFull (c : Char) : List Char := fullMap titleSpecial titleRuns c

/-- The first character of the lower case form. -/
def lowerSimple (c : Char) : Char := (lowerFull c).headD c

/-- The upper case letter, for letters whose upper case is a single one. -/
def upperSimple (c : Char) : Char := runsMap upperRuns c

/-- The first character that casing does not look through is a cased letter. -/
def meetsCased (cs : List Char) : Bool :=
  match cs.find? (!ignorableBounds.contains ·) with
  | some c => casedBounds.contains c
  | none => false

/-- Lower case of `cs`, which follows the characters `before` (nearest
first).  A capital sigma after a cased letter and not before one is final. -/
def lowerAfter (before : List Char) : List Char → List Char
  | [] => []
  | c :: rest =>
      let image :=
        if c == 'Σ' then (if meetsCased before && !meetsCased rest then ['ς'] else ['σ'])
        else lowerFull c
      image ++ lowerAfter (c :: before) rest

def lower (s : String) : String := String.ofList (lowerAfter [] s.toList)

def upper (s : String) : String := String.ofList (s.toList.flatMap upperFull)

/-- The first character in title case, the others in lower case. -/
def capitalize (s : String) : String :=
  match s.toList with
  | [] => ""
  | c :: rest => String.ofList (titleFull c ++ lowerAfter [c] rest)

end Conform.Text
