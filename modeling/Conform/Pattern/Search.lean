/-
# `Pattern.Search` — where a pattern matches

`Node.ends` lists the ways a part can match from a spot, best first, so
alternatives, repetitions and conditions are operations on lists.  A
repetition that consumed nothing is the last one, which bounds every loop
by the length of the text.
-/
import Conform.Fault
import Conform.Pattern.Basic
import Conform.Text.Word
import Conform.Text.Folding

namespace Conform

namespace Pattern

/-- A position in the text and the texts of the groups so far. -/
structure Spot where
  position : Nat
  groups : List (Nat × Nat × Nat)
deriving DecidableEq

/-- Membership of a character in one of the named classes. -/
def CharKind.holds (ascii : Bool) (c : Char) : CharKind → Bool
  | .digit => if ascii then c.isDigit else (Text.digitValue? c).isSome
  | .blank => if ascii then [9, 10, 11, 12, 13, 32].contains c.toNat else Text.isBlank c
  | .word => if ascii then c.isAlphanum || c == '_' else Text.isWord c

/-- The code points that a character stands for in a mode. -/
def Mode.variants (m : Mode) (c : Char) : List Nat :=
  if m.foldCase then Text.caseVariants m.ascii c else [c.toNat]

def SetItem.holds (m : Mode) (c : Char) : SetItem → Bool
  | .range low high => (m.variants c).any fun n => low ≤ n && n ≤ high
  | .kind k negated => k.holds m.ascii c != negated

def setHolds (m : Mode) (negated : Bool) (items : List SetItem) (c : Char) : Bool :=
  items.any (·.holds m c) != negated

def isWordAt (ascii : Bool) (text : Array Char) (i : Nat) : Bool :=
  match text[i]? with
  | some c => CharKind.word.holds ascii c
  | none => false

def lineFeedAt (text : Array Char) (i : Nat) : Bool := text[i]? == some '\n'

/-- Whether the position lies between a word character and another one. -/
def atBoundary (ascii : Bool) (text : Array Char) (i : Nat) : Bool :=
  (i != 0 && isWordAt ascii text (i - 1)) != isWordAt ascii text i

def Anchor.holds (m : Mode) (text : Array Char) (i : Nat) : Anchor → Bool
  | .textStart => i == 0
  | .textEnd => i == text.size
  | .start => i == 0 || m.multiline && lineFeedAt text (i - 1)
  | .stop =>
      i == text.size || lineFeedAt text i && (m.multiline || i + 1 == text.size)
  | .boundary => atBoundary m.ascii text i
  | .noBoundary => text.size != 0 && !atBoundary m.ascii text i

/-- One character that satisfies the condition. -/
def oneChar (text : Array Char) (spot : Spot) (p : Char → Bool) : List Spot :=
  match text[spot.position]? with
  | some c => if p c then [{ spot with position := spot.position + 1 }] else []
  | none => []

/-- Whether the characters from `start` to `stop` come again at `i`. -/
def repeats (m : Mode) (text : Array Char) (start stop i : Nat) : Bool :=
  i + (stop - start) ≤ text.size
    && (List.range (stop - start)).all fun k =>
      match text[start + k]?, text[i + k]? with
      | some a, some b =>
          if m.foldCase then
            if m.ascii then Text.lowerAscii a.toNat == Text.lowerAscii b.toNat
            else Text.lowerSimple a == Text.lowerSimple b
          else a == b
      | _, _ => false

/-- The repetitions that must take place. -/
def forced (step : Spot → List Spot) : Nat → List Spot → List Spot
  | 0, spots => spots
  | n + 1, spots => if spots.isEmpty then [] else forced step n (spots.flatMap step).eraseDups

/-- The spots that a loop has been at, with the repetitions then left. -/
abbrev Seen := List (Spot × Option Nat)

/-- The repetitions that may follow, at most `most` of them.  A spot that the
loop has been at adds no new ends. -/
def optional (step : Spot → List Spot) (greed : Greed) :
    Nat → Option Nat → Seen → Spot → List Spot × Seen
  | 0, _, seen, spot => ([spot], seen)
  | fuel + 1, most, seen, spot =>
      if seen.contains (spot, most) then ([], seen)
      else
        let nexts := if most == some 0 then [] else step spot
        let (more, seen) := nexts.foldl
          (fun (ends, seen) next =>
            if next.position == spot.position then (ends ++ [next], seen)
            else
              let (others, seen) := optional step greed fuel (most.map (· - 1)) seen next
              (ends ++ others, seen))
          ([], (spot, most) :: seen)
        match greed with
        | .lazy => (spot :: more, seen)
        | _ => (more ++ [spot], seen)

/-- All runs of a repetition. -/
def runs (step : Spot → List Spot) (least : Nat) (most : Option Nat) (greed : Greed)
    (size : Nat) (spot : Spot) : List Spot :=
  let step := if greed = .possessive then fun s => (step s).take 1 else step
  let ends := (forced step least [spot]).flatMap fun s =>
    (optional step greed (size + 1) (most.map (· - least)) [] s).1
  (if greed = .possessive then ends.take 1 else ends).eraseDups

/-- The spots where a part can end when it starts at a spot, best first.
Only the groups in `kept` are remembered. -/
def Node.ends (text : Array Char) (kept : List Nat) : Mode → Node → Spot → List Spot
  | _, .empty, spot => [spot]
  | m, .char code, spot => oneChar text spot fun c => (m.variants c).contains code
  | m, .any, spot => oneChar text spot fun c => m.dotAll || c != '\n'
  | m, .set negated items, spot => oneChar text spot (setHolds m negated items)
  | m, .anchor a, spot => if a.holds m text spot.position then [spot] else []
  | m, .seq a b, spot => ((a.ends text kept m spot).flatMap (b.ends text kept m)).eraseDups
  | m, .alt a b, spot => (a.ends text kept m spot ++ b.ends text kept m spot).eraseDups
  | m, .group n body, spot =>
      let close (done : Spot) : Spot :=
        if kept.contains n then
          { done with
            groups := (n, spot.position, done.position) :: done.groups.filter (·.1 != n) }
        else done
      (body.ends text kept m spot).map close
  | m, .scoped change body, spot => body.ends text kept (m.apply change) spot
  | m, .loop least most greed body, spot =>
      runs (fun s => body.ends text kept m s) least most greed text.size spot
  | m, .again n, spot =>
      match spot.groups.lookup n with
      | some (start, stop) =>
          if repeats m text start stop spot.position then
            [{ spot with position := spot.position + (stop - start) }]
          else []
      | none => []
  | m, .look width negated body, spot =>
      let back := width.getD 0
      let found :=
        if back ≤ spot.position then
          body.ends text kept m { spot with position := spot.position - back }
        else []
      match found, negated with
      | [], true => [spot]
      | [], false => []
      | _ :: _, true => []
      | first :: _, false => [{ first with position := spot.position }]
  | m, .atomic body, spot => (body.ends text kept m spot).take 1
  | m, .ifGroup n yes no, spot =>
      if (spot.groups.lookup n).isSome then yes.ends text kept m spot else no.ends text kept m spot

end Pattern

/-- Whether what a pattern means is found somewhere in a text. -/
def Pattern.occursIn (p : Pattern) (text : String) : Bool :=
  let chars := text.toList.toArray
  (List.range (chars.size + 1)).any fun start =>
    !(p.node.ends chars p.node.referred p.mode ⟨start, []⟩).isEmpty

/-- Whether the pattern matches somewhere in the text.  A pattern for bytes cannot be
asked. -/
def Pattern.search (p : Pattern) (text : String) : Except Fault Bool :=
  match p.source with
  | .text _ => .ok (p.occursIn text)
  | .bytes .. => .error .typeMismatch

end Conform
