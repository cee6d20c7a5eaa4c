/-
# `Document.Timestamp` — dates and times in documents

A date is written with hyphens.  A time follows a `T` or blanks, perhaps
with a fraction of a second and an offset; months, days and hours may have
one digit.  A scalar without quotes that is a date alone has two digits for
month and day.
-/
import Conform.Value.Moment

namespace Conform

namespace Document

namespace Timestamp

/-- Reads something from the front of a text. -/
abbrev Read := StateT (List Char) Option

def ofDigits (ds : List Char) : Nat := ds.foldl (fun n c => 10 * n + (c.toNat - 48)) 0

/-- So many digits. -/
def digits (least most : Nat) : Read (List Char) := do
  let ds := ((← get).takeWhile Char.isDigit).take most
  if ds.length < least then failure
  modify (List.drop ds.length)
  return ds

def number (least most : Nat) : Read Nat := return ofDigits (← digits least most)

def mark (c : Char) : Read Unit := do
  if (← get).head? == some c then modify List.tail else failure

def skipBlanks : Read Unit := modify (List.dropWhile fun c => c == ' ' || c == '\t')

/-- What stands between a day and the time on it. -/
def daySeparator : Read Unit := do
  match (← get).head? with
  | some 'T' | some 't' => modify List.tail
  | some ' ' | some '\t' => skipBlanks
  | _ => failure

/-- The digits after the point as millionths; further ones do not count. -/
def fraction : Read Nat := do
  if (← get).head? != some '.' then return 0
  mark '.'
  let ds := (← get).takeWhile Char.isDigit
  modify (List.drop ds.length)
  return ofDigits ((ds ++ List.replicate 6 '0').take 6)

/-- An offset in minutes, if there is one. -/
def offset : Read (Option Int) := do
  skipBlanks
  match (← get).head? with
  | none => return none
  | some 'Z' =>
      mark 'Z'
      return some 0
  | some sign =>
      if sign != '-' && sign != '+' then failure
      modify List.tail
      let hours ← number 1 2
      let minutes ← if (← get).head? == some ':' then mark ':' *> number 2 2 else pure 0
      let total : Int := hours * 60 + minutes
      return some (if sign == '-' then -total else total)

def clock : Read Clock := do
  daySeparator
  let hour ← number 1 2
  mark ':'
  let minute ← number 2 2
  mark ':'
  let second ← number 2 2
  return ⟨hour, minute, second, ← fraction, ← offset⟩

/-- A whole timestamp, and whether month and day have two digits. -/
def whole : Read (Moment × Bool) := do
  let year ← number 4 4
  mark '-'
  let month ← digits 1 2
  mark '-'
  let day ← digits 1 2
  let time ← if (← get).isEmpty then pure none else some <$> clock
  if !(← get).isEmpty then failure
  return (⟨year, ofDigits month, ofDigits day, time⟩, month.length == 2 && day.length == 2)

end Timestamp

/-- The moment that a text is written for, whether or not there is such a
day. -/
def timestamp? (text : String) : Option Moment :=
  (Timestamp.whole.run text.toList).map (·.1.1)

/-- Whether a scalar without quotes is a timestamp. -/
def isTimestamp (cs : List Char) : Bool :=
  match Timestamp.whole.run cs with
  | some ((m, twoDigits), _) => m.clock.isSome || twoDigits
  | none => false

end Document

end Conform
