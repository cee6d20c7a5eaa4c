/-
# `Value.Moment` — dates and times

A moment is a day of the calendar, or a time on such a day, perhaps with its
offset from universal time.  Times with an offset are equal when they are
the same instant.
-/
import Conform.Number.Notation

namespace Conform

/-- A time of day; the offset counts minutes. -/
structure Clock where
  hour : Nat
  minute : Nat
  second : Nat
  microsecond : Nat
  offset : Option Int
deriving DecidableEq

/-- A day, or a time on it. -/
structure Moment where
  year : Nat
  month : Nat
  day : Nat
  clock : Option Clock
deriving DecidableEq

namespace Moment

/-! ## The calendar -/

def isLeap (year : Nat) : Bool := year % 4 == 0 && (year % 100 != 0 || year % 400 == 0)

def daysInMonth (year month : Nat) : Nat :=
  if month = 2 then (if isLeap year then 29 else 28)
  else if [4, 6, 9, 11].contains month then 30 else 31

/-- The number of days from the first one of the calendar. -/
def dayNumber (year month day : Nat) : Nat :=
  let before := year - 1
  before * 365 + before / 4 - before / 100 + before / 400
    + ((List.range (month - 1)).map fun m => daysInMonth year (m + 1)).foldr (· + ·) 0 + day - 1

end Moment

/-- The offset is less than a day. -/
def Clock.isValid (c : Clock) : Bool :=
  c.hour < 24 && c.minute < 60 && c.second < 60
    && c.offset.all fun minutes => minutes.natAbs < 24 * 60

namespace Moment

/-- Whether there is such a day, and such a time on it. -/
def isValid (m : Moment) : Bool :=
  1 ≤ m.year && m.year ≤ 9999 && 1 ≤ m.month && m.month ≤ 12 && 1 ≤ m.day
    && m.day ≤ daysInMonth m.year m.month && m.clock.all Clock.isValid

/-- Microseconds of universal time, if the offset is known. -/
def instant? (m : Moment) : Option Int := do
  let c ← m.clock
  let offset ← c.offset
  let minutes : Int := dayNumber m.year m.month m.day * 1440 + c.hour * 60 + c.minute - offset
  return (minutes * 60 + c.second) * 1000000 + c.microsecond

/-- Whether both are days or both are times. -/
def sameType (m n : Moment) : Bool := m.clock.isSome == n.clock.isSome

def typeName (m : Moment) : String := if m.clock.isSome then "datetime" else "date"

/-! ## Texts -/

def padded (width n : Nat) : String :=
  let ds := toString n
  "".pushn '0' (width - ds.length) ++ ds

/-- The offset in hours and minutes. -/
def offsetText (minutes : Int) : String :=
  (if minutes < 0 then "-" else "+") ++ padded 2 (minutes.natAbs / 60) ++ ":"
    ++ padded 2 (minutes.natAbs % 60)

def clockText (c : Clock) : String :=
  " " ++ padded 2 c.hour ++ ":" ++ padded 2 c.minute ++ ":" ++ padded 2 c.second
    ++ (if c.microsecond = 0 then "" else "." ++ padded 6 c.microsecond)
    ++ (c.offset.map offsetText).getD ""

/-- A moment in running text, its parts from the year on. -/
def display (m : Moment) : String :=
  padded 4 m.year ++ "-" ++ padded 2 m.month ++ "-" ++ padded 2 m.day
    ++ (m.clock.map clockText).getD ""

/-- The literal form of a duration of less than a day either way: a negative
one is a day less and the seconds that make it up. -/
def durationLiteral (minutes : Int) : String :=
  let days := if minutes < 0 then "days=-1, " else ""
  "datetime.timedelta(" ++ days ++ "seconds=" ++ toString (minutes * 60 % 86400) ++ ")"

def zoneLiteral (minutes : Int) : String :=
  if minutes = 0 then "datetime.timezone.utc"
  else "datetime.timezone(" ++ durationLiteral minutes ++ ")"

/-- The literal form of a moment, without seconds or their fraction where
they are zero. -/
def literal (m : Moment) : String :=
  let date := [m.year, m.month, m.day]
  match m.clock with
  | none => "datetime.date(" ++ ", ".intercalate (date.map toString) ++ ")"
  | some c =>
      let seconds := if c.microsecond != 0 then [c.second, c.microsecond]
        else if c.second != 0 then [c.second] else []
      let zone := match c.offset with
        | some minutes => ["tzinfo=" ++ zoneLiteral minutes]
        | none => []
      "datetime.datetime("
        ++ ", ".intercalate ((date ++ [c.hour, c.minute] ++ seconds).map toString ++ zone) ++ ")"

end Moment

end Conform
