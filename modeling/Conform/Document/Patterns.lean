/-
# `Document.Patterns` — compiling the patterns of a configuration

A document holds patterns as text.  They are compiled where a configuration
may hold one: in the configuration itself, in the values of `properties`,
in `schema` and in `one_of`.  Other data stays as written.
-/
import Conform.Error.Failure
import Conform.Pattern.Parser
import Conform.Config.Height
import Conform.Value.Entries

namespace Conform

namespace Document

/-- A place below another one. -/
def below (place name : String) : String := if place.isEmpty then name else place ++ "." ++ name

/-- The pattern of a text that stands at a place. -/
def patternAt (place source : String) : Outcome Value :=
  match Pattern.compile source .plain with
  | .ok p => .ok (.pattern p)
  | .error .malformed => .error (.config (.badPattern place source))
  | .error .countTooLarge => .error (.fault .overflow)
  | .error .conflictingModes => .error (.fault .badValue)

/-- Compiles the pattern of a configuration itself. -/
def ownPattern (place : String) (entries : Entries) : Outcome Entries := do
  match (entries.getD "pattern" .none).text? with
  | some source => return entries.put (.str "pattern") (← patternAt (below place "pattern") source)
  | none => return entries

/-- Compiles with `inner` what an option holds, if it is given. -/
def innerPatterns (inner : String → Value → Outcome Value) (place name : String)
    (given entries : Entries) : Outcome Entries := do
  match given.get? name with
  | some v => return entries.put (.str name) (← inner (below place name) v)
  | none => return entries

/-- Compiles with `inner` what the properties hold. -/
def propertyPatterns (inner : String → Value → Outcome Value) (place : String)
    (given entries : Entries) : Outcome Entries := do
  match given.getD "properties" .none with
  | .dict properties =>
      let compiled ← properties.mapM fun (key, v) => do
        let name ← key.display
        return (key, ← inner (below place ("properties." ++ name)) v)
      return entries.put (.str "properties") (.dict compiled)
  | _ => return entries

/-- Compiles the patterns of a configuration that lies lower than the first
argument. -/
def patternsWithin : Nat → String → Value → Outcome Value
  | n + 1, place, .list items => do
      let compiled ← items.zipIdx.mapM fun (item, i) =>
        patternsWithin n (place ++ "[" ++ toString i ++ "]") item
      return .list compiled
  | n + 1, place, .dict given => do
      let entries ← ownPattern place given
      let entries ← propertyPatterns (patternsWithin n) place given entries
      let entries ← innerPatterns (patternsWithin n) place "schema" given entries
      return .dict (← innerPatterns (patternsWithin n) place "one_of" given entries)
  | _, _, v => return v

/-- Compiles the patterns of a configuration, or of several, that stands at
a place. -/
def compilePatterns (place : String) (v : Value) : Outcome Value :=
  patternsWithin (v.height + 1) place v

end Document

end Conform
