/-
# `Schema.Variants` — which of several schemas accepts

A value belongs to the first of several schemas that accepts it.  Where none
does, the errors of all of them are kept.
-/
import Conform.Error.Failure
import Conform.Schema.Attribute

namespace Conform

/-- How a schema is asked about a value; the third argument leads the
message. -/
abbrev Ask := Schema → Value → Value → Outcome (Option ErrorInfo)

/-- What the search for an accepting schema finds: the first that accepts,
or the error of each. -/
inductive Search where
  | found (position : Nat) (schema : Schema)
  | refused (errors : List ErrorInfo)

namespace Search

/-- Asks the schemas in order, the first of which has this position. -/
def run (ask : Ask) (v : Value) : Nat → List Value → Outcome Search
  | _, [] => return .refused []
  | position, candidate :: rest => do
      match candidate with
      | .schema s =>
          match ← ask s v (.str "") with
          | none => return .found position s
          | some error =>
              match ← run ask v (position + 1) rest with
              | .found n t => return .found n t
              | .refused errors => return .refused (error :: errors)
      | _ => throw (.fault .missingAttribute)

end Search

/-- Searches the items of a value for a schema that accepts. -/
def searchItems (ask : Ask) (candidates v : Value) : Outcome Search := do
  Search.run ask v 0 (← candidates.items)

def searchMembers (ask : Ask) (members : List Instance) (v : Value) : Outcome Search :=
  Search.run ask v 0 (members.map fun s => .schema (.single s))

end Conform
