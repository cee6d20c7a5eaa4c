/-
# `Schema.Alternatives` — several schemas as one

Schemas that are alternatives to each other form one schema.  Nested
alternatives are taken apart, and a schema whose digest occurred before is
left out.
-/
import Conform.Value.Literal

namespace Conform

namespace Schema

/-- The schemas that this one is made of. -/
def members : Schema → List Instance
  | .single s => [s]
  | .multi members => members

/-- The schemas whose digest did not occur among `seen` or before. -/
def dropRepeated (seen : List String) : List Instance → List Instance
  | [] => []
  | s :: rest =>
      if seen.contains s.hash then dropRepeated seen rest
      else s :: dropRepeated (s.hash :: seen) rest

/-- Alternatives as one schema. -/
def ofAlternatives (schemas : List Schema) : Schema :=
  .multi (dropRepeated [] (schemas.flatMap members))

end Schema

end Conform
