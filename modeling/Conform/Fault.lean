/-
# `Fault` — operations that do not apply to their operands

A fault is not a verdict on a value or a configuration: it says that an
operation on values had no meaning where it was used, as an addition of a
number and a text has none.
-/

namespace Conform

inductive Fault where
  /-- The operation is not defined for values of these kinds. -/
  | typeMismatch
  /-- The operation is not defined for arrays of these formats. -/
  | formatMismatch
  /-- The kind is right, the value is not. -/
  | badValue
  | overflow
  /-- What was asked for does not fit into memory. -/
  | outOfMemory
  | missingAttribute
  /-- A finished schema was to be changed; the message says how. -/
  | immutable (message : String)
  | missingKey
  | outOfRange
  | missingFile
deriving DecidableEq

end Conform
