/-
# `Error.Info` — an error in a value, as data

A check that fails reports what is wrong with the value: a message, a kind,
the errors of its parts, and where in its container the value stands.
-/
import Conform.Error.Kind

namespace Conform

structure ErrorInfo where
  message : String
  kind : ErrorKind
  /-- The errors that this one sums up. -/
  errors : List ErrorInfo
  /-- The key of the value in its dictionary. -/
  property : Value
  /-- The position of the value in its array. -/
  index : Option Nat

namespace ErrorInfo

/-- An error without parts or place. -/
def of (message : String) (kind : ErrorKind) : ErrorInfo := ⟨message, kind, [], .none, none⟩

/-- The messages of several errors below a headline, one a line. -/
def summed (headline : String) (errors : List ErrorInfo) : String :=
  headline ++ "\n  " ++ "\n  ".intercalate (errors.map ErrorInfo.message)

/-- The error of a value that every variant refuses. -/
def ofVariants (errors : List ErrorInfo) (lead : String) (kind : ErrorKind) : ErrorInfo :=
  { of (lead ++ summed "All possible schemas have errors:" errors) kind with errors }

end ErrorInfo

end Conform
