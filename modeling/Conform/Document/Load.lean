/-
# `Document.Load` — schemas from documents

A document holds a configuration, or several of which any may apply; or it
is a catalog, which gives configurations names.  An empty document is the
empty configuration.
-/
import Conform.Document.Content
import Conform.Document.Patterns
import Conform.Config.Compile

namespace Conform

namespace Document

/-- The value that a file holds; `text` is its text, if there is a file. -/
def read (file : String) (text : Option String) : Outcome Value := do
  let some text := text | throw (.fault .missingFile)
  match tree? text with
  | none => throw (.config (.badDocument file))
  | some none => return .dict []
  | some (some root) =>
      match ← (root.value.run : Except Fault _) with
      | none => throw (.config (.badDocument file))
      | some .none => return .dict []
      | some v => return v

/-- The configuration that a file holds, with its patterns compiled. -/
def configuration (file : String) (text : Option String) : Outcome Value := do
  match ← read file text with
  | v@(.dict _) | v@(.list _) => compilePatterns "" v
  | v => throw (.config (.documentNotASchema file v.typeName))

end Document

namespace Registry

/-- The schema that a file describes. -/
def load (r : Registry) (file : String) (text : Option String) : Outcome Schema := do
  r.compile (← Document.configuration file text) .none

/-- Gives a name its schema; a name that has one keeps its place. -/
def enterSchema (name : String) (s : Schema) : List (String × Schema) → List (String × Schema)
  | [] => [(name, s)]
  | (n, t) :: rest => if n = name then (n, s) :: rest else (n, t) :: enterSchema name s rest

/-- The named schemas that a file describes. -/
def loadCatalog (r : Registry) (file : String) (text : Option String) :
    Outcome (List (String × Schema)) := do
  match ← Document.read file text with
  | .dict entries =>
      entries.foldlM (fun catalog (key, v) => do
        let name ← key.asText
        let s ← r.compile (← Document.compilePatterns name v) .none
        return enterSchema name s catalog) []
  | _ => throw (.config (.documentNotACatalog file))

end Registry

end Conform
