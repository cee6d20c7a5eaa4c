/-
# `Schema.Verdict` — what is wrong with a value

Each layer of a schema may check a value, root first, and the first error
counts.  The checks of the built-in controllers are defined here one by
one; `Schema.error` runs them, and asks the schemas in the attributes about
the parts of the value.
-/
import Conform.Schema.Variants
import Conform.Schema.Depth
import Conform.Value.Class
import Conform.Value.Duplicates
import Conform.Pattern.Search

namespace Conform

/-- What a check comes to: nothing, or an error. -/
abbrev Verdict := Outcome (Option ErrorInfo)

/-- The text of a lead that stands before a message. -/
def Value.leadText (lead : Value) : Except Fault String :=
  match lead.text? with
  | some s => .ok s
  | .none => .error .typeMismatch

/-- Nothing, if a lead counts as false. -/
def Value.orEmpty (lead : Value) : Except Fault Value :=
  return if ← lead.truthy then lead else .str ""

/-- The verdict that a value is refused, after a lead that must be text. -/
def refused (lead v : Value) (expects : String) (kind : ErrorKind) : Verdict := do
  let message ← valueMessage v expects
  return some (.of ((← lead.leadText) ++ message) kind)

/-- A verdict with any lead as running text. -/
def reported (lead : Value) (message : String) (kind : ErrorKind) : Verdict :=
  return some (.of ((← lead.display) ++ message) kind)

/-- The first of two verdicts that is an error. -/
@[macro_inline] def firstOf (x y : Verdict) : Verdict := do
  match ← x with
  | some error => return some error
  | none => y

/-- Asks a schema in an attribute. -/
def askAttribute (ask : Ask) (attr v : Value) (lead : String) : Verdict :=
  match attr with
  | .schema s => ask s v (.str lead)
  | _ => throw (.fault .missingAttribute)

/-- An error that sums up others, if there are any. -/
def summarized (lead : Value) (one several : String) (kind : ErrorKind)
    (errors : List ErrorInfo) : Verdict :=
  match errors with
  | [] => return none
  | _ => do
      let count := if errors.length = 1 then one else several
      return some { ErrorInfo.of ((← lead.display) ++ ErrorInfo.summed count errors) kind with errors }

namespace Instance

/-! ## The root controller -/

/-- The value must be one of those listed, if any are. -/
def checkEnum (s : Instance) (v lead : Value) : Verdict := do
  let listed ← s.get "enum"
  if listed.isNone then return none
  let items ← listed.items
  if (Value.strictIndex? items v).isSome then return none
  let literals ← (items.mapM Value.literal : Except Fault _)
  refused lead v ("Expected one of: [" ++ ", ".intercalate literals ++ "]") .notInEnum

/-- The validator must answer with something that is true and no text; a
text says what was expected. -/
def checkValidator (s : Instance) (v lead : Value) : Verdict := do
  match ← s.get "validator" with
  | .none => return none
  | .callable f =>
      let answer ← f.apply v
      let accepted ← answer.truthy
      match answer.text? with
      | some text =>
          let said ← answer.display
          refused lead v (if text.isEmpty then ErrorKind.notValidated.summary else said)
            .notValidated
      | none =>
          if accepted then return none
          else refused lead v ErrorKind.notValidated.summary .notValidated
  | _ => throw (.fault .typeMismatch)

def checkTyped (s : Instance) (v lead : Value) : Verdict :=
  firstOf (s.checkEnum v lead) (s.checkValidator v lead)

/-! ## Controllers without parts -/

def checkBoolean (v lead : Value) : Verdict :=
  if v.isBoolean then return none else refused lead v "Expected a boolean." .type

def checkSymbol (v lead : Value) : Verdict :=
  match v with
  | .member _ => return none
  | _ => refused lead v "Expected a symbol (enum member)." .type

/-- One side of the range of numbers: its attributes, and how a number fails
to lie on the right side of the bound, when the bound itself is out and when
it is in. -/
structure Side where
  name : String
  exclusiveName : String
  exclusive : Comparison
  inclusive : Comparison
  exclusiveWords : String
  inclusiveWords : String
  kind : ErrorKind

namespace Side

def upper : Side :=
  ⟨"max", "exclusive_max", .ge, .gt, "less than", "less than or equal to", .numberMax⟩

def lower : Side :=
  ⟨"min", "exclusive_min", .le, .lt, "greater than", "greater than or equal to", .numberMin⟩

end Side

/-- The number must lie on the right side of a bound that is set. -/
def checkBound (s : Instance) (side : Side) (v lead : Value) : Verdict := do
  let bound ← s.get side.name
  if bound.isNone then return none
  let exclusive ← (← s.get side.exclusiveName).truthy
  if ← Value.holds (if exclusive then side.exclusive else side.inclusive) v bound then
    let words := if exclusive then side.exclusiveWords else side.inclusiveWords
    refused lead v ("Expected a number " ++ words ++ " " ++ (← bound.display) ++ ".") side.kind
  else return none

def checkNumber (s : Instance) (v lead : Value) : Verdict := do
  if !v.isReal || v.isNaN then
    refused lead v "Expected a number." .type
  else if (← (← s.get "integer").truthy) && !v.isInteger then
    refused lead v "Expected an integer." .numberNotInteger
  else firstOf (s.checkBound .upper v lead) (s.checkBound .lower v lead)

/-- What has a length: the attributes of its bounds and how it is called. -/
structure Measure where
  least : String
  most : String
  container : String
  parts : String
  tooFew : ErrorKind
  tooMany : ErrorKind

namespace Measure

def text : Measure :=
  ⟨"min_length", "max_length", "string", "characters", .stringMin, .stringMax⟩

def array : Measure := ⟨"min_items", "max_items", "array", "items", .arrayMin, .arrayMax⟩

end Measure

/-- The length of a container or text must lie within the bounds. -/
def checkLength (s : Instance) (m : Measure) (n : Nat) (lead : Value) : Verdict := do
  let refuse (words : String) (bound : Value) (kind : ErrorKind) : Verdict := do
    reported lead ("Invalid " ++ m.container ++ " length. Must contain " ++ words ++ " "
      ++ (← bound.display) ++ " " ++ m.parts ++ ". Contains " ++ toString n) kind
  let low ← s.get m.least
  if ← Value.holds .lt (.int n) low then refuse "at least" low m.tooFew
  else
    let high ← s.get m.most
    if high.isNone then return none
    else if ← Value.holds .gt (.int n) high then refuse "at most" high m.tooMany
    else return none

/-- The text must match the pattern, if there is one. -/
def checkPattern (s : Instance) (v : Value) (text : String) (lead : Value) : Verdict := do
  match ← s.get "pattern" with
  | .none => return none
  | .pattern p =>
      if ← p.search text then return none
      else reported lead ("Invalid string. Does not match required pattern "
        ++ p.source.literal ++ " with value: " ++ (← v.display)) .stringPattern
  | _ => throw (.fault .missingAttribute)

def checkString (s : Instance) (v lead : Value) : Verdict := do
  match v.text? with
  | none => refused lead v "Expected a string." .type
  | some text =>
      firstOf (s.checkLength .text text.length lead) (s.checkPattern v text lead)

/-- The number of arguments must lie within the bounds. -/
def checkArguments (s : Instance) (n : Nat) (v lead : Value) : Verdict := do
  let low ← s.get "min_arguments"
  if ← Value.holds .lt (.int n) low then
    let plural := if Value.equal low (.int 1) then "" else "s"
    refused lead v ("Expected the function to have at least " ++ (← low.display) ++ " parameter"
      ++ plural ++ ".") .functionMin
  else
    let high ← s.get "max_arguments"
    if high.isNone then return none
    else if ← Value.holds .gt (.int n) high then
      refused lead v ("Expected the function to have at most " ++ (← high.display)
        ++ " parameters.") .functionMax
    else return none

def checkFunction (s : Instance) (v lead : Value) : Verdict := do
  match v with
  | .callable f =>
      if (← (← s.get "named").truthy) && !f.isNamed then
        refused lead v "Expected a named function." .functionUnnamed
      else match f.argumentCount? with
        | none => return none
        | some n => s.checkArguments n v lead
  | _ =>
      let named ← (← s.get "named").truthy
      refused lead v (if named then "Expected a named function." else "Expected a function.") .type

/-! ## Containers -/

/-- The items must be pairwise different, if that is asked for. -/
def checkUnique (s : Instance) (items : List Value) (lead : Value) : Verdict := do
  if !(← (← s.get "unique_items").truthy) then return none
  match Value.duplicateGroups items with
  | [] => return none
  | groups =>
      let found := "], [".intercalate
        (groups.map fun group => ", ".intercalate (group.map toString))
      reported lead ("Invalid array. All items must be unique. Duplicates found at indexes: ["
        ++ found ++ "]") .arrayUnique

/-- The errors of the items, each with its position. -/
def itemErrors (ask : Ask) (schema : Value) : Nat → List Value → Outcome (List ErrorInfo)
  | _, [] => return []
  | i, v :: rest => do
      let error ← askAttribute ask schema v ("At index " ++ toString i ++ ": ")
      let errors ← itemErrors ask schema (i + 1) rest
      match error with
      | some e => return { e with index := some i } :: errors
      | none => return errors

def checkItems (ask : Ask) (s : Instance) (items : List Value) (lead : Value) : Verdict := do
  let schema ← s.get "schema"
  if schema.isNone then return none
  let errors ← itemErrors ask schema 0 items
  summarized lead "One error with items in the array:"
    "Multiple errors with items in the array:" .arrayItems errors

def checkArray (ask : Ask) (s : Instance) (v lead : Value) : Verdict := do
  match v.arrayItems? with
  | none => refused lead v "Expected an array." .type
  | some items =>
      firstOf (s.checkLength .array items.length lead)
        (firstOf (s.checkUnique items lead) (checkItems ask s items lead))

/-- The errors of required properties that are missing. -/
def missingErrors (entries : Entries) : Entries → Outcome (List ErrorInfo)
  | [] => return []
  | (key, schema) :: rest => do
      let required ← (← schema.get "required").truthy
      if required && !entries.contains key then
        let message := "Missing required value for property: " ++ (← key.display)
        let error := { ErrorInfo.of message .objectRequired with property := key }
        return error :: (← missingErrors entries rest)
      else missingErrors entries rest

/-- The errors of the values under their keys; `generic` governs the keys
without a schema of their own. -/
def entryErrors (ask : Ask) (properties : Entries) (generic : Value) :
    Entries → Outcome (List ErrorInfo)
  | [] => return []
  | (key, v) :: rest => do
      let schema := (properties.find? key).getD generic
      let error ←
        if schema.isNone then pure none
        else do
          let name ← key.display
          askAttribute ask schema v ("At property " ++ name ++ ": ")
      let errors ← entryErrors ask properties generic rest
      match error with
      | some e => return { e with property := key } :: errors
      | none => return errors

/-- The property schemas of an object schema. -/
def properties (s : Instance) : Except Fault Entries := do
  match ← s.get "properties" with
  | .dict entries => return entries
  | _ => throw .missingAttribute

/-- The schema of undeclared entries; an empty object does not look for it. -/
def genericFor (s : Instance) (entries : Entries) : Except Fault Value :=
  if entries.isEmpty then return .none else s.get "schema"

def checkObject (ask : Ask) (s : Instance) (v lead : Value) : Verdict := do
  match v with
  | .none =>
      if ← (← s.get "allow_null").truthy then return none
      else return some (.of ((← lead.leadText) ++ "Object cannot be None.") .objectNone)
  | .dict entries =>
      let properties ← s.properties
      let missing ← missingErrors entries properties
      let generic ← s.genericFor entries
      let errors ← entryErrors ask properties generic entries
      summarized lead "One error with property in the object:"
        "Multiple errors with properties in the object:" .objectProperties (missing ++ errors)
  | _ => refused lead v "Expected an object." .type

/-! ## Alternatives -/

/-- The verdict of a search: the errors of all candidates, if all refuse. -/
def searchVerdict (search : Search) (lead : Value) (kind : ErrorKind) : Verdict := do
  match search with
  | .found _ _ => return none
  | .refused errors => return some (.ofVariants errors (← (← lead.orEmpty).leadText) kind)

def checkOneOf (ask : Ask) (s : Instance) (v lead : Value) : Verdict := do
  searchVerdict (← searchItems ask (← s.get "one_of") v) lead .oneOf

/-! ## Added controllers -/

/-- Whether the condition of an added check holds. -/
def conditionHolds (s : Instance) (condition : Condition) (constant v : Value) :
    Except Fault Bool := do
  match condition with
  | .always => return true
  | .never => return false
  | .notInt => return !v.isPlainInteger
  | .notAbove => return !(← Value.holds .gt v constant)
  | .aboveAttribute => Value.holds .gt v (← s.get (constant.text?.getD ""))

/-- A callable as a check. -/
def checkCall (s : Instance) (f : Callable) (v lead : Value) : Verdict := do
  match f with
  | .checker condition code constant =>
      if ← s.conditionHolds condition constant v then
        return some (.of ((← lead.leadText) ++ code) (.ofCode code))
      else return none
  | .declared _ ps => if acceptsArguments ps 3 then return none else throw (.fault .typeMismatch)
  | _ => throw (.fault .typeMismatch)

/-! ## The pipeline -/

/-- One check of a schema. -/
def checkStep (ask : Ask) (s : Instance) (v lead : Value) : Step → Verdict
  | .builtin .typed => s.checkTyped v lead
  | .builtin .array => checkArray ask s v lead
  | .builtin .boolean => checkBoolean v lead
  | .builtin .function => s.checkFunction v lead
  | .builtin .number => s.checkNumber v lead
  | .builtin .object => checkObject ask s v lead
  | .builtin .oneOf => checkOneOf ask s v lead
  | .builtin .string => s.checkString v lead
  | .builtin .symbol => checkSymbol v lead
  | .call f => s.checkCall f v lead

/-- The first error that one of the steps reports. -/
def firstError (ask : Ask) (s : Instance) (v lead : Value) : List Step → Verdict
  | [] => return none
  | step :: rest => firstOf (checkStep ask s v lead step) (firstError ask s v lead rest)

/-- The check steps of a chain, root first. -/
def checks (s : Instance) : List Step := s.chain.filterMap Layer.check

def errorWith (ask : Ask) (s : Instance) (v lead : Value) : Verdict := do
  s.require "error"
  firstError ask s v (← lead.orEmpty) s.checks

end Instance

namespace Schema

/-- The error of a value, where `ask` answers for the schemas inside. -/
def errorWith (ask : Ask) (s : Schema) (v lead : Value) : Verdict :=
  match s with
  | .single t => t.errorWith ask v lead
  | .multi members => do
      Instance.searchVerdict (← searchMembers ask members v) lead .multi

/-- The first error of a value, after a lead; `none` if it is accepted. -/
def error (s : Schema) (v lead : Value) : Verdict :=
  s.errorWith
    (fun t w l => if t.depth < s.depth then t.error w l else throw (.fault .missingAttribute)) v lead
termination_by s.depth

/-- Accepts a value or fails with its error. -/
def validate (s : Schema) (v lead : Value) : Outcome Unit := do
  s.require "validate"
  match ← s.error v lead with
  | none => return ()
  | some info => throw (.value info)

end Schema

end Conform
