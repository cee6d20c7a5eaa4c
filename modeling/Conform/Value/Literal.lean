/-
# `Value.Literal` — how values are written in messages

Each value has a literal form, which shows what kind of value it is, and a
display form for running text, where text and numbers stand bare.
`describe` is the literal form with callables named.  The spellings say how
the forms look; a form can be had if no integer in it has too many digits to
be written, and asking for it is a fault otherwise.
-/
import Conform.Value.SetOrder
import Conform.Value.TensorLiteral
import Conform.Number.Digits
import Conform.Number.Notation
import Conform.Text.Quoted
import Conform.Text.Case
import Conform.Digest.Sha256

namespace Conform

def ClassName.name : ClassName → String
  | .int => "int"
  | .float => "float"
  | .str => "str"
  | .bool => "bool"
  | .list => "list"
  | .tuple => "tuple"
  | .dict => "dict"
  | .set => "set"
  | .bytes => "bytes"
  | .object => "object"
  | .noneType => "NoneType"
  | .enum => "Enum"
  | .function => "function"
  | .alternatives => "MultiSchema"
  | .schemas name => name

def ClassName.literal : ClassName → String
  | .enum => "<enum 'Enum'>"
  | .alternatives => "<class 'fully_typed.engine.multi.MultiSchema'>"
  | .schemas name => "<class 'fully_typed.engine.compiler." ++ name ++ "'>"
  | c => "<class '" ++ c.name ++ "'>"

def Builtin.name : Builtin → String
  | .len => "len"
  | .abs => "abs"
  | .max => "max"
  | .min => "min"
  | .sorted => "sorted"
  | .round => "round"
  | .repr => "repr"
  | .strip => "strip"
  | .upper => "upper"
  | .lower => "lower"

/-- Methods of text, as opposed to free functions. -/
def Builtin.isTextMethod : Builtin → Bool
  | .strip | .upper | .lower => true
  | _ => false

def Builtin.literal (b : Builtin) : String :=
  if b.isTextMethod then "<method '" ++ b.name ++ "' of 'str' objects>"
  else "<built-in function " ++ b.name ++ ">"

def AliasKey.literal : AliasKey → String
  | .typed => "<typed>"
  | .oneOf => "<one-of>"

def Member.qualified (m : Member) : String := m.family ++ "." ++ m.name

def Member.spelling (m : Member) : String :=
  let content := match m.content with
    | .plain n | .number n => toString n
    | .text s => Text.quoted s
  "<" ++ m.qualified ++ ": " ++ content ++ ">"

/-- A member that counts as a number stands for it; any other is named. -/
def Member.bareSpelling (m : Member) : String :=
  match m.content with
  | .number n => toString n
  | _ => m.qualified

/-- Whether the content of a member can be written. -/
def Member.hasLiteral (m : Member) : Bool :=
  match m.content with
  | .plain n | .number n => Number.isWritable n
  | .text _ => true

def Member.hasDisplay (m : Member) : Bool :=
  match m.content with
  | .number n => Number.isWritable n
  | .plain _ | .text _ => true

def Member.literal (m : Member) : Except Fault String := written m.hasLiteral m.spelling

def Pattern.Source.literal : Pattern.Source → String
  | .text s => Text.quoted s
  | .bytes bs _ => Text.quotedBytes bs

def Pattern.Source.isLocale : Pattern.Source → Bool
  | .text _ => false
  | .bytes _ locale => locale

/-- The options of a pattern that its literal form names. -/
def Pattern.optionNames (p : Pattern) : List String :=
  (if p.mode.foldCase then ["re.IGNORECASE"] else [])
    ++ (if p.source.isLocale then ["re.LOCALE"] else [])
    ++ (if p.mode.multiline then ["re.MULTILINE"] else [])
    ++ (if p.mode.dotAll then ["re.DOTALL"] else [])
    ++ (if p.mode.verbose then ["re.VERBOSE"] else [])
    ++ (if p.mode.ascii then ["re.ASCII"] else [])

/-- The literal form of a pattern, whose source is cut after two hundred
characters. -/
def Pattern.literal (p : Pattern) : String :=
  let source := String.ofList (p.source.literal.toList.take 200)
  let options := "|".intercalate p.optionNames
  "re.compile(" ++ source ++ (if options.isEmpty then "" else ", " ++ options) ++ ")"

/-- The name that a callable goes by. -/
def Callable.name? : Callable → Option String
  | .ofClass c => some c.name
  | .builtin b => some b.name
  | .ruled _ _ name _ _ => name
  | .declared name _ => some name
  | .unreadable | .builder .. | .checker .. | .finisher .. => none

def Callable.literal : Callable → String
  | .ofClass c => c.literal
  | .builtin b => b.literal
  | .ruled _ _ name _ _ => "<fn " ++ name.getD "None" ++ ">"
  | .declared name _ => "<function " ++ name ++ ">"
  | .unreadable => "<unreadable>"
  | .builder label _ => "<builder " ++ label ++ ">"
  | .checker .. => "<check>"
  | .finisher .. => "<finish>"

/-- The name of a controller as a class of schemas: its parts, between
hyphens or underscores, each capitalised. -/
def schemaClassName (controller : String) : String :=
  let parts := (controller.toList.map fun c => if c == '_' then '-' else c).splitOn '-'
  String.join (parts.map fun p => Text.capitalize (String.ofList p)) ++ "Schema"

/-- The controller that a schema was compiled by, the last of its chain. -/
def Instance.controller (s : Instance) : String :=
  (s.chain.getLast?.map Layer.name).getD ""

def Instance.className (s : Instance) : String := schemaClassName s.controller

def shortHash (hash : String) : String := String.ofList (hash.toList.take 12)

def Instance.literal (s : Instance) : String :=
  "<" ++ s.className ++ " " ++ shortHash s.hash ++ ">"

/-- Entries between brackets; a lone entry of a tuple is followed by a
comma. -/
def enclosed (opening closing : String) (parts : List String) : String :=
  opening ++ ", ".intercalate parts ++ closing

/-- The digest of schemas in a row: that of their digests, one after
another. -/
def hashSequence (hashes : List String) : String := Sha256.hexDigest (String.join hashes)

def Schema.hash : Schema → String
  | .single s => s.hash
  | .multi members => hashSequence (members.map Instance.hash)

def Schema.literal (s : Schema) : String :=
  match s with
  | .single s => s.literal
  | .multi members =>
      "<MultiSchema " ++ toString members.length ++ " variants " ++ shortHash s.hash ++ ">"

namespace Value

mutual

/-- How the literal form of a value looks. -/
def spelling : Value → String
  | .none => "None"
  | .undefined => "undefined"
  | .bool b => if b then "True" else "False"
  | .int n => toString n
  | .float x => x.text
  | .str s => Text.quoted s
  | .bytes bs => Text.quotedBytes bs
  | .list items => enclosed "[" "]" (spellings items)
  | .tuple [item] => "(" ++ item.spelling ++ ",)"
  | .tuple items => enclosed "(" ")" (spellings items)
  | .set [] => "set()"
  | .set items => enclosed "\x7b" "\x7d" (inSetOrder items (spellings items))
  | .frozenset [] => "frozenset()"
  | .frozenset items => enclosed "frozenset(\x7b" "\x7d)" (inSetOrder items (spellings items))
  | .dict entries => enclosed "\x7b" "\x7d" (entrySpellings entries)
  | .aliasKey k => k.literal
  | .member m => m.spelling
  | .pattern p => p.literal
  | .scalar s => s.literal
  | .tensor t => t.literal
  | .moment m => m.literal
  | .object name => "<obj " ++ name ++ ">"
  | .callable f => f.literal
  | .code _ => "<code>"
  | .schema s => s.literal
termination_by structural v => v

def spellings : List Value → List String
  | [] => []
  | v :: rest => v.spelling :: spellings rest
termination_by structural vs => vs

def entrySpellings : List (Value × Value) → List String
  | [] => []
  | (k, v) :: rest => (k.spelling ++ ": " ++ v.spelling) :: entrySpellings rest
termination_by structural es => es

end

mutual

/-- Whether all integers in the literal form of a value can be written. -/
def hasLiteral : Value → Bool
  | .int n => Number.isWritable n
  | .member m => m.hasLiteral
  | .list items | .tuple items | .set items | .frozenset items => haveLiterals items
  | .dict entries => entriesHaveLiterals entries
  | _ => true
termination_by structural v => v

def haveLiterals : List Value → Bool
  | [] => true
  | v :: rest => v.hasLiteral && haveLiterals rest
termination_by structural vs => vs

def entriesHaveLiterals : List (Value × Value) → Bool
  | [] => true
  | (k, v) :: rest => k.hasLiteral && v.hasLiteral && entriesHaveLiterals rest
termination_by structural es => es

end

/-- How the form of a value in running text looks. -/
def bareSpelling : Value → String
  | .str s => s
  | .member m => m.bareSpelling
  | .scalar s => s.display
  | .tensor t => t.display
  | .moment m => m.display
  | v => v.spelling

def hasDisplay : Value → Bool
  | .member m => m.hasDisplay
  | v => v.hasLiteral

/-- The letters of the text that a value is converted to. -/
def textSpelling : Value → String
  | .scalar s => s.asText
  | v => v.bareSpelling

/-- How messages show a value: callables by their names, anything else in
its literal form. -/
def shownSpelling : Value → String
  | .callable f =>
      match f.name? with
      | some name => "<callable " ++ name ++ ">"
      | .none => f.literal
  | v => v.spelling

/-- The literal form of a value. -/
def literal (v : Value) : Except Fault String := written v.hasLiteral v.spelling

/-- The form of a value in running text. -/
def display (v : Value) : Except Fault String := written v.hasDisplay v.bareSpelling

/-- The text that a value is converted to. -/
def asText (v : Value) : Except Fault String := written v.hasDisplay v.textSpelling

/-- A value as messages show it. -/
def describe (v : Value) : Except Fault String := written v.hasLiteral v.shownSpelling

end Value

end Conform
