/-
# `Value.Basic` — the values that schemas describe

A value is plain data, a container of values, a number of fixed
representation, an array, a date, or something that only has to be recognised: an
enumeration member, a pattern, a class, a callable, a schema.  Schemas are
values too, because they are kept in the attributes of other schemas, so
the whole vocabulary is one family of types.
-/
import Conform.Value.Number
import Conform.Value.Moment
import Conform.Pattern.Basic

namespace Conform

/-- The two alias keys that are neither text nor class. -/
inductive AliasKey where
  | typed
  | oneOf
deriving DecidableEq

/-- What an enumeration member is besides being a member: it may also count
as a number or as a text. -/
inductive MemberContent where
  | plain (n : Int)
  | number (n : Int)
  | text (s : String)
deriving DecidableEq

/-- A member of an enumeration. -/
structure Member where
  family : String
  name : String
  content : MemberContent
deriving DecidableEq

/-- The classes that values can be instances of, as values. -/
inductive ClassName where
  | int
  | float
  | str
  | bool
  | list
  | tuple
  | dict
  | set
  | bytes
  | object
  | noneType
  | enum
  | function
  /-- The class of schemas that stand for alternatives. -/
  | alternatives
  /-- A class of the other schemas, by its name. -/
  | schemas (name : String)
deriving DecidableEq

/-- Callables that every environment has. -/
inductive Builtin where
  | len
  | abs
  | max
  | min
  | sorted
  | round
  | repr
  | strip
  | upper
  | lower
deriving DecidableEq

/-- What a callable of one argument `v` does with it and its own constant
`c`. -/
inductive Rule where
  | identity
  /-- Always `c`. -/
  | const
  /-- The pair of `c` and `v`. -/
  | pair
  | add
  | mul
  | gt
  | lt
  /-- Whether `v` is the very object `c`. -/
  | is
  /-- Always fails. -/
  | fail
deriving DecidableEq

/-- When a check of an added controller reports an error. -/
inductive Condition where
  | always
  | never
  | notInt
  | notAbove
  | aboveAttribute
deriving DecidableEq

/-- How a parameter takes its argument. -/
inductive ParameterForm where
  | positionalOnly
  | positional
  | variadic
  | keywordOnly
  | variadicKeyword
deriving DecidableEq

structure Parameter where
  form : ParameterForm
  hasDefault : Bool
deriving DecidableEq

/-- The controllers that come with the library. -/
inductive Kind where
  | typed
  | array
  | boolean
  | function
  | number
  | object
  | oneOf
  | string
  | symbol
deriving DecidableEq

mutual

inductive Value where
  | none
  /-- No value was supplied. -/
  | undefined
  | bool (b : Bool)
  | int (n : Int)
  | float (x : Binary64)
  | str (s : String)
  | bytes (bs : List UInt8)
  | list (items : List Value)
  | tuple (items : List Value)
  | set (items : List Value)
  | frozenset (items : List Value)
  | dict (entries : List (Value × Value))
  | aliasKey (k : AliasKey)
  | member (m : Member)
  | pattern (p : Pattern)
  | scalar (s : Scalar)
  | tensor (t : Tensor)
  | moment (m : Moment)
  /-- An object with nothing but an identity. -/
  | object (name : String)
  | callable (f : Callable)
  | code (c : Code)
  | schema (s : Schema)

inductive Callable where
  | ofClass (c : ClassName)
  | builtin (b : Builtin)
  /-- A callable of one argument that follows a rule. -/
  | ruled (rule : Rule) (constant : Value) (name : Option String) (module : String)
      (code : Option Code)
  /-- A callable known by its name and parameters. -/
  | declared (name : String) (parameters : List Parameter)
  /-- A callable without a name, whose parameters cannot be told. -/
  | unreadable
  /-- A build step that sets attributes from options of the same name. -/
  | builder (label : String) (attributes : List (String × Value))
  /-- A check step that reports one error. -/
  | checker (condition : Condition) (code : String) (constant : Value)
  /-- A normalize step that follows a rule, whose constant is given or is an
  attribute of the schema. -/
  | finisher (rule : Rule) (attributeName : Option String) (constant : Value)

/-- The body of a callable: instructions as text in base sixteen, names and
constants. -/
structure Code where
  instructions : String
  names : List String
  locals : List String
  constants : List Value

/-- A compiled schema, or several of which any may apply. -/
inductive Schema where
  | single (s : Instance)
  | multi (members : List Instance)

/-- What a configuration compiled to: the layers of its controller, root
first, its attributes in the order they were set, and its digest. -/
structure Instance where
  chain : List Layer
  attributes : List (String × Value)
  hash : String

/-- One layer of a schema's behaviour. -/
structure Layer where
  id : Nat
  name : String
  build : Step
  check : Option Step
  finish : Option Step

/-- A step of a layer: that of a controller of this library, or a callable. -/
inductive Step where
  | builtin (kind : Kind)
  | call (f : Callable)

end

end Conform
