/-
# `Document.Node` — the tree of a document

The tokens of a document form a tree of scalars, sequences and mappings.  A
node may be given a name and be referred to later; every kind of node may
state its tag, and a node that states none has the tag of its form.
-/
import Conform.Document.Scalar
import Conform.Document.Lexer

namespace Conform

namespace Document

inductive Node where
  | scalar (text : String) (tag : Tag)
  | sequence (items : List Node) (tag : Tag)
  | mapping (entries : List (Node × Node)) (tag : Tag)

/-- A node without content. -/
def Node.empty : Node := .scalar "" .null

/-- What is left of the tokens, and the named nodes; a node is named while
it is still open. -/
structure Composer where
  rest : List Token
  /-- What the handles of tags stand for. -/
  handles : List (String × String)
  named : List (String × Option Node)

/-- A step of composing; it fails where the tokens form no document. -/
abbrev Compose := StateT Composer Option

namespace Compose

/-! ## Tokens -/

def peek : Compose (Option Token) := return (← get).rest.head?

def pass : Compose Unit := modify fun s => { s with rest := s.rest.tail }

/-- Moves past the token `t`, if it is next; whether it was. -/
def accept (t : Token) : Compose Bool := do
  if (← peek) == some t then
    pass
    return true
  else return false

def expect (t : Token) : Compose Unit := do
  if !(← accept t) then failure

/-- Whether one of the tokens is next. -/
def nextIsIn (ts : List Token) : Compose Bool := return (← peek).any ts.contains

/-! ## Names and tags -/

/-- What the tags of the format begin with. -/
def address : String := "tag:yaml.org,2002:"

/-- The tag of a name. -/
def tagNamed (name : String) : Tag :=
  match [("null", Tag.null), ("bool", .bool), ("int", .int), ("float", .float), ("str", .str),
      ("seq", .seq), ("map", .map), ("set", .set), ("timestamp", .timestamp), ("binary", .binary),
      ("omap", .pairs), ("pairs", .pairs), ("merge", .merge), ("value", .default)].find?
      (address ++ ·.1 == name) with
  | some (_, tag) => tag
  | none => .unknown

/-- What stands before a node. -/
structure Properties where
  name : Option String
  /-- A tag that only says that the node has the tag of its form. -/
  isPlain : Bool
  tag : Option Tag

def Properties.isEmpty (p : Properties) : Bool := p.name.isNone && !p.isPlain && p.tag.isNone

def anchor : Compose (Option String) := do
  match ← peek with
  | some (.anchor name) =>
      pass
      return some name
  | _ => return none

/-- A tag; its handle must be known. -/
def tag : Compose (Bool × Option Tag) := do
  match ← peek with
  | some (.tag none "!") =>
      pass
      return (true, none)
  | some (.tag none name) =>
      pass
      return (false, some (tagNamed name))
  | some (.tag (some handle) suffix) =>
      pass
      match (← get).handles.lookup handle with
      | some start => return (false, some (tagNamed (start ++ suffix)))
      | none => failure
  | _ => return (false, none)

/-- A name and a tag in either order. -/
def properties : Compose Properties := do
  let before ← anchor
  let (isPlain, tag) ← tag
  let name ← if before.isSome then pure before else anchor
  return ⟨name, isPlain, tag⟩

/-- Enters a name, which must be new. -/
def openName (name : Option String) : Compose Unit := do
  match name with
  | none => return ()
  | some name =>
      let s ← get
      if (s.named.lookup name).isSome then failure
      set { s with named := (name, none) :: s.named }

/-- Gives a name its node. -/
def closeName (name : Option String) (node : Node) : Compose Node := do
  match name with
  | none => return node
  | some name =>
      modify fun s => { s with named := (name, some node) :: s.named }
      return node

/-- The node of a name. -/
def namedNode (name : String) : Compose Node := do
  match (← get).named.lookup name with
  | some (some node) => return node
  | _ => failure

/-! ## Nodes -/

/-- The tag of a scalar. -/
def scalarTag (p : Properties) (text : String) (plain : Bool) : Tag :=
  match p.tag with
  | some tag => tag
  | none => if plain || p.isPlain then Scalar.tagOf text else .str

mutual

/-- A node; block collections only where `block` holds, and entries without
an indentation of their own only where `indentless` holds. -/
def node (block indentless : Bool) : Nat → Compose Node
  | 0 => failure
  | fuel + 1 => do
      match ← peek with
      | some (.alias name) =>
          pass
          namedNode name
      | _ =>
          let p ← properties
          openName p.name
          closeName p.name (← content block indentless p fuel)

/-- What follows the properties of a node. -/
def content (block indentless : Bool) (p : Properties) : Nat → Compose Node
  | 0 => failure
  | fuel + 1 => do
      let sequenceTag := p.tag.getD .seq
      let mappingTag := p.tag.getD .map
      match ← peek, block, indentless with
      | some .blockEntry, _, true => return .sequence (← indentlessItems fuel) sequenceTag
      | some (.scalar text plain), _, _ =>
          pass
          return .scalar text (scalarTag p text plain)
      | some .flowSequenceStart, _, _ =>
          pass
          return .sequence (← flowItems true fuel) sequenceTag
      | some .flowMappingStart, _, _ =>
          pass
          return .mapping (← flowEntries true fuel) mappingTag
      | some .blockSequenceStart, true, _ =>
          pass
          return .sequence (← blockItems fuel) sequenceTag
      | some .blockMappingStart, true, _ =>
          pass
          return .mapping (← blockEntries fuel) mappingTag
      | _, _, _ => if p.isEmpty then failure else return .scalar "" (scalarTag p "" true)

/-- A node, or an empty one if one of the tokens is next. -/
def nodeUnless (ts : List Token) (block indentless : Bool) : Nat → Compose Node
  | 0 => failure
  | fuel + 1 => do
      if ← nextIsIn ts then return .empty else node block indentless fuel

def blockItems : Nat → Compose (List Node)
  | 0 => failure
  | fuel + 1 => do
      if ← accept .blockEntry then
        let item ← nodeUnless [.blockEntry, .blockEnd] true false fuel
        return item :: (← blockItems fuel)
      else
        expect .blockEnd
        return []

def indentlessItems : Nat → Compose (List Node)
  | 0 => failure
  | fuel + 1 => do
      if ← accept .blockEntry then
        let item ← nodeUnless [.blockEntry, .key, .value, .blockEnd] true false fuel
        return item :: (← indentlessItems fuel)
      else return []

def blockEntries : Nat → Compose (List (Node × Node))
  | 0 => failure
  | fuel + 1 => do
      if ← accept .key then
        let key ← nodeUnless [.key, .value, .blockEnd] true true fuel
        let value ← valueUnless [.key, .value, .blockEnd] true fuel
        return (key, value) :: (← blockEntries fuel)
      else
        expect .blockEnd
        return []

/-- The value after a key, empty if there is none. -/
def valueUnless (ts : List Token) (block : Bool) : Nat → Compose Node
  | 0 => failure
  | fuel + 1 => do
      if ← accept .value then nodeUnless ts block block fuel else return .empty

def flowItems (first : Bool) : Nat → Compose (List Node)
  | 0 => failure
  | fuel + 1 => do
      if ← accept .flowSequenceEnd then return []
      if !first then expect .flowEntry
      if ← accept .key then
        let key ← nodeUnless [.value, .flowEntry, .flowSequenceEnd] false false fuel
        let value ← valueUnless [.flowEntry, .flowSequenceEnd] false fuel
        return .mapping [(key, value)] .map :: (← flowItems false fuel)
      else if ← accept .flowSequenceEnd then return []
      else
        let item ← node false false fuel
        return item :: (← flowItems false fuel)

def flowEntries (first : Bool) : Nat → Compose (List (Node × Node))
  | 0 => failure
  | fuel + 1 => do
      if ← accept .flowMappingEnd then return []
      if !first then expect .flowEntry
      if ← accept .key then
        let key ← nodeUnless [.value, .flowEntry, .flowMappingEnd] false false fuel
        let value ← valueUnless [.flowEntry, .flowMappingEnd] false fuel
        return (key, value) :: (← flowEntries false fuel)
      else if ← accept .flowMappingEnd then return []
      else
        let key ← node false false fuel
        return (key, .empty) :: (← flowEntries false fuel)

end

/-! ## Documents -/

/-- Follows the directives, of which there is one of each kind and one a
handle; whether there are any.  Only the first version of the format is
known. -/
def directives (versioned : Bool) (handles : List (String × String)) : Nat → Compose Bool
  | 0 => return false
  | fuel + 1 => do
      match ← peek with
      | some (.directive d) =>
          pass
          match d with
          | .version major =>
              if versioned || major != 1 then failure
              let _ ← directives true handles fuel
          | .handle name start =>
              if (handles.lookup name).isSome then failure
              let _ ← directives versioned ((name, start) :: handles) fuel
          | .other => let _ ← directives versioned handles fuel
          return true
      | _ =>
          modify fun s => { s with handles := handles ++ [("!", "!"), ("!!", address)] }
          return false

def atDirective : Compose Bool := return match ← peek with
  | some (.directive _) => true
  | _ => false

def skipDocumentEnds : Nat → Compose Unit
  | 0 => return ()
  | fuel + 1 => do
      if ← accept .documentEnd then skipDocumentEnds fuel

/-- The only document of the tokens, none if there is no token. -/
def document (fuel : Nat) : Compose (Option Node) := do
  if (← peek).isNone then return none
  let directed ← directives false [] fuel
  let isMarked ← accept .documentStart
  if directed && !isMarked then failure
  let ending := (← peek).isNone || (← atDirective) || (← nextIsIn [.documentStart, .documentEnd])
  let root ← if isMarked && ending then pure .empty else node true false fuel
  skipDocumentEnds fuel
  if (← peek).isSome then failure
  return some root

end Compose

/-- The tree of a text: none if it is no document, and no node if the
document is empty. -/
def tree? (text : String) : Option (Option Node) := do
  let tokens ← tokens? text
  let (root, _) ← (Compose.document (4 * tokens.length + 4)).run ⟨tokens, [], []⟩
  return root

end Document

end Conform
