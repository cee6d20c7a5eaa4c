/-
# `Document.Lexer` — cutting a document into tokens

The lexer keeps the open indentations of block style and, for every level
of flow style, where a token began that may turn out to be a key: only the
colon after it tells, and then the tokens that open the key are put in
front of it.  Such a key lies on one line and is short.
-/
import Conform.Document.Token

namespace Conform

namespace Document

/-- Where a token began that may turn out to be a key. -/
structure KeyCandidate where
  /-- The number of tokens before it. -/
  token : Nat
  /-- In block style it must be a key, for nothing else can stand there. -/
  required : Bool
  index : Nat
  line : Nat
  column : Nat

structure Lexer where
  rest : List Char
  index : Nat
  line : Nat
  column : Nat
  /-- The number of open flow brackets. -/
  flow : Nat
  /-- The column of the innermost block, -1 outside. -/
  indent : Int
  /-- The columns of the blocks around it. -/
  outer : List Int
  tokens : List Token
  /-- The candidates by flow level. -/
  candidates : List (Nat × KeyCandidate)
  /-- Whether a key may begin here. -/
  keyAllowed : Bool

/-- A step of the lexer; it fails where the text is no document. -/
abbrev Lex := StateT Lexer Option

namespace Lex

def start (cs : List Char) : Lexer := ⟨cs, 0, 0, 0, 0, -1, [], [], [], true⟩

/-! ## Characters -/

def peek : Lex (Option Char) := return (← get).rest.head?

/-- The character `n` places ahead. -/
def peekAt (n : Nat) : Lex (Option Char) := return (← get).rest[n]?

def size : Lex Nat := return (← get).rest.length

/-- Moves past one character. -/
def pass : Lex Unit := modify fun s =>
  match s.rest with
  | [] => s
  | c :: rest =>
      let s := { s with rest, index := s.index + 1 }
      if isBreak c then { s with line := s.line + 1, column := 0 }
      else if c == '\uFEFF' then s
      else { s with column := s.column + 1 }

def passMany : Nat → Lex Unit
  | 0 => return ()
  | n + 1 => do pass; passMany n

/-- Moves past the characters that satisfy `p`, and gives them. -/
def takeWhile (p : Char → Bool) : Lex (List Char) := do
  let cs := (← get).rest.takeWhile p
  passMany cs.length
  return cs

/-- Moves past the end of a line, and gives it as text. -/
def lineBreak : Lex (List Char) := do
  match ← peek with
  | some c =>
      if isBreak c then
        pass
        return [if c == '\u2028' || c == '\u2029' then c else '\n']
      else return []
  | none => return []

/-- Whether a document separator of three characters `c` begins here. -/
def separatorAhead (c : Char) : Lex Bool := do
  let s ← get
  return s.rest.take 3 == [c, c, c] && isGap (s.rest[3]?)

def anySeparatorAhead : Lex Bool := do
  let start ← separatorAhead '-'
  let stop ← separatorAhead '.'
  return start || stop

/-! ## Tokens, indentation and keys -/

def emit (t : Token) : Lex Unit := modify fun s => { s with tokens := s.tokens ++ [t] }

/-- Puts a token in front of the one with this number. -/
def emitAt (n : Nat) (t : Token) : Lex Unit :=
  modify fun s => { s with tokens := s.tokens.take n ++ t :: s.tokens.drop n }

def allowKey (allowed : Bool) : Lex Unit := modify fun s => { s with keyAllowed := allowed }

/-- Closes the blocks that lie deeper than the column. -/
def unwind (column : Int) : Lex Unit := do
  let s ← get
  if s.flow = 0 then
    let closed := (s.indent :: s.outer).takeWhile (column < ·)
    let left := (s.indent :: s.outer).drop closed.length
    set { s with
      indent := left.headD (-1), outer := left.tail
      tokens := s.tokens ++ closed.map fun _ => Token.blockEnd }

/-- Opens a block at the column if it lies deeper; whether it does. -/
def indentTo (column : Nat) : Lex Bool := do
  let s ← get
  if s.indent < column then
    set { s with indent := column, outer := s.indent :: s.outer }
    return true
  else return false

/-- Drops the candidate of the current level, which must not have to be a
key. -/
def dropCandidate : Lex Unit := do
  let s ← get
  match s.candidates.lookup s.flow with
  | some key =>
      if key.required then failure
      set { s with candidates := s.candidates.filter (·.1 != s.flow) }
  | none => return ()

/-- Notes that the next token may be a key. -/
def noteCandidate : Lex Unit := do
  let s ← get
  if s.keyAllowed then
    dropCandidate
    let required := s.flow == 0 && s.indent == s.column
    let key : KeyCandidate := ⟨s.tokens.length, required, s.index, s.line, s.column⟩
    modify fun s => { s with candidates := (s.flow, key) :: s.candidates }

/-- The greatest length of a key. -/
def keyLimit : Nat := 1024

/-- Drops the candidates that can be keys no longer. -/
def dropStale : Lex Unit := do
  let s ← get
  let stale (key : KeyCandidate) : Bool := key.line != s.line || keyLimit < s.index - key.index
  if s.candidates.any fun (_, key) => stale key && key.required then failure
  set { s with candidates := s.candidates.filter fun (_, key) => !stale key }

/-! ## Between tokens -/

/-- Moves past blanks, comments and line ends. -/
def skipGap : Nat → Lex Unit
  | 0 => return ()
  | fuel + 1 => do
      let _ ← takeWhile (· == ' ')
      if (← peek) == some '#' then
        let _ ← takeWhile (!isBreak ·)
      let ended ← lineBreak
      if ended.isEmpty then return ()
      if (← get).flow = 0 then allowKey true
      skipGap fuel

/-! ## Quoted scalars -/

/-- Escapes of one letter in double quotes. -/
def escapedChar? : Char → Option Char
  | '0' => some '\x00'
  | 'a' => some '\x07'
  | 'b' => some '\x08'
  | 't' | '\t' => some '\t'
  | 'n' => some '\n'
  | 'v' => some '\x0b'
  | 'f' => some '\x0c'
  | 'r' => some '\r'
  | 'e' => some '\x1b'
  | ' ' => some ' '
  | '"' => some '"'
  | '\\' => some '\\'
  | '/' => some '/'
  | 'N' => some '\x85'
  | '_' => some '\xa0'
  | 'L' => some '\u2028'
  | 'P' => some '\u2029'
  | _ => none

/-- The number of digits of an escape by code. -/
def codeLength? : Char → Option Nat
  | 'x' => some 2
  | 'u' => some 4
  | 'U' => some 8
  | _ => none

def hexDigit? (c : Char) : Option Nat :=
  if c.isDigit then some (c.toNat - 48)
  else if 'a' ≤ c && c ≤ 'f' then some (c.toNat - 87)
  else if 'A' ≤ c && c ≤ 'F' then some (c.toNat - 55)
  else none

/-- A character given by its code. -/
def codeChar (digits : Nat) : Lex Char := do
  let cs := (← get).rest.take digits
  let ds := cs.filterMap hexDigit?
  if ds.length = digits then
    passMany digits
    return Char.ofNat (ds.foldl (16 * · + ·) 0)
  else failure

/-- The line ends after the first one inside quotes, with the blanks around
them; a document separator may not follow. -/
def quotedBreaks : Nat → Lex (List Char)
  | 0 => failure
  | fuel + 1 => do
      if ← anySeparatorAhead then failure
      let _ ← takeWhile fun c => c == ' ' || c == '\t'
      let ended ← lineBreak
      if ended.isEmpty then return [] else return ended ++ (← quotedBreaks fuel)

/-- A line end counts as a blank, further ones as themselves. -/
def folded (first breaks : List Char) : List Char :=
  (if first != ['\n'] then first else if breaks.isEmpty then [' '] else []) ++ breaks

/-- Blanks inside quotes, or line ends with the blanks around them. -/
def quotedGap (fuel : Nat) : Lex (List Char) := do
  let blanks ← takeWhile fun c => c == ' ' || c == '\t'
  if (← peek).isNone then failure
  let first ← lineBreak
  if first.isEmpty then return blanks else return folded first (← quotedBreaks fuel)

/-- Characters inside quotes up to a blank, a line end or the closing
quote. -/
def quotedRun (double : Bool) : Nat → Lex (List Char)
  | 0 => failure
  | fuel + 1 => do
      let quoteOrBlank (c : Char) : Bool :=
        c == '\'' || c == '"' || c == '\\' || c == ' ' || c == '\t' || isBreak c
      let cs ← takeWhile (!quoteOrBlank ·)
      match ← peek with
      | some '\'' =>
          if double then
            pass
            return cs ++ '\'' :: (← quotedRun double fuel)
          else if (← peekAt 1) == some '\'' then
            passMany 2
            return cs ++ '\'' :: (← quotedRun double fuel)
          else return cs
      | some '"' =>
          if double then return cs
          else
            pass
            return cs ++ '"' :: (← quotedRun double fuel)
      | some '\\' =>
          pass
          if !double then return cs ++ '\\' :: (← quotedRun double fuel)
          else
            match ← peek with
            | none => failure
            | some c =>
                match escapedChar? c, codeLength? c with
                | some e, _ =>
                    pass
                    return cs ++ e :: (← quotedRun double fuel)
                | none, some digits =>
                    pass
                    let e ← codeChar digits
                    return cs ++ e :: (← quotedRun double fuel)
                | none, none =>
                    if isBreak c then
                      let _ ← lineBreak
                      let breaks ← quotedBreaks (fuel + 1)
                      return cs ++ breaks ++ (← quotedRun double fuel)
                    else failure
      | _ => return cs

/-- A quoted scalar after its opening quote. -/
def quotedRest (double : Bool) : Nat → Lex (List Char)
  | 0 => failure
  | fuel + 1 => do
      let cs ← quotedRun double ((← size) + 1)
      if (← peek) == some (if double then '"' else '\'') then
        pass
        return cs
      else
        let gap ← quotedGap ((← size) + 1)
        return cs ++ gap ++ (← quotedRest double fuel)

/-! ## Plain scalars -/

/-- The brackets and commas that end a plain scalar in flow style. -/
def isFlowMark (c : Char) : Bool := [',', '[', ']', '{', '}'].contains c

/-- Whether a plain scalar ends before the character `c`, which `next`
follows. -/
def endsPlain (inFlow : Bool) (c : Char) (next : Option Char) : Bool :=
  isGap (some c)
    || c == ':' && (isGap next || inFlow && next.any isFlowMark)
    || inFlow && (isFlowMark c || c == '?')

/-- The characters of a plain scalar up to a blank. -/
def plainRun (inFlow : Bool) : List Char → List Char
  | [] => []
  | c :: rest => if endsPlain inFlow c rest.head? then [] else c :: plainRun inFlow rest

/-- The line ends after the first one in a plain scalar; nothing at a
document separator. -/
def plainBreaks : Nat → Lex (Option (List Char))
  | 0 => return none
  | fuel + 1 => do
      let _ ← takeWhile (· == ' ')
      let ended ← lineBreak
      if ended.isEmpty then return some []
      if ← anySeparatorAhead then return none
      return (← plainBreaks fuel).map (ended ++ ·)

/-- Blanks in a plain scalar, or line ends; nothing where it ends. -/
def plainGap : Lex (List Char) := do
  let blanks ← takeWhile (· == ' ')
  let first ← lineBreak
  if first.isEmpty then return blanks
  allowKey true
  if ← anySeparatorAhead then return []
  match ← plainBreaks ((← size) + 1) with
  | some breaks => return folded first breaks
  | none => return []

/-- A plain scalar, of which `cs` has been read and `gap` after it; it
continues on lines that are indented to `indent`. -/
def plainRest (indent : Int) : Nat → List Char → List Char → Lex (List Char)
  | 0, cs, _ => return cs
  | fuel + 1, cs, gap => do
      let s ← get
      let run := plainRun (s.flow != 0) s.rest
      if s.rest.head? == some '#' || run.isEmpty then return cs
      allowKey false
      passMany run.length
      let cs := cs ++ gap ++ run
      let gap ← plainGap
      let t ← get
      if gap.isEmpty || t.rest.head? == some '#' || t.flow == 0 && (t.column : Int) < indent then
        return cs
      else plainRest indent fuel cs gap

/-! ## Block scalars -/

/-- What becomes of the line ends after a block scalar. -/
inductive Chomping where
  | strip
  | clip
  | keep
deriving DecidableEq

def chomping? : Char → Option Chomping
  | '+' => some .keep
  | '-' => some .strip
  | _ => none

/-- An indentation given by a digit other than zero. -/
def increment : Lex (Option Nat) := do
  match ← peek with
  | some c =>
      if c == '0' then failure
      else if c.isDigit then
        pass
        return some (c.toNat - 48)
      else return none
  | none => return none

def chomping : Lex (Option Chomping) := do
  match (← peek).bind chomping? with
  | some c =>
      pass
      return some c
  | none => return none

/-- The indicators of a block scalar, in either order. -/
def blockIndicators : Lex (Chomping × Option Nat) := do
  let before ← chomping
  let n ← increment
  let c ← if before.isNone && n.isSome then chomping else pure before
  let next ← peek
  if isLineEnd next || next == some ' ' then return (c.getD .clip, n) else failure

/-- The rest of the line of indicators: blanks and a comment. -/
def restOfLine : Lex Unit := do
  let _ ← takeWhile (· == ' ')
  if (← peek) == some '#' then
    let _ ← takeWhile (!isBreak ·)
  if isLineEnd (← peek) then
    let _ ← lineBreak
  else failure

/-- The empty lines before the first line of a block scalar, and the
greatest column of a blank there. -/
def leadingLines : Nat → Nat → Lex (List Char × Nat)
  | 0, deepest => return ([], deepest)
  | fuel + 1, deepest => do
      match ← peek with
      | some ' ' =>
          pass
          leadingLines fuel (max deepest (← get).column)
      | _ =>
          let ended ← lineBreak
          if ended.isEmpty then return ([], deepest)
          let (breaks, deepest) ← leadingLines fuel deepest
          return (ended ++ breaks, deepest)

/-- Blanks up to the column of the block. -/
def skipIndent (indent : Nat) : Lex Unit := do
  let s ← get
  let blanks := s.rest.takeWhile (· == ' ')
  passMany (min blanks.length (indent - s.column))

/-- Empty lines in a block scalar. -/
def emptyLines (indent : Nat) : Nat → Lex (List Char)
  | 0 => return []
  | fuel + 1 => do
      skipIndent indent
      let ended ← lineBreak
      if ended.isEmpty then return [] else return ended ++ (← emptyLines indent fuel)

/-- The lines of a block scalar; gives the text, its last line end and the
empty lines after it. -/
def blockLines (fold : Bool) (indent : Nat) :
    Nat → List Char → Lex (List Char × List Char × List Char)
  | 0, breaks => return ([], [], breaks)
  | fuel + 1, breaks => do
      let s ← get
      if s.column != indent || s.rest.isEmpty then return ([], [], breaks)
      let isBlank (c : Option Char) : Bool := c == some ' ' || c == some '\t'
      let leading := isBlank s.rest.head?
      let text ← takeWhile (!isBreak ·)
      let ended ← lineBreak
      let after ← emptyLines indent ((← size) + 1)
      let t ← get
      if t.column == indent && !t.rest.isEmpty then
        let joined :=
          if fold && ended == ['\n'] && !leading && !isBlank t.rest.head? then
            if after.isEmpty then [' '] else []
          else ended
        let (rest, last, left) ← blockLines fold indent fuel after
        return (breaks ++ text ++ joined ++ rest, last, left)
      else return (breaks ++ text, ended, after)

/-- A block scalar after its first indicator. -/
def blockScalar (fold : Bool) : Lex String := do
  let (chomp, increment) ← blockIndicators
  restOfLine
  let least : Nat := max 1 ((← get).indent + 1).toNat
  let fuel := (← size) + 1
  let (breaks, indent) ← match increment with
    | none => do
        let (breaks, deepest) ← leadingLines fuel 0
        pure (breaks, max least deepest)
    | some n => do
        let indent := least + n - 1
        pure (← emptyLines indent fuel, indent)
  let (text, last, left) ← blockLines fold indent fuel breaks
  return String.ofList (text ++ match chomp with
    | .strip => []
    | .clip => last
    | .keep => last ++ left)

/-! ## Names and tags -/

def isNameChar (c : Char) : Bool := c.isAlphanum || c == '-' || c == '_'

/-- The name of an anchor or an alias. -/
def name : Lex String := do
  let cs ← takeWhile isNameChar
  let next ← peek
  let closes := next.any fun c => ['?', ':', ',', ']', '}', '%', '@', '\x60'].contains c
  if cs.isEmpty || !(isGap next || closes) then failure
  return String.ofList cs

/-- Characters of a tag that stand for themselves. -/
def isTagChar (c : Char) : Bool := c.isAlphanum || "-;/?:@&=+$,_.!~*'()[]".toList.contains c

/-- Bytes given by their codes, after percent signs. -/
def codedBytes : Nat → Lex (List UInt8)
  | 0 => return []
  | fuel + 1 => do
      if (← peek) != some '%' then return []
      pass
      let b ← codeChar 2
      return UInt8.ofNat b.toNat :: (← codedBytes fuel)

/-- Characters of a tag, some of them given by the codes of their bytes. -/
def tagText : Nat → Lex (List Char)
  | 0 => return []
  | fuel + 1 => do
      let cs ← takeWhile isTagChar
      if (← peek) != some '%' then return cs
      match String.fromUTF8? ⟨(← codedBytes ((← size) + 1)).toArray⟩ with
      | some s => return cs ++ s.toList ++ (← tagText fuel)
      | none => failure

/-- The text of a tag, which may not be empty. -/
def someTagText : Lex String := do
  let cs ← tagText ((← size) + 1)
  if cs.isEmpty then failure
  return String.ofList cs

/-- A handle of tags: a mark before a blank, or a name between two. -/
def handle : Lex String := do
  if (← peek) != some '!' then failure
  pass
  if (← peek) == some ' ' then return "!"
  let cs ← takeWhile isNameChar
  if (← peek) != some '!' then failure
  pass
  return "!" ++ String.ofList cs ++ "!"

/-- A tag after its first mark. -/
def tag : Lex Token := do
  let t ← match ← peek with
    | some '<' => do
        pass
        let suffix ← someTagText
        if (← peek) != some '>' then failure
        pass
        pure (Token.tag none suffix)
    | c => do
        if isGap c then pure (Token.tag none "!")
        else
          let word := (← get).rest.takeWhile fun c => c != ' ' && !isBreak c
          if word.contains '!' then
            let name ← takeWhile isNameChar
            if (← peek) != some '!' then failure
            pass
            pure (Token.tag (some ("!" ++ String.ofList name ++ "!")) (← someTagText))
          else pure (Token.tag (some "!") (← someTagText))
  let next ← peek
  if isLineEnd next || next == some ' ' then return t else failure

/-! ## Directives -/

/-- The end of a word, before a blank or the end of the line. -/
def endOfWord : Lex Unit := do
  let next ← peek
  if !(isLineEnd next || next == some ' ') then failure

def skipSpaces : Lex Unit := do
  let _ ← takeWhile (· == ' ')

def number : Lex Nat := do
  let ds ← takeWhile Char.isDigit
  if ds.isEmpty then failure
  return ds.foldl (fun n c => 10 * n + (c.toNat - 48)) 0

/-- What a directive says, by its name. -/
def directiveContent (name : String) : Lex Directive := do
  if name = "YAML" then
    skipSpaces
    let major ← number
    if (← peek) != some '.' then failure
    pass
    let _ ← number
    endOfWord
    return .version major
  else if name = "TAG" then
    skipSpaces
    let name ← handle
    if (← peek) != some ' ' then failure
    skipSpaces
    let address ← someTagText
    endOfWord
    return .handle name address
  else
    let _ ← takeWhile (!isBreak ·)
    return .other

/-- A directive and the rest of its line. -/
def directive : Lex Directive := do
  pass
  let cs ← takeWhile isNameChar
  if cs.isEmpty then failure
  endOfWord
  let d ← directiveContent (String.ofList cs)
  restOfLine
  return d

/-! ## The next token -/

/-- Ends all blocks before a directive or a document separator. -/
def leaveDocument : Lex Unit := do
  unwind (-1)
  dropCandidate
  allowKey false

def openFlow (t : Token) : Lex Unit := do
  noteCandidate
  modify fun s => { s with flow := s.flow + 1 }
  allowKey true
  pass
  emit t

def closeFlow (t : Token) : Lex Unit := do
  dropCandidate
  modify fun s => { s with flow := s.flow - 1 }
  allowKey false
  pass
  emit t

/-- Opens a block of this kind where an entry of a deeper one begins. -/
def openBlock (start : Token) : Lex Unit := do
  let s ← get
  if s.flow = 0 then
    if !s.keyAllowed then failure
    if ← indentTo s.column then emit start

def blockEntry : Lex Unit := do
  openBlock .blockSequenceStart
  allowKey true
  dropCandidate
  pass
  emit .blockEntry

def explicitKey : Lex Unit := do
  openBlock .blockMappingStart
  allowKey ((← get).flow == 0)
  dropCandidate
  pass
  emit .key

def value : Lex Unit := do
  let s ← get
  match s.candidates.lookup s.flow with
  | some key =>
      set { s with candidates := s.candidates.filter (·.1 != s.flow) }
      emitAt key.token .key
      if s.flow = 0 then
        if ← indentTo key.column then emitAt key.token .blockMappingStart
      allowKey false
  | none =>
      openBlock .blockMappingStart
      allowKey (s.flow == 0)
      dropCandidate
  pass
  emit .value

/-- A token that may turn out to be a key. -/
def keyLike (read : Lex Token) : Lex Unit := do
  noteCandidate
  allowKey false
  emit (← read)

def quotedScalar (double : Bool) : Lex Token := do
  pass
  return .scalar (String.ofList (← quotedRest double ((← size) + 1))) false

def plainScalar : Lex Token := do
  let s ← get
  return .scalar (String.ofList (← plainRest (s.indent + 1) (s.rest.length + 1) [] [])) true

def blockScalarToken (fold : Bool) : Lex Unit := do
  allowKey true
  dropCandidate
  pass
  emit (.scalar (← blockScalar fold) false)

/-- Whether a plain scalar can begin with `c`, which `next` follows. -/
def startsPlain (inFlow : Bool) (c : Char) (next : Option Char) : Bool :=
  !(isGap (some c) || "-?:,[]\x7b\x7d#&*!|>'\"%@\x60".toList.contains c)
    || !isGap next && (c == '-' || !inFlow && (c == '?' || c == ':'))

/-- One token, after the gap before it; false at the end of the text. -/
def token : Lex Bool := do
  skipGap ((← size) + 1)
  dropStale
  unwind (← get).column
  let s ← get
  let inFlow := s.flow != 0
  let next := s.rest[1]?
  match s.rest.head? with
  | none =>
      leaveDocument
      return false
  | some c =>
      let atMargin := s.column == 0
      let starts ← separatorAhead '-'
      let stops ← separatorAhead '.'
      if atMargin && c == '%' then
        leaveDocument
        emit (.directive (← directive))
      else if atMargin && starts then
        leaveDocument
        passMany 3
        emit .documentStart
      else if atMargin && stops then
        leaveDocument
        passMany 3
        emit .documentEnd
      else if c == '[' then openFlow .flowSequenceStart
      else if c == '{' then openFlow .flowMappingStart
      else if c == ']' then closeFlow .flowSequenceEnd
      else if c == '}' then closeFlow .flowMappingEnd
      else if c == ',' then
        allowKey true
        dropCandidate
        pass
        emit .flowEntry
      else if c == '-' && isGap next then blockEntry
      else if c == '?' && (inFlow || isGap next) then explicitKey
      else if c == ':' && (inFlow || isGap next) then value
      else if c == '*' then
        keyLike do
          pass
          return .alias (← name)
      else if c == '&' then
        keyLike do
          pass
          return .anchor (← name)
      else if c == '!' then
        keyLike do
          pass
          tag
      else if c == '|' && !inFlow then blockScalarToken false
      else if c == '>' && !inFlow then blockScalarToken true
      else if c == '\'' then keyLike (quotedScalar false)
      else if c == '"' then keyLike (quotedScalar true)
      else if startsPlain inFlow c next then keyLike plainScalar
      else failure
      return true

/-- All tokens up to the end of the text. -/
def tokens : Nat → Lex Unit
  | 0 => return ()
  | fuel + 1 => do if ← token then tokens fuel else return ()

end Lex

/-- The tokens of a text, if it can be cut into tokens. -/
def tokens? (text : String) : Option (List Token) :=
  let cs := unifyLines text.toList
  let cs := if cs.head? == some '\uFEFF' then cs.drop 1 else cs
  if cs.all isAllowed then
    ((Lex.tokens (cs.length + 1)).run (Lex.start cs)).map (·.2.tokens)
  else none

end Document

end Conform
