/-
# `Pattern.Parser` — reading a pattern from its source

The source is cut into plain and escaped characters, and read by recursive
descent: alternatives, sequences of items, repetitions after an item, and
groups.  A reader keeps what a reference may look back at: the groups that
are open or closed, their names and their widths.  The recursion is bounded
by the number of characters, of which each round consumes one.
-/
import Conform.Pattern.Basic
import Conform.Text.Names
import Conform.Text.Word

namespace Conform

namespace Pattern

/-- Why a source is no pattern. -/
inductive Refusal where
  | malformed
  /-- A repetition count that no repetition can reach. -/
  | countTooLarge
  /-- ASCII and full letters are both asked for. -/
  | conflictingModes
deriving DecidableEq

/-- A character of the source, plain or after a backslash. -/
inductive Token where
  | plain (c : Char)
  | escaped (c : Char)
deriving DecidableEq

/-- Cuts a source into tokens; a backslash at the end escapes nothing. -/
def tokens? : List Char → Option (List Token)
  | [] => some []
  | ['\\'] => none
  | '\\' :: c :: rest => (tokens? rest).map (.escaped c :: ·)
  | c :: rest => (tokens? rest).map (.plain c :: ·)

/-- What has been read so far and what is left. -/
structure Reader where
  rest : List Token
  mode : Mode
  /-- The number of groups opened, plus one. -/
  groups : Nat
  /-- The widths of the closed groups. -/
  widths : List (Nat × Nat × Nat)
  names : List (String × Nat)
  /-- Inside a condition on what precedes: the first group opened there. -/
  barrier : Option Nat

abbrev Read := StateT Reader (Except Refusal)

namespace Read

def refuse {α : Type} : Read α := throw .malformed

def check (ok : Bool) : Read Unit := if ok then pure () else refuse

def peek : Read (Option Token) := return (← get).rest.head?

def next : Read (Option Token) := do
  let r ← get
  set { r with rest := r.rest.tail }
  return r.rest.head?

/-- The next token, which must be there. -/
def need : Read Token := do
  match ← next with
  | some t => return t
  | none => refuse

/-- Consumes the character if it is next. -/
def accept (c : Char) : Read Bool := do
  if (← peek) = some (.plain c) then
    let _ ← next
    return true
  else return false

def expect (c : Char) : Read Unit := do check (← accept c)

/-- The characters, at most `limit`, that satisfy `p`. -/
def takeWhile (p : Char → Bool) : Nat → Read (List Char)
  | 0 => return []
  | limit + 1 => do
      match ← peek with
      | some (.plain c) =>
          if p c then
            let _ ← next
            return c :: (← takeWhile p limit)
          else return []
      | _ => return []

/-- The number of tokens left, a bound for every loop over them. -/
def size : Read Nat := return (← get).rest.length

/-- A decimal number, if a digit is next. -/
def number? : Read (Option Nat) := do
  let ds ← takeWhile Char.isDigit (← size)
  return if ds.isEmpty then none else some (Nat.ofDigitChars 10 ds 0)

def isOctal (c : Char) : Bool := '0' ≤ c && c ≤ '7'

def hexValue? (c : Char) : Option Nat :=
  if c.isDigit then some (c.toNat - 48)
  else if 'a' ≤ c && c ≤ 'f' then some (c.toNat - 87)
  else if 'A' ≤ c && c ≤ 'F' then some (c.toNat - 55)
  else none

def hexNumber (ds : List Char) : Nat :=
  ds.foldl (fun n c => 16 * n + (hexValue? c).getD 0) 0

/-- A character given by exactly `digits` digits of base sixteen. -/
def hexChar (digits : Nat) : Read Nat := do
  let ds ← takeWhile (fun c => (hexValue? c).isSome) digits
  check (ds.length == digits && hexNumber ds < 0x110000)
  return hexNumber ds

/-- A character given by octal digits, the first of which are `before`. -/
def octalChar (before : List Char) : Read Nat := do
  let ds ← takeWhile isOctal (3 - before.length)
  let n := Nat.ofDigitChars 8 (before ++ ds) 0
  check (n < 256)
  return n

/-- Escapes that stand for one character. -/
def controlChar? : Char → Option Nat
  | 'a' => some 7
  | 'b' => some 8
  | 'f' => some 12
  | 'n' => some 10
  | 'r' => some 13
  | 't' => some 9
  | 'v' => some 11
  | '\\' => some 92
  | _ => none

def charKind? : Char → Option SetItem
  | 'd' => some (.kind .digit false)
  | 'D' => some (.kind .digit true)
  | 's' => some (.kind .blank false)
  | 'S' => some (.kind .blank true)
  | 'w' => some (.kind .word false)
  | 'W' => some (.kind .word true)
  | _ => none

def anchor? : Char → Option Anchor
  | 'A' => some .textStart
  | 'Z' => some .textEnd
  | 'b' => some .boundary
  | 'B' => some .noBoundary
  | _ => none

/-- The text up to the closing character, which is consumed. -/
def nameUntil (close : Char) : Nat → Read String
  | 0 => refuse
  | fuel + 1 => do
      match ← need with
      | .plain c => if c == close then return "" else return c.toString ++ (← nameUntil close fuel)
      | .escaped c => return "\\" ++ c.toString ++ (← nameUntil close fuel)

/-- A character given by its name between braces. -/
def namedChar : Read Nat := do
  check (← accept '\x7b')
  let name ← nameUntil '\x7d' (← size)
  match Text.charNamed? name with
  | some n => return n
  | none => refuse

/-- An escape by code or by name, or a character that stands for itself;
letters and digits without a meaning are refused. -/
def plainEscape (c : Char) : Read Nat := do
  match c with
  | 'x' => hexChar 2
  | 'u' => hexChar 4
  | 'U' => hexChar 8
  | 'N' => namedChar
  | _ =>
      check !c.isAlphanum
      return c.toNat

/-- An escape inside a character set. -/
def setEscape (c : Char) : Read SetItem := do
  match controlChar? c, charKind? c with
  | some n, _ => return .range n n
  | none, some k => return k
  | none, none =>
      let n ← if isOctal c then octalChar [c] else plainEscape c
      return .range n n

def setMember : Token → Read SetItem
  | .plain c => return .range c.toNat c.toNat
  | .escaped c => setEscape c

/-- The range between two members, which must be single characters. -/
def rangeOf : SetItem → SetItem → Read SetItem
  | .range low _, .range high _ => do
      check (low ≤ high)
      return .range low high
  | _, _ => refuse

/-- The members of a character set up to its closing bracket. -/
def setItems : Nat → List SetItem → Read (List SetItem)
  | 0, _ => refuse
  | fuel + 1, items => do
      let t ← need
      if t = .plain ']' && !items.isEmpty then return items
      let first ← setMember t
      if ← accept '-' then
        let last ← need
        if last = .plain ']' then return items ++ [first, .range 45 45]
        setItems fuel (items ++ [← rangeOf first (← setMember last)])
      else setItems fuel (items ++ [first])

/-- A reference to a group: it must be closed, and not belong to the
condition on what precedes that is being read. -/
def refer (n : Nat) : Read Unit := do
  let r ← get
  check (r.widths.lookup n).isSome
  check (r.barrier.all (n < ·))

/-- A reference by number of one or two digits, or an octal escape. -/
def numberedEscape (c : Char) : Read Node := do
  let again (ds : List Char) : Read Node := do
    let n := Nat.ofDigitChars 10 ds 0
    refer n
    return .again n
  match ← peek with
  | some (.plain d) =>
      if !d.isDigit then again [c]
      else
        let _ ← next
        match ← peek with
        | some (.plain e) =>
            if isOctal c && isOctal d && isOctal e then return .char (← octalChar [c, d])
            else again [c, d]
        | _ => again [c, d]
  | _ => again [c]

/-- An escape outside character sets. -/
def escape (c : Char) : Read Node := do
  match anchor? c, charKind? c, controlChar? c with
  | some a, _, _ => return .anchor a
  | none, some k, _ => return .set false [k]
  | none, none, some n => return .char n
  | none, none, none =>
      if c == '0' then return .char (← octalChar ['0'])
      else if c.isDigit then numberedEscape c
      else return .char (← plainEscape c)

/-- The greatest repetition count. -/
def countLimit : Nat := 4294967295

def smallCount (n : Option Nat) : Read Unit :=
  if n.any (countLimit ≤ ·) then throw .countTooLarge else pure ()

/-- The counts between braces after the opening one; without them the
brace is a plain character and nothing is consumed. -/
def counts? : Read (Option (Nat × Option Nat)) := do
  let before ← get
  if (← peek) = some (.plain '}') then return none
  let low ← number?
  let high ← if ← accept ',' then number? else pure low
  if ← accept '}' then
    smallCount low
    smallCount high
    check (high.all (low.getD 0 ≤ ·))
    return some (low.getD 0, high)
  else
    set before
    return none

/-- The mark after a repetition. -/
def greed : Read Greed := do
  if ← accept '?' then return .lazy
  if ← accept '+' then return .possessive
  return .greedy

/-- The repetition of an item.  An anchor and a repetition cannot be
repeated. -/
def repeated (least : Nat) (most : Option Nat) : List Node → Read (List Node)
  | [] | .anchor _ :: _ | .loop .. :: _ => refuse
  | item :: before => return .loop least most (← greed) item :: before

def isIdentifier (s : String) : Bool :=
  match s.toList with
  | [] => false
  | c :: rest =>
      Text.isWord c && (Text.digitValue? c).isNone && rest.all Text.isWord

def groupName (close : Char) : Read String := do
  let name ← nameUntil close (← size)
  check (isIdentifier name)
  return name

/-- The group with this name. -/
def groupNamed (name : String) : Read Nat := do
  match (← get).names.lookup name with
  | some n => return n
  | none => refuse

/-- Skips a comment group. -/
def skipComment : Nat → Read Unit
  | 0 => refuse
  | fuel + 1 => do
      if (← need) = .plain ')' then return () else skipComment fuel

/-- Skips to the end of the line. -/
def skipLine : Nat → Read Unit
  | 0 => return ()
  | fuel + 1 => do
      match ← next with
      | none | some (.plain '\n') => return ()
      | some _ => skipLine fuel

/-- Switches one option. -/
def switch? (on : Bool) : Char → Option (ModeChange → ModeChange)
  | 'i' => some fun c => { c with foldCase := on }
  | 'm' => some fun c => { c with multiline := on }
  | 's' => some fun c => { c with dotAll := on }
  | 'x' => some fun c => { c with verbose := on }
  | 'a' => if on then some fun c => { c with ascii := true } else none
  | 'u' => if on then some fun c => { c with ascii := some false } else none
  | _ => none

/-- Both choices of letters cannot be made at once. -/
def sameLetters (c : Char) (change : ModeChange) : Bool :=
  match c with
  | 'a' => change.ascii != some false
  | 'u' => change.ascii != some true
  | _ => true

/-- Option letters, of which `c` is the first, up to a character that is
none; gives that character too. -/
def switches (on : Bool) : Nat → Char → ModeChange → Read (ModeChange × Char)
  | 0, _, _ => refuse
  | fuel + 1, c, change => do
      match switch? on c with
      | none => return (change, c)
      | some f =>
          check (sameLetters c change)
          match ← need with
          | .plain d => switches on fuel d (f change)
          | .escaped _ => refuse

/-- Options that are switched on and off at once. -/
def overlap (a b : ModeChange) : Bool :=
  a.foldCase.isSome && b.foldCase.isSome || a.multiline.isSome && b.multiline.isSome
    || a.dotAll.isSome && b.dotAll.isSome || a.verbose.isSome && b.verbose.isSome

/-- One change after another. -/
def followedBy (a b : ModeChange) : ModeChange :=
  ⟨b.foldCase <|> a.foldCase, b.multiline <|> a.multiline, b.dotAll <|> a.dotAll,
    b.verbose <|> a.verbose, b.ascii <|> a.ascii⟩

/-- What an option group announces: options for the whole pattern, or for
the rest of the group. -/
inductive Options where
  | whole (change : ModeChange)
  | inside (change : ModeChange)

def options (c : Char) : Read Options := do
  let fuel := (← size) + 1
  let (on, stop) ← switches true fuel c .none
  match stop with
  | ')' =>
      check (c != ')')
      return .whole on
  | ':' => return .inside on
  | '-' =>
      match ← need with
      | .plain d =>
          let (off, stop) ← switches false fuel d .none
          check (stop == ':' && d != ':' && !overlap on off)
          return .inside (followedBy on off)
      | .escaped _ => refuse
  | _ => refuse

/-- Options for the whole pattern, which must stand at its very start. -/
def adopt (change : ModeChange) : Read Unit := do
  let r ← get
  if change.ascii = some false && r.mode.ascii then throw .conflictingModes
  set { r with mode := r.mode.apply change }

def openGroup (name : Option String) : Read Nat := do
  let r ← get
  match name with
  | some s =>
      check (r.names.lookup s).isNone
      set { r with groups := r.groups + 1, names := (s, r.groups) :: r.names }
  | none => set { r with groups := r.groups + 1 }
  return r.groups

def closeGroup (n : Nat) (body : Node) : Read Node := do
  modify fun r => { r with widths := (n, body.width r.widths) :: r.widths }
  return .group n body

/-- Reads `body` as a condition on what precedes, which needs one width. -/
def behind (body : Read Node) : Read (Nat × Node) := do
  let r ← get
  set { r with barrier := r.barrier <|> some r.groups }
  let node ← body
  modify fun s => { s with barrier := r.barrier }
  let (low, high) := node.width (← get).widths
  check (low == high && low ≤ countLimit)
  return (low, node)

/-- A group to test for, by name or by number. -/
def testedGroup : Read Nat := do
  let name ← nameUntil ')' (← size)
  let n ←
    if isIdentifier name then groupNamed name
    else match name.toNat? with
      | some n =>
          check (n != 0)
          pure n
      | none => refuse
  if (← get).barrier.isSome then refer n
  return n

/-- The sequence of the items, which are given last first. -/
def ofItems : List Node → Node
  | [] => .empty
  | last :: before => before.foldl (fun rest item => .seq item rest) last

mutual

/-- Alternatives up to the end of the group; `top` holds outside groups. -/
def alternatives : Nat → (top first verbose : Bool) → Read Node
  | 0, _, _, _ => refuse
  | fuel + 1, top, first, verbose => do
      let branch ← sequence fuel (top && first) verbose []
      if ← accept '|' then
        let r ← get
        let verbose := if top then r.mode.verbose else verbose
        return .alt branch (← alternatives fuel top false verbose)
      else return branch

/-- Items up to a bar, a closing parenthesis or the end of the source;
`items` are those before, last first. -/
def sequence : Nat → (first verbose : Bool) → List Node → Read Node
  | 0, _, _, _ => refuse
  | fuel + 1, first, verbose, items => do
      match ← peek with
      | none | some (.plain '|') | some (.plain ')') => return ofItems items
      | some (.escaped c) =>
          let _ ← next
          sequence fuel first verbose ((← escape c) :: items)
      | some (.plain c) =>
          let _ ← next
          let more := sequence fuel first verbose
          let times (least : Nat) (most : Option Nat) : Read Node := do
            more (← repeated least most items)
          if verbose && [9, 10, 11, 12, 13, 32].contains c.toNat then more items
          else if verbose && c == '#' then
            skipLine (← size)
            more items
          else match c with
            | '[' =>
                let negated ← accept '^'
                more (.set negated (← setItems ((← size) + 1) []) :: items)
            | '?' => times 0 (some 1)
            | '*' => times 0 none
            | '+' => times 1 none
            | '{' =>
                match ← counts? with
                | some (least, most) => times least most
                | none => more (.char c.toNat :: items)
            | '.' => more (.any :: items)
            | '^' => more (.anchor .start :: items)
            | '$' => more (.anchor .stop :: items)
            | '(' =>
                if ← accept '?' then
                  match ← need with
                  | .plain d => extension fuel first verbose items d
                  | .escaped _ => refuse
                else captured fuel first verbose items none
            | _ => more (.char c.toNat :: items)

/-- A group whose text is remembered, after its opening. -/
def captured : Nat → (first verbose : Bool) → List Node → Option String → Read Node
  | 0, _, _, _, _ => refuse
  | fuel + 1, first, verbose, items, name => do
      let n ← openGroup name
      let body ← alternatives fuel false false verbose
      expect ')'
      sequence fuel first verbose ((← closeGroup n body) :: items)

/-- A group that opens with a question mark and the character `c`. -/
def extension : Nat → (first verbose : Bool) → List Node → Char → Read Node
  | 0, _, _, _, _ => refuse
  | fuel + 1, first, verbose, items, c => do
      let more := sequence fuel first verbose
      let enclosed (verbose : Bool) : Read Node := do
        let body ← alternatives fuel false false verbose
        expect ')'
        return body
      match c with
      | 'P' =>
          if ← accept '<' then
            captured fuel first verbose items (some (← groupName '>'))
          else
            expect '='
            let n ← groupNamed (← groupName ')')
            refer n
            more (.again n :: items)
      | ':' => more (.scoped .none (← enclosed verbose) :: items)
      | '>' => more (.atomic (← enclosed verbose) :: items)
      | '#' =>
          skipComment ((← size) + 1)
          more items
      | '=' => more (.look none false (← enclosed verbose) :: items)
      | '!' => more (.look none true (← enclosed verbose) :: items)
      | '<' =>
          let t ← need
          check (t = .plain '=' || t = .plain '!')
          let (width, body) ← behind (enclosed verbose)
          more (.look (some width) (t = .plain '!') body :: items)
      | '(' =>
          let n ← testedGroup
          let yes ← sequence fuel false verbose []
          let no ← if ← accept '|' then sequence fuel false verbose [] else pure .empty
          expect ')'
          more (.ifGroup n yes no :: items)
      | _ =>
          match ← options c with
          | .whole change =>
              check (first && items.isEmpty)
              adopt change
              let r ← get
              sequence fuel first r.mode.verbose items
          | .inside change =>
              let body ← enclosed (change.verbose.getD verbose)
              more (.scoped change body :: items)

end

/-- A whole pattern: alternatives, and nothing left. -/
def whole : Read Node := do
  let r ← get
  let node ← alternatives (4 * r.rest.length + 4) true true r.mode.verbose
  let done ← get
  check (done.rest.isEmpty && node.referred.all (· < done.groups))
  return node

end Read

/-- Compiles a source in a mode. -/
def compile (source : String) (mode : Mode) : Except Refusal Pattern :=
  match tokens? source.toList with
  | none => .error .malformed
  | some rest =>
      match Read.whole.run ⟨rest, mode, 1, [], [], none⟩ with
      | .error e => .error e
      | .ok (node, r) => .ok ⟨.text source, r.mode, node⟩

end Pattern

end Conform
