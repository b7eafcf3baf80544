import BracketSpacing.Yaml.Scalar

/-!
Tokens of a YAML text. Indentation becomes tokens that open and close blocks. A colon makes a key of
what stands before it on its line, so whatever may turn out to be a key is remembered by its
position, and the tokens that announce it go in there when the colon comes.
-/

set_option autoImplicit false
set_option relaxedAutoImplicit false

namespace BracketSpacing.Yaml

/-- Versions that differ in how scalars are read. -/
inductive Version where
  | v1_1
  | v1_2
  deriving DecidableEq, Repr

inductive Token where
  /-- A directive; the one for the version with its numbers. -/
  | directive (version : Option (Nat × Nat))
  | documentStart
  | documentEnd
  | blockSequenceStart
  | blockMappingStart
  | blockEnd
  | flowSequenceStart
  | flowSequenceEnd
  | flowMappingStart
  | flowMappingEnd
  | blockEntry
  | flowEntry
  | key
  | value
  | alias (name : String)
  | anchor (name : String)
  | tag (name : String)
  | scalar (text : String) (plain : Bool)
  deriving DecidableEq, Repr

/-- The characters ahead and where they stand. -/
structure Spot where
  rest : List Char
  index : Nat := 0
  line : Nat := 0
  column : Nat := 0

namespace Spot

def step (s : Spot) : Spot :=
  match s.rest with
  | [] => s
  | c :: rest =>
    if c = '\n' then ⟨rest, s.index + 1, s.line + 1, 0⟩
    else if c.toNat = 0xFEFF then ⟨rest, s.index + 1, s.line, s.column⟩
    else ⟨rest, s.index + 1, s.line, s.column + 1⟩

def advance : (n : Nat) → Spot → Spot
  | 0, s => s
  | n + 1, s => advance n s.step

/-- The spot where `rest`, an end of the text, starts. -/
def advanceTo (rest : List Char) (s : Spot) : Spot := s.advance (s.rest.length - rest.length)

def peek? (s : Spot) : Option Char := s.rest.head?

def next? (s : Spot) : Option Char := (s.rest.drop 1).head?

end Spot

/-- A token that may turn out to start a key. -/
structure PossibleKey where
  /-- The number of tokens before it. -/
  position : Nat
  /-- Whether only a key can stand here. -/
  required : Bool
  index : Nat
  line : Nat
  column : Nat

inductive Bracket where
  | square
  | curly
  deriving DecidableEq, Repr

structure Scanner where
  spot : Spot
  /-- The tokens so far, the latest first. -/
  tokens : List Token := []
  /-- The columns of the open blocks, the innermost first. -/
  indents : List Nat := []
  /-- The open brackets, the innermost first. -/
  brackets : List Bracket := []
  keyAllowed : Bool := true
  /-- The possible key for each number of open brackets. -/
  keys : List (Nat × PossibleKey) := []
  version : Version := .v1_2

namespace Scanner

def inFlow (s : Scanner) : Bool := !s.brackets.isEmpty

def depth (s : Scanner) : Nat := s.brackets.length

def emit (t : Token) (s : Scanner) : Scanner := { s with tokens := t :: s.tokens }

def moveTo (spot : Spot) (s : Scanner) : Scanner := { s with spot }

def allowKey (allowed : Bool) (s : Scanner) : Scanner := { s with keyAllowed := allowed }

/-- Puts a token in at a position among those so far. -/
def emitAt (position : Nat) (t : Token) (s : Scanner) : Scanner :=
  let newer := s.tokens.length - position
  { s with tokens := s.tokens.take newer ++ t :: s.tokens.drop newer }

/-! ### Possible keys -/

/-- Gives up possible keys; fails if one of them had to be a key. -/
def giveUp (lost : Nat × PossibleKey → Bool) (s : Scanner) : Option Scanner :=
  if s.keys.any fun k ↦ lost k && k.2.required then none
  else some { s with keys := s.keys.filter fun k ↦ !lost k }

/-- The greatest distance between the start of a key and its colon. -/
def keyLimit : Nat := 1024

/-- Gives up the possible keys that started on another line or too far back. -/
def giveUpStale (s : Scanner) : Option Scanner :=
  s.giveUp fun k ↦ k.2.line ≠ s.spot.line || k.2.index + keyLimit < s.spot.index

/-- Gives up the possible key among the same brackets. -/
def giveUpHere (s : Scanner) : Option Scanner := s.giveUp fun k ↦ k.1 = s.depth

/-- Remembers that the next token may start a key. -/
def remember (s : Scanner) : Option Scanner :=
  if !s.keyAllowed then some s
  else
    (giveUpHere s).map fun t ↦
      let key : PossibleKey :=
        { position := s.tokens.length
          required := !s.inFlow && s.indents.head? == some s.spot.column
          index := s.spot.index
          line := s.spot.line
          column := s.spot.column }
      { t with keys := (s.depth, key) :: t.keys }

/-! ### Blocks -/

/-- Closes blocks while they are further in than a column. -/
def closeBlocks (column : Nat) : List Nat → List Token → List Nat × List Token
  | [], tokens => ([], tokens)
  | indent :: indents, tokens =>
    if column < indent then closeBlocks column indents (.blockEnd :: tokens)
    else (indent :: indents, tokens)

/-- Closes the blocks that the column ends; inside brackets columns do not count. -/
def unwind (column : Nat) (s : Scanner) : Scanner :=
  if s.inFlow then s
  else
    let (indents, tokens) := closeBlocks column s.indents s.tokens
    { s with indents, tokens }

/-- Closes all blocks. -/
def unwindAll (s : Scanner) : Scanner :=
  if s.inFlow then s
  else
    { s with indents := [], tokens := List.replicate s.indents.length .blockEnd ++ s.tokens }

/-- Whether a block at a column would be further in than the open ones. -/
def isDeeper (column : Nat) (s : Scanner) : Bool := s.indents.head?.all (· < column)

/-- Opens a block at a column if it is further in; its token goes in at a position. -/
def openBlock (column position : Nat) (t : Token) (s : Scanner) : Scanner :=
  if s.isDeeper column then { s.emitAt position t with indents := column :: s.indents } else s

/-- The least indentation of a scalar that goes on over several lines. -/
def margin (s : Scanner) : Nat :=
  match s.indents with
  | [] => 0
  | indent :: _ => indent + 1

/-! ### Tokens -/

/-- A token of `width` characters. -/
def simple (t : Token) (width : Nat) (s : Scanner) : Scanner :=
  (s.emit t).moveTo (s.spot.advance width)

def documentMark (t : Token) (s : Scanner) : Option Scanner :=
  (giveUpHere s.unwindAll).map fun s ↦ ((s.allowKey false).simple t 3)

def openBracket (b : Bracket) (t : Token) (s : Scanner) : Option Scanner :=
  s.remember.map fun s ↦
    { s.simple t 1 with brackets := b :: s.brackets, keyAllowed := true }

def closeBracket (t : Token) (s : Scanner) : Option Scanner :=
  s.giveUpHere.map fun s ↦
    { s.simple t 1 with brackets := s.brackets.drop 1, keyAllowed := false }

def flowEntry (s : Scanner) : Option Scanner :=
  s.giveUpHere.map fun s ↦ (s.allowKey true).simple .flowEntry 1

/-- A dash or a question mark: opens a block if need be. -/
def blockIndicator (t blockStart : Token) (s : Scanner) : Option Scanner :=
  if s.inFlow then
    s.giveUpHere.map fun s ↦ (s.allowKey (t == .blockEntry)).simple t 1
  else if !s.keyAllowed then none
  else
    (s.openBlock s.spot.column s.tokens.length blockStart).giveUpHere.map fun s ↦
      (s.allowKey true).simple t 1

/-- A colon: makes a key of the possible one among the same brackets, if there is one. -/
def valueIndicator (s : Scanner) : Option Scanner :=
  match s.keys.find? fun k ↦ k.1 = s.depth with
  | some (_, key) =>
    let s := { s with keys := s.keys.filter fun k ↦ k.1 ≠ s.depth, keyAllowed := false }
    let s := s.emitAt key.position .key
    let s := if s.inFlow then s else s.openBlock key.column key.position .blockMappingStart
    some (s.simple .value 1)
  | none =>
    if s.inFlow then some ((s.allowKey false).simple .value 1)
    else if !s.keyAllowed then none
    else
      (s.openBlock s.spot.column s.tokens.length .blockMappingStart).giveUpHere.map fun s ↦
        (s.allowKey true).simple .value 1

/-- A character of the name of an anchor. -/
def isNameChar (c : Char) : Bool :=
  let n := c.toNat
  !(c = ',' || c = '[' || c = ']' || c = '{' || c = '}') && n ≠ 0xFEFF &&
    ((0x21 ≤ n && n ≤ 0x7E) || (0xA0 ≤ n && n ≤ 0xD7FF) || (0xE000 ≤ n && n ≤ 0xFFFD) ||
      0x10000 ≤ n)

/-- Whether the name of an anchor may end here. -/
def endsName : Option Char → Bool
  | none => true
  | some c => isBlank c || isBreak c || c = ',' || c = '[' || c = ']' || c = '{' || c = '}'

/-- An alias or an anchor. -/
def named (t : String → Token) (s : Scanner) : Option Scanner :=
  let name := (s.spot.rest.drop 1).takeWhile isNameChar
  let stop := s.spot.advance (1 + name.length)
  if name.isEmpty || !endsName stop.peek? then none
  else s.remember.map fun s ↦ ((s.allowKey false).emit (t (String.ofList name))).moveTo stop

/-- A tag: what starts with an exclamation mark, up to a blank. -/
def tagged (s : Scanner) : Option Scanner :=
  let name := s.spot.rest.takeWhile fun c ↦ !(isBlank c || isBreak c)
  s.remember.map fun s ↦
    ((s.allowKey false).emit (.tag (String.ofList name))).moveTo (s.spot.advance name.length)

def quotedScalar (double : Bool) (s : Scanner) : Option Scanner :=
  match quoted double (s.spot.rest.drop 1) with
  | none => none
  | some (text, rest) =>
    s.remember.map fun s ↦
      ((s.allowKey false).emit (.scalar (String.ofList text) false)).moveTo (s.spot.advanceTo rest)

def blockScalar (fold : Bool) (s : Scanner) : Option Scanner :=
  match block fold s.margin (s.spot.rest.drop 1) with
  | none => none
  | some (text, rest) =>
    s.giveUpHere.map fun s ↦
      ((s.allowKey true).emit (.scalar (String.ofList text) false)).moveTo (s.spot.advanceTo rest)

def plainScalar (s : Scanner) : Option Scanner :=
  let ctx : PlainContext :=
    { flow := s.inFlow, questionEnds := s.version == .v1_1, indent := s.margin }
  let p := plain ctx s.spot.rest
  s.remember.map fun s ↦
    ((s.allowKey p.lineEnded).emit (.scalar (String.ofList p.text) true)).moveTo
      (s.spot.advanceTo p.rest)

/-! ### Directives -/

def isDirectiveChar (c : Char) : Bool :=
  c.isAlphanum || c = '-' || c = '_' || c = ':' || c = '.'

/-- A number of the version directive. -/
def versionNumber (cs : List Char) : Option (Nat × List Char) :=
  let digits := cs.takeWhile Char.isDigit
  if digits.isEmpty then none else some (Json.digitsValue digits, cs.dropWhile Char.isDigit)

/-- Major and minor number. -/
def versionNumbers (cs : List Char) : Option ((Nat × Nat) × List Char) :=
  match versionNumber (cs.dropWhile (· = ' ')) with
  | some (major, '.' :: rest) =>
    match versionNumber rest with
    | some (minor, rest) =>
      if rest.head?.all fun c ↦ c = ' ' || isBreak c then some ((major, minor), rest) else none
    | none => none
  | _ => none

def directive (s : Scanner) : Option Scanner :=
  let cs := s.spot.rest.drop 1
  let name := cs.takeWhile isDirectiveChar
  let rest := cs.dropWhile isDirectiveChar
  if name.isEmpty || !(rest.head?.all fun c ↦ c = ' ' || isBreak c) then none
  else
    let read : Option (Option (Nat × Nat) × List Char) :=
      if name = ['Y', 'A', 'M', 'L'] then
        match versionNumbers rest with
        | none => none
        | some (numbers, rest) => (emptyLineRest rest).map fun rest ↦ (some numbers, rest)
      else some (none, (rest.dropWhile fun c ↦ !endsLine (some c)).drop 1)
    match read with
    | none => none
    | some (numbers, rest) =>
      (giveUpHere s.unwindAll).map fun s ↦
        let version := if numbers = some (1, 1) then .v1_1 else s.version
        { ((s.allowKey false).emit (.directive numbers)).moveTo (s.spot.advanceTo rest) with
          version }

/-! ### Scanning -/

/-- Passes blanks, comments and line ends; outside brackets a line end allows a key again. -/
def skipFrom : (fuel : Nat) → Scanner → Scanner
  | 0, s => s
  | fuel + 1, s =>
    let blank (c : Char) : Bool := c = ' ' || (s.inFlow && c = '\t')
    let cs := s.spot.rest.dropWhile blank
    let cs := if cs.head? = some '#' then cs.dropWhile fun c ↦ !endsLine (some c) else cs
    match cs with
    | c :: rest =>
      if isBreak c then
        skipFrom fuel
          { s with spot := s.spot.advanceTo rest, keyAllowed := s.keyAllowed || !s.inFlow }
      else s.moveTo (s.spot.advanceTo cs)
    | [] => s.moveTo (s.spot.advanceTo [])

/-- Passes everything up to the next token; a byte order mark counts only at the start. -/
def skip (s : Scanner) : Scanner :=
  let s :=
    if s.spot.index = 0 && s.spot.peek?.any (·.toNat = 0xFEFF) then s.moveTo s.spot.step else s
  skipFrom (s.spot.rest.length + 1) s

/-- The characters that a plain scalar does not start with, unless a word follows some of them. -/
def isIndicator (c : Char) : Bool :=
  "-?:,[]\x7b\x7d#&*!|>'\"%@`".toList.contains c

/-- Whether a colon here stands before a value. -/
def isValueIndicator (s : Scanner) : Bool :=
  if s.inFlow then
    if s.version == .v1_1 then true
    else if s.brackets.head? == some .square || s.tokens.head? == some .value then
      endsWord s.spot.next?
    else true
  else endsWord s.spot.next?

/-- Whether a plain scalar starts with a character here. -/
def startsPlain (c : Char) (s : Scanner) : Bool :=
  let next := s.spot.next?
  if isBlank c || isBreak c then false
  else if !isIndicator c then true
  else if c = '-' then !endsWord next
  else if c = ':' && s.inFlow then s.version == .v1_2 && !(next.any isBlank)
  else if c = '?' || c = ':' then !s.inFlow && !endsWord next
  else false

/-- Reads the token that starts with `c`. -/
def token (c : Char) (s : Scanner) : Option Scanner :=
  let lineStart := s.spot.column = 0
  let isMark := lineStart && atDocumentMark s.spot.rest
  let wordEnds := endsWord s.spot.next?
  if c = '%' && lineStart then s.directive
  else if c = '-' && isMark then s.documentMark .documentStart
  else if c = '.' && isMark then s.documentMark .documentEnd
  else if c = '[' then s.openBracket .square .flowSequenceStart
  else if c = '{' then s.openBracket .curly .flowMappingStart
  else if c = ']' then s.closeBracket .flowSequenceEnd
  else if c = '}' then s.closeBracket .flowMappingEnd
  else if c = ',' then s.flowEntry
  else if c = '-' && wordEnds then s.blockIndicator .blockEntry .blockSequenceStart
  else if c = '?' && (s.inFlow || wordEnds) then s.blockIndicator .key .blockMappingStart
  else if c = ':' && s.isValueIndicator then s.valueIndicator
  else if c = '*' then s.named .alias
  else if c = '&' then s.named .anchor
  else if c = '!' then s.tagged
  else if c = '|' && !s.inFlow then s.blockScalar false
  else if c = '>' && !s.inFlow then s.blockScalar true
  else if c = '\'' then s.quotedScalar false
  else if c = '"' then s.quotedScalar true
  else if s.startsPlain c then s.plainScalar
  else none

/-- Reads tokens up to the end of the text. -/
def scanFrom : (fuel : Nat) → Scanner → Option Scanner
  | 0, _ => none
  | fuel + 1, s =>
    match (skip s).giveUpStale with
    | none => none
    | some s =>
      let s := s.unwind s.spot.column
      match s.spot.peek? with
      | none => giveUpHere s.unwindAll
      | some c =>
        match s.token c with
        | none => none
        | some s => scanFrom fuel s

end Scanner

/-- The tokens of a text and the version that its directive asks for; none if the text holds
something that is no token or a character that is not allowed. -/
def scan (text : List Char) : Option (List Token × Version) :=
  if !text.all isAllowed then none
  else
    (Scanner.scanFrom (text.length + 2) { spot := { rest := text } }).map fun s ↦
      (s.tokens.reverse, s.version)

end BracketSpacing.Yaml
