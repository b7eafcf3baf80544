import BracketSpacing.Script.Dialect
import BracketSpacing.Script.Lexeme

/-!
Reading a script token by token. A reading step either fails or gives a result and the place behind
it, so that trying another step after a failure starts from the old place. Steps that lead back into
the grammar go through the goal they have to reach.
-/

set_option autoImplicit false
set_option relaxedAutoImplicit false

namespace BracketSpacing.Script

open BracketSpacing.Tree

/-- What an expression must leave to its surroundings. -/
structure Limits where
  /-- `in` is no operator here. -/
  noIn : Bool := false
  /-- A colon after a closing parenthesis starts no result type here. -/
  noResultType : Bool := false

/-- The parts of the grammar that contain each other. -/
inductive Goal where
  | statement
  | block
  /-- Expressions separated by commas. -/
  | expression (l : Limits)
  | assignment (l : Limits)
  | unary (l : Limits)
  | leftHandSide (l : Limits)
  /-- An expression that starts with `new`. -/
  | construction
  /-- A name or a pattern that takes a value apart. -/
  | binding
  | type
  | element

structure Context where
  dialect : Dialect
  reach : Goal → Place → Option (Node × Place)

abbrev Read := ReaderT Context (StateT Place Option)

/-! ### Steps -/

def reach (g : Goal) : Read Node := fun c p ↦ c.reach g p

def fail {α : Type} : Read α := fun _ _ ↦ none

def require (condition : Bool) : Read PUnit := if condition then pure ⟨⟩ else fail

/-- Reads without going on. -/
def ahead {α : Type} (r : Read α) : Read α := fun c p ↦ (r c p).map fun found ↦ (found.1, p)

/-- Whether a step would succeed here. -/
def looksAt {α : Type} (r : Read α) : Read Bool := fun c p ↦ some ((r c p).isSome, p)

def optional? {α : Type} (r : Read α) : Read (Option α) := fun c p ↦
  match r c p with
  | some (a, p') => some (some a, p')
  | none => some (none, p)

/-- The nodes of a step that may fail. -/
def optionalNodes (r : Read (List Node)) : Read (List Node) := fun c p ↦
  match r c p with
  | some found => some found
  | none => some ([], p)

/-- Repeats a step as long as it succeeds and gets on. -/
def repeatFrom {α : Type} (r : Read α) (c : Context) : (fuel : Nat) → Place → List α × Place
  | 0, p => ([], p)
  | fuel + 1, p =>
    match r c p with
    | none => ([], p)
    | some (a, p') =>
      if p.mark.byte < p'.mark.byte then
        let (as, last) := repeatFrom r c fuel p'
        (a :: as, last)
      else ([], p)

def many {α : Type} (r : Read α) : Read (List α) := fun c p ↦
  some (repeatFrom r c p.rest.length p)

/-- Grows a node by a step as long as it succeeds and gets on. -/
def growFrom (r : Node → Read Node) (c : Context) : (fuel : Nat) → Node → Place → Node × Place
  | 0, n, p => (n, p)
  | fuel + 1, n, p =>
    match r n c p with
    | none => (n, p)
    | some (n', p') => if p.mark.byte < p'.mark.byte then growFrom r c fuel n' p' else (n, p)

def grow (r : Node → Read Node) (n : Node) : Read Node := fun c p ↦
  some (growFrom r c p.rest.length n p)

def dialect : Read Dialect := do return (← read).dialect

/-- Succeeds only in scripts with types. -/
def inTypes : Read PUnit := do require (← dialect).types

/-! ### Tokens -/

/-- Goes to the next token; tells whether a line ends before it. -/
def skipGap : Read Bool := fun _ p ↦
  let (p', newline) := p.skipGap
  some (newline, p')

/-- Whether a line ends before the next token. -/
def newlineAhead : Read Bool := ahead skipGap

def sameLine : Read PUnit := do require !(← newlineAhead)

/-- The characters from the next token on. -/
def upcoming : Read (List Char) := ahead do
  let _ ← skipGap
  return (← get).rest

/-- Takes the next `n` characters, right here, as a leaf. -/
def takeHere (kind : String) (named : Bool) (n : Nat) : Read Node := fun _ p ↦
  let p' := p.advance n
  some (.mk (labelBetween kind named p.mark p'.mark) [], p')

/-- Takes `n > 0` characters of the next token as a leaf. -/
def takeToken (kind : String) (named : Bool) (n : Nat) : Read Node := do
  require (n ≠ 0)
  let _ ← skipGap
  takeHere kind named n

/-- A punctuator, as a whole token. -/
def punct (s : String) : Read Node := do
  require (punctuator? (← upcoming) == some s)
  takeToken s false s.length

/-- One of several punctuators. -/
def punctOf (choices : List String) : Read Node := do
  match punctuator? (← upcoming) with
  | some s =>
    require (choices.contains s)
    takeToken s false s.length
  | none => fail

/-- A punctuator at the head of the next token, whatever the token goes on with. -/
def punctHead (s : String) : Read Node := do
  require (startsWith (← upcoming) s)
  takeToken s false s.length

/-- The word ahead; empty if there is none. -/
def wordAhead : Read String := do
  let cs ← upcoming
  return String.ofList (cs.take (wordLength cs))

/-- A given word. -/
def word (s : String) : Read Node := do
  require ((← wordAhead) == s)
  takeToken s true s.length

def wordOf (choices : List String) : Read Node := do
  let w ← wordAhead
  require (choices.contains w)
  takeToken w true w.length

/-- Any word, reserved or not. -/
def anyWord (kind : String) : Read Node := do
  takeToken kind true (wordLength (← upcoming))

/-- Words that are no names of their own. -/
def reservedWords : List String :=
  ["break", "case", "catch", "class", "const", "continue", "debugger", "default", "delete", "do",
    "else", "export", "extends", "finally", "for", "function", "if", "import", "in", "instanceof",
    "new", "return", "super", "switch", "this", "throw", "try", "typeof", "var", "void", "while",
    "with", "null", "true", "false", "yield", "await"]

def identifier : Read Node := do
  require !(reservedWords.contains (← wordAhead))
  anyWord "identifier"

def number : Read Node := do takeToken "number" true (numberLength (← upcoming))

/-- A name behind a hash sign. -/
def privateName : Read Node := do
  match ← upcoming with
  | '#' :: rest =>
    let n := wordLength rest
    require (n ≠ 0)
    takeToken "private_property_identifier" true (n + 1)
  | _ => fail

/-- A string: quote, content, quote. -/
def stringWith (multiline : Bool) : Read Node := do
  match ← upcoming with
  | quote :: rest =>
    require (quote = '"' || quote = '\'')
    match stringRest quote multiline false rest with
    | none => fail
    | some n =>
      let mark := String.ofList [quote]
      let opening ← takeToken mark false 1
      let content ← if n = 1 then pure [] else do
        let fragment ← takeHere "string_fragment" true (n - 1)
        pure [fragment]
      let closing ← takeHere mark false 1
      return branch "string" ([opening] ++ content ++ [closing])
  | [] => fail

def string : Read Node := stringWith false

/-- A regular expression: slash, pattern, slash, flags. -/
def regex : Read Node := do
  match ← upcoming with
  | '/' :: rest =>
    match patternLength false false rest with
    | none => fail
    | some n =>
      require (n ≠ 0)
      let opening ← takeToken "/" false 1
      let pattern ← takeHere "regex_pattern" true n
      let closing ← takeHere "/" false 1
      let flags := flagsLength (← get).rest
      let tail ← if flags = 0 then pure [] else do
        let f ← takeHere "regex_flags" true flags
        pure [f]
      return branch "regex" ([opening, pattern, closing] ++ tail)
  | _ => fail

/-- Template text up to the next substitution or the end. -/
def templateText : Read (List Node × TemplateEnd) := do
  match templateChunk false (← get).rest with
  | none => fail
  | some (0, stop) => return ([], stop)
  | some (n, stop) =>
    let fragment ← takeHere "string_fragment" true n
    return ([fragment], stop)

/-- A substitution of a template; `inner` reads what stands in it. -/
def templateSubstitution (inner : Read Node) : Read (List Node) := do
  let (text, stop) ← templateText
  require (stop = .substitution)
  let opening ← takeHere "$\x7b" false 2
  let content ← inner
  let closing ← punct "\x7d"
  return text ++ [branch "template_substitution" [opening, content, closing]]

/-- A template; `inner` reads what stands in its substitutions. -/
def template (kind : String) (inner : Read Node) : Read Node := do
  let opening ← punctHead "`"
  let parts ← many (templateSubstitution inner)
  let (text, stop) ← templateText
  require (stop = .closed)
  let closing ← takeHere "`" false 1
  return branch kind ([opening] ++ parts.flatten ++ text ++ [closing])

/-- The end of a statement: a semicolon, or the end of a line, of a block or of the script. -/
def semicolon : Read (List Node) := do
  match ← optional? (punct ";") with
  | some s => return [s]
  | none =>
    let cs ← upcoming
    require ((← newlineAhead) || cs.isEmpty || cs.head? = some '}')
    return []

/-- Items separated by commas; a comma may follow the last one. -/
def commaSeparated (item : Read (List Node)) : Read (List Node) := do
  match ← optional? item with
  | none => return []
  | some first =>
    let rest ← many do
      let comma ← punct ","
      let next ← item
      return comma :: next
    let last ← optional? (punct ",")
    return first ++ rest.flatten ++ last.toList

end BracketSpacing.Script
