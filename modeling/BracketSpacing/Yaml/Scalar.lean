import BracketSpacing.Json
import BracketSpacing.Yaml.Line

/-!
The text of YAML scalars: quoted, plain and block ones. Each reader gives the characters of the
scalar and what is left behind it; lines are folded as the style says.
-/

set_option autoImplicit false
set_option relaxedAutoImplicit false

namespace BracketSpacing.Yaml

/-! ### Quoted scalars -/

/-- The line ends behind a first one, with the blanks around them dropped; fails on a document mark.
`lineStart` tells that a line starts here. -/
def quotedBreaks : (lineStart : Bool) → List Char → Option (List Char × List Char)
  | _, [] => some ([], [])
  | lineStart, c :: rest =>
    if lineStart && atDocumentMark (c :: rest) then none
    else if isBlank c then quotedBreaks false rest
    else
      match breakOf? c with
      | some b => (quotedBreaks true rest).map fun r ↦ (b :: r.1, r.2)
      | none => some ([], c :: rest)

/-- The character that a one-letter escape stands for. -/
def escape? (c : Char) : Option Char :=
  match c with
  | '0' => some (Char.ofNat 0)
  | 'a' => some (Char.ofNat 7)
  | 'b' => some (Char.ofNat 8)
  | 't' => some '\t'
  | '\t' => some '\t'
  | 'n' => some '\n'
  | 'v' => some (Char.ofNat 11)
  | 'f' => some (Char.ofNat 12)
  | 'r' => some '\r'
  | 'e' => some (Char.ofNat 27)
  | ' ' => some ' '
  | '"' => some '"'
  | '/' => some '/'
  | '\\' => some '\\'
  | 'N' => some (Char.ofNat 0x85)
  | '_' => some (Char.ofNat 0xA0)
  | 'L' => some (Char.ofNat 0x2028)
  | 'P' => some (Char.ofNat 0x2029)
  | _ => none

/-- The number of digits behind an escape by number. -/
def escapeDigits? (c : Char) : Option Nat :=
  match c with
  | 'x' => some 2
  | 'u' => some 4
  | 'U' => some 8
  | _ => none

/-- The character with a hexadecimal number of `count` digits. -/
def escapedByNumber? (count : Nat) (cs : List Char) : Option Char :=
  let digits := (cs.take count).filterMap Json.hexValue?
  let n := digits.foldl (fun n d ↦ n * 16 + d) 0
  if digits.length = count && n.isValidChar then some (Char.ofNat n) else none

/-- Reads a quoted scalar behind its opening quote. -/
def quotedFrom (double : Bool) : (fuel : Nat) → List Char → Option (List Char × List Char)
  | 0, _ => none
  | _, [] => none
  | fuel + 1, c :: rest =>
    let put (text : List Char) (rest : List Char) : Option (List Char × List Char) :=
      (quotedFrom double fuel rest).map fun r ↦ (text ++ r.1, r.2)
    if isBlank c || isBreak c then
      let blanks := (c :: rest).takeWhile isBlank
      match (c :: rest).dropWhile isBlank with
      | [] => none
      | d :: rest =>
        match breakOf? d with
        | none => put blanks (d :: rest)
        | some b =>
          match quotedBreaks true rest with
          | none => none
          | some (more, rest) => put (folded b more) rest
    else if double then
      if c = '"' then some ([], rest)
      else if c = '\\' then
        match rest with
        | [] => none
        | e :: rest =>
          match escape? e, escapeDigits? e, breakOf? e with
          | some d, _, _ => put [d] rest
          | none, some count, _ =>
            match escapedByNumber? count rest with
            | none => none
            | some d => put [d] (rest.drop count)
          | none, none, some _ =>
            match quotedBreaks true rest with
            | none => none
            | some (more, rest) => put more rest
          | none, none, none => none
      else put [c] rest
    else if c = '\'' then
      match rest with
      | '\'' :: rest => put ['\''] rest
      | rest => some ([], rest)
    else put [c] rest

def quoted (double : Bool) (cs : List Char) : Option (List Char × List Char) :=
  quotedFrom double (cs.length + 1) cs

/-! ### Plain scalars -/

/-- Where a plain scalar stands. -/
structure PlainContext where
  /-- Inside brackets or braces. -/
  flow : Bool
  /-- Whether a question mark ends a word inside brackets, as it did in YAML 1.1. -/
  questionEnds : Bool
  /-- The least column that a further line may start at, outside brackets. -/
  indent : Nat

/-- A word of a plain scalar: it ends at a blank, at a colon before one, and inside brackets at an
indicator. -/
def plainWord (ctx : PlainContext) : List Char → List Char × List Char
  | [] => ([], [])
  | c :: rest =>
    let stops :=
      if c = ':' then endsWord rest.head?
      else if c = '?' then ctx.flow && ctx.questionEnds
      else endsWord (some c) || (ctx.flow && (c = ',' || c = '[' || c = ']' || c = '{' || c = '}'))
    if stops then ([], c :: rest)
    else
      let more := plainWord ctx rest
      (c :: more.1, more.2)

/-- The line ends and blanks behind a first line end: the further line ends, the column reached and
what is left; none at a document mark. -/
def plainBreaks : (column : Nat) → List Char → Option (List Char × Nat × List Char)
  | column, [] => some ([], column, [])
  | column, c :: rest =>
    if column = 0 && atDocumentMark (c :: rest) then none
    else if c = ' ' then plainBreaks (column + 1) rest
    else
      match breakOf? c with
      | some b => (plainBreaks 0 rest).map fun r ↦ (b :: r.1, r.2)
      | none => some ([], column, c :: rest)

/-- What is left when blanks and line ends are passed up to a document mark. -/
def upToDocumentMark : (column : Nat) → List Char → List Char
  | _, [] => []
  | column, c :: rest =>
    if column = 0 && atDocumentMark (c :: rest) then c :: rest
    else if c = ' ' then upToDocumentMark (column + 1) rest
    else if isBreak c then upToDocumentMark 0 rest
    else c :: rest

structure Plain where
  text : List Char
  rest : List Char
  /-- Whether a line ended behind the last word. -/
  lineEnded : Bool

/-- Reads a plain scalar word by word. -/
def plainFrom (ctx : PlainContext) : (fuel : Nat) → List Char → Plain
  | 0, cs => ⟨[], cs, false⟩
  | fuel + 1, cs =>
    let (word, rest) := plainWord ctx cs
    let blanks := rest.takeWhile (· = ' ')
    let after := rest.dropWhile (· = ' ')
    -- Goes on with a further word, or ends with the gap passed.
    let goOn (gap : List Char) (rest : List Char) (lineEnded : Bool) : Plain :=
      let more := plainFrom ctx fuel rest
      if rest.head? = some '#' || more.text.isEmpty then ⟨word, rest, lineEnded⟩
      else ⟨word ++ gap ++ more.text, more.rest, more.lineEnded⟩
    if word.isEmpty then ⟨[], cs, false⟩
    else
      match after with
      | [] => ⟨word, [], false⟩
      | c :: next =>
        match breakOf? c with
        | none => if blanks.isEmpty then ⟨word, after, false⟩ else goOn blanks after false
        | some b =>
          match plainBreaks 0 next with
          | none => ⟨word, upToDocumentMark 0 next, true⟩
          | some (more, column, rest) =>
            if !ctx.flow && column < ctx.indent then ⟨word, rest, true⟩
            else goOn (folded b more) rest true

def plain (ctx : PlainContext) (cs : List Char) : Plain := plainFrom ctx (cs.length + 1) cs

/-! ### Block scalars -/

/-- What becomes of the line ends at the end of a block scalar. -/
inductive Chomping where
  | strip
  | clip
  | keep
  deriving DecidableEq, Repr

/-- The line that starts a block scalar, behind its indicator. -/
structure BlockHeader where
  chomping : Chomping := .clip
  /-- The indentation beyond the surrounding one, if it is given. -/
  increment : Option Nat := none
  deriving DecidableEq, Repr

def chomping? (c : Char) : Option Chomping :=
  if c = '+' then some .keep else if c = '-' then some .strip else none

/-- A digit from one to nine. -/
def increment? (c : Char) : Option Nat :=
  if '1' ≤ c ∧ c ≤ '9' then some (c.toNat - 48) else none

/-- The indicators of a block scalar, in either order. -/
def blockIndicators : List Char → BlockHeader × List Char
  | [] => ({}, [])
  | c :: rest =>
    match chomping? c, increment? c with
    | some chomping, _ =>
      match rest.head?.bind increment? with
      | some n => ({ chomping, increment := some n }, rest.drop 1)
      | none => ({ chomping }, rest)
    | none, some n =>
      match rest.head?.bind chomping? with
      | some chomping => ({ chomping, increment := some n }, rest.drop 1)
      | none => ({ increment := some n }, rest)
    | none, none => ({}, c :: rest)

/-- The rest of a line that holds nothing but a comment; gives the lines behind it. -/
def emptyLineRest (cs : List Char) : Option (List Char) :=
  let cs := cs.dropWhile (· = ' ')
  let cs := if cs.head? = some '#' then cs.dropWhile fun c ↦ !endsLine (some c) else cs
  if endsLine cs.head? then some (cs.drop 1) else none

def blockHeader (cs : List Char) : Option (BlockHeader × List Char) :=
  let (header, rest) := blockIndicators cs
  match rest.head? with
  | some c =>
    if c = ' ' || isBreak c then (emptyLineRest rest).map fun rest ↦ (header, rest) else none
  | none => some (header, [])

/-- Blank lines and the blanks of the first line that is none. -/
structure LeadingBlank where
  breaks : List Char := []
  /-- The column reached. -/
  column : Nat := 0
  /-- The greatest column of all the lines. -/
  widest : Nat := 0
  /-- The column at which the first blank line ends. -/
  firstEnd : Option Nat := none
  rest : List Char

def leadingBlank (column widest : Nat) (firstEnd : Option Nat) : List Char → LeadingBlank
  | [] => { column, widest, firstEnd, rest := [] }
  | c :: rest =>
    if c = ' ' then leadingBlank (column + 1) (max widest (column + 1)) firstEnd rest
    else
      match breakOf? c with
      | some b =>
        let more := leadingBlank 0 widest (firstEnd.or (some column)) rest
        { more with breaks := b :: more.breaks }
      | none => { column, widest, firstEnd, rest := c :: rest }

/-- Line ends up to a line of some indentation: the line ends, the column reached, what is left. -/
def blockBreaks (indent : Nat) : (column : Nat) → List Char → List Char × Nat × List Char
  | column, [] => ([], column, [])
  | column, c :: rest =>
    if c = ' ' && column < indent then blockBreaks indent (column + 1) rest
    else
      match breakOf? c with
      | some b =>
        let more := blockBreaks indent 0 rest
        (b :: more.1, more.2)
      | none => ([], column, c :: rest)

/-- The lines of a block scalar. -/
structure BlockLines where
  text : List Char := []
  /-- The line end of the last line. -/
  lineEnd : List Char := []
  /-- The line ends of the blank lines behind it. -/
  trailing : List Char := []
  rest : List Char

/-- Reads the lines of a block scalar from `column` on, `breaks` being the line ends before it. A
scalar without indentation ends at a document mark. -/
def blockLines (fold : Bool) (indent : Nat) (atMargin : Bool) :
    (fuel : Nat) → (breaks : List Char) → (column : Nat) → List Char → BlockLines
  | 0, _, _, cs => { rest := cs }
  | fuel + 1, breaks, column, cs =>
    if column ≠ indent || cs.isEmpty then { trailing := breaks, rest := cs }
    else
      let line := cs.takeWhile fun c ↦ !endsLine (some c)
      let behind := cs.dropWhile fun c ↦ !endsLine (some c)
      let lineEnd := (behind.head?.bind breakOf?).toList
      let (next, nextColumn, rest) := blockBreaks indent 0 (behind.drop 1)
      let done := behind.isEmpty || rest.isEmpty || nextColumn ≠ indent ||
        (atMargin && nextColumn = 0 && atDocumentMark rest)
      if done then { text := breaks ++ line, lineEnd, trailing := next, rest }
      else
        let more := blockLines fold indent atMargin fuel next nextColumn rest
        let flush := !(cs.head?.any isBlank) && !(rest.head?.any isBlank)
        let joint :=
          if fold && lineEnd == ['\n'] && flush then (if next.isEmpty then [' '] else [])
          else lineEnd
        { more with text := breaks ++ line ++ joint ++ more.text }

/-- Reads a block scalar behind its indicator; `margin` is the least indentation. -/
def block (fold : Bool) (margin : Nat) (cs : List Char) : Option (List Char × List Char) :=
  match blockHeader cs with
  | none => none
  | some (header, cs) =>
    let start : Option (Nat × List Char × Nat × List Char) :=
      match header.increment with
      | some n =>
        let indent := max margin 1 + n - 1
        some (indent, blockBreaks indent 0 cs)
      | none =>
        let lead := leadingBlank 0 0 none cs
        if lead.firstEnd.any fun first ↦ 0 < first && first < lead.widest then none
        else some (max margin lead.widest, lead.breaks, lead.column, lead.rest)
    match start with
    | none => none
    | some (indent, breaks, column, rest) =>
      let lines := blockLines fold indent (margin == 0) (cs.length + 1) breaks column rest
      let tail :=
        match header.chomping with
        | .strip => []
        | .clip => lines.lineEnd
        | .keep => lines.lineEnd ++ lines.trailing
      some (lines.text ++ tail, lines.rest)

end BracketSpacing.Yaml
