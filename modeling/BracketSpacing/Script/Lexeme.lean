import BracketSpacing.Script.Place

/-!
The length of a token at the head of a text: words, numbers, punctuators, strings, and the pieces
of templates and regular expressions. A length of zero means that there is no such token.
-/

set_option autoImplicit false
set_option relaxedAutoImplicit false

namespace BracketSpacing.Script

/-! ### Words -/

/-- The ASCII characters, digits apart, that no word holds. -/
def wordBreakers : List Char :=
  [':', ';', '`', '"', '\'', '@', '#', '.', ',', '|', '^', '&', '<', '=', '>', '+', '-', '*', '/',
    '\\', '%', '?', '!', '~', '(', ')', '[', ']', '{', '}']

def isDigit (c : Char) : Bool := '0' ≤ c && c ≤ '9'

def isHexDigit (c : Char) : Bool :=
  isDigit c || ('a' ≤ c && c ≤ 'f') || ('A' ≤ c && c ≤ 'F')

/-- A character that a word may hold after its first one. -/
def isWordPart (c : Char) : Bool :=
  !(c.toNat < 0x20) && !isSpace c && !wordBreakers.contains c

def isWordStart (c : Char) : Bool := isWordPart c && !isDigit c

/-- The length of an escape of a character in a word. -/
def wordEscapeLength : List Char → Nat
  | '\\' :: 'u' :: '{' :: rest =>
    let digits := rest.takeWhile isHexDigit
    if !digits.isEmpty && (rest.drop digits.length).head? = some '}' then digits.length + 4 else 0
  | '\\' :: 'u' :: a :: b :: c :: d :: _ => if [a, b, c, d].all isHexDigit then 6 else 0
  | _ => 0

/-- The length of the rest of a word; `skip` characters of an escape are still to be passed. -/
def wordRest : (skip : Nat) → List Char → Nat
  | _, [] => 0
  | skip + 1, _ :: cs => 1 + wordRest skip cs
  | 0, c :: cs =>
    if isWordPart c then 1 + wordRest 0 cs
    else
      match wordEscapeLength (c :: cs) with
      | 0 => 0
      | n + 1 => 1 + wordRest n cs

def wordLength : List Char → Nat
  | [] => 0
  | c :: cs =>
    if isWordStart c then 1 + wordRest 0 cs
    else
      match wordEscapeLength (c :: cs) with
      | 0 => 0
      | n + 1 => 1 + wordRest n cs

/-! ### Numbers -/

/-- Digits of a base with underscores between them. -/
def digitsLength (isBaseDigit : Char → Bool) (cs : List Char) : Nat :=
  (cs.takeWhile fun c ↦ isBaseDigit c || c = '_').length

/-- An exponent with its sign. -/
def exponentLength : List Char → Nat
  | e :: rest =>
    if e = 'e' || e = 'E' then
      match rest with
      | sign :: rest' =>
        if sign = '+' || sign = '-' then
          match digitsLength isDigit rest' with
          | 0 => 0
          | n => n + 2
        else
          match digitsLength isDigit rest with
          | 0 => 0
          | n => n + 1
      | [] => 0
    else 0
  | [] => 0

/-- One if the text goes on with the mark of a big integer. -/
def bigMarkLength (cs : List Char) : Nat := if cs.head? = some 'n' then 1 else 0

/-- A number without a base mark. -/
def decimalLength (cs : List Char) : Nat :=
  let whole := digitsLength isDigit cs
  let afterWhole := cs.drop whole
  let fraction :=
    match afterWhole with
    | '.' :: rest =>
      let digits := digitsLength isDigit rest
      if whole = 0 && digits = 0 then 0 else digits + 1
    | _ => 0
  if whole = 0 && fraction = 0 then 0
  else
    let mantissa := whole + fraction
    let exponent := exponentLength (cs.drop mantissa)
    mantissa + exponent + bigMarkLength (cs.drop (mantissa + exponent))

def basedLength (isBaseDigit : Char → Bool) (rest : List Char) : Nat :=
  match digitsLength isBaseDigit rest with
  | 0 => 0
  | n => n + 2 + bigMarkLength (rest.drop n)

def numberLength (cs : List Char) : Nat :=
  match cs with
  | '0' :: b :: rest =>
    if b = 'x' || b = 'X' then basedLength isHexDigit rest
    else if b = 'o' || b = 'O' then basedLength (fun c ↦ '0' ≤ c && c ≤ '7') rest
    else if b = 'b' || b = 'B' then basedLength (fun c ↦ c = '0' || c = '1') rest
    else decimalLength cs
  | _ => decimalLength cs

/-! ### Punctuators -/

/-- Every punctuator, longer ones before their beginnings. -/
def punctuators : List String :=
  [">>>=", "...", "===", "!==", "**=", "<<=", ">>=", ">>>", "&&=", "||=", "??=", "=>", "==", "!=",
    "<=", ">=", "&&", "||", "??", "?.", "++", "--", "+=", "-=", "*=", "/=", "%=", "&=", "|=", "^=",
    "<<", ">>", "**", "\x7b", "\x7d", "(", ")", "[", "]", ";", ",", "<", ">", "+", "-", "*", "/",
    "%", "&", "|", "^", "!", "~", "?", ":", "=", ".", "@", "#"]

def startsWith (cs : List Char) (s : String) : Bool := s.toList.isPrefixOf cs

/-- The longest punctuator at the head; a question mark before `.5` stands alone, and the dot of a
number is none. -/
def punctuator? (cs : List Char) : Option String :=
  match cs with
  | '.' :: d :: _ => if isDigit d then none else punctuators.find? (startsWith cs)
  | '?' :: '.' :: d :: _ =>
    if isDigit d then some "?" else punctuators.find? (startsWith cs)
  | _ => punctuators.find? (startsWith cs)

/-! ### Strings, templates, regular expressions -/

/-- The length of a string's content and closing quote; none if a line ends first. -/
def stringRest (quote : Char) (multiline : Bool) : (escaped : Bool) → List Char → Option Nat
  | _, [] => none
  | true, _ :: cs => (stringRest quote multiline false cs).map (· + 1)
  | false, c :: cs =>
    if c = quote then some 1
    else if c = '\n' && !multiline then none
    else if c = '\\' && !multiline then (stringRest quote multiline true cs).map (· + 1)
    else (stringRest quote multiline false cs).map (· + 1)

/-- How a piece of a template ends. -/
inductive TemplateEnd where
  | closed
  | substitution
  deriving DecidableEq

/-- The characters of a template up to its end or its next substitution. -/
def templateChunk : (escaped : Bool) → List Char → Option (Nat × TemplateEnd)
  | _, [] => none
  | true, _ :: cs => (templateChunk false cs).map fun r ↦ (r.1 + 1, r.2)
  | false, c :: cs =>
    match c, cs with
    | '`', _ => some (0, .closed)
    | '$', '{' :: _ => some (0, .substitution)
    | c, cs => (templateChunk (c = '\\') cs).map fun r ↦ (r.1 + 1, r.2)

/-- The length of a regular expression's pattern, the closing slash not counted. -/
def patternLength : (escaped inClass : Bool) → List Char → Option Nat
  | _, _, [] => none
  | escaped, inClass, c :: cs =>
    if isLineEnd c then none
    else if escaped then (patternLength false inClass cs).map (· + 1)
    else if c = '/' && !inClass then some 0
    else
      let inClass := if c = '[' then true else if c = ']' then false else inClass
      (patternLength (c = '\\') inClass cs).map (· + 1)

def flagsLength (cs : List Char) : Nat :=
  (cs.takeWhile fun c ↦ ('a' ≤ c && c ≤ 'z') || ('A' ≤ c && c ≤ 'Z')).length

end BracketSpacing.Script
