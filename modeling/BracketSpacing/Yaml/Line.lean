/-!
Lines of a YAML text. The text is taken with its line ends made newlines, so a carriage return does
not occur; next line, line separator and paragraph separator end a line too. The end of the text is
shown as no character.
-/

set_option autoImplicit false
set_option relaxedAutoImplicit false

namespace BracketSpacing.Yaml

/-- The character a line end stands for: a newline, but the two separators stand for themselves. -/
def breakOf? (c : Char) : Option Char :=
  if c = '\n' || c.toNat = 0x85 then some '\n'
  else if c.toNat = 0x2028 || c.toNat = 0x2029 then some c
  else none

def isBreak (c : Char) : Bool := (breakOf? c).isSome

def isBlank (c : Char) : Bool := c = ' ' || c = '\t'

/-- Whether a line ends here. -/
def endsLine : Option Char → Bool
  | none => true
  | some c => c = '\n' || c.toNat = 0x85

/-- Whether a word ends here. -/
def endsWord : Option Char → Bool
  | none => true
  | some c => isBlank c || endsLine (some c)

/-- Whether a line that starts here is a document mark: three dashes or three dots. -/
def atDocumentMark : List Char → Bool
  | a :: b :: c :: rest => (a = '-' || a = '.') && b = a && c = a && endsWord rest.head?
  | _ => false

/-- A folded line end: the first one counts as a blank unless others follow it. -/
def folded (first : Char) (more : List Char) : List Char :=
  if first ≠ '\n' then first :: more
  else if more.isEmpty then [' ']
  else more

/-- A character that a YAML text may hold. -/
def isAllowed (c : Char) : Bool :=
  let n := c.toNat
  n == 0x09 || n == 0x0A || n == 0x0D || (0x20 ≤ n && n ≤ 0x7E) || n == 0x85 ||
    (0xA0 ≤ n && n ≤ 0xD7FF) || (0xE000 ≤ n && n ≤ 0xFFFD) || 0x10000 ≤ n

end BracketSpacing.Yaml
