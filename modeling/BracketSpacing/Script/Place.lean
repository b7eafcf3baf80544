import BracketSpacing.Text.Utf8
import BracketSpacing.Tree.Node

/-!
Places in a script that is being read: the characters still ahead, and where they stand as bytes
and as a point. Blanks and comments are gaps between tokens; a control character that no token can
hold is passed over too, but marks the script as broken.
-/

set_option autoImplicit false
set_option relaxedAutoImplicit false

namespace BracketSpacing.Script

open Text BracketSpacing.Tree

/-- Byte offset and point of a place. -/
structure Mark where
  byte : Nat := 0
  row : Nat := 0
  column : Nat := 0
  deriving DecidableEq, Repr

namespace Mark

def point (m : Mark) : Point := ⟨m.row, m.column⟩

/-- The mark behind a character; only a newline starts a row. -/
def after (m : Mark) (c : Char) : Mark :=
  let w := Utf8.width c
  if c = '\n' then ⟨m.byte + w, m.row + 1, 0⟩ else ⟨m.byte + w, m.row, m.column + w⟩

def afterAll (m : Mark) (cs : List Char) : Mark := cs.foldl after m

end Mark

structure Place where
  rest : List Char
  mark : Mark := {}
  /-- Whether something that is no script was passed over. -/
  broken : Bool := false

/-- The place behind the next `n` characters. -/
def Place.advance (p : Place) (n : Nat) : Place :=
  { p with rest := p.rest.drop n, mark := p.mark.afterAll (p.rest.take n) }

/-- White space between tokens: Unicode white space, the byte order mark, the zero width space and
the word joiner. -/
def isSpace (c : Char) : Bool :=
  let n := c.toNat
  (0x09 ≤ n && n ≤ 0x0D) || n == 0x20 || n == 0x85 || n == 0xA0 || n == 0x1680 ||
    (0x2000 ≤ n && n ≤ 0x200B) || n == 0x2028 || n == 0x2029 || n == 0x202F || n == 0x205F ||
    n == 0x2060 || n == 0x3000 || n == 0xFEFF

/-- The characters that can end a statement without a semicolon. -/
def isLineEnd (c : Char) : Bool := c = '\n' || c.toNat == 0x2028 || c.toNat == 0x2029

/-- A control character that is no white space. -/
def isStray (c : Char) : Bool := c.toNat < 0x20 && !isSpace c

/-- The kind of gap that is being passed. -/
inductive Gap where
  | blank
  | lineComment
  | blockComment

/-- What passing a gap has seen so far. -/
structure Passed where
  mark : Mark
  newline : Bool := false
  broken : Bool := false

def Passed.over (p : Passed) (c : Char) : Passed :=
  { p with mark := p.mark.after c, newline := p.newline || isLineEnd c }

/-- Passes blanks and comments; gives what is left and what was passed. -/
def passGap : Gap → List Char → Passed → List Char × Passed
  | _, [], p => ([], p)
  | .lineComment, c :: cs, p =>
    if c = '\r' || isLineEnd c then passGap .blank cs (p.over c)
    else passGap .lineComment cs (p.over c)
  | .blockComment, c :: cs, p =>
    match c, cs with
    | '*', '/' :: cs => passGap .blank cs ((p.over '*').over '/')
    | c, cs => passGap .blockComment cs (p.over c)
  | .blank, c :: cs, p =>
    match c, cs with
    | '/', '/' :: cs => passGap .lineComment cs ((p.over '/').over '/')
    | '/', '*' :: cs => passGap .blockComment cs ((p.over '/').over '*')
    | c, cs =>
      if isSpace c then passGap .blank cs (p.over c)
      else if isStray c then passGap .blank cs { p.over c with broken := true }
      else (c :: cs, p)

/-- The place of the next token, and whether a line ends before it. -/
def Place.skipGap (p : Place) : Place × Bool :=
  let (rest, passed) := passGap .blank p.rest { mark := p.mark }
  ({ rest, mark := passed.mark, broken := p.broken || passed.broken }, passed.newline)

/-- The label of the text between two marks. -/
def labelBetween (kind : String) (named : Bool) (start stop : Mark) : Label :=
  { kind, named, start := start.point, stop := stop.point, startByte := start.byte,
    stopByte := stop.byte }

/-- A node around its children, from the start of the first to the end of the last. -/
def branch (kind : String) (children : List Node) : Node :=
  let label : Label :=
    match children.head?, children.getLast? with
    | some first, some last =>
      { kind, named := true, start := first.label.start, stop := last.label.stop,
        startByte := first.label.startByte, stopByte := last.label.stopByte }
    | _, _ => labelBetween kind true {} {}
  .mk label children

/-- The node in a field of its parent. -/
def inField (field : String) : Node → Node
  | .mk label children => .mk { label with field := some field } children

end BracketSpacing.Script
