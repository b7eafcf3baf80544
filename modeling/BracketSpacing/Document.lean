import BracketSpacing.Text.Utf8
import BracketSpacing.Token
import BracketSpacing.Tree.Node

/-!
A text with the tables that turn byte places of a tree into characters: its bytes, its lines as
bytes and the offset of each line. A byte column inside a character counts as the column before it.
-/

set_option autoImplicit false
set_option relaxedAutoImplicit false

namespace BracketSpacing

open Text BracketSpacing.Tree

structure Document where
  text : List Char
  bytes : List UInt8
  byteLines : List (List UInt8)
  /-- The character offset of each line. -/
  lineStarts : List Nat

namespace Document

/-- The offsets right after each newline, the text starting at `offset`. -/
def newlineEnds (offset : Nat) : List Char → List Nat
  | [] => []
  | c :: rest =>
    if c = '\n' then (offset + 1) :: newlineEnds (offset + 1) rest
    else newlineEnds (offset + 1) rest

def ofText (text : List Char) : Document :=
  let bytes := Utf8.encode text
  { text, bytes, byteLines := bytes.splitOn 0x0A, lineStarts := 0 :: newlineEnds 0 text }

/-- The text of a byte range; cut characters leave a mark. -/
def slice (d : Document) (startByte stopByte : Nat) : List Char :=
  Utf8.decodeReplacing ((d.bytes.take stopByte).drop startByte)

/-- The character column of a point; zero beyond the last line. -/
def charColumn (d : Document) (p : Point) : Nat :=
  match d.byteLines[p.row]? with
  | some line => (Utf8.decodeDropping (line.take p.column)).length
  | none => 0

/-- The character offset of a point; the end of the text beyond the last line. -/
def offset (d : Document) (p : Point) : Nat :=
  match d.lineStarts[p.row]? with
  | some start => start + d.charColumn p
  | none => d.text.length

def position (d : Document) (p : Point) : Position := ⟨p.row + 1, d.charColumn p⟩

def nodeStart (d : Document) (l : Label) : Position := d.position l.start

/-- The token a node covers. -/
def token (d : Document) (n : Node) : Token :=
  let l := n.label
  { text := String.ofList (d.slice l.startByte l.stopByte)
    start := d.offset l.start
    stop := d.offset l.stop
    startLine := l.start.row + 1
    startColumn := d.charColumn l.start
    stopLine := l.stop.row + 1
    stopColumn := d.charColumn l.stop }

end Document

end BracketSpacing
