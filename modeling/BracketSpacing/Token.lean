/-!
Positions and tokens of a source text. Lines count from one, columns from zero, both in characters.
-/

set_option autoImplicit false
set_option relaxedAutoImplicit false

namespace BracketSpacing

structure Position where
  line : Int
  column : Int
  deriving DecidableEq, Repr

/-- A stretch of source text; `start` and `stop` are character offsets of a half-open range. -/
structure Token where
  text : String
  start : Int
  stop : Int
  startLine : Int
  startColumn : Int
  stopLine : Int
  stopColumn : Int
  deriving DecidableEq, Repr

def Token.startPosition (t : Token) : Position := ⟨t.startLine, t.startColumn⟩

/-- Whether there is a gap between two tokens. -/
def Token.spaced (left right : Token) : Bool := left.stop < right.start

/-- Whether two tokens start on one line. -/
def Token.sameLine (left right : Token) : Bool := left.startLine == right.startLine

end BracketSpacing
