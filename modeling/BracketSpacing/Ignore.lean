import BracketSpacing.Text.Blank

/-!
Lines of ignore patterns. The lines that hold a pattern go to a reader of patterns, which gives a
test for ignored paths unless it cannot read them.
-/

set_option autoImplicit false
set_option relaxedAutoImplicit false

namespace BracketSpacing.Ignore

open Text

/-- Why patterns cannot be read. -/
structure Error where
  message : String
  deriving DecidableEq, Repr

/-- The lines that hold a pattern, without blanks around it. -/
def patternLines (lines : List String) : List String :=
  (lines.map fun l ↦ String.ofList (strip l.toList)).filter fun l ↦
    l ≠ "" && l.toList.head? ≠ some '#'

/-- The test for ignored paths that some lines stand for; none if no line holds a pattern. -/
def build (reader : List String → Except Error (String → Bool)) (lines : List String) :
    Except Error (Option (String → Bool)) :=
  match patternLines lines with
  | [] => .ok none
  | held => (reader held).map some

end BracketSpacing.Ignore
