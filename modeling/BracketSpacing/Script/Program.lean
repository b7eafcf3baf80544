import BracketSpacing.Script.Statement

/-!
Whole scripts. `parse` reads statement after statement into a tree; where a statement cannot be
read it stops, keeps the statements before and marks the script as broken.
-/

set_option autoImplicit false
set_option relaxedAutoImplicit false

namespace BracketSpacing.Script

open BracketSpacing.Tree

/-- One step towards a goal. -/
def stepTowards : Goal → Read Node
  | .statement => statement
  | .block => block
  | .expression l => expression l
  | .assignment l => assignment l
  | .unary l => unary l
  | .leftHandSide l => leftHandSide l
  | .construction => construction
  | .binding => binding
  | .type => type
  | .element => element

/-- Reaches a goal through at most `depth` goals inside each other. -/
def reachWithin (d : Dialect) : (depth : Nat) → Goal → Place → Option (Node × Place)
  | 0, _, _ => none
  | depth + 1, g, p => stepTowards g { dialect := d, reach := reachWithin d depth } p

/-- The goals inside each other that a text can need: a fixed number for each character. -/
def depthFor (text : List Char) : Nat := 16 * (text.length + 2)

/-- The place behind a first line that names an interpreter. -/
def afterInterpreter (p : Place) : Place :=
  if startsWith p.rest "#!" then
    p.advance (p.rest.takeWhile fun c ↦ c ≠ '\n' && c ≠ '\r').length
  else p

def parse (d : Dialect) (text : List Char) : Parsed :=
  let reached := reachWithin d (depthFor text)
  let context : Context := { dialect := d, reach := reached }
  let start := afterInterpreter { rest := text }
  let (statements, stop) := repeatFrom statement context (text.length + 1) start
  let (last, _) := stop.skipGap
  { root := branch "program" statements, broken := last.broken || !last.rest.isEmpty }

end BracketSpacing.Script
