import BracketSpacing.Token
import BracketSpacing.Path

/-!
Diagnostics, their order by position and their text line.
-/

set_option autoImplicit false
set_option relaxedAutoImplicit false

namespace BracketSpacing

structure Diagnostic where
  rule : String
  message : String
  line : Int
  /-- Counts from zero; shown counting from one. -/
  column : Int
  path : Option Path := none
  deriving DecidableEq, Repr

namespace Diagnostic

def ofPosition (rule : String) (p : Position) (message : String) : Diagnostic :=
  { rule, message, line := p.line, column := p.column }

def withPath (path : Option Path) (d : Diagnostic) : Diagnostic := { d with path }

/-- The order by line, then column. -/
def notAfter (a b : Diagnostic) : Bool :=
  a.line < b.line || (a.line == b.line && a.column ≤ b.column)

/-- By position; diagnostics at one position keep their order. -/
def sorted (ds : List Diagnostic) : List Diagnostic := ds.mergeSort notAfter

/-- The path shown for text that came from no file. -/
def anonymousPath : String := "<text>"

def shownPath (d : Diagnostic) : String :=
  match d.path with
  | some p => p.render
  | none => anonymousPath

end Diagnostic

/-- A diagnostic as a report shows it: the path as text, the column counting from one. -/
structure Diagnostic.Shown where
  path : String
  line : Int
  column : Int
  rule : String
  message : String
  deriving DecidableEq, Repr

def Diagnostic.shown (d : Diagnostic) : Diagnostic.Shown :=
  { path := d.shownPath, line := d.line, column := d.column + 1, rule := d.rule,
    message := d.message }

def Diagnostic.Shown.format (d : Diagnostic.Shown) : String :=
  s!"{d.path}:{d.line}:{d.column}: [{d.rule}] {d.message}"

end BracketSpacing
