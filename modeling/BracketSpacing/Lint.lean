import BracketSpacing.Finding
import BracketSpacing.Language
import BracketSpacing.Log
import BracketSpacing.Rule
import BracketSpacing.Script.Dialect

/-!
Checking one text: its regions in order, each by every rule in order, and the diagnostics by
position.
-/

set_option autoImplicit false
set_option relaxedAutoImplicit false

namespace BracketSpacing

open BracketSpacing.Tree

/-- A text that was read into a tree. -/
structure Source where
  document : Document
  root : Node
  broken : Bool

/-- An extension of no known language. -/
structure UnsupportedExtension where
  ext : String
  deriving DecidableEq, Repr

def UnsupportedExtension.message (e : UnsupportedExtension) : String :=
  s!"Unsupported file extension: {e.ext}"

namespace Source

/-- Reads a text by its extension, trees being made by a reader of scripts. -/
def read (reader : Script.Dialect → List Char → Script.Parsed) (text : List Char) (ext : String) :
    Except UnsupportedExtension Source :=
  match Language.ofExtension? ext with
  | none => .error ⟨ext⟩
  | some l =>
    let parsed := reader (l.dialect ext) text
    .ok ⟨Document.ofText text, parsed.root, parsed.broken⟩

def findings (s : Source) : List Finding := s.document.findings s.root

def regions (s : Source) : List Region := s.document.regions s.root

/-- What is noted while the findings are gone through. -/
def notes (s : Source) : List Log.Record := (s.findings.filterMap Finding.note?).map Log.debug

end Source

/-- The diagnostics of all regions, in the order in which they are found. -/
def checkRegions (rules : List Rule) (regions : List Region) : List Diagnostic :=
  regions.flatMap fun region ↦ rules.flatMap fun rule ↦ rule.check region

namespace Source

/-- The diagnostics of a source by position, under a path. -/
def lint (rules : List Rule) (path : Option Path) (s : Source) : List Diagnostic :=
  (Diagnostic.sorted (checkRegions rules s.regions)).map (Diagnostic.withPath path)

/-- The warning about a broken source, then the notes on its findings. -/
def lintLog (path : Option Path) (s : Source) : List Log.Record :=
  let shown := (path.map Path.render).getD Diagnostic.anonymousPath
  (if s.broken then [Log.warning s!"{shown}: syntax errors, results may be incomplete"] else []) ++
    s.notes

end Source

end BracketSpacing
