import BracketSpacing.Failure
import BracketSpacing.Json
import BracketSpacing.Readers
import BracketSpacing.Version

/-!
The report on some files: how many were checked, which could not be read, and the diagnostics in
the order of the files.
-/

set_option autoImplicit false
set_option relaxedAutoImplicit false

namespace BracketSpacing

structure Report where
  files : Nat := 0
  skipped : List Path := []
  diagnostics : List Diagnostic.Shown := []
  errorCount : Nat := 0
  deriving DecidableEq, Repr

namespace Report

/-! ### Building -/

/-- Adds a file: checked, or skipped with a warning if it cannot be read. -/
def addFile (readers : Readers) (fs : FileSystem) (rules : List Rule) (report : Report)
    (path : Path) : SessionM Failure Report := do
  match fs.readText path with
  | .error e =>
    Session.record (Log.warning s!"skipping {path.render}: {e.message}")
    return { report with skipped := report.skipped ++ [path] }
  | .ok text =>
    let source ← SessionM.liftExcept .extension (Source.read readers.script text path.suffix)
    Session.recordAll (source.lintLog path)
    let found := (source.lint rules path).map Diagnostic.shown
    return { report with
      files := report.files + 1
      diagnostics := report.diagnostics ++ found }

/-- Adds files from left to right. -/
def addFiles (readers : Readers) (fs : FileSystem) (rules : List Rule) :
    Report → List Path → SessionM Failure Report
  | report, [] => return report
  | report, path :: rest => do
    let report ← addFile readers fs rules report path
    addFiles readers fs rules report rest

/-- The report on the files that paths lead to, under a configuration and overrides. The errors are
counted when all files are added. -/
def ofPaths (c : Catalogue) (readers : Readers) (fs : FileSystem) (config : Config) (root : Path)
    (overrides : List (String × String)) (paths : List Path) : SessionM Failure Report := do
  let rules ← (Ruleset.build c config overrides).adapt .registry
  let ignore ← SessionM.liftExcept .pattern (Ignore.build readers.patterns config.ignore)
  let found := fs.discover root Language.supportedExtensions ignore paths
  let report ← addFiles readers fs rules {} found.files
  match found.fault with
  | some e => throw (.fileSystem e)
  | none => return { report with errorCount := report.diagnostics.length }

/-! ### Writing -/

/-- The version of the report's shape. -/
def protocolVersion : Nat := 1

/-- How keys of two words are written. -/
inductive KeyStyle where
  | camel
  | snake
  deriving DecidableEq, Repr

def KeyStyle.key (style : KeyStyle) (camel snake : String) : String :=
  match style with
  | .camel => camel
  | .snake => snake

def diagnosticJson (d : Diagnostic.Shown) : Json :=
  .obj [("path", .str d.path), ("line", .int d.line), ("column", .int d.column),
    ("rule", .str d.rule), ("message", .str d.message)]

def toJson (style : KeyStyle) (r : Report) : Json :=
  .obj [("protocol", .int protocolVersion),
    (style.key "toolVersion" "tool_version", .str toolVersion),
    ("files", .int r.files),
    ("skipped", .arr (r.skipped.map fun p ↦ .str p.render)),
    ("diagnostics", .arr (r.diagnostics.map diagnosticJson)),
    (style.key "errorCount" "error_count", .int r.errorCount)]

/-- One line for each diagnostic, and the totals if there are any. -/
def toText (r : Report) : String :=
  let lines := String.join (r.diagnostics.map fun d ↦ d.format ++ "\n")
  if r.errorCount = 0 then lines
  else lines ++ s!"\n{r.errorCount} problem(s) in {r.files} file(s)\n"

end Report

end BracketSpacing
