import BracketSpacing.CommandLine.Help
import BracketSpacing.ConfigFile
import BracketSpacing.Override
import BracketSpacing.Report
import BracketSpacing.Text.Blank

/-!
Running the program on a command line: what it writes and how it ends. A check reads the
configuration, then the overrides, then makes sure that every path is there, and only then looks at
files; the first of these that fails is told and nothing else is written.
-/

set_option autoImplicit false
set_option relaxedAutoImplicit false

namespace BracketSpacing

open CommandLine

namespace Run

/-- How a run ends. -/
inductive Ending where
  /-- The command was carried out. -/
  | finished (code : Nat)
  /-- The command was refused for a cause that the user is told. -/
  | refused (cause : Failure)
  /-- The command line itself was answered. -/
  | answered (stop : Stop)
  /-- A fault of the program. -/
  | crashed (cause : Failure)

/-- The exit status of a refused command. -/
def refusedCode : Nat := 2

end Run

structure Run where
  ending : Run.Ending
  stdout : String := ""
  stderr : String := ""

namespace Run

/-! ### Checking -/

/-- The paths that lead nowhere, unless it cannot be found out where one leads. -/
def missingPaths (fs : FileSystem) : List Path → Except FileSystem.PathError (List Path)
  | [] => .ok []
  | p :: rest => do
    let found ← fs.exists? p
    let missing ← missingPaths fs rest
    return if found then missing else p :: missing

/-- The report that a check is asked for. -/
def checkReport (c : Catalogue) (readers : Readers) (fs : FileSystem) (s : Settings) :
    SessionM Failure Report := do
  let root : Path := ⟨.single, fs.cwd⟩
  let explicit := (s.config.filter (· ≠ "")).map Path.ofString
  let config ← ConfigFile.load c readers fs root explicit
  let overrides ← SessionM.liftExcept .config (Override.parse s.rules)
  let paths := s.paths.map Path.ofString
  let missing ← SessionM.liftExcept (.fileSystem ∘ .lookup) (missingPaths fs paths)
  if !missing.isEmpty then throw (.pathsNotFound missing)
  Report.ofPaths c readers fs config root overrides paths

def reportText (format : Format) (r : Report) : String :=
  match format with
  | .text => r.toText
  | .json => (r.toJson .camel).render

/-- The line that tells the user of a failure. -/
def failureLine (e : Failure) : String :=
  String.ofList (Text.stripEnd e.message.toList) ++ "\n"

def check (c : Catalogue) (readers : Readers) (fs : FileSystem) (setting : Option String)
    (s : Settings) : Run :=
  let logger := ({} : Log.Logger).setup s.verbose setting
  let (result, session) := (checkReport c readers fs s).run { registry := .builtin }
  let logged := logger.output session.log
  match result with
  | .ok report =>
    { ending := .finished (if report.errorCount = 0 then 0 else 1)
      stdout := reportText s.format report
      stderr := logged }
  | .error e =>
    if e.isUserError then { ending := .refused e, stderr := logged ++ failureLine e }
    else { ending := .crashed e, stderr := logged }

/-! ### Listing rules -/

def ruleJson (i : RuleInfo) : Json :=
  .obj [("id", .str i.id), ("type", .str i.type), ("description", .str i.description),
    ("docsUrl", .str i.docsUrl), ("options", .arr (i.options.map .str))]

/-- What is known of the rules with some ids. -/
def ruleInfos (c : Catalogue) : List String → SessionM Registry.Error (List RuleInfo)
  | [] => return []
  | id :: rest => do
    let d ← Session.definition c id
    let more ← ruleInfos c rest
    return d.info :: more

def listRules (c : Catalogue) : Run :=
  let registry := Registry.builtin
  let (result, _) := (ruleInfos c registry.ids).run { registry }
  match result with
  | .ok infos =>
    { ending := .finished 0, stdout := (Json.obj [("rules", .arr (infos.map ruleJson))]).render }
  | .error e =>
    let cause := Failure.registry e
    if cause.isUserError then { ending := .refused cause, stderr := failureLine cause }
    else { ending := .crashed cause }

end Run

/-- Runs a command line in a file system; `setting` is the environment's wish for debug records. -/
def run (c : Catalogue) (readers : Readers) (fs : FileSystem) (setting : Option String)
    (arguments : List String) : Run :=
  match CommandLine.parse arguments with
  | .error stop => { ending := .answered stop, stdout := stop.stdout, stderr := stop.stderr }
  | .ok ⟨.check, settings⟩ => Run.check c readers fs setting settings
  | .ok ⟨.rules, _⟩ => Run.listRules c

/-- The exit status; a fault of the program counts as one. -/
def Run.exitCode (r : Run) : Nat :=
  match r.ending with
  | .finished code => code
  | .refused _ => Run.refusedCode
  | .answered stop => stop.exitCode
  | .crashed _ => 1

end BracketSpacing
