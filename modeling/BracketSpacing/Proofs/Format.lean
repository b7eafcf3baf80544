import BracketSpacing.Proofs.Json.Reading
import BracketSpacing.Proofs.Run

/-!
The two formats of a report. A check asks for its report before it looks at the format, so two
checks that differ in the format alone end alike (`check_with_formats`). What is written as JSON is
read back as a document and then member by member (`ReadAs`, `readAs_toJson`).
`formats_tell_the_same` puts both together: the text is made of what is read from the JSON that the
other check writes.
-/

set_option autoImplicit false
set_option relaxedAutoImplicit false

namespace BracketSpacing

open CommandLine

/-! ### Reading the JSON report -/

/-- The diagnostic that an object tells of. -/
def Diagnostic.Shown.ofJson? (j : Json) : Option Diagnostic.Shown :=
  match j.member? "path", j.member? "line", j.member? "column", j.member? "rule",
    j.member? "message" with
  | some (.str path), some (.int line), some (.int column), some (.str rule), some (.str message) =>
    some { path, line, column, rule, message }
  | _, _, _, _, _ => none

namespace Report

theorem ofJson?_diagnosticJson (d : Diagnostic.Shown) :
    Diagnostic.Shown.ofJson? (diagnosticJson d) = some d := rfl

/-- The diagnostics are read back in their order. -/
theorem mapM_ofJson?_diagnosticJson (ds : List Diagnostic.Shown) :
    (ds.map diagnosticJson).mapM Diagnostic.Shown.ofJson? = some ds := by
  induction ds with
  | nil => rfl
  | cons d ds ih =>
    rw [List.map_cons, List.mapM_cons, ofJson?_diagnosticJson, ih]
    rfl

/-- What a JSON value says as a report: the diagnostics in order, their number and the number of
files. -/
structure ReadAs (j : Json) (diagnostics : List Diagnostic.Shown) (errorCount files : Nat) :
    Prop where
  diagnostics : ∃ items, j.member? "diagnostics" = some (.arr items) ∧
    items.mapM Diagnostic.Shown.ofJson? = some diagnostics
  errorCount : j.member? "errorCount" = some (.int errorCount)
  files : j.member? "files" = some (.int files)

/-- A report in JSON is read as what it holds. -/
theorem readAs_toJson (r : Report) :
    ReadAs (r.toJson .camel) r.diagnostics r.errorCount r.files :=
  ⟨⟨_, rfl, mapM_ofJson?_diagnosticJson r.diagnostics⟩, rfl, rfl⟩

/-- The lines of diagnostics, then an empty line and the totals if there are any. -/
def textOf (diagnostics : List Diagnostic.Shown) (errorCount files : Nat) : String :=
  String.join (diagnostics.map fun d ↦
    s!"{d.path}:{d.line}:{d.column}: [{d.rule}] {d.message}\n") ++
  if 0 < errorCount then s!"\n{errorCount} problem(s) in {files} file(s)\n" else ""

/-- A report in text is made of its diagnostics and totals. -/
theorem toText_eq_textOf (r : Report) :
    r.toText = textOf r.diagnostics r.errorCount r.files := by
  have hlines : (r.diagnostics.map fun d ↦ d.format ++ "\n") = r.diagnostics.map fun d ↦
      s!"{d.path}:{d.line}:{d.column}: [{d.rule}] {d.message}\n" := by
    refine List.map_congr_left fun d _ ↦ ?_
    simp only [Diagnostic.Shown.format, String.append_assoc]
    rfl
  unfold toText textOf
  rw [hlines]
  by_cases hcount : r.errorCount = 0
  · rw [if_pos hcount, if_neg (by omega), String.append_empty]
  · rw [if_neg hcount, if_pos (by omega)]

end Report

/-! ### Two runs -/

namespace Run

variable (c : Catalogue) (readers : Readers) (fs : FileSystem) (setting : Option String)

/-- The format is not looked at before there is a report. -/
theorem checkReport_with_format (s : Settings) (f : Format) :
    checkReport c readers fs { s with format := f } = checkReport c readers fs s := rfl

/-- Checks in two formats end alike, and what is carried out has one report that both write. -/
theorem check_with_formats (s : Settings) (f g : Format) :
    let first := check c readers fs setting { s with format := f }
    let second := check c readers fs setting { s with format := g }
    first.ending = second.ending ∧ first.stderr = second.stderr ∧
      ∀ code, first.ending = .finished code →
        ∃ report,
          SessionM.outcome (checkReport c readers fs s) { registry := .builtin } = .ok report ∧
          code = (if report.errorCount = 0 then 0 else 1) ∧
          first.stdout = reportText f report ∧ second.stdout = reportText g report := by
  intro first second
  rcases hrun : (checkReport c readers fs s).run { registry := .builtin } with ⟨result, session⟩
  have hfirst := checkReport_with_format c readers fs s f ▸ hrun
  have hsecond := checkReport_with_format c readers fs s g ▸ hrun
  cases result with
  | error e =>
    have hf : first = _ := check_of_error setting hfirst
    have hg : second = _ := check_of_error setting hsecond
    rw [hf, hg]
    cases e.isUserError with
    | true => exact ⟨rfl, rfl, nofun⟩
    | false => exact ⟨rfl, rfl, nofun⟩
  | ok report =>
    have hf : first = _ := check_of_report setting hfirst
    have hg : second = _ := check_of_report setting hsecond
    rw [hf, hg]
    refine ⟨rfl, rfl, fun code hcode ↦ ⟨report, congrArg Prod.fst hrun, ?_, rfl, rfl⟩⟩
    cases hcode
    rfl

/-- Two checks that differ in the format alone end alike, with the same on standard error. If they
are carried out, what the one writes is a JSON document that is read as the diagnostics and totals
of the report, the text of the other is made of them, the errors are as many as the diagnostics, and
the exit status is one exactly if there are any. -/
theorem formats_tell_the_same (textArguments jsonArguments : List String) (s : Settings)
    (htext : CommandLine.parse textArguments = .ok ⟨.check, { s with format := .text }⟩)
    (hjson : CommandLine.parse jsonArguments = .ok ⟨.check, { s with format := .json }⟩) :
    let text := run c readers fs setting textArguments
    let json := run c readers fs setting jsonArguments
    text.ending = json.ending ∧ text.exitCode = json.exitCode ∧ text.stderr = json.stderr ∧
      ∀ code, text.ending = .finished code →
        ∃ (value : Json) (ds : List Diagnostic.Shown) (n m : Nat),
          Json.IsDocument value json.stdout.toList ∧
          Json.parse json.stdout.toList = some value ∧ Report.ReadAs value ds n m ∧
          (∃ report,
            SessionM.outcome (checkReport c readers fs s) { registry := .builtin } = .ok report ∧
              ds = report.diagnostics ∧ m = report.files) ∧
          n = ds.length ∧ text.stdout = Report.textOf ds n m ∧ code = if 0 < n then 1 else 0 := by
  intro text json
  have htextRun : text = _ := run_of_parse htext c readers fs setting
  have hjsonRun : json = _ := run_of_parse hjson c readers fs setting
  obtain ⟨hending, hstderr, hreport⟩ := check_with_formats c readers fs setting s .text .json
  rw [← htextRun, ← hjsonRun] at hending hstderr hreport
  have hexit : text.exitCode = json.exitCode := by rw [exitCode, exitCode, hending]
  refine ⟨hending, hexit, hstderr, fun code hcode ↦ ?_⟩
  obtain ⟨report, houtcome, hcount, htextOut, hjsonOut⟩ := hreport code hcode
  have hdocument : Json.IsDocument (report.toJson .camel) json.stdout.toList := by
    rw [hjsonOut]
    exact Json.isDocument_render _
  refine ⟨report.toJson .camel, report.diagnostics, report.errorCount, report.files, hdocument,
    Json.parse_of_isDocument hdocument, report.readAs_toJson, ⟨report, houtcome, rfl, rfl⟩,
    errorCount_of_checkReport houtcome, htextOut.trans report.toText_eq_textOf, ?_⟩
  rw [hcount]
  by_cases hzero : report.errorCount = 0
  · rw [if_pos hzero, if_neg (by omega)]
  · rw [if_neg hzero, if_pos (by omega)]

/-- A check of the unreadable and of the readable file of a project. -/
def bothFiles : Settings := { given := some ["bad.js", "good.TS"] }

theorem ready_bothFiles : Ready .builtin mixedProject bothFiles {} [] where
  loads := .default mixedProject_find
  parsed := rfl
  present := by decide +kernel
  registered := nofun

theorem yields_build_builtin : (Ruleset.build .builtin {} []).Yields (.ok builtinRules) := by
  obtain ⟨rules, hrules⟩ := ready_bothFiles.exists_yields_build
  -- A session at its start tells which rules they are.
  cases (SessionM.Yields.outcome_eq hrules).symm.trans outcome_build_builtin
  exact hrules

/-- Both files are found. -/
theorem discover_bothFiles :
    mixedProject.discover mixedProject.here Language.supportedExtensions none bothFiles.operands =
      ⟨bothFiles.operands, none⟩ := by
  rw [Language.supportedExtensions_eq]
  decide +kernel

theorem ending_bothFiles :
    (check .builtin .builtin mixedProject none bothFiles).ending = .finished 1 := by
  have houtcome := ready_bothFiles.outcome_of_patterns yields_build_builtin rfl
  simp only [discover_bothFiles] at houtcome
  have hreadable : bothFiles.operands.filter mixedProject.isReadable =
      [⟨.relative, ["good.TS"]⟩] := by decide +kernel
  have hsome : (Report.summary .builtin mixedProject builtinRules
      bothFiles.operands).diagnostics ≠ [] := by
    rw [Report.diagnostics_summary, hreadable, List.flatMap_singleton, ← List.length_pos_iff,
      length_diagnosticsOf_mixedProject]
    exact Nat.one_pos
  rw [(ending_and_stdout_of_report houtcome none).1, if_neg hsome]

/-- One file is skipped and one has diagnostics, so the exit status is one in both formats. -/
theorem formats_tell_the_same_of_bothFiles :
    let text := run .builtin .builtin mixedProject none ["check", "bad.js", "good.TS"]
    let json := run .builtin .builtin mixedProject none
      ["check", "bad.js", "good.TS", "--format", "json"]
    text.exitCode = 1 ∧ json.exitCode = 1 ∧ text.stderr = json.stderr ∧
      ∃ (value : Json) (ds : List Diagnostic.Shown) (n m : Nat),
        Json.parse json.stdout.toList = some value ∧ Report.ReadAs value ds n m ∧ 0 < n ∧
        text.stdout = Report.textOf ds n m := by
  intro text json
  have htext : CommandLine.parse ["check", "bad.js", "good.TS"] = .ok ⟨.check, bothFiles⟩ := rfl
  have hjson : CommandLine.parse ["check", "bad.js", "good.TS", "--format", "json"] =
      .ok ⟨.check, { bothFiles with format := .json }⟩ := by decide +kernel
  have hending : text.ending = .finished 1 :=
    (congrArg ending (run_of_parse htext .builtin .builtin mixedProject none)).trans
      ending_bothFiles
  have hcode : text.exitCode = 1 := by rw [exitCode, hending]
  obtain ⟨-, hexit, hstderr, hreport⟩ :=
    formats_tell_the_same .builtin .builtin mixedProject none _ _ bothFiles htext hjson
  obtain ⟨value, ds, n, m, -, hparse, hread, -, -, htextOut, hn⟩ := hreport 1 hending
  have hpos : 0 < n := by
    by_contra hzero
    rw [if_neg hzero] at hn
    exact absurd hn (by decide)
  exact ⟨hcode, hexit.symm.trans hcode, hstderr, value, ds, n, m, hparse, hread, hpos, htextOut⟩

end Run

end BracketSpacing
