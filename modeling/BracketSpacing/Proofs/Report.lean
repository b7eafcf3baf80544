import BracketSpacing.Proofs.Discovery.Search
import BracketSpacing.Readers.Builtin
import BracketSpacing.Report

/-!
What a report accounts for. Every file found is either checked or skipped, by whether it can be
opened and decoded; no file that is found has an extension that reading refuses
(`Source.exists_read`, `FileSystem.lower_suffix_mem`). One file adds itself to the report
(`outcome_addFile`), several add themselves in order (`outcome_addFiles`), and the errors counted in
the end are the diagnostics added. `accounts_for_every_file` puts this together for any readers:
after the rules and patterns are built, only the search can fail, and reports on paths that share no
file add up. `loop_is_not_skipped` is a search that does fail, at a file that should be skipped.
-/

set_option autoImplicit false
set_option relaxedAutoImplicit false

namespace BracketSpacing

open Text

/-! ### Outcomes -/

namespace SessionM

variable {ε ε' α β : Type}

/-- What a step gives from a session, the session afterwards left out. -/
def outcome (m : SessionM ε α) (s : Session) : Except ε α := (m.run s).1

@[simp] theorem outcome_pure (a : α) (s : Session) :
    outcome (pure a : SessionM ε α) s = .ok a := rfl

/-- Renaming errors renames the error of the outcome. -/
theorem outcome_adapt (cause : ε → ε') (m : SessionM ε α) (s : Session) :
    outcome (m.adapt cause) s = (outcome m s).mapError cause := rfl

/-- Steps after one that succeeds, when their outcome does not depend on the session it leaves. -/
theorem outcome_bind_of_ok {m : SessionM ε α} {f : α → SessionM ε β} {s : Session} {a : α}
    {r : Except ε β} (hm : outcome m s = .ok a) (hf : ∀ s', outcome (f a) s' = r) :
    outcome (m >>= f) s = r := by
  have hrun : m.run s = (.ok a, (m.run s).2) := Prod.ext hm rfl
  have hbind : outcome (m >>= f) s = (ExceptT.bindCont f (m.run s).1 (m.run s).2).1 := rfl
  rw [hbind, hrun]
  exact hf _

/-- Steps that succeed end with a step that does. -/
theorem exists_of_outcome_bind {m : SessionM ε α} {f : α → SessionM ε β} {s : Session} {b : β}
    (h : outcome (m >>= f) s = .ok b) : ∃ a s', outcome (f a) s' = .ok b := by
  have hbind : outcome (m >>= f) s = (ExceptT.bindCont f (m.run s).1 (m.run s).2).1 := rfl
  rw [hbind] at h
  cases hm : (m.run s).1 with
  | error e =>
    rw [hm] at h
    cases h
  | ok a =>
    rw [hm] at h
    exact ⟨a, _, h⟩

end SessionM

/-! ### Extensions -/

/-- A language is known for the extensions that are searched for, in any letter case. -/
theorem Language.isSome_ofExtension? (ext : String) :
    (ofExtension? ext).isSome ↔ lower ext ∈ supportedExtensions := by
  rw [ofExtension?, List.find?_isSome, supportedExtensions, List.mem_mergeSort, List.mem_append]
  simp

/-- A text with an extension that is searched for is read, in any letter case. -/
theorem Source.exists_read {ext : String} (h : Language.lower ext ∈ Language.supportedExtensions)
    (reader : Script.Dialect → List Char → Script.Parsed) (text : List Char) :
    ∃ source, read reader text ext = .ok source := by
  obtain ⟨l, hl⟩ := Option.isSome_iff_exists.mp ((Language.isSome_ofExtension? ext).mpr h)
  unfold read
  rw [hl]
  exact ⟨_, rfl⟩

/-- Files that are found have an extension that reading takes. -/
theorem FileSystem.lower_suffix_mem {fs : FileSystem} {root : Path}
    {extensions : List String} {ignore : Option (String → Bool)} {ps : List Path} {p : Path}
    (h : p ∈ (fs.discover root extensions ignore ps).files) :
    Language.lower p.suffix ∈ extensions := by
  cases hroot : fs.resolve root with
  | error e =>
    rw [discover_of_loop hroot] at h
    cases h
  | ok place =>
    rw [discover_of_resolve hroot] at h
    exact List.contains_iff_mem.mp (Discovery.hasExtension_of_mem_files h)

/-! ### Reading -/

/-- Whether a path leads to a file that can be opened and whose bytes can be decoded. -/
def FileSystem.isReadable (fs : FileSystem) (p : Path) : Bool :=
  match fs.stat p with
  | .ok ⟨place, .file bytes⟩ => !fs.unreadable.contains place && (Utf8.decode bytes).isOk
  | _ => false

/-- A text is read exactly if its file is readable. -/
theorem FileSystem.isOk_readText (fs : FileSystem) (p : Path) :
    (fs.readText p).isOk = fs.isReadable p := by
  unfold readText readBytes isReadable
  cases fs.stat p with
  | error cause => rfl
  | ok found =>
    obtain ⟨place, t⟩ := found
    by_cases hplace : place ∈ fs.unreadable
    · cases t <;> simp [hplace, Except.isOk, Except.toBool]
    · cases t with
      | file bytes =>
        cases hdecode : Utf8.decode bytes <;> simp [hplace, hdecode, Except.isOk, Except.toBool]
      | link | directory => simp [hplace, Except.isOk, Except.toBool]

namespace Report

variable {readers : Readers} {fs : FileSystem} {rules : List Rule}

/-- The diagnostics of a readable file with its path, columns counting from one. -/
def diagnosticsOf (readers : Readers) (fs : FileSystem) (rules : List Rule) (p : Path) :
    List Diagnostic.Shown :=
  match fs.readText p with
  | .error _ => []
  | .ok text =>
    match Source.read readers.script text p.suffix with
    | .error _ => []
    | .ok source => (source.lint rules p).map fun d ↦
        { path := p.render, line := d.line, column := d.column + 1, rule := d.rule,
          message := d.message }

/-- A report with some files more, none of their errors counted yet. -/
def withFiles (readers : Readers) (fs : FileSystem) (rules : List Rule) (report : Report)
    (ps : List Path) : Report :=
  { report with
    files := report.files + (ps.filter fs.isReadable).length
    skipped := report.skipped ++ ps.filter (!fs.isReadable ·)
    diagnostics := report.diagnostics ++
      (ps.filter fs.isReadable).flatMap (diagnosticsOf readers fs rules) }

theorem withFiles_nil (report : Report) : withFiles readers fs rules report [] = report := by
  simp [withFiles]

/-- Files may be added in two parts. -/
theorem withFiles_withFiles (report : Report) (ps qs : List Path) :
    withFiles readers fs rules (withFiles readers fs rules report ps) qs =
      withFiles readers fs rules report (ps ++ qs) := by
  simp [withFiles, Nat.add_assoc]

/-- The report on some files, with the errors counted. -/
def summary (readers : Readers) (fs : FileSystem) (rules : List Rule) (ps : List Path) : Report :=
  let report := withFiles readers fs rules {} ps
  { report with errorCount := report.diagnostics.length }

/-- The files skipped are those that are not readable, in order. -/
theorem skipped_summary (ps : List Path) :
    (summary readers fs rules ps).skipped = ps.filter (!fs.isReadable ·) := List.nil_append _

/-- The diagnostics are those of the readable files, in order. -/
theorem diagnostics_summary (ps : List Path) :
    (summary readers fs rules ps).diagnostics =
      (ps.filter fs.isReadable).flatMap (diagnosticsOf readers fs rules) := List.nil_append _

/-- Every file is counted or skipped. -/
theorem files_add_skipped (ps : List Path) :
    (summary readers fs rules ps).files + (summary readers fs rules ps).skipped.length =
      ps.length := by
  have hfiles : (summary readers fs rules ps).files = (ps.filter fs.isReadable).length :=
    Nat.zero_add _
  rw [hfiles, skipped_summary]
  exact (List.length_eq_length_filter_add fs.isReadable).symm

/-- The fields of two reports added up. -/
theorem summary_append (ps qs : List Path) :
    summary readers fs rules (ps ++ qs) =
      let first := summary readers fs rules ps
      let second := summary readers fs rules qs
      { files := first.files + second.files
        skipped := first.skipped ++ second.skipped
        diagnostics := first.diagnostics ++ second.diagnostics
        errorCount := first.errorCount + second.errorCount } := by
  simp [summary, withFiles]

/-! ### Building -/

/-- Diagnostics are shown under the path of their file, columns counting from one. -/
theorem shown_lint (p : Path) (source : Source) :
    (source.lint rules p).map Diagnostic.shown = (source.lint rules p).map fun d ↦
      { path := p.render, line := d.line, column := d.column + 1, rule := d.rule,
        message := d.message } := by
  simp only [Source.lint, List.map_map]
  rfl

/-- A file that reading takes adds itself. -/
theorem outcome_addFile {p : Path} (h : Language.lower p.suffix ∈ Language.supportedExtensions)
    (report : Report) (s : Session) :
    SessionM.outcome (addFile readers fs rules report p) s =
      .ok (withFiles readers fs rules report [p]) := by
  unfold addFile
  cases hread : fs.readText p with
  | error e =>
    have hunreadable : fs.isReadable p = false := by
      rw [← fs.isOk_readText, hread]
      rfl
    refine SessionM.outcome_bind_of_ok rfl fun s' ↦ ?_
    simp [withFiles, hunreadable]
  | ok text =>
    have hreadable : fs.isReadable p = true := by
      rw [← fs.isOk_readText, hread]
      rfl
    obtain ⟨source, hsource⟩ := Source.exists_read h readers.script text
    dsimp only
    rw [hsource]
    refine SessionM.outcome_bind_of_ok rfl fun s' ↦ SessionM.outcome_bind_of_ok rfl fun s'' ↦ ?_
    rw [shown_lint]
    simp [withFiles, hreadable, diagnosticsOf, hread, hsource]

/-- Files add themselves in order. -/
theorem outcome_addFiles {ps : List Path}
    (h : ∀ p ∈ ps, Language.lower p.suffix ∈ Language.supportedExtensions) (report : Report)
    (s : Session) :
    SessionM.outcome (addFiles readers fs rules report ps) s =
      .ok (withFiles readers fs rules report ps) := by
  induction ps generalizing report s with
  | nil =>
    rw [withFiles_nil]
    rfl
  | cons p rest ih =>
    rw [List.forall_mem_cons] at h
    refine SessionM.outcome_bind_of_ok (outcome_addFile h.1 report s) fun s' ↦ ?_
    rw [ih h.2, withFiles_withFiles, List.singleton_append]

section OfPaths

variable {c : Catalogue} {config : Config} {root : Path} {overrides : List (String × String)}
  {session : Session} {ignore : Option (String → Bool)}

/-- With the rules and patterns built, the outcome is decided by the files found. -/
theorem outcome_ofPaths
    (hrules : SessionM.outcome (Ruleset.build c config overrides) session = .ok rules)
    (hignore : Ignore.build readers.patterns config.ignore = .ok ignore) (ps : List Path) :
    let found := fs.discover root Language.supportedExtensions ignore ps
    SessionM.outcome (ofPaths c readers fs config root overrides ps) session =
      match found.fault with
      | some e => .error (.fileSystem e)
      | none => .ok (summary readers fs rules found.files) := by
  intro found
  have hfiles (p : Path) (hp : p ∈ found.files) := fs.lower_suffix_mem hp
  have hadapted : SessionM.outcome ((Ruleset.build c config overrides).adapt Failure.registry)
      session = .ok rules := by rw [SessionM.outcome_adapt, hrules]; rfl
  unfold ofPaths
  -- What was found does not depend on the session, so each step may leave any.
  refine SessionM.outcome_bind_of_ok hadapted fun s₁ ↦ ?_
  rw [hignore]
  refine SessionM.outcome_bind_of_ok rfl fun s₂ ↦
    SessionM.outcome_bind_of_ok (outcome_addFiles hfiles {} s₂) fun s₃ ↦ ?_
  change SessionM.outcome (match found.fault with | some e => _ | none => _) s₃ = _
  cases found.fault with
  | some e => rfl
  | none => rfl

/-- The errors of every report are its diagnostics. -/
theorem errorCount_of_ofPaths {ps : List Path} {report : Report}
    (h : SessionM.outcome (ofPaths c readers fs config root overrides ps) session = .ok report) :
    report.errorCount = report.diagnostics.length := by
  obtain ⟨rules, _, h⟩ := SessionM.exists_of_outcome_bind h
  obtain ⟨ignore, s, h⟩ := SessionM.exists_of_outcome_bind h
  obtain ⟨added, s, h⟩ := SessionM.exists_of_outcome_bind h
  split at h
  next => cases h
  next =>
    cases h
    rfl

end OfPaths

end Report

/-- With the rules and patterns built, no file found is refused for its extension, and a report
fails only if the search does: at a path that cannot be looked up or at a link that leads back to
itself. Otherwise every file found is checked or, if it cannot be opened or decoded, skipped, both
in order; and reports on paths that share no file add up. -/
theorem Report.accounts_for_every_file (c : Catalogue) (readers : Readers) (fs : FileSystem)
    (config : Config) (root : Path) (overrides : List (String × String)) (session : Session)
    (rules : List Rule) (ignore : Option (String → Bool))
    (hrules : SessionM.outcome (Ruleset.build c config overrides) session = .ok rules)
    (hignore : Ignore.build readers.patterns config.ignore = .ok ignore) :
    let found := fs.discover root Language.supportedExtensions ignore
    let outcome := fun ps ↦
      SessionM.outcome (ofPaths c readers fs config root overrides ps) session
    (∀ ps, ∀ p ∈ (found ps).files, ∀ text,
      ∃ source, Source.read readers.script text p.suffix = .ok source) ∧
    (∀ ps e, (found ps).fault = some e → outcome ps = .error (.fileSystem e)) ∧
    (∀ ps, (fs.resolve root).isOk → (∀ p ∈ ps, (fs.isFile p).isOk) →
      (∀ p ∈ ps, ∀ q ∈ fs.entryPaths p, (fs.resolve q).isOk) → (found ps).fault = none) ∧
    (∀ ps, (found ps).fault = none → ∃ report, outcome ps = .ok report ∧
      report.files + report.skipped.length = (found ps).files.length ∧
      report.skipped = (found ps).files.filter (!fs.isReadable ·) ∧
      report.diagnostics =
        ((found ps).files.filter fs.isReadable).flatMap (diagnosticsOf readers fs rules) ∧
      report.errorCount = report.diagnostics.length) ∧
    ∀ ps qs, (found ps).fault = none → (found qs).fault = none →
      (∀ p ∈ (found ps).files, ∀ q ∈ (found qs).files, fs.resolve p ≠ fs.resolve q) →
      ∃ first second both, outcome ps = .ok first ∧ outcome qs = .ok second ∧
        outcome (ps ++ qs) = .ok both ∧
        both.files = first.files + second.files ∧
        both.skipped = first.skipped ++ second.skipped ∧
        both.diagnostics = first.diagnostics ++ second.diagnostics ∧
        both.errorCount = first.errorCount + second.errorCount := by
  intro found outcome
  have houtcome (ps : List Path) : outcome ps = match (found ps).fault with
      | some e => .error (.fileSystem e)
      | none => .ok (summary readers fs rules (found ps).files) := outcome_ofPaths hrules hignore ps
  refine ⟨?_, ?_, fun ps ↦ FileSystem.fault_discover_of_resolve, ?_, ?_⟩
  · exact fun ps p hp text ↦ Source.exists_read (fs.lower_suffix_mem hp) readers.script text
  · intro ps e hfault
    rw [houtcome, hfault]
  · intro ps hfault
    exact ⟨summary readers fs rules (found ps).files, by rw [houtcome, hfault],
      files_add_skipped _, skipped_summary _, diagnostics_summary _, rfl⟩
  · intro ps qs hps hqs hdisjoint
    have hboth : found (ps ++ qs) = ⟨(found ps).files ++ (found qs).files, none⟩ := by
      rw [← hqs, ← Discovery.followedBy_of_disjoint hps hdisjoint]
      exact (fs.findsOnce_discover root _ ignore).more ps qs
    refine ⟨summary readers fs rules (found ps).files, summary readers fs rules (found qs).files,
      summary readers fs rules ((found ps).files ++ (found qs).files),
      by rw [houtcome, hps], by rw [houtcome, hqs], by rw [houtcome, hboth], ?_⟩
    rw [summary_append]
    exact ⟨rfl, rfl, rfl, rfl⟩

/-! ### Two projects -/

theorem Language.supportedExtensions_eq :
    supportedExtensions = [".cjs", ".cts", ".js", ".jsx", ".mjs", ".mts", ".ts", ".tsx"] :=
  Sorting.mergeSort_eq_of_perm (by decide) (by decide)

/-- The rules in force without configuration. -/
def builtinRules : List Rule := [⟨Spacing.definition, []⟩]

theorem outcome_build_builtin :
    SessionM.outcome (Ruleset.build .builtin {} []) { registry := .builtin } =
      .ok builtinRules := by
  have hids : Registry.builtin.ids = [Spacing.ruleId] := List.mergeSort_singleton _
  change SessionM.outcome (Ruleset.buildAll .builtin {} [] Registry.builtin.ids) _ = _
  rw [hids]
  rfl

def spacedText : List Char := ['a', '[', ' ', '0', ']']

/-- A file that cannot be decoded, a script in a typed language, its extension in capitals, and a
script that may not be read. -/
def mixedProject : FileSystem where
  cwd := ["project"]
  root := .directory [("project", .directory
    [("bad.js", .file [0xff]), ("good.TS", .file (Utf8.encode spacedText)),
      ("locked.js", .file (Utf8.encode spacedText))])]
  unreadable := [["project", "locked.js"]]

theorem length_diagnosticsOf_mixedProject :
    (Report.diagnosticsOf .builtin mixedProject builtinRules ⟨.relative, ["good.TS"]⟩).length =
      1 := by
  have hread : mixedProject.readText ⟨.relative, ["good.TS"]⟩ = .ok spacedText := by
    decide +kernel
  have hsuffix : (⟨.relative, ["good.TS"]⟩ : Path).suffix = ".TS" := by decide +kernel
  have hlanguage : Language.ofExtension? ".TS" = some .typeScript := by decide +kernel
  simp only [Report.diagnosticsOf, hread, hsuffix, Source.read, hlanguage, List.length_map,
    Source.lint, Diagnostic.sorted, List.length_mergeSort]
  decide +kernel

/-- Two files are skipped and one is checked, with one diagnostic; so the two reports add up. -/
theorem Report.accounts_for_every_file_of_mixedProject :
    let root : Path := ⟨.single, ["project"]⟩
    let bad : Path := ⟨.relative, ["bad.js"]⟩
    let good : Path := ⟨.relative, ["good.TS"]⟩
    let locked : Path := ⟨.relative, ["locked.js"]⟩
    let outcome := fun ps ↦ SessionM.outcome (ofPaths .builtin .builtin mixedProject {} root [] ps)
      { registry := .builtin }
    (∃ report, outcome [bad, good, locked] = .ok report ∧ report.files = 1 ∧
      report.skipped = [bad, locked] ∧ report.errorCount = 1) ∧
    ∃ first second both, outcome [bad] = .ok first ∧ outcome [good] = .ok second ∧
      outcome [bad, good] = .ok both ∧ both.errorCount = first.errorCount + second.errorCount := by
  intro root bad good locked outcome
  obtain ⟨-, -, -, hreport, hsum⟩ := Report.accounts_for_every_file .builtin .builtin mixedProject
    {} root [] { registry := .builtin } builtinRules none outcome_build_builtin rfl
  rw [Language.supportedExtensions_eq] at hreport hsum
  constructor
  · have hfound : mixedProject.discover root
        [".cjs", ".cts", ".js", ".jsx", ".mjs", ".mts", ".ts", ".tsx"] none [bad, good, locked] =
          ⟨[bad, good, locked], none⟩ := by decide +kernel
    obtain ⟨report, houtcome, hfiles, hskipped, hdiagnostics, hcount⟩ :=
      hreport [bad, good, locked] (by rw [hfound])
    have hunreadable : [bad, good, locked].filter (!mixedProject.isReadable ·) = [bad, locked] := by
      decide +kernel
    have hreadable : [bad, good, locked].filter mixedProject.isReadable = [good] := by
      decide +kernel
    rw [hfound, hunreadable] at hskipped
    rw [hfound, hskipped] at hfiles
    rw [hdiagnostics, hfound, hreadable, List.flatMap_singleton,
      length_diagnosticsOf_mixedProject] at hcount
    exact ⟨report, houtcome, Nat.add_right_cancel hfiles, hskipped, hcount⟩
  · obtain ⟨first, second, both, hfirst, hsecond, hboth, -, -, -, hcount⟩ :=
      hsum [bad] [good] (by decide +kernel) (by decide +kernel) (by decide +kernel)
    exact ⟨first, second, both, hfirst, hsecond, hboth, hcount⟩

/-- A link to itself with the extension of a script. -/
def loopProject : FileSystem where
  cwd := ["project"]
  root := .directory [("project", .directory [("loop.js", .link ⟨.relative, ["loop.js"]⟩)])]

/-- The search ends at the link that leads back to itself. -/
theorem loopProject_discover :
    loopProject.discover ⟨.single, ["project"]⟩ Language.supportedExtensions none
      [⟨.relative, []⟩] = ⟨[], some (.linkLoop ⟨["project", "loop.js"]⟩)⟩ := by
  have hroot : loopProject.resolve ⟨.single, ["project"]⟩ = .ok ["project"] := by decide +kernel
  have hfile : loopProject.isFile ⟨.relative, []⟩ = .ok false := by decide +kernel
  have hlist : loopProject.canList ⟨.relative, []⟩ = true := by decide +kernel
  have hcandidates (s : Scope) : Discovery.candidates s loopProject ⟨.relative, []⟩ =
      [{ path := ⟨.relative, ["loop.js"]⟩, named := false }] := by
    rw [Discovery.candidates_of_not_isFile hfile, Discovery.walk_eq_flatMap]
    change Discovery.candidatesBelow s loopProject ⟨.relative, []⟩
      (.directory [("loop.js", .link ⟨.relative, ["loop.js"]⟩)]) ++ [] = _
    rw [Discovery.candidatesBelow, Discovery.keptBelow_directory hlist,
      Discovery.sortedByName_of_pairwise (by decide)]
    rfl
  rw [FileSystem.discover_of_resolve hroot, Language.supportedExtensions_eq, Discovery.run,
    List.flatMap_singleton, hcandidates]
  decide +kernel

/-- The file that cannot be read is not skipped: there is no report, though the rules and patterns
were built. -/
theorem Report.loop_is_not_skipped :
    SessionM.outcome (Ruleset.build .builtin {} []) { registry := .builtin } =
      .ok builtinRules ∧
    Ignore.build Readers.builtin.patterns ({} : Config).ignore = .ok none ∧
    loopProject.isReadable ⟨.relative, ["loop.js"]⟩ = false ∧
    SessionM.outcome (ofPaths .builtin .builtin loopProject {} ⟨.single, ["project"]⟩ []
      [⟨.relative, []⟩]) { registry := .builtin } =
        .error (.fileSystem (.linkLoop ⟨["project", "loop.js"]⟩)) := by
  refine ⟨outcome_build_builtin, rfl, by decide +kernel, ?_⟩
  rw [outcome_ofPaths outcome_build_builtin rfl, loopProject_discover]

end BracketSpacing
