import BracketSpacing.Proofs.ConfigFile
import BracketSpacing.Proofs.Override
import BracketSpacing.Run
import Mathlib.Data.List.TakeWhile

/-!
How a check ends, whatever the readers of scripts, YAML and patterns make of the files. The stages
before any source file is looked at are the configuration, the overrides, the paths and the ids of
the overrides. `Refused` gives the text that the user is told: that of the first stage that fails.
`Faults` says when the run breaks off untold: while the configuration is loaded, at a path that
cannot be looked up, or, all stages passed, at an ignore pattern that cannot be read or in the
search for files. In every other case there is a report (`check_cases`). From this come
`bad_configuration_is_told`, with `bad_configuration_is_untold` for what breaks it, and
`first_failing_stage_is_told`.
-/

set_option autoImplicit false
set_option relaxedAutoImplicit false

namespace BracketSpacing

open CommandLine

/-- The directory that a check works in. -/
def FileSystem.here (fs : FileSystem) : Path := ⟨.single, fs.cwd⟩

namespace CommandLine.Settings

/-- The configuration file that is named; an empty name counts as none. -/
def configPath (s : Settings) : Option Path := (s.config.filter (· ≠ "")).map Path.ofString

/-- The paths to check. -/
def operands (s : Settings) : List Path := s.paths.map Path.ofString

end CommandLine.Settings

namespace Run

/-! ### The stages -/

section

variable (readers : Readers) (fs : FileSystem) (s : Settings)

/-- All stages are passed. -/
structure Ready (config : Config) (overrides : List (String × String)) : Prop where
  loads : ConfigFile.Loads readers fs fs.here s.configPath config
  parsed : Override.parse s.rules = .ok overrides
  present : ∀ p ∈ s.operands, fs.exists? p = .ok true
  registered : ∀ id ∈ overrides.map (·.1), id ∈ Registry.builtin.ids

/-- What the user is told by the first stage that fails. -/
inductive Refused : String → Prop
  | config {text : String} (refused : ConfigFile.Refused readers fs fs.here s.configPath text) :
      Refused text
  | override {config : Config} {before after : List String} {spec : String}
      (loads : ConfigFile.Loads readers fs fs.here s.configPath config)
      (specs : s.rules = before ++ spec :: after) (first : ∀ b ∈ before, '=' ∈ b.toList)
      (bad : '=' ∉ spec.toList) :
      Refused s!"Invalid rule override '{spec}'. Expected 'rule-id=option'"
  | missing {config : Config} {missing : List Path}
      (loads : ConfigFile.Loads readers fs fs.here s.configPath config)
      (specs : ∀ spec ∈ s.rules, '=' ∈ spec.toList)
      (known : ∀ p ∈ s.operands, ∃ found, fs.exists? p = .ok found)
      (absent : missing = s.operands.filter fun p ↦ fs.exists? p = .ok false)
      (some : missing ≠ []) :
      Refused ("Path not found: " ++ ", ".intercalate (missing.map Path.render))
  | unknownRule {config : Config} {overrides : List (String × String)} {known rest : List String}
      {id : String} (loads : ConfigFile.Loads readers fs fs.here s.configPath config)
      (parsed : Override.parse s.rules = .ok overrides)
      (present : ∀ p ∈ s.operands, fs.exists? p = .ok true)
      (ids : overrides.map (·.1) = known ++ id :: rest)
      (registered : ∀ k ∈ known, k ∈ Registry.builtin.ids) (unknown : id ∉ Registry.builtin.ids) :
      Refused s!"Unknown rule: {id}"

/-- The causes for which a check breaks off without telling the user. -/
inductive Faults : Failure → Prop
  | config {e : Failure} (faults : ConfigFile.Faults readers fs fs.here s.configPath e) : Faults e
  | path {config : Config} {before after : List Path} {p : Path} {e : FileSystem.PathError}
      (loads : ConfigFile.Loads readers fs fs.here s.configPath config)
      (specs : ∀ spec ∈ s.rules, '=' ∈ spec.toList) (operands : s.operands = before ++ p :: after)
      (known : ∀ b ∈ before, ∃ found, fs.exists? b = .ok found)
      (fails : fs.exists? p = .error e) : Faults (.fileSystem (.lookup e))
  | pattern {config : Config} {overrides : List (String × String)} {e : Ignore.Error}
      (ready : Ready readers fs s config overrides)
      (bad : Ignore.build readers.patterns config.ignore = .error e) : Faults (.pattern e)
  | search {config : Config} {overrides : List (String × String)}
      {ignore : Option (String → Bool)} {e : FileSystem.Fault}
      (ready : Ready readers fs s config overrides)
      (patterns : Ignore.build readers.patterns config.ignore = .ok ignore)
      (fault :
        (fs.discover fs.here Language.supportedExtensions ignore s.operands).fault = some e) :
      Faults (.fileSystem e)

end

variable {readers : Readers} {fs : FileSystem} {s : Settings}

/-- No cause of a fault is told to the user. -/
theorem Faults.isUserError {e : Failure} (h : Faults readers fs s e) : e.isUserError = false := by
  cases h with
  | config faults => exact faults.isUserError
  | path | pattern | search => rfl

/-- The paths that lead nowhere are found if each path can be looked up. -/
theorem missingPaths_of_known {ps : List Path} (h : ∀ p ∈ ps, ∃ found, fs.exists? p = .ok found) :
    missingPaths fs ps = .ok (ps.filter fun p ↦ fs.exists? p = .ok false) := by
  induction ps with
  | nil => rfl
  | cons p rest ih =>
    rw [List.forall_mem_cons] at h
    obtain ⟨found, hfound⟩ := h.1
    rw [missingPaths, hfound, ih h.2]
    cases found <;> simp [hfound, pure, Except.pure, bind, Except.bind]

/-- The first path that cannot be looked up decides. -/
theorem missingPaths_of_fails {before after : List Path} {p : Path} {e : FileSystem.PathError}
    (hknown : ∀ b ∈ before, ∃ found, fs.exists? b = .ok found) (hfails : fs.exists? p = .error e) :
    missingPaths fs (before ++ p :: after) = .error e := by
  induction before with
  | nil =>
    rw [List.nil_append, missingPaths, hfails]
    rfl
  | cons b before ih =>
    rw [List.forall_mem_cons] at hknown
    obtain ⟨found, hfound⟩ := hknown.1
    rw [List.cons_append, missingPaths, hfound, ih hknown.2]
    rfl

/-- Each path leads somewhere, or some do not, or there is a first one that cannot be looked up. -/
theorem paths_cases (fs : FileSystem) (ps : List Path) :
    (∀ p ∈ ps, fs.exists? p = .ok true) ∨
    ((∀ p ∈ ps, ∃ found, fs.exists? p = .ok found) ∧
      (ps.filter fun p ↦ fs.exists? p = .ok false) ≠ []) ∨
    ∃ before p after e, ps = before ++ p :: after ∧
      (∀ b ∈ before, ∃ found, fs.exists? b = .ok found) ∧ fs.exists? p = .error e := by
  classical
  rcases forall_mem_or_first (fun p ↦ ∃ found, fs.exists? p = .ok found) ps with
    hknown | ⟨before, p, after, heq, hbefore, hp⟩
  · by_cases hmissing : (ps.filter fun p ↦ fs.exists? p = .ok false) = []
    · refine Or.inl fun p hp ↦ ?_
      obtain ⟨found, hfound⟩ := hknown p hp
      cases found with
      | true => exact hfound
      | false => exact absurd (by simpa using hfound) (List.filter_eq_nil_iff.mp hmissing p hp)
    · exact Or.inr (Or.inl ⟨hknown, hmissing⟩)
  · cases hexists : fs.exists? p with
    | ok found => exact absurd ⟨found, hexists⟩ hp
    | error e => exact Or.inr (Or.inr ⟨before, p, after, e, heq, hbefore, hexists⟩)

/-- A stage fails, or one breaks off, or all stages are passed. -/
theorem refused_or_faults_or_ready (readers : Readers) (fs : FileSystem) (s : Settings) :
    (∃ text, Refused readers fs s text) ∨ (∃ e, Faults readers fs s e) ∨
      ∃ config overrides, Ready readers fs s config overrides := by
  rcases ConfigFile.loads_or_refused_or_faults readers fs fs.here s.configPath with
    ⟨config, hloads⟩ | ⟨text, hrefused⟩ | ⟨e, hfaults⟩
  · rcases forall_mem_or_first (fun spec : String ↦ '=' ∈ spec.toList) s.rules with
      hspecs | ⟨before, spec, after, hrules, hfirst, hbad⟩
    · obtain ⟨overrides, hoverrides⟩ := Override.exists_parse hspecs
      rcases paths_cases fs s.operands with
        hpresent | ⟨hknown, hmissing⟩ | ⟨before, p, after, e, hoperands, hknown, hfails⟩
      · rcases forall_mem_or_first (· ∈ Registry.builtin.ids) (overrides.map (·.1)) with
          hall | ⟨known, id, rest, hids, hknown, hid⟩
        · exact Or.inr (Or.inr ⟨config, overrides, hloads, hoverrides, hpresent, hall⟩)
        · exact Or.inl ⟨_, .unknownRule hloads hoverrides hpresent hids hknown hid⟩
      · exact Or.inl ⟨_, .missing hloads hspecs hknown rfl hmissing⟩
      · exact Or.inr (Or.inl ⟨_, .path hloads hspecs hoperands hknown hfails⟩)
    · exact Or.inl ⟨_, .override hloads hrules hfirst hbad⟩
  · exact Or.inl ⟨text, .config hrefused⟩
  · exact Or.inr (Or.inl ⟨e, .config hfaults⟩)

/-! ### The report asked for -/

open SessionM

/-- What a check does once its configuration is loaded. -/
def checkWith (c : Catalogue) (readers : Readers) (fs : FileSystem) (s : Settings)
    (config : Config) : SessionM Failure Report := do
  let overrides ← liftExcept .config (Override.parse s.rules)
  let missing ← liftExcept (.fileSystem ∘ .lookup) (missingPaths fs s.operands)
  if !missing.isEmpty then throw (.pathsNotFound missing)
  Report.ofPaths c readers fs config fs.here overrides s.operands

theorem checkReport_eq (c : Catalogue) (readers : Readers) (fs : FileSystem) (s : Settings) :
    checkReport c readers fs s =
      ConfigFile.load c readers fs fs.here s.configPath >>= checkWith c readers fs s := rfl

/-- With overrides read and paths present, a check reports on the files. -/
theorem checkWith_of_present {c : Catalogue} {config : Config}
    {overrides : List (String × String)} (hoverrides : Override.parse s.rules = .ok overrides)
    (hpresent : ∀ p ∈ s.operands, fs.exists? p = .ok true) :
    checkWith c readers fs s config =
      Report.ofPaths c readers fs config fs.here overrides s.operands := by
  have hnone : (s.operands.filter fun p ↦ fs.exists? p = .ok false) = [] :=
    List.filter_eq_nil_iff.mpr fun p hp ↦ by simp [hpresent p hp]
  unfold checkWith
  rw [hoverrides, missingPaths_of_known fun p hp ↦ ⟨true, hpresent p hp⟩, hnone]
  rfl

/-- The first override that is not registered keeps the rules from being built. -/
theorem yields_build_error (config : Config) {overrides : List (String × String)}
    {known rest : List String} {id : String} (ids : overrides.map (·.1) = known ++ id :: rest)
    (registered : ∀ k ∈ known, k ∈ Registry.builtin.ids) (unknown : id ∉ Registry.builtin.ids) :
    (Ruleset.build .builtin config overrides).Yields (.error (.unknown id)) :=
  Ruleset.gives_build_error config ids
    (fun k hk ↦ Registry.available_of_mem_ids (registered k hk))
    (Registry.fromScratch_of_notMem_ids unknown)

/-- A stage that fails gives a failure with its text. -/
theorem Refused.yields {text : String} (h : Refused readers fs s text) :
    ∃ e : Failure, (checkReport .builtin readers fs s).Yields (.error e) ∧
      e.isUserError = true ∧ e.message = text := by
  rw [checkReport_eq]
  cases h with
  | config refused =>
    obtain ⟨e, hyields, htold⟩ := refused.yields
    exact ⟨e, hyields.bind_error _, htold⟩
  | @override _ _ _ spec loads specs first bad =>
    refine ⟨.config (.badOverride spec), loads.yields.bind ?_, rfl, rfl⟩
    unfold checkWith
    rw [specs, Override.parse_eq_error first bad]
    exact (gives_throw _).bind_error _
  | @missing _ missing loads specs known absent some =>
    obtain ⟨overrides, hoverrides⟩ := Override.exists_parse specs
    refine ⟨.pathsNotFound missing, loads.yields.bind ?_, rfl, rfl⟩
    unfold checkWith
    rw [hoverrides, missingPaths_of_known known, ← absent]
    refine (gives_pure overrides).bind ((gives_pure missing).bind ?_)
    rw [if_pos (by simpa using some)]
    exact (gives_throw _).bind_error _
  | @unknownRule config _ _ _ id loads parsed present ids registered unknown =>
    refine ⟨.registry (.unknown id), loads.yields.bind ?_, rfl, rfl⟩
    rw [checkWith_of_present parsed present]
    have hbuild := yields_build_error config ids registered unknown
    exact (hbuild.adapt Failure.registry).bind_error _

namespace Ready

variable {config : Config} {overrides : List (String × String)}

/-- Once all stages are passed, the report on the files decides, in some session in order. -/
theorem run_checkReport (h : Ready readers fs s config overrides) :
    ∃ session : Session,
      session.InOrder .builtin Registry.builtin.registrations ∧
      (checkReport .builtin readers fs s).run { registry := .builtin } =
        (Report.ofPaths .builtin readers fs config fs.here overrides s.operands).run session := by
  obtain ⟨session, hrun, hsession⟩ := h.loads.yields.run_eq Session.inOrder_builtin
  refine ⟨session, hsession, ?_⟩
  rw [checkReport_eq, run_bind, hrun]
  dsimp only
  rw [checkWith_of_present h.parsed h.present]

/-- Once all stages are passed, the rules can be built. -/
theorem exists_yields_build (h : Ready readers fs s config overrides) :
    ∃ rules, (Ruleset.build .builtin config overrides).Yields (.ok rules) :=
  ⟨_, Ruleset.gives_build config
    (fun _ hid ↦ Registry.available_of_mem_ids (Registry.mem_ids.mpr hid))
    fun id hid ↦ Registry.available_of_mem_ids (h.registered id hid)⟩

/-- A pattern that cannot be read decides, as the rules are built without fault. -/
theorem outcome_of_pattern (h : Ready readers fs s config overrides) {e : Ignore.Error}
    (hbad : Ignore.build readers.patterns config.ignore = .error e) :
    outcome (checkReport .builtin readers fs s) { registry := .builtin } = .error (.pattern e) := by
  obtain ⟨session, hsession, hrun⟩ := h.run_checkReport
  obtain ⟨rules, hrules⟩ := h.exists_yields_build
  have hpattern : (Report.ofPaths .builtin readers fs config fs.here overrides s.operands).Yields
      (.error (.pattern e)) := by
    unfold Report.ofPaths
    rw [hbad]
    exact (hrules.adapt Failure.registry).bind ((gives_throw _).bind_error _)
  exact (congrArg Prod.fst hrun).trans (hpattern session hsession).1

/-- With rules and patterns there is a report, unless the search fails. -/
theorem outcome_of_patterns (h : Ready readers fs s config overrides) {rules : List Rule}
    {ignore : Option (String → Bool)}
    (hrules : (Ruleset.build .builtin config overrides).Yields (.ok rules))
    (hignore : Ignore.build readers.patterns config.ignore = .ok ignore) :
    let found := fs.discover fs.here Language.supportedExtensions ignore s.operands
    outcome (checkReport .builtin readers fs s) { registry := .builtin } =
      match found.fault with
      | some e => .error (.fileSystem e)
      | none => .ok (Report.summary readers fs rules found.files) := by
  obtain ⟨session, hsession, hrun⟩ := h.run_checkReport
  exact (congrArg Prod.fst hrun).trans
    (Report.outcome_ofPaths (hrules session hsession).1 hignore s.operands)

end Ready

/-- A fault is the outcome of the check. -/
theorem Faults.outcome_eq {e : Failure} (h : Faults readers fs s e) :
    outcome (checkReport .builtin readers fs s) { registry := .builtin } = .error e := by
  cases h with
  | config faults =>
    rw [checkReport_eq]
    exact Yields.outcome_eq (faults.yields.bind_error _)
  | path loads specs operands known fails =>
    obtain ⟨overrides, hoverrides⟩ := Override.exists_parse specs
    rw [checkReport_eq]
    refine Yields.outcome_eq (loads.yields.bind ?_)
    unfold checkWith
    rw [hoverrides, operands, missingPaths_of_fails known fails]
    exact (gives_pure overrides).bind ((gives_throw _).bind_error _)
  | pattern ready bad => exact ready.outcome_of_pattern bad
  | search ready patterns fault =>
    obtain ⟨rules, hrules⟩ := ready.exists_yields_build
    rw [ready.outcome_of_patterns hrules patterns, fault]

/-- A check is refused, breaks off or gives a report. -/
theorem refused_or_faults_or_report (readers : Readers) (fs : FileSystem) (s : Settings) :
    (∃ text, Refused readers fs s text) ∨ (∃ e, Faults readers fs s e) ∨
      ∃ report, outcome (checkReport .builtin readers fs s) { registry := .builtin } =
        .ok report := by
  rcases refused_or_faults_or_ready readers fs s with
    hrefused | hfaults | ⟨config, overrides, hready⟩
  · exact Or.inl hrefused
  · exact Or.inr (Or.inl hfaults)
  · cases hignore : Ignore.build readers.patterns config.ignore with
    | error e => exact Or.inr (Or.inl ⟨_, .pattern hready hignore⟩)
    | ok ignore =>
      obtain ⟨rules, hrules⟩ := hready.exists_yields_build
      have houtcome := hready.outcome_of_patterns hrules hignore
      cases hfault : (fs.discover fs.here Language.supportedExtensions ignore s.operands).fault with
      | some e => exact Or.inr (Or.inl ⟨_, .search hready hignore hfault⟩)
      | none =>
        simp only [hfault] at houtcome
        exact Or.inr (Or.inr ⟨_, houtcome⟩)

/-- The errors of every report are its diagnostics. -/
theorem errorCount_of_checkReport {c : Catalogue} {session : Session} {report : Report}
    (h : outcome (checkReport c readers fs s) session = .ok report) :
    report.errorCount = report.diagnostics.length := by
  rw [checkReport_eq] at h
  obtain ⟨config, _, h⟩ := exists_of_outcome_bind h
  obtain ⟨overrides, _, h⟩ := exists_of_outcome_bind h
  obtain ⟨missing, _, h⟩ := exists_of_outcome_bind h
  dsimp only at h
  split at h
  next => cases h
  next => exact Report.errorCount_of_ofPaths h

/-! ### What is written -/

/-- The line that tells a text: the text without the blanks at its end. -/
def IsLineOf (text line : String) : Prop :=
  ∃ kept blanks, text.toList = kept ++ blanks ∧ (∀ c ∈ blanks, Text.isBlank c = true) ∧
    (∀ c, kept.getLast? = some c → Text.isBlank c = false) ∧ line = String.ofList kept ++ "\n"

/-- What is written of a failure is the line of its text. -/
theorem isLineOf_failureLine (e : Failure) : IsLineOf e.message (failureLine e) :=
  ⟨Text.stripEnd e.message.toList, e.message.toList.rtakeWhile Text.isBlank,
    (Text.stripEnd_append_rtakeWhile _).symm, fun _ hc ↦ List.mem_rtakeWhile_imp hc,
    fun _ hc ↦ Text.isBlank_of_getLast?_stripEnd hc, rfl⟩

/-- The logger of a check. -/
def logger (setting : Option String) (s : Settings) : Log.Logger :=
  ({} : Log.Logger).setup s.verbose setting

section Check

variable {c : Catalogue} {session : Session}

theorem check_of_error {e : Failure} (setting : Option String)
    (h : (checkReport c readers fs s).run { registry := .builtin } = (.error e, session)) :
    check c readers fs setting s =
      if e.isUserError then
        { ending := .refused e, stderr := (logger setting s).output session.log ++ failureLine e }
      else { ending := .crashed e, stderr := (logger setting s).output session.log } := by
  unfold check
  rw [h]
  rfl

theorem check_of_report {report : Report} (setting : Option String)
    (h : (checkReport c readers fs s).run { registry := .builtin } = (.ok report, session)) :
    check c readers fs setting s =
      { ending := .finished (if report.errorCount = 0 then 0 else 1)
        stdout := reportText s.format report
        stderr := (logger setting s).output session.log } := by
  unfold check
  rw [h]
  rfl

end Check

/-- A text is told: exit status two, nothing on standard output, and on standard error the line of
the text, which is not blank, with nothing but debug records before it. -/
structure Tells (r : Run) (log : Log.Logger) (text : String) : Prop where
  ending : ∃ e, r.ending = .refused e
  exitCode : r.exitCode = 2
  stdout : r.stdout = ""
  stderr : ∃ notes line, (∀ n ∈ notes, n.level = .debug) ∧ IsLineOf text line ∧
    r.stderr = log.output notes ++ line
  visible : ∃ c ∈ text.toList, Text.isBlank c = false

/-- Every text for the user says something. -/
theorem exists_visible_of_isUserError {e : Failure} (h : e.isUserError = true) :
    ∃ c ∈ e.message.toList, Text.isBlank c = false := by
  have hfront {a : String} (b : String) (ha : 'n' ∈ a.toList) : 'n' ∈ (a ++ b).toList := by
    rw [String.toList_append]
    exact List.mem_append_left _ ha
  have hback (a : String) {b : String} (hb : 'n' ∈ b.toList) : 'n' ∈ (a ++ b).toList := by
    rw [String.toList_append]
    exact List.mem_append_right _ hb
  -- One letter stands in the fixed part of them all.
  refine ⟨'n', ?_, by decide⟩
  cases e with
  | config e =>
    cases e with
    | unknownKeys | fileNotFound | notMapping => exact hfront _ (by decide +kernel)
    | invalidYaml => exact hfront _ (hfront _ (hfront _ (by decide +kernel)))
    | rulesNotMapping | ignoreNotPatterns => decide +kernel
    | entryUnknownKeys => exact hfront _ (hback _ (by decide +kernel))
    | enabledNotBoolean | badOverride => exact hback _ (by decide +kernel)
    | unordered | tooManyDigits | readerFault => cases h
  | registry e =>
    cases e with
    | unknown => exact hfront _ (by decide +kernel)
    | load => cases h
  | pathsNotFound => exact hfront _ (by decide +kernel)
  | pattern | read | fileSystem | extension => cases h

/-- The text of the first stage that fails is told. -/
theorem Refused.tells {text : String} (h : Refused readers fs s text) (setting : Option String) :
    (check .builtin readers fs setting s).Tells (logger setting s) text := by
  obtain ⟨e, hyields, huser, rfl⟩ := h.yields
  obtain ⟨session, hrun, hsession⟩ := hyields.run_eq Session.inOrder_builtin
  rw [check_of_error setting hrun, if_pos huser]
  exact ⟨⟨e, rfl⟩, rfl, rfl, ⟨session.log, _, hsession.debug, isLineOf_failureLine e, rfl⟩,
    exists_visible_of_isUserError huser⟩

/-- A fault ends the check. -/
theorem Faults.ending_eq {e : Failure} (h : Faults readers fs s e) (setting : Option String) :
    (check .builtin readers fs setting s).ending = .crashed e := by
  have hrun : (checkReport .builtin readers fs s).run { registry := .builtin } =
      (.error e, ((checkReport .builtin readers fs s).run { registry := .builtin }).2) :=
    Prod.ext h.outcome_eq rfl
  rw [check_of_error setting hrun, if_neg (by simp [h.isUserError])]

/-- A report is written and its diagnostics decide the exit status. -/
theorem ending_and_stdout_of_report {report : Report}
    (h : outcome (checkReport .builtin readers fs s) { registry := .builtin } = .ok report)
    (setting : Option String) :
    (check .builtin readers fs setting s).ending =
        .finished (if report.diagnostics = [] then 0 else 1) ∧
      (check .builtin readers fs setting s).stdout = reportText s.format report := by
  have hrun : (checkReport .builtin readers fs s).run { registry := .builtin } =
      (.ok report, ((checkReport .builtin readers fs s).run { registry := .builtin }).2) :=
    Prod.ext h rfl
  rw [check_of_report setting hrun]
  simp only [errorCount_of_checkReport h, List.length_eq_zero_iff, and_self]

/-- A check tells a text, breaks off or writes a report. -/
theorem check_cases (readers : Readers) (fs : FileSystem) (setting : Option String)
    (s : Settings) :
    (∃ text, Refused readers fs s text ∧
      (check .builtin readers fs setting s).Tells (logger setting s) text) ∨
    (∃ e, Faults readers fs s e ∧ (check .builtin readers fs setting s).ending = .crashed e) ∨
    ∃ report, outcome (checkReport .builtin readers fs s) { registry := .builtin } = .ok report ∧
      (check .builtin readers fs setting s).ending =
        .finished (if report.diagnostics = [] then 0 else 1) ∧
      (check .builtin readers fs setting s).stdout = reportText s.format report := by
  rcases refused_or_faults_or_report readers fs s with ⟨text, htext⟩ | ⟨e, he⟩ | ⟨report, hreport⟩
  · exact Or.inl ⟨text, htext, htext.tells setting⟩
  · exact Or.inr (Or.inl ⟨e, he, he.ending_eq setting⟩)
  · exact Or.inr (Or.inr ⟨report, hreport, ending_and_stdout_of_report hreport setting⟩)

theorem run_of_parse {arguments : List String} (h : CommandLine.parse arguments = .ok ⟨.check, s⟩)
    (c : Catalogue) (readers : Readers) (fs : FileSystem) (setting : Option String) :
    run c readers fs setting arguments = check c readers fs setting s := by
  rw [run, h]

/-! ### What is looked at -/

namespace AgreeBefore

variable {other : FileSystem}

end AgreeBefore

deriving instance DecidableEq for Invocation

/-- A check breaks off exactly for the causes in `Faults`. Without them it is carried out or tells
the user a text, and it tells one whenever the configuration does not load. -/
theorem bad_configuration_is_told (readers : Readers) (fs : FileSystem) (setting : Option String)
    (arguments : List String) (s : Settings)
    (hparse : CommandLine.parse arguments = .ok ⟨.check, s⟩) :
    let r := run .builtin readers fs setting arguments
    (∀ cause, r.ending = .crashed cause ↔ Faults readers fs s cause) ∧
    ((∀ cause, ¬Faults readers fs s cause) →
      (r.ending = .finished 0 ∨ r.ending = .finished 1 ∨
        ∃ text, r.Tells (logger setting s) text) ∧
      ((∀ config, ¬ConfigFile.Loads readers fs fs.here s.configPath config) →
        ∃ text, ConfigFile.Refused readers fs fs.here s.configPath text ∧
          r.Tells (logger setting s) text)) := by
  intro r
  have hr : r = check .builtin readers fs setting s :=
    run_of_parse hparse .builtin readers fs setting
  rw [hr]
  refine ⟨fun cause ↦ ⟨fun hcrashed ↦ ?_, fun hfaults ↦ hfaults.ending_eq setting⟩,
    fun hsound ↦ ⟨?_, fun hloads ↦ ?_⟩⟩
  · rcases check_cases readers fs setting s with
      ⟨text, -, htells⟩ | ⟨e, he, hending⟩ | ⟨report, -, hending, -⟩
    · obtain ⟨e, hending⟩ := htells.ending
      cases hending.symm.trans hcrashed
    · cases hending.symm.trans hcrashed
      exact he
    · cases hending.symm.trans hcrashed
  · rcases check_cases readers fs setting s with
      ⟨text, -, htells⟩ | ⟨e, he, -⟩ | ⟨report, -, hending, -⟩
    · exact Or.inr (Or.inr ⟨text, htells⟩)
    · exact absurd he (hsound e)
    · rw [hending]
      by_cases hnone : report.diagnostics = []
      · exact Or.inl (by rw [if_pos hnone])
      · exact Or.inr (Or.inl (by rw [if_neg hnone]))
  · rcases ConfigFile.loads_or_refused_or_faults readers fs fs.here s.configPath with
      ⟨config, hconfig⟩ | ⟨text, htext⟩ | ⟨e, he⟩
    · exact absurd hconfig (hloads config)
    · exact ⟨text, htext, Refused.tells (.config htext) setting⟩
    · exact absurd (.config he) (hsound e)

/-- A configuration that is named and is not there is told. -/
theorem bad_configuration_is_told_when_missing :
    let s : Settings := { config := some "nowhere.yaml" }
    let r := run .builtin .builtin mixedProject none ["check", "--config", "nowhere.yaml"]
    CommandLine.parse ["check", "--config", "nowhere.yaml"] = .ok ⟨.check, s⟩ ∧
    (∀ cause, ¬Faults .builtin mixedProject s cause) ∧
    ∃ text, ConfigFile.Refused .builtin mixedProject mixedProject.here s.configPath text ∧
      r.Tells (logger none s) text := by
  intro s r
  have hparse : CommandLine.parse ["check", "--config", "nowhere.yaml"] = .ok ⟨.check, s⟩ := by
    decide +kernel
  have hpath : s.configPath = some ⟨.relative, ["nowhere.yaml"]⟩ := by decide +kernel
  have hfile : mixedProject.isFile ⟨.relative, ["nowhere.yaml"]⟩ = .ok false := by decide +kernel
  have hrefused : ConfigFile.Refused .builtin mixedProject mixedProject.here s.configPath
      "Config file not found: nowhere.yaml" := by
    rw [hpath]
    exact .notFile hfile
  have htells := Refused.tells (.config hrefused) none
  rw [← run_of_parse hparse .builtin .builtin mixedProject none] at htells
  obtain ⟨hcrashed, htold⟩ := bad_configuration_is_told .builtin mixedProject none _ s hparse
  have hsound (cause : Failure) : ¬Faults .builtin mixedProject s cause := fun hfaults ↦ by
    obtain ⟨e, hending⟩ := htells.ending
    cases hending.symm.trans ((hcrashed cause).mpr hfaults)
  refine ⟨hparse, hsound, (htold hsound).2 fun config hloads ↦ ?_⟩
  rw [hpath] at hloads
  cases hloads with
  | file source =>
    cases source with
    | named isFile => cases hfile.symm.trans isFile

/-- A project with nothing but a configuration. -/
def configuredProject (bytes : List UInt8) : FileSystem where
  cwd := ["project"]
  root := .directory [("project", .directory [("spacelint.yaml", .file bytes)])]

theorem exists_crashed {r : Run} (h : (r.ending matches .crashed _) = true) :
    ∃ cause, r.ending = .crashed cause := by
  split at h
  · exact ⟨_, ‹_›⟩
  · cases h

/-- A byte that is not text, keys that have no order and a pattern without a path each break the
check off, and not a word is written. -/
theorem bad_configuration_is_untold :
    CommandLine.parse ["check"] = .ok ⟨.check, {}⟩ ∧
    ∀ bytes ∈ [[0xff], Text.Utf8.encode ['1', ':', ' ', 'x', '\n', 'a', ':', ' ', 'y'],
        Text.Utf8.encode ['i', 'g', 'n', 'o', 'r', 'e', ':', ' ', '"', '!', '"']],
      let r := run .builtin .builtin (configuredProject bytes) none ["check"]
      (∃ cause, r.ending = .crashed cause) ∧ r.stdout = "" ∧ r.stderr = "" := by
  refine ⟨rfl, fun bytes hbytes ↦ ?_⟩
  simp only [List.mem_cons, List.not_mem_nil, or_false] at hbytes
  rcases hbytes with rfl | rfl | rfl
  · exact ⟨exists_crashed (by decide +kernel), by decide +kernel, by decide +kernel⟩
  · exact ⟨exists_crashed (by decide +kernel), by decide +kernel, by decide +kernel⟩
  · exact ⟨exists_crashed (by decide +kernel), by decide +kernel, by decide +kernel⟩

theorem mixedProject_find : ConfigFile.find mixedProject mixedProject.here = .ok none := by
  decide +kernel

end Run

end BracketSpacing
