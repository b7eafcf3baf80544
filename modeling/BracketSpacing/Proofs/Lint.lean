import BracketSpacing.Lint
import BracketSpacing.Proofs.Diagnostic
import BracketSpacing.Proofs.Spacing
import BracketSpacing.Script.Program

/-!
Checking a source. The diagnostics of a source are what its rules report, region by region and rule
by rule (`Source.reports`), sorted by position with ties kept (`Source.lint_perm`,
`Source.lint_increasing`, `Source.filter_isAt_lint`), each under the path of the source
(`Source.path_of_mem_lint`). Rules do not disturb each other: the diagnostics of one rule are what
it reports alone (`filter_checkRegions`). `Source.lint_sorts_reports` puts this together.
-/

set_option autoImplicit false
set_option relaxedAutoImplicit false

namespace BracketSpacing

theorem Diagnostic.isAt_comp_withPath (line column : Int) (path : Option Path) :
    isAt line column ∘ withPath path = isAt line column := rfl

namespace Source

/-- What the rules report of a source, in the order in which they come to it. -/
def reports (rules : List Rule) (path : Option Path) (s : Source) : List Diagnostic :=
  s.regions.flatMap fun region ↦ rules.flatMap fun rule ↦
    (rule.check region).map (Diagnostic.withPath path)

theorem map_checkRegions (rules : List Rule) (path : Option Path) (s : Source) :
    (checkRegions rules s.regions).map (Diagnostic.withPath path) = s.reports rules path := by
  simp only [checkRegions, reports, List.map_flatMap]

/-- The diagnostics of a source are the reports on its regions. -/
theorem lint_perm (rules : List Rule) (path : Option Path) (s : Source) :
    (s.lint rules path).Perm (s.reports rules path) := by
  rw [← map_checkRegions]
  exact (Diagnostic.sorted_perm _).map _

/-- Every diagnostic is what some rule reports of some region. -/
theorem exists_of_mem_lint {rules : List Rule} {path : Option Path} {s : Source} {d : Diagnostic}
    (h : d ∈ s.lint rules path) :
    ∃ region ∈ s.regions, ∃ rule ∈ rules, ∃ report ∈ rule.check region,
      d = report.withPath path := by
  rw [(s.lint_perm rules path).mem_iff, reports, List.mem_flatMap] at h
  obtain ⟨region, hregion, h⟩ := h
  obtain ⟨rule, hrule, h⟩ := List.mem_flatMap.mp h
  obtain ⟨report, hreport, rfl⟩ := List.mem_map.mp h
  exact ⟨region, hregion, rule, hrule, report, hreport, rfl⟩

/-- Every diagnostic stands under the path that was given. -/
theorem path_of_mem_lint {rules : List Rule} {path : Option Path} {s : Source} {d : Diagnostic}
    (h : d ∈ s.lint rules path) : d.path = path := by
  obtain ⟨-, -, -, -, report, -, rfl⟩ := exists_of_mem_lint h
  rfl

/-- The diagnostics of a source are in the order of their positions. -/
theorem lint_increasing (rules : List Rule) (path : Option Path) (s : Source) :
    (s.lint rules path).Pairwise fun a b ↦
      a.line < b.line ∨ a.line = b.line ∧ a.column ≤ b.column := by
  refine List.pairwise_map.mpr ((Diagnostic.sorted_increasing _).imp ?_)
  intro a b hab
  exact Diagnostic.notAfter_iff.mp hab

/-- At one position the diagnostics keep the order of the reports. -/
theorem filter_isAt_lint (rules : List Rule) (path : Option Path) (s : Source)
    (line column : Int) :
    (s.lint rules path).filter (Diagnostic.isAt line column) =
      (s.reports rules path).filter (Diagnostic.isAt line column) := by
  rw [← map_checkRegions, lint, List.filter_map, List.filter_map, Diagnostic.isAt_comp_withPath,
    Diagnostic.filter_isAt_sorted]

/-- The diagnostics of one rule are its reports, in order. -/
theorem filter_lint (rules : List Rule) (path : Option Path) (s : Source) (id : String) :
    (s.lint rules path).filter (fun d ↦ d.rule = id) =
      (Diagnostic.sorted ((checkRegions rules s.regions).filter fun d ↦ d.rule = id)).map
        (Diagnostic.withPath path) := by
  rw [lint, List.filter_map, ← Diagnostic.filter_sorted]
  rfl

end Source

/-- The reports of a rule are what is left when those of the other rules are taken out. -/
theorem filter_checkRegions {earlier later : List Rule} {rule : Rule} {regions : List Region}
    {id : String} (hrule : ∀ region ∈ regions, ∀ d ∈ rule.check region, d.rule = id)
    (hothers : ∀ other ∈ earlier ++ later, ∀ region ∈ regions, ∀ d ∈ other.check region,
      d.rule ≠ id) :
    (checkRegions (earlier ++ rule :: later) regions).filter (fun d ↦ d.rule = id) =
      checkRegions [rule] regions := by
  have hnone (rules : List Rule) (hrules : rules ⊆ earlier ++ later) (region : Region)
      (hregion : region ∈ regions) :
      (rules.flatMap fun other ↦ other.check region).filter (fun d ↦ d.rule = id) = [] := by
    rw [List.filter_eq_nil_iff]
    intro d hd
    obtain ⟨other, hother, hcheck⟩ := List.mem_flatMap.mp hd
    simpa using hothers other (hrules hother) region hregion d hcheck
  unfold checkRegions
  rw [List.filter_flatMap]
  refine List.flatMap_congr ?_
  intro region hregion
  have hkept : (rule.check region).filter (fun d ↦ d.rule = id) = rule.check region := by
    rw [List.filter_eq_self]
    intro d hd
    simpa using hrule region hregion d hd
  rw [List.flatMap_append, List.filter_append, List.flatMap_cons, List.filter_append, hkept,
    hnone earlier (List.subset_append_left _ _) region hregion,
    hnone later (List.subset_append_right _ _) region hregion, List.flatMap_cons, List.flatMap_nil,
    List.nil_append]

/-- The diagnostics of a source are its reports by position, ties in the order of the reports, all
under the source's path, and those of a rule with an id of its own are what it gives alone. -/
theorem Source.lint_sorts_reports (s : Source) (rules : List Rule) (path : Option Path) :
    (s.lint rules path).Perm (s.reports rules path) ∧
    (∀ d ∈ s.lint rules path, d.path = path) ∧
    (s.lint rules path).Pairwise (fun a b ↦
      a.line < b.line ∨ a.line = b.line ∧ a.column ≤ b.column) ∧
    (∀ line column : Int,
      (s.lint rules path).filter (fun d ↦ d.line = line ∧ d.column = column) =
        (s.reports rules path).filter (fun d ↦ d.line = line ∧ d.column = column)) ∧
    ∀ (earlier later : List Rule) (rule : Rule) (id : String),
      rules = earlier ++ rule :: later →
      (∀ region ∈ s.regions, ∀ d ∈ rule.check region, d.rule = id) →
      (∀ other ∈ earlier ++ later, ∀ region ∈ s.regions, ∀ d ∈ other.check region,
        d.rule ≠ id) →
      (s.lint rules path).filter (fun d ↦ d.rule = id) = s.lint [rule] path := by
  refine ⟨s.lint_perm rules path, fun d hd ↦ path_of_mem_lint hd, s.lint_increasing rules path,
    s.filter_isAt_lint rules path, ?_⟩
  intro earlier later rule id hrules hrule hothers
  rw [Source.filter_lint, hrules, filter_checkRegions hrule hothers]
  rfl

def nestedText : List Char := ['a', '[', ' ', 'b', '[', ' ', 'c', ' ', ']', ' ', ']']

/-- The source `a[ b[ c ] ]`, where the brackets of one access stand between those of another. -/
def nestedSource : Source :=
  ⟨Document.ofText nestedText, (Script.parse ⟨false, true⟩ nestedText).root, false⟩

/-- A rule that reports every region at its owner. -/
def ownerRule : Rule where
  definition :=
    { name := "OwnerRule"
      info := { id := "owner", type := "layout", description := "", docsUrl := "" }
      mode := fun _ ↦ none
      check := fun _ r ↦ [.ofPosition "owner" r.owner "owner"] }
  options := []

/-- The reports come out of order and from two rules; those of one are its diagnostics alone, all
under the path of the source. -/
theorem Source.lint_sorts_reports_of_nested :
    let rules : List Rule := [ownerRule, ⟨Spacing.definition, []⟩]
    let path : Path := ⟨.relative, ["src", "nested.js"]⟩
    (nestedSource.reports rules path).map (·.column) = [0, 1, 10, 3, 4, 8] ∧
    (∀ d ∈ nestedSource.lint rules path, d.path = some path) ∧
    (nestedSource.lint rules path).filter (fun d ↦ d.rule = Spacing.ruleId) =
      nestedSource.lint [⟨Spacing.definition, []⟩] path := by
  intro rules path
  obtain ⟨-, hpath, -, -, halone⟩ := Source.lint_sorts_reports nestedSource rules path
  refine ⟨by decide +kernel, hpath, ?_⟩
  refine halone [ownerRule] [] ⟨Spacing.definition, []⟩ Spacing.ruleId rfl ?_ ?_
  · intro region _ d hd
    change d ∈ Spacing.evaluate (Mode.ofOptions []) region at hd
    exact Spacing.rule_of_mem_evaluate hd
  · intro other hother region _ d hd
    cases List.mem_singleton.mp hother
    rw [List.mem_singleton.mp hd]
    change "owner" ≠ "computed-property-even-spacing"
    decide

end BracketSpacing
