import BracketSpacing.Proofs.Lint

/-!
The modes `never` and `always` side by side. Each region has two boundaries, a leading and a
trailing one, and a boundary is checked when the tokens on both sides of it start on one line. Of
the checked boundaries `never` reports those with a gap (`lint_never_perm`) and `always` those
without (`lint_always_perm`), at the same bracket, whatever the tokens are. So the two modes share
the checked boundaries of a source between them (`never_and_always_share_boundaries`).
-/

set_option autoImplicit false
set_option relaxedAutoImplicit false

namespace BracketSpacing

/-! ### Boundaries -/

inductive Boundary.Side where
  | leading
  | trailing
  deriving DecidableEq, Repr

/-- One of the two places of a region at which spaces are judged. -/
structure Boundary where
  region : Region
  side : Boundary.Side
  deriving DecidableEq, Repr

namespace Boundary

/-- The bracket at a boundary. -/
def bracket (b : Boundary) : Token :=
  match b.side with
  | .leading => b.region.before
  | .trailing => b.region.after

def left (b : Boundary) : Token :=
  match b.side with
  | .leading => b.region.before
  | .trailing => b.region.last

def right (b : Boundary) : Token :=
  match b.side with
  | .leading => b.region.first
  | .trailing => b.region.after

/-- Boundaries across lines are not checked. -/
def checked (b : Boundary) : Bool := b.left.startLine = b.right.startLine

/-- Whether there is a gap at a boundary. -/
def spaced (b : Boundary) : Bool := b.left.stop < b.right.start

/-- A boundary is checked if both tokens start on one line. -/
theorem checked_iff {b : Boundary} : b.checked ↔ b.left.startLine = b.right.startLine :=
  decide_eq_true_iff

/-- There is a gap if the left token ends before the right one starts. -/
theorem spaced_iff {b : Boundary} : b.spaced ↔ b.left.stop < b.right.start := decide_eq_true_iff

/-- The report of a gap that is not wanted. -/
def unwantedGap (b : Boundary) : Diagnostic :=
  match b.side with
  | .leading => Spacing.noSpaceAfter b.bracket
  | .trailing => Spacing.noSpaceBefore b.bracket

/-- The report of a gap that is wanted and not there. -/
def missingGap (b : Boundary) : Diagnostic :=
  match b.side with
  | .leading => Spacing.spaceRequiredAfter b.bracket
  | .trailing => Spacing.spaceRequiredBefore b.bracket

@[simp] theorem position_unwantedGap (b : Boundary) :
    b.unwantedGap.position = b.bracket.startPosition := by
  obtain ⟨r, side⟩ := b
  cases side <;> rfl

@[simp] theorem position_missingGap (b : Boundary) :
    b.missingGap.position = b.bracket.startPosition := by
  obtain ⟨r, side⟩ := b
  cases side <;> rfl

end Boundary

/-- The boundaries of a region, the leading one first. -/
def Region.boundaries (r : Region) : List Boundary := [⟨r, .leading⟩, ⟨r, .trailing⟩]

/-- The boundaries of a source that are checked, region by region. -/
def Source.checkedBoundaries (s : Source) : List Boundary :=
  (s.regions.flatMap Region.boundaries).filter Boundary.checked

/-! ### What the modes report of a region -/

namespace Spacing

theorem map_filter_pair {α β : Type} (keep : α → Bool) (f : α → β) (a b : α) :
    ([a, b].filter keep).map f =
      (if keep a then [f a] else []) ++ if keep b then [f b] else [] := by
  cases ha : keep a <;> cases hb : keep b <;> simp [ha, hb]

/-- `never` reports the gaps at the checked boundaries of a region, the leading one first. -/
theorem evaluate_never_eq_map (r : Region) :
    evaluate .never r =
      (r.boundaries.filter fun b ↦ b.checked && b.spaced).map Boundary.unwantedGap := by
  rw [evaluate_never, Region.boundaries, map_filter_pair]
  rfl

/-- `always` reports the checked boundaries of a region without a gap, the leading one first. -/
theorem evaluate_always_eq_map (r : Region) :
    evaluate .always r =
      (r.boundaries.filter fun b ↦ b.checked && !b.spaced).map Boundary.missingGap := by
  rw [evaluate_always, Region.boundaries, map_filter_pair]
  rfl

/-- At a boundary of the region, `never` reports a gap exactly if it is checked and there is one. -/
theorem unwantedGap_mem_never {r : Region} {b : Boundary} (hb : b ∈ r.boundaries) :
    b.unwantedGap ∈ evaluate .never r ↔ b.checked ∧ b.spaced := by
  simp only [Region.boundaries, List.mem_cons, List.not_mem_nil, or_false] at hb
  rw [Boundary.checked_iff, Boundary.spaced_iff]
  rcases hb with rfl | rfl
  · exact noSpaceAfter_mem_never r
  · exact noSpaceBefore_mem_never r

/-- At a boundary of the region, `always` reports a missing gap exactly if it is checked and there
is none. -/
theorem missingGap_mem_always {r : Region} {b : Boundary} (hb : b ∈ r.boundaries) :
    b.missingGap ∈ evaluate .always r ↔ b.checked ∧ ¬b.spaced := by
  simp only [Region.boundaries, List.mem_cons, List.not_mem_nil, or_false] at hb
  rw [Boundary.checked_iff, Boundary.spaced_iff, Int.not_lt]
  rcases hb with rfl | rfl
  · exact spaceRequiredAfter_mem_always r
  · exact spaceRequiredBefore_mem_always r

end Spacing

/-! ### What the modes report of a source -/

namespace Source

variable (s : Source) (path : Option Path) {options : List Value}

/-- What is said of every region at its boundaries is said of all boundaries of the source. -/
theorem reports_eq_map {mode : Mode} {keep : Boundary → Bool} {report : Boundary → Diagnostic}
    (hmode : Mode.ofOptions options = mode)
    (h : ∀ r, Spacing.evaluate mode r =
      (r.boundaries.filter fun b ↦ b.checked && keep b).map report) :
    s.reports [⟨Spacing.definition, options⟩] path =
      (s.checkedBoundaries.filter keep).map fun b ↦ (report b).withPath path := by
  have hcheck (r : Region) :
      Rule.check ⟨Spacing.definition, options⟩ r =
        ((r.boundaries.filter Boundary.checked).filter keep).map report := by
    change Spacing.evaluate (Mode.ofOptions options) r = _
    rw [hmode, h, List.filter_filter]
    simp only [Bool.and_comm]
  rw [reports, checkedBoundaries, List.filter_flatMap, List.filter_flatMap, List.map_flatMap]
  refine List.flatMap_congr fun r _ ↦ ?_
  rw [List.flatMap_singleton, hcheck, List.map_map]
  rfl

/-- Under `never` a source has one report for each checked boundary with a gap. -/
theorem lint_never_perm (h : Mode.ofOptions options = .never) :
    (s.lint [⟨Spacing.definition, options⟩] path).Perm
      ((s.checkedBoundaries.filter Boundary.spaced).map fun b ↦ b.unwantedGap.withPath path) := by
  rw [← s.reports_eq_map path h Spacing.evaluate_never_eq_map]
  exact s.lint_perm _ path

/-- Under `always` a source has one report for each checked boundary without a gap. -/
theorem lint_always_perm (h : Mode.ofOptions options = .always) :
    (s.lint [⟨Spacing.definition, options⟩] path).Perm
      ((s.checkedBoundaries.filter (!·.spaced)).map fun b ↦ b.missingGap.withPath path) := by
  rw [← s.reports_eq_map path h Spacing.evaluate_always_eq_map]
  exact s.lint_perm _ path

end Source

/-- Of the boundaries of a region, the checked ones are each reported by one of the modes `never`
and `always` and not by the other, the unchecked ones by neither. Over a whole source `never`
reports the checked boundaries with a gap and `always` those without, each once and at its bracket,
so the positions of both results together are those of the checked boundaries. -/
theorem Source.never_and_always_share_boundaries (s : Source) (path : Option Path)
    (never always : List Value) (hnever : Mode.ofOptions never = .never)
    (halways : Mode.ofOptions always = .always) :
    let whenNever := s.lint [⟨Spacing.definition, never⟩] path
    let whenAlways := s.lint [⟨Spacing.definition, always⟩] path
    (∀ r ∈ s.regions, ∀ b ∈ r.boundaries,
      (b.checked → Xor (b.unwantedGap ∈ Spacing.evaluate .never r)
        (b.missingGap ∈ Spacing.evaluate .always r)) ∧
      (¬b.checked → b.unwantedGap ∉ Spacing.evaluate .never r ∧
        b.missingGap ∉ Spacing.evaluate .always r)) ∧
    whenNever.Perm
      ((s.checkedBoundaries.filter Boundary.spaced).map fun b ↦ b.unwantedGap.withPath path) ∧
    whenAlways.Perm
      ((s.checkedBoundaries.filter (!·.spaced)).map fun b ↦ b.missingGap.withPath path) ∧
    (∀ b : Boundary, b.unwantedGap.position = b.bracket.startPosition ∧
      b.missingGap.position = b.bracket.startPosition) ∧
    (whenNever.map Diagnostic.position ++ whenAlways.map Diagnostic.position).Perm
      (s.checkedBoundaries.map fun b ↦ b.bracket.startPosition) := by
  intro whenNever whenAlways
  have hspaced := s.lint_never_perm path hnever
  have htight := s.lint_always_perm path halways
  refine ⟨fun r _ b hb ↦ ?_, hspaced, htight,
    fun b ↦ ⟨b.position_unwantedGap, b.position_missingGap⟩, ?_⟩
  · rw [Spacing.unwantedGap_mem_never hb, Spacing.missingGap_mem_always hb]
    by_cases hgap : b.spaced <;> simp [Xor, hgap]
  · have hpositions := (hspaced.map Diagnostic.position).append (htight.map Diagnostic.position)
    simp only [List.map_map, Function.comp_def, Diagnostic.position_withPath,
      Boundary.position_unwantedGap, Boundary.position_missingGap, ← List.map_append] at hpositions
    rw [← List.map_append]
    exact hpositions.trans ((List.filter_append_perm Boundary.spaced _).map _)

def twoLineText : List Char := ['x', '[', '\n', 'y', '[', ' ', 'z', ']', ']']

/-- The source `x[⏎y[ z]]`: the leading boundary of the outer access goes across lines. -/
def twoLineSource : Source :=
  ⟨Document.ofText twoLineText, (Script.parse ⟨false, true⟩ twoLineText).root, false⟩

/-- `never` reports the inner opening bracket, `always` the two closing ones. -/
theorem Source.never_and_always_share_boundaries_of_twoLineSource :
    Mode.ofOptions [] = .never ∧ Mode.ofOptions [.str "always"] = .always ∧
    (twoLineSource.lint [⟨Spacing.definition, []⟩] none).map Diagnostic.position = [⟨2, 1⟩] ∧
    (twoLineSource.checkedBoundaries.map fun b ↦ b.bracket.startPosition) =
      [⟨2, 5⟩, ⟨2, 1⟩, ⟨2, 4⟩] ∧
    ((twoLineSource.lint [⟨Spacing.definition, []⟩] none).map Diagnostic.position ++
      (twoLineSource.lint [⟨Spacing.definition, [.str "always"]⟩] none).map
        Diagnostic.position).Perm [⟨2, 5⟩, ⟨2, 1⟩, ⟨2, 4⟩] := by
  have hnever : Mode.ofOptions [] = .never := rfl
  have halways : Mode.ofOptions [.str "always"] = .always := rfl
  have hchecked : (twoLineSource.checkedBoundaries.map fun b ↦ b.bracket.startPosition) =
      [⟨2, 5⟩, ⟨2, 1⟩, ⟨2, 4⟩] := by decide +kernel
  have hboth := Source.never_and_always_share_boundaries twoLineSource none [] [.str "always"]
    hnever halways
  exact ⟨hnever, halways, by decide +kernel, hchecked, hchecked ▸ hboth.2.2.2.2⟩

end BracketSpacing
