import BracketSpacing.Spacing
import Mathlib.Data.List.Basic

/-!
What the modes report of a region, whatever its tokens are (`evaluate_never`, `evaluate_always`,
`evaluate_even_eq_nil`). The messages about the leading and the trailing gap never coincide, so a
report tells which gap it is about (`noSpaceAfter_mem_never` and its three companions).
-/

set_option autoImplicit false
set_option relaxedAutoImplicit false

namespace BracketSpacing.Spacing

/-! ### Messages -/

/-- Texts whose fixed beginnings differ at some character differ, whatever follows. -/
theorem append_ne_append {a b : String} (i : Nat) (ha : i < a.toList.length)
    (hb : i < b.toList.length) (h : a.toList[i]? ≠ b.toList[i]?) (x y : String) :
    a ++ x ≠ b ++ y := by
  intro heq
  have hchar := congrArg (fun s : String ↦ s.toList[i]?) heq
  simp only [String.toList_append] at hchar
  rw [List.getElem?_append_left ha, List.getElem?_append_left hb] at hchar
  exact h hchar

/-- The two messages about an unwanted gap differ, whatever they quote. -/
theorem noSpaceAfter_ne_noSpaceBefore (t u : Token) : noSpaceAfter t ≠ noSpaceBefore u := by
  intro h
  have hmessage : "There should be no space after '" ++ (t.text ++ "'") =
      "There should be no space before '" ++ (u.text ++ "'") := by
    rw [← String.append_assoc, ← String.append_assoc]
    exact congrArg Diagnostic.message h
  exact append_ne_append 25 (by decide) (by decide) (by decide) _ _ hmessage

/-- The two messages about a missing gap differ, whatever they quote. -/
theorem spaceRequiredAfter_ne_spaceRequiredBefore (t u : Token) :
    spaceRequiredAfter t ≠ spaceRequiredBefore u := by
  intro h
  have hmessage : "A space is required after '" ++ (t.text ++ "'") =
      "A space is required before '" ++ (u.text ++ "'") := by
    rw [← String.append_assoc, ← String.append_assoc]
    exact congrArg Diagnostic.message h
  exact append_ne_append 20 (by decide) (by decide) (by decide) _ _ hmessage

/-! ### Gaps -/

theorem judgeGap_unwanted (sameLine spaced : Bool) (whenMissing whenPresent : Diagnostic) :
    judgeGap false sameLine spaced whenMissing whenPresent =
      if sameLine && spaced then [whenPresent] else [] := by
  cases sameLine <;> cases spaced <;> rfl

theorem judgeGap_wanted (sameLine spaced : Bool) (whenMissing whenPresent : Diagnostic) :
    judgeGap true sameLine spaced whenMissing whenPresent =
      if sameLine && !spaced then [whenMissing] else [] := by
  cases sameLine <;> cases spaced <;> rfl

/-- `never` reports the gaps on a line, the leading one first. -/
theorem evaluate_never (r : Region) :
    evaluate .never r =
      (if r.leadingSameLine && r.leadingSpaced then [noSpaceAfter r.before] else []) ++
        if r.trailingSameLine && r.trailingSpaced then [noSpaceBefore r.after] else [] := by
  rw [evaluate, judgeLeading, judgeTrailing, judgeGap_unwanted, judgeGap_unwanted]

/-- `always` reports the missing gaps on a line, the leading one first. -/
theorem evaluate_always (r : Region) :
    evaluate .always r =
      (if r.leadingSameLine && !r.leadingSpaced then [spaceRequiredAfter r.before] else []) ++
        if r.trailingSameLine && !r.trailingSpaced then [spaceRequiredBefore r.after] else [] := by
  rw [evaluate, judgeLeading, judgeTrailing, judgeGap_wanted, judgeGap_wanted]

theorem mem_append_leading {a b : Diagnostic} (h : a ≠ b) (leading trailing : Bool) :
    a ∈ (if leading then [a] else []) ++ (if trailing then [b] else []) ↔ leading := by
  cases leading <;> cases trailing <;> simp [h]

theorem mem_append_trailing {a b : Diagnostic} (h : a ≠ b) (leading trailing : Bool) :
    b ∈ (if leading then [a] else []) ++ (if trailing then [b] else []) ↔ trailing := by
  cases leading <;> cases trailing <;> simp [h.symm]

/-- `never` reports the leading gap exactly if the tokens start on one line and do not touch. -/
theorem noSpaceAfter_mem_never (r : Region) :
    noSpaceAfter r.before ∈ evaluate .never r ↔
      r.before.startLine = r.first.startLine ∧ r.before.stop < r.first.start := by
  rw [evaluate_never, mem_append_leading (noSpaceAfter_ne_noSpaceBefore _ _)]
  simp [Region.leadingSameLine, Region.leadingSpaced, Token.sameLine, Token.spaced]

/-- `never` reports the trailing gap exactly if the tokens start on one line and do not touch. -/
theorem noSpaceBefore_mem_never (r : Region) :
    noSpaceBefore r.after ∈ evaluate .never r ↔
      r.last.startLine = r.after.startLine ∧ r.last.stop < r.after.start := by
  rw [evaluate_never, mem_append_trailing (noSpaceAfter_ne_noSpaceBefore _ _)]
  simp [Region.trailingSameLine, Region.trailingSpaced, Token.sameLine, Token.spaced]

/-- `always` asks for a leading gap exactly if the tokens start on one line and touch. -/
theorem spaceRequiredAfter_mem_always (r : Region) :
    spaceRequiredAfter r.before ∈ evaluate .always r ↔
      r.before.startLine = r.first.startLine ∧ r.first.start ≤ r.before.stop := by
  rw [evaluate_always, mem_append_leading (spaceRequiredAfter_ne_spaceRequiredBefore _ _)]
  simp [Region.leadingSameLine, Region.leadingSpaced, Token.sameLine, Token.spaced]

/-- `always` asks for a trailing gap exactly if the tokens start on one line and touch. -/
theorem spaceRequiredBefore_mem_always (r : Region) :
    spaceRequiredBefore r.after ∈ evaluate .always r ↔
      r.last.startLine = r.after.startLine ∧ r.after.start ≤ r.last.stop := by
  rw [evaluate_always, mem_append_trailing (spaceRequiredAfter_ne_spaceRequiredBefore _ _)]
  simp [Region.trailingSameLine, Region.trailingSpaced, Token.sameLine, Token.spaced]

/-- `even` is content with brackets on one line and gaps of the same width, one column at most. -/
theorem evaluate_even_eq_nil (r : Region) :
    evaluate .even r = [] ↔
      r.before.startLine = r.after.startLine ∧
        r.leadingColumns = r.trailingColumns ∧ r.trailingColumns ≤ 1 := by
  unfold evaluate judgeEven Token.sameLine
  by_cases hline : r.before.startLine = r.after.startLine
  · by_cases heven : r.leadingColumns = r.trailingColumns
    · by_cases hwide : r.trailingColumns ≤ 1
      · simp [hline, heven, hwide]
      · simp [hline, heven, hwide, Int.not_le.mp hwide]
    · simp [hline, heven]
  · simp [hline]

/-- `even` reports a region once at most. -/
theorem length_evaluate_even (r : Region) : (evaluate .even r).length ≤ 1 := by
  rw [evaluate, judgeEven]
  split_ifs <;> simp

/-! ### The rule's id -/

theorem eq_or_eq_of_mem_append {a b d : Diagnostic} {leading trailing : Bool}
    (h : d ∈ (if leading then [a] else []) ++ (if trailing then [b] else [])) : d = a ∨ d = b := by
  rcases List.mem_append.mp h with hleading | htrailing
  · split_ifs at hleading
    · exact Or.inl (List.mem_singleton.mp hleading)
    · cases hleading
  · split_ifs at htrailing
    · exact Or.inr (List.mem_singleton.mp htrailing)
    · cases htrailing

/-- Every report names the rule. -/
theorem rule_of_mem_evaluate {mode : Mode} {r : Region} {d : Diagnostic}
    (h : d ∈ evaluate mode r) : d.rule = ruleId := by
  cases mode with
  | never =>
    rw [evaluate_never] at h
    rcases eq_or_eq_of_mem_append h with rfl | rfl <;> rfl
  | always =>
    rw [evaluate_always] at h
    rcases eq_or_eq_of_mem_append h with rfl | rfl <;> rfl
  | even =>
    rw [evaluate, judgeEven] at h
    split_ifs at h
    · rw [List.mem_singleton.mp h]
      rfl
    · rw [List.mem_singleton.mp h]
      rfl
    · cases h

end BracketSpacing.Spacing
