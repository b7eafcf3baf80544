import BracketSpacing.Ignore.Pattern
import Mathlib.Data.List.Basic

/-!
Patterns and what is below the paths they match. A pattern for directories, one that ends in a
slash, never asks where a path ends: what it matches it still matches when the path goes on
(`Matcher.matches_append`). A pattern for names does ask, and may match a directory and nothing in
it. So patterns for directories alone, none of them negated, ignore all that is below a directory
that they ignore (`Spec.ignores_below`).
-/

set_option autoImplicit false
set_option relaxedAutoImplicit false

namespace BracketSpacing.Ignore

/-! ### What is left behind a step -/

theorem self_mem_restsOfRun (path : List Char) : path ∈ restsOfRun path := by
  cases path with
  | nil => exact List.mem_singleton.mpr rfl
  | cons c rest => exact List.mem_cons_self

section Append

variable {path rest : List Char} (more : List Char)

/-- What a run of characters leaves of a path it leaves of a longer path too, with the same
addition. -/
theorem append_mem_restsOfRun (h : rest ∈ restsOfRun path) :
    rest ++ more ∈ restsOfRun (path ++ more) := by
  induction path with
  | nil =>
    cases List.mem_singleton.mp h
    exact self_mem_restsOfRun more
  | cons c tail ih =>
    rw [restsOfRun, List.mem_cons] at h
    rw [List.cons_append, restsOfRun, List.mem_cons]
    obtain rfl | h := h
    · exact Or.inl rfl
    · split_ifs at h ⊢
      · cases h
      · exact Or.inr (ih h)

/-- What a glyph leaves of a path it leaves of a longer path too. -/
theorem Glyph.append_mem_rests {g : Glyph} (h : rest ∈ g.rests path) :
    rest ++ more ∈ g.rests (path ++ more) := by
  cases g with
  | anyRun => exact append_mem_restsOfRun more h
  | literal | anyOne | oneOf =>
    cases path with
    | nil => cases h
    | cons c tail =>
      simp only [rests, List.cons_append] at h ⊢
      split_ifs at h ⊢
      · cases List.mem_singleton.mp h
        exact List.mem_singleton.mpr rfl
      · cases h

/-- Rests behind a slash stay rests when the path goes on. -/
theorem append_mem_restsBehindSlashes {first : Bool} (h : rest ∈ restsBehindSlashes first path) :
    rest ++ more ∈ restsBehindSlashes first (path ++ more) := by
  induction path generalizing first with
  | nil => cases h
  | cons c tail ih =>
    rw [List.cons_append, restsBehindSlashes]
    rw [restsBehindSlashes] at h
    have hmore (hmem : rest ∈ if c = '\n' then [] else restsBehindSlashes false tail) :
        rest ++ more ∈ if c = '\n' then [] else restsBehindSlashes false (tail ++ more) := by
      split_ifs at hmem ⊢
      · cases hmem
      · exact ih hmem
    by_cases hslash : (c = '/' && !first) = true
    · rw [if_pos hslash] at h ⊢
      obtain rfl | hmem := List.mem_cons.mp h
      · exact List.mem_cons_self
      · exact List.mem_cons_of_mem _ (hmore hmem)
    · rw [if_neg hslash] at h ⊢
      exact hmore h

theorem append_mem_restsOfAnything (h : rest ∈ restsOfAnything path) :
    rest ++ more ∈ restsOfAnything (path ++ more) := by
  induction path with
  | nil => cases h
  | cons c tail ih =>
    rw [List.cons_append, restsOfAnything]
    rw [restsOfAnything] at h
    split_ifs at h ⊢
    · cases h
    · obtain rfl | hmem := List.mem_cons.mp h
      · exact List.mem_cons_self
      · exact List.mem_cons_of_mem _ (ih hmem)

theorem self_mem_innerDirectories (path : List Char) :
    path ∈ Piece.innerDirectories.rests path := by
  simp only [Piece.rests]
  split
  · exact List.mem_cons_self
  · exact List.mem_singleton.mpr rfl

/-- A step other than the end of a name can be taken when the path goes on. -/
theorem Piece.append_mem_rests {p : Piece} (hp : p ≠ .nameEnd) (h : rest ∈ p.rests path) :
    rest ++ more ∈ p.rests (path ++ more) := by
  cases p with
  | glyph g => exact Glyph.append_mem_rests more h
  | slash =>
    simp only [rests] at h
    split at h
    · cases List.mem_singleton.mp h
      exact List.mem_singleton.mpr rfl
    · cases h
  | leadingDirectories =>
    obtain rfl | hmem := List.mem_cons.mp h
    · exact List.mem_cons_self
    · exact List.mem_cons_of_mem _ (append_mem_restsBehindSlashes more hmem)
  | innerDirectories =>
    simp only [rests] at h
    split at h
    · obtain rfl | hmem := List.mem_cons.mp h
      · exact List.mem_cons_self
      · exact List.mem_cons_of_mem _ (append_mem_restsOfAnything more hmem)
    · cases List.mem_singleton.mp h
      exact self_mem_innerDirectories _
  | nameEnd => exact absurd rfl hp

end Append

/-! ### Patterns for directories -/

/-- Whether a matcher never asks where a path ends. -/
def Matcher.IsOpen : Matcher → Prop
  | .pieces ps => .nameEnd ∉ ps
  | _ => True

instance : DecidablePred Matcher.IsOpen
  | .pieces ps => inferInstanceAs (Decidable (.nameEnd ∉ ps))
  | .nothing | .anyPath | .nested => inferInstanceAs (Decidable True)

/-- Pieces that do not ask for the end of a name match a path that goes on. -/
theorem matchPieces_append {ps : List Piece} (hps : .nameEnd ∉ ps) {path : List Char}
    (h : matchPieces ps path) (more : List Char) : matchPieces ps (path ++ more) := by
  induction ps generalizing path with
  | nil => rfl
  | cons p rest ih =>
    rw [List.mem_cons, not_or] at hps
    rw [matchPieces, List.any_eq_true] at h ⊢
    obtain ⟨left, hleft, hmatch⟩ := h
    exact ⟨left ++ more, Piece.append_mem_rests more (Ne.symm hps.1) hleft, ih hps.2 hmatch⟩

/-- A matcher that does not ask where a path ends matches a path that goes on. -/
theorem Matcher.matches_append {m : Matcher} (hm : m.IsOpen) {path : List Char}
    (h : m.matches path) (more : List Char) : m.matches (path ++ more) := by
  cases m with
  | nothing => cases h
  | anyPath =>
    simp only [Matcher.matches] at h ⊢
    rw [List.any_append, h, Bool.true_or]
  | nested =>
    simp only [Matcher.matches] at h ⊢
    rw [List.contains_eq_mem, decide_eq_true_eq] at h ⊢
    exact List.mem_append_left more h
  | pieces ps => exact matchPieces_append hm h more

/-- A path that says something is normalized at its front alone. -/
theorem normalize_append {path : List Char} (hne : path ≠ []) (hdot : path ≠ ['.'])
    (more : List Char) : normalize (path ++ more) = normalize path ++ more := by
  rcases path with _ | ⟨c, _ | ⟨d, rest⟩⟩
  · exact absurd rfl hne
  · by_cases hc : c = '/'
    · rw [hc]
      rfl
    · have hc' : c ≠ '.' := fun heq ↦ hdot (by rw [heq])
      simp [normalize, hc, hc']
  · by_cases hc : c = '/'
    · rw [hc]
      rfl
    · by_cases hd : c = '.' ∧ d = '/'
      · rw [hd.1, hd.2]
        rfl
      · have hsame (tail : List Char) : normalize (c :: d :: tail) = c :: d :: tail := by
          rw [normalize]
          · simp [hc]
          · simpa using hd
        rw [hsame, List.cons_append, List.cons_append, hsame]

/-- Of patterns none of which takes a path back in, one that matches is enough. -/
theorem Spec.ignores_iff {s : Spec} (h : ∀ p ∈ s.patterns, p.negated = false) {path : String} :
    s.ignores path ↔ ∃ p ∈ s.patterns, p.matcher.matches (normalize path.toList) := by
  unfold ignores
  dsimp only
  cases hfind : s.patterns.reverse.find? (·.matcher.matches (normalize path.toList)) with
  | none => simpa using List.find?_eq_none.mp hfind
  | some p =>
    have hmem := List.mem_reverse.mp (List.mem_of_find?_eq_some hfind)
    have hmatch := List.find?_some hfind
    simpa [h p hmem] using ⟨p, hmem, hmatch⟩

/-- Patterns for directories ignore what is below a directory that they ignore. -/
theorem Spec.ignores_below {s : Spec} (hnegated : ∀ p ∈ s.patterns, p.negated = false)
    (hopen : ∀ p ∈ s.patterns, p.matcher.IsOpen) {directory : String}
    (h : s.ignores (directory ++ "/")) (below : String) :
    s.ignores (directory ++ "/" ++ below) := by
  rw [ignores_iff hnegated] at h ⊢
  obtain ⟨p, hp, hmatch⟩ := h
  refine ⟨p, hp, ?_⟩
  rw [String.toList_append, normalize_append]
  · exact Matcher.matches_append (hopen p hp) hmatch _
  · simp
  · -- The text ends in a slash.
    simp [List.append_eq_singleton_iff]

end BracketSpacing.Ignore
