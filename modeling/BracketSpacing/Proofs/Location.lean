import BracketSpacing.Proofs.Lint
import BracketSpacing.Proofs.Recovery

/-!
Where the diagnostics of the linter's own rule stand. When every node of a tree covers characters of
the text and every bracket is its own character, a diagnostic stands on a line of the text. In the
modes `never` and `always` the character there is the bracket that the message quotes
(`exists_bracket_of_mem_evaluate`), an opening one after which or a closing one before which there
is something to mend; in the mode `even` it is the start of the access or property that owns the
brackets (`position_of_mem_evaluate_even`). `diagnostics_point_at_what_they_name` says so for every
way to run the rule beside others.
-/

set_option autoImplicit false
set_option relaxedAutoImplicit false

namespace BracketSpacing

open Text BracketSpacing.Tree

/-! ### Places as lines and columns -/

namespace Text

/-- A place as a line, counting from one, and a column. -/
def positionAt (text : List Char) (i : Nat) : Position :=
  ⟨row text i + 1, (lineBefore text i).length⟩

/-- The whole line of a place. -/
def lineAt (text : List Char) (i : Nat) : List Char :=
  lineBefore text i ++ (text.drop i).takeWhile (· ≠ '\n')

/-- A character other than a line break stands on its line, behind the characters before it
there. -/
theorem lineAt_getElem? {text : List Char} {i : Nat} {c : Char} (h : text[i]? = some c)
    (hc : c ≠ '\n') : (lineAt text i)[(lineBefore text i).length]? = some c := by
  rw [lineAt, List.getElem?_append_right (Nat.le_refl _), Nat.sub_self]
  have hdrop : text.drop i = c :: text.drop (i + 1) := by
    obtain ⟨hlt, heq⟩ := List.getElem?_eq_some_iff.mp h
    rw [← heq, ← List.drop_eq_getElem_cons hlt]
  rw [hdrop, List.takeWhile_cons_of_pos (by simpa using hc), List.getElem?_cons_zero]

theorem getElem?_of_between {text : List Char} {i j : Nat} {c : Char}
    (h : between text i j = [c]) : text[i]? = some c := by
  have hfirst : (between text i j)[0]? = some c := by rw [h, List.getElem?_cons_zero]
  rw [between, List.getElem?_drop, Nat.add_zero, List.getElem?_take] at hfirst
  split_ifs at hfirst
  exact hfirst

end Text

/-! ### Brackets in the text -/

namespace Tree.Node

/-- A node covers characters of a text, and exactly itself if it is a bracket in the text. -/
def Covers (text : List Char) (n : Node) : Prop :=
  ∃ i j, n.label.Spans text i j ∧
    ∀ b ∈ ['[', ']', '(', ')'], n.IsToken (String.singleton b) → between text i j = [b]

/-- Every node of a tree covers its part of a text. -/
def Marks (text : List Char) (root : Node) : Prop := ∀ n ∈ root.preorder, n.Covers text

end Tree.Node

/-- The position of a label is that of the first character it spans. -/
theorem Tree.Label.Spans.position_eq {text : List Char} {l : Label} {i j : Nat}
    (h : l.Spans text i j) : (Document.ofText text).position l.start = positionAt text i := by
  rw [Document.position, h.start, Document.charColumn_pointAt]
  rfl

/-- A token is one bracket of a text and stands where it does. -/
structure Token.IsBracket (text : List Char) (t : Token) (b : Char) : Prop where
  mem : b ∈ ['[', ']', '(', ')']
  text_eq : t.text = String.singleton b
  exists_place : ∃ i, text[i]? = some b ∧ t.startPosition = positionAt text i

/-- The token of a bracket that covers its character is that character. -/
theorem Tree.Node.Covers.token_isBracket {text : List Char} {n : Node} {b : Char}
    (h : n.Covers text) (hb : b ∈ ['[', ']', '(', ')']) (hn : n.IsToken (String.singleton b)) :
    ((Document.ofText text).token n).IsBracket text b := by
  obtain ⟨i, j, hspans, hbracket⟩ := h
  have hbetween := hbracket b hb hn
  refine ⟨hb, ?_, i, getElem?_of_between hbetween, hspans.position_eq⟩
  rw [hspans.token_text, hbetween]
  rfl

/-- The brackets of a region are an opening and a closing bracket of the text, and its owner starts
at a place of the text. -/
structure Region.Located (text : List Char) (root : Node) (r : Region) : Prop where
  before : ∃ b, (b = '[' ∨ b = '(') ∧ r.before.IsBracket text b
  after : ∃ b, (b = ']' ∨ b = ')') ∧ r.after.IsBracket text b
  owner : ∃ p k i j, CandidateAt root p k ∧ k.region? (Document.ofText text) = some r ∧
    k.owner.Spans text i j ∧ r.owner = positionAt text i

/-- The owner of a candidate is a node of the tree. -/
theorem CandidateAt.exists_owner {root : Node} {p : List Nat} {k : Candidate}
    (h : CandidateAt root p k) : ∃ n ∈ root.preorder, n.label = k.owner := by
  cases h with
  | member at_p => exact ⟨_, Node.mem_preorder_of_descend? at_p, rfl⟩
  | pair at_parent => exact ⟨_, Node.mem_preorder_of_descend? at_parent, rfl⟩
  | method _ at_parent => exact ⟨_, Node.mem_preorder_of_descend? at_parent, rfl⟩

/-- The tokens around a region are brackets of the text, and its owner is a node of the tree. -/
theorem Document.located_of_mem_regions {text : List Char} {root : Node} (h : root.Marks text)
    {r : Region} (hr : r ∈ (Document.ofText text).regions root) : r.Located text root := by
  rw [Document.regions_eq, List.mem_filterMap] at hr
  obtain ⟨⟨p, k⟩, hk, hregion⟩ := hr
  have hcandidate := Candidate.mem_inOrder.mp hk
  obtain ⟨e, he, -, hr⟩ := Candidate.region?_eq_some.mp hregion
  have hwithin := Candidate.within_of_enclosed? hcandidate he
  have hcontainer := Node.mem_preorder_of_descend? hcandidate.descend?_eq
  have hopening := h _ (Node.mem_preorder_trans hwithin.opening_mem hcontainer)
  have hclosing := h _ (Node.mem_preorder_trans hwithin.closing_mem hcontainer)
  obtain ⟨layers, holder, hpeeled⟩ := Candidate.exists_peeled hcandidate he
  obtain ⟨n, hn, howner⟩ := hcandidate.exists_owner
  obtain ⟨i, j, hspans, -⟩ := h n hn
  rw [howner] at hspans
  have hplace : ∃ p k i j, CandidateAt root p k ∧ k.region? (Document.ofText text) = some r ∧
      k.owner.Spans text i j ∧ r.owner = positionAt text i :=
    ⟨p, k, i, j, hcandidate, hregion, hspans, by rw [hr]; exact hspans.position_eq⟩
  subst hr
  obtain ⟨-, -, ⟨ho, hc⟩ | ⟨ho, hc⟩⟩ := hpeeled.pair
  · exact ⟨⟨'[', Or.inl rfl, hopening.token_isBracket (by simp) ⟨ho, hwithin.opening_present⟩⟩,
      ⟨']', Or.inl rfl, hclosing.token_isBracket (by simp) ⟨hc, hwithin.closing_present⟩⟩, hplace⟩
  · exact ⟨⟨'(', Or.inr rfl, hopening.token_isBracket (by simp) ⟨ho, hwithin.opening_present⟩⟩,
      ⟨')', Or.inr rfl, hclosing.token_isBracket (by simp) ⟨hc, hwithin.closing_present⟩⟩, hplace⟩

/-! ### Diagnostics in the text -/

/-- The bracket that a message quotes: an opening one in the messages on what comes after it, a
closing one in those on what comes before. -/
inductive Mode.Quotes : Mode → Char → String → Prop where
  | unwantedAfter {b : Char} (opening : b = '[' ∨ b = '(') :
      Quotes .never b s!"There should be no space after '{b}'"
  | unwantedBefore {b : Char} (closing : b = ']' ∨ b = ')') :
      Quotes .never b s!"There should be no space before '{b}'"
  | requiredAfter {b : Char} (opening : b = '[' ∨ b = '(') :
      Quotes .always b s!"A space is required after '{b}'"
  | requiredBefore {b : Char} (closing : b = ']' ∨ b = ')') :
      Quotes .always b s!"A space is required before '{b}'"

/-- A diagnostic stands on a line of a text, at one of its columns or at its end. -/
structure Diagnostic.StandsOn (text chars : List Char) (column : Nat) (d : Diagnostic) : Prop where
  one_le : 1 ≤ d.line
  le_lines : d.line ≤ (text.splitOn '\n').length
  line_eq : (text.splitOn '\n')[d.line.toNat - 1]? = some chars
  column_eq : d.column = column
  column_le : column ≤ chars.length

/-- A diagnostic at the position of a character stands on the line of that character. -/
theorem Diagnostic.standsOn_of_position {text : List Char} {d : Diagnostic} {i : Nat}
    (h : d.position = positionAt text i) :
    d.StandsOn text (lineAt text i) (lineBefore text i).length := by
  have hline : d.line = row text i + 1 := congrArg Position.line h
  have hrow := splitOn_getElem?_row text i
  obtain ⟨hlt, -⟩ := List.getElem?_eq_some_iff.mp hrow
  have hindex : d.line.toNat - 1 = row text i := by omega
  exact
    { one_le := by omega
      le_lines := by omega
      line_eq := hindex ▸ hrow
      column_eq := congrArg Position.column h
      column_le := by
        rw [lineAt, List.length_append]
        exact Nat.le_add_right _ _ }

/-- A diagnostic at a bracket stands on the bracket. -/
theorem Token.IsBracket.exists_standsOn {text : List Char} {t : Token} {b : Char} {d : Diagnostic}
    (h : t.IsBracket text b) (hd : d.position = t.startPosition) :
    ∃ chars column, d.StandsOn text chars column ∧ chars[column]? = some b := by
  obtain ⟨i, hchar, hplace⟩ := h.exists_place
  have hnewline : b ≠ '\n' := by
    rintro rfl
    exact absurd h.mem (by decide)
  exact ⟨_, _, Diagnostic.standsOn_of_position (hd.trans hplace), lineAt_getElem? hchar hnewline⟩

namespace Spacing

variable {text : List Char} {root : Node} {r : Region} {d : Diagnostic}

/-- In the modes that judge each gap by itself, a report stands at a bracket and quotes it. -/
theorem exists_bracket_of_mem_evaluate {mode : Mode} (hmode : mode ≠ .even)
    (h : r.Located text root) (hd : d ∈ evaluate mode r) :
    ∃ (t : Token) (b : Char), t.IsBracket text b ∧ d.position = t.startPosition ∧
      mode.Quotes b d.message := by
  obtain ⟨b, hopening, hbefore⟩ := h.before
  obtain ⟨c, hclosing, hafter⟩ := h.after
  cases mode with
  | even => exact absurd rfl hmode
  | never =>
    rw [evaluate_never] at hd
    rcases eq_or_eq_of_mem_append hd with rfl | rfl
    · refine ⟨r.before, b, hbefore, rfl, ?_⟩
      rw [noSpaceAfter, hbefore.text_eq]
      exact .unwantedAfter hopening
    · refine ⟨r.after, c, hafter, rfl, ?_⟩
      rw [noSpaceBefore, hafter.text_eq]
      exact .unwantedBefore hclosing
  | always =>
    rw [evaluate_always] at hd
    rcases eq_or_eq_of_mem_append hd with rfl | rfl
    · refine ⟨r.before, b, hbefore, rfl, ?_⟩
      rw [spaceRequiredAfter, hbefore.text_eq]
      exact .requiredAfter hopening
    · refine ⟨r.after, c, hafter, rfl, ?_⟩
      rw [spaceRequiredBefore, hafter.text_eq]
      exact .requiredBefore hclosing

/-- In the mode `even` a diagnostic stands at the owner. -/
theorem position_of_mem_evaluate_even (hd : d ∈ evaluate .even r) : d.position = r.owner := by
  rw [evaluate, judgeEven] at hd
  split_ifs at hd
  · rw [List.mem_singleton.mp hd]
    rfl
  · rw [List.mem_singleton.mp hd]
    rfl
  · cases hd

end Spacing

/-- Among rules that report under other ids, the diagnostics of the linter's own rule stand on a
line of the text. In the modes `never` and `always` the character there is the bracket that the
message quotes. In the mode `even` it is where the owner of the region starts, and no region has
two. -/
theorem Source.diagnostics_point_at_what_they_name (text : List Char) (root : Node) (broken : Bool)
    (hmarks : root.Marks text) (earlier later : List Rule) (options : List Value)
    (path : Option Path)
    (hothers : ∀ other ∈ earlier ++ later, ∀ region ∈ (Document.ofText text).regions root,
      ∀ d ∈ other.check region, d.rule ≠ Spacing.ruleId) :
    let s : Source := ⟨Document.ofText text, root, broken⟩
    let mode := Mode.ofOptions options
    (∀ d ∈ s.lint (earlier ++ ⟨Spacing.definition, options⟩ :: later) path,
      d.rule = Spacing.ruleId → ∃ chars column, d.StandsOn text chars column ∧
        (mode ≠ .even → ∃ b, chars[column]? = some b ∧ mode.Quotes b d.message) ∧
        (mode = .even → ∃ p k r i j, CandidateAt root p k ∧ k.region? s.document = some r ∧
          d ∈ (Spacing.evaluate mode r).map (Diagnostic.withPath path) ∧
          k.owner.Spans text i j ∧ d.position = positionAt text i ∧
          ∀ c, text[i]? = some c → c ≠ '\n' → chars[column]? = some c)) ∧
    (mode = .even → ∀ r ∈ s.regions, (Spacing.evaluate mode r).length ≤ 1) := by
  intro s mode
  constructor
  · intro d hd hrule
    obtain ⟨r, hr, rule, hmem, report, hreport, rfl⟩ := exists_of_mem_lint hd
    obtain rfl : rule = ⟨Spacing.definition, options⟩ := by
      rcases List.mem_append.mp hmem with hearlier | hmem
      · exact absurd hrule (hothers rule (List.mem_append_left _ hearlier) r hr report hreport)
      · rcases List.mem_cons.mp hmem with heq | hlater
        · exact heq
        · exact absurd hrule (hothers rule (List.mem_append_right _ hlater) r hr report hreport)
    change report ∈ Spacing.evaluate mode r at hreport
    have hlocated := Document.located_of_mem_regions hmarks hr
    by_cases hmode : mode = .even
    · obtain ⟨p, k, i, j, hcandidate, hregion, hspans, howner⟩ := hlocated.owner
      have hposition : report.position = positionAt text i :=
        (Spacing.position_of_mem_evaluate_even (hmode ▸ hreport)).trans howner
      refine ⟨_, _, Diagnostic.standsOn_of_position hposition, fun hnot ↦ absurd hmode hnot,
        fun _ ↦ ⟨p, k, r, i, j, hcandidate, hregion, ?_, hspans, hposition,
          fun c ↦ lineAt_getElem?⟩⟩
      exact List.mem_map.mpr ⟨report, hreport, rfl⟩
    · obtain ⟨t, b, hbracket, hposition, hquotes⟩ :=
        Spacing.exists_bracket_of_mem_evaluate hmode hlocated hreport
      obtain ⟨chars, column, hon, hchar⟩ :=
        hbracket.exists_standsOn (d := report.withPath path) hposition
      exact ⟨chars, column, hon, fun _ ↦ ⟨b, hchar, hquotes⟩, fun heven ↦ absurd heven hmode⟩
  · intro hmode r _
    rw [hmode]
    exact Spacing.length_evaluate_even r

/-- A node covers what its label spans, brackets being their own character. -/
theorem Tree.Node.Covers.of_spans {text : List Char} {n : Node} {i j : Nat}
    (h : n.label.Spans text i j)
    (hbracket : ['[', ']', '(', ')'].all
      fun b ↦ n.kind = String.singleton b → between text i j = [b]) : n.Covers text :=
  ⟨i, j, h, fun b hb hn ↦ of_decide_eq_true (List.all_eq_true.mp hbracket b hb) hn.1⟩

theorem paddedAccess_marks : paddedAccess.Marks paddedText := by
  intro n hn
  simp only [paddedAccess, Node.onFirstRow, Node.preorder, Node.preorderAll, List.append_nil,
    List.cons_append, List.nil_append, List.mem_cons, List.not_mem_nil, or_false] at hn
  rcases hn with rfl | rfl | rfl | rfl | rfl | rfl | rfl | rfl
  · exact .of_spans (i := 0) (j := 8) (by constructor <;> decide) (by decide)
  · exact .of_spans (i := 0) (j := 1) (by constructor <;> decide) (by decide)
  · exact .of_spans (i := 1) (j := 2) (by constructor <;> decide) (by decide)
  · exact .of_spans (i := 3) (j := 7) (by constructor <;> decide) (by decide)
  · exact .of_spans (i := 3) (j := 4) (by constructor <;> decide) (by decide)
  · exact .of_spans (i := 4) (j := 5) (by constructor <;> decide) (by decide)
  · exact .of_spans (i := 6) (j := 7) (by constructor <;> decide) (by decide)
  · exact .of_spans (i := 7) (j := 8) (by constructor <;> decide) (by decide)

/-- In the access `x[ (é )]` the one diagnostic of the mode `never` is at the parenthesis. -/
theorem Source.diagnostics_point_at_what_they_name_in_paddedAccess :
    let s : Source := ⟨Document.ofText paddedText, paddedAccess, false⟩
    let d := Spacing.noSpaceBefore paddedRegion.after
    paddedAccess.Marks paddedText ∧ s.lint [⟨Spacing.definition, []⟩] none = [d] ∧
      ∃ chars column, d.StandsOn paddedText chars column ∧
        ∃ b, chars[column]? = some b ∧
          Mode.Quotes .never b "There should be no space before ')'" := by
  intro s d
  have hlint : s.lint [⟨Spacing.definition, []⟩] none = [d] := by decide +kernel
  have hmem : d ∈ s.lint ([] ++ ⟨Spacing.definition, []⟩ :: []) none := by
    rw [List.nil_append, hlint]
    exact List.mem_singleton_self d
  obtain ⟨chars, column, hon, hquotes, -⟩ := (Source.diagnostics_point_at_what_they_name paddedText
    paddedAccess false paddedAccess_marks [] [] [] none
    (fun _ hother ↦ by cases hother)).1 d hmem rfl
  exact ⟨paddedAccess_marks, hlint, chars, column, hon, hquotes nofun⟩

end BracketSpacing
