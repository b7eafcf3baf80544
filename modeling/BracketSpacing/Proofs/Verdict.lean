import BracketSpacing.Proofs.Document
import BracketSpacing.Proofs.Finding
import BracketSpacing.Proofs.Spacing

/-!
Verdicts and the source text. A tree fits a text when every node covers some of its characters,
children lie inside their parent side by side, and brackets stand around what they enclose. The
order of the nodes is then the order of the characters, so the four tokens of a region stand in
order (`exists_laidOut`), and what the modes measure, offsets or columns, is the text between them
(`leadingGap_ne_nil`, `leadingColumns_eq`). So the verdict of each mode can be read off the text
(`regions_agree_with_text`).
-/

set_option autoImplicit false
set_option relaxedAutoImplicit false

namespace BracketSpacing

open Text BracketSpacing.Tree

/-! ### Trees that fit a text -/

namespace Tree.Node

/-- The brackets and the inner child that are picked from a node stand in this order. -/
def PicksInOrder (n : Node) (opening closing : String) (inner : Option Node) : Prop :=
  ∀ o m c, n.bracket? opening = some o → inner = some m → n.bracket? closing = some c →
    [o, m, c].Sublist n.children

/-- How a node stands in a text. -/
structure Placed (text : List Char) (n : Node) : Prop where
  spans : ∃ i j, n.label.Spans text i j
  inside : ∀ c ∈ n.children,
    n.label.startByte ≤ c.label.startByte ∧ c.label.stopByte ≤ n.label.stopByte
  apart : n.children.Pairwise fun a b ↦ a.label.stopByte ≤ b.label.startByte
  access : n.kind = "subscript_expression" → n.PicksInOrder "[" "]" (n.childByField? "index")
  key : n.kind = "computed_property_name" → n.PicksInOrder "[" "]" n.inner?
  parentheses : n.kind = "parenthesized_expression" → n.PicksInOrder "(" ")" n.inner?

/-- Every node of a tree stands in the text. -/
def Fits (text : List Char) (root : Node) : Prop := ∀ n ∈ root.preorder, n.Placed text

variable {text : List Char} {root : Node}

/-- Whatever is below a node lies inside it. -/
theorem Fits.within (h : root.Fits text) {n m : Node} (hn : n ∈ root.preorder)
    (hm : m ∈ n.preorder) :
    n.label.startByte ≤ m.label.startByte ∧ m.label.stopByte ≤ n.label.stopByte := by
  induction n with
  | mk l cs ih =>
    rcases mem_preorder.mp hm with rfl | ⟨c, hc, hmc⟩
    · exact ⟨Nat.le_refl _, Nat.le_refl _⟩
    · have hinside := (h _ hn).inside c hc
      have hbelow := ih c hc (mem_preorder_trans (mem_preorder_of_child hc) hn) hmc
      omega

/-- An expression between two brackets: three nodes of the tree, side by side in the text. -/
structure Around (root opening inner closing : Node) : Prop where
  opening_mem : opening ∈ root.preorder
  inner_mem : inner ∈ root.preorder
  closing_mem : closing ∈ root.preorder
  opening_le : opening.label.stopByte ≤ inner.label.startByte
  le_closing : inner.label.stopByte ≤ closing.label.startByte

/-- The brackets of a node that is placed stand around what is picked inside them. -/
theorem Placed.around {n o m c : Node} {opening closing : String} {inner : Option Node}
    (h : n.Placed text) (hn : n ∈ root.preorder) (hpick : n.PicksInOrder opening closing inner)
    (ho : n.bracket? opening = some o) (hm : inner = some m) (hc : n.bracket? closing = some c) :
    Around root o m c := by
  have hsub := hpick o m c ho hm hc
  have hmem {a : Node} (ha : a ∈ [o, m, c]) : a ∈ root.preorder :=
    mem_preorder_trans (mem_preorder_of_child (hsub.subset ha)) hn
  have hpair := h.apart.sublist hsub
  simp only [List.pairwise_cons, List.mem_cons, List.not_mem_nil, or_false] at hpair
  exact
    { opening_mem := hmem (by simp)
      inner_mem := hmem (by simp)
      closing_mem := hmem (by simp)
      opening_le := hpair.1 m (Or.inl rfl)
      le_closing := hpair.2.1 c rfl }

/-- Peeling off parentheses goes from brackets around an expression to brackets around one. -/
theorem Fits.around_of_peel (h : root.Fits text) {opening closing n : Node} {e : Enclosed}
    (hn : Around root opening n closing) (he : peel opening closing n = some e) :
    Around root e.opening e.inner e.closing := by
  refine peel_keeps ?_ hn he
  rintro n o m c ⟨_, _, hn⟩ hkind ho hm hc
  have hplaced := h n hn.inner_mem
  exact hplaced.around hn.inner_mem (hplaced.parentheses hkind) ho hm hc

end Tree.Node

/-- A candidate picks what is inside its brackets between them. -/
theorem CandidateAt.picksInOrder {text : List Char} {root : Node} {p : List Nat} {k : Candidate}
    (h : CandidateAt root p k) (hplaced : k.container.Placed text) :
    k.container.PicksInOrder "[" "]" k.inner := by
  cases h with
  | member _ kind => exact hplaced.access kind
  | pair _ _ kind => exact hplaced.key kind
  | method _ _ _ kind => exact hplaced.key kind

/-- The pair of a candidate stands around what it encloses. -/
theorem CandidateAt.around {text : List Char} {root : Node} {p : List Nat} {k : Candidate}
    {e : Node.Enclosed} (h : CandidateAt root p k) (hfits : root.Fits text)
    (he : k.enclosed? = some e) : Node.Around root e.opening e.inner e.closing := by
  have hmem := Node.mem_preorder_of_descend? h.descend?_eq
  have hplaced := hfits _ hmem
  unfold Candidate.enclosed? at he
  split at he
  · rename_i o c m ho hc hm
    exact hfits.around_of_peel (hplaced.around hmem (h.picksInOrder hplaced) ho hm hc) he
  · cases he

/-! ### The tokens of a region in the text -/

/-- The places of a text at which the boundaries of a region stand: its brackets open at `i₀`, the
leading gap goes from `j₀` to `i₁`, the trailing one from `j₂` to `i₃`. -/
structure Region.LaidOut (text : List Char) (r : Region) (i₀ j₀ i₁ j₂ i₃ : Nat) : Prop where
  before_start : r.before.start = i₀
  before_startLine : r.before.startLine = 1 + row text i₀
  before_stop : r.before.stop = j₀
  before_stopColumn : r.before.stopColumn = j₀ - lineStart text j₀
  first_start : r.first.start = i₁
  first_startColumn : r.first.startColumn = i₁ - lineStart text i₁
  last_stop : r.last.stop = j₂
  last_stopColumn : r.last.stopColumn = j₂ - lineStart text j₂
  after_start : r.after.start = i₃
  after_startLine : r.after.startLine = 1 + row text i₃
  after_startColumn : r.after.startColumn = i₃ - lineStart text i₃
  open_le : i₀ ≤ j₀
  leading_le : j₀ ≤ i₁
  first_le : i₁ ≤ i₃
  last_le : j₀ ≤ j₂
  trailing_le : j₂ ≤ i₃
  le_length : i₃ ≤ text.length

/-- The four tokens of a region stand in order in the text. -/
theorem Document.exists_laidOut {text : List Char} {root : Node} (hfits : root.Fits text)
    {r : Region} (hr : r ∈ (Document.ofText text).regions root) :
    ∃ i₀ j₀ i₁ j₂ i₃, r.LaidOut text i₀ j₀ i₁ j₂ i₃ := by
  rw [Document.regions_eq, List.mem_filterMap] at hr
  obtain ⟨⟨p, k⟩, hk, hregion⟩ := hr
  obtain ⟨e, he, -, rfl⟩ := Candidate.region?_eq_some.mp hregion
  have haround := (Candidate.mem_inOrder.mp hk).around hfits he
  have hfirst := e.inner.firstLeaf_mem_preorder
  have hlast := e.inner.lastLeaf_mem_preorder
  obtain ⟨i₀, j₀, opening⟩ := (hfits _ haround.opening_mem).spans
  obtain ⟨i, j, inner⟩ := (hfits _ haround.inner_mem).spans
  obtain ⟨i₁, j₁, first⟩ := (hfits _ (Node.mem_preorder_trans hfirst haround.inner_mem)).spans
  obtain ⟨i₂, j₂, last⟩ := (hfits _ (Node.mem_preorder_trans hlast haround.inner_mem)).spans
  obtain ⟨i₃, j₃, closing⟩ := (hfits _ haround.closing_mem).spans
  -- In characters, as in bytes: opening bracket, inner expression with its leaves, closing bracket.
  have hwithinFirst := hfits.within haround.inner_mem hfirst
  have hwithinLast := hfits.within haround.inner_mem hlast
  have hopening : j₀ ≤ i := opening.stop_le_start inner haround.opening_le
  have hfirstStart : i ≤ i₁ := inner.start_le_start first hwithinFirst.1
  have hfirstStop : i₁ ≤ j := first.le.trans (first.stop_le_stop inner hwithinFirst.2)
  have hlastStart : i ≤ j₂ := (inner.start_le_start last hwithinLast.1).trans last.le
  have hlastStop : j₂ ≤ j := last.stop_le_stop inner hwithinLast.2
  have hclosing : j ≤ i₃ := inner.stop_le_start closing haround.le_closing
  exact ⟨i₀, j₀, i₁, j₂, i₃,
    { before_start := opening.token_start
      before_startLine := opening.token_startLine
      before_stop := opening.token_stop
      before_stopColumn := opening.token_stopColumn
      first_start := first.token_start
      first_startColumn := first.token_startColumn
      last_stop := last.token_stop
      last_stopColumn := last.token_stopColumn
      after_start := closing.token_start
      after_startLine := closing.token_startLine
      after_startColumn := closing.token_startColumn
      open_le := opening.le
      leading_le := hopening.trans hfirstStart
      first_le := hfirstStop.trans hclosing
      last_le := hopening.trans hlastStart
      trailing_le := hlastStop.trans hclosing
      le_length := closing.start_le_length }⟩

/-! ### Verdicts -/

namespace Region

/-- The text between the opening bracket and the inner expression. -/
def leadingGap (text : List Char) (r : Region) : List Char :=
  between text r.before.stop.toNat r.first.start.toNat

/-- The text between the inner expression and the closing bracket. -/
def trailingGap (text : List Char) (r : Region) : List Char :=
  between text r.last.stop.toNat r.after.start.toNat

/-- The text from the start of the opening bracket to the start of the closing one. -/
def enclosedText (text : List Char) (r : Region) : List Char :=
  between text r.before.start.toNat r.after.start.toNat

open Spacing in
/-- The tokens of a region are in order, and each mode reports what the text between them shows. -/
structure AgreesWith (text : List Char) (r : Region) : Prop where
  leading_ordered : r.before.stop ≤ r.first.start
  trailing_ordered : r.last.stop ≤ r.after.start
  never_leading : noSpaceAfter r.before ∈ evaluate .never r ↔
    r.before.startLine = r.first.startLine ∧ r.leadingGap text ≠ []
  never_trailing : noSpaceBefore r.after ∈ evaluate .never r ↔
    r.last.startLine = r.after.startLine ∧ r.trailingGap text ≠ []
  always_leading : spaceRequiredAfter r.before ∈ evaluate .always r ↔
    r.before.startLine = r.first.startLine ∧ r.leadingGap text = []
  always_trailing : spaceRequiredBefore r.after ∈ evaluate .always r ↔
    r.last.startLine = r.after.startLine ∧ r.trailingGap text = []
  even : evaluate .even r = [] ↔
    '\n' ∉ r.enclosedText text ∧
      (r.leadingGap text).length = (r.trailingGap text).length ∧ (r.trailingGap text).length ≤ 1

namespace LaidOut

variable {text : List Char} {r : Region} {i₀ j₀ i₁ j₂ i₃ : Nat}

/-- The leading gap is the text between the opening bracket and the first token. -/
theorem leadingGap_eq (h : r.LaidOut text i₀ j₀ i₁ j₂ i₃) :
    r.leadingGap text = between text j₀ i₁ := by
  rw [leadingGap, h.before_stop, h.first_start, Int.toNat_natCast, Int.toNat_natCast]

theorem trailingGap_eq (h : r.LaidOut text i₀ j₀ i₁ j₂ i₃) :
    r.trailingGap text = between text j₂ i₃ := by
  rw [trailingGap, h.last_stop, h.after_start, Int.toNat_natCast, Int.toNat_natCast]

theorem enclosedText_eq (h : r.LaidOut text i₀ j₀ i₁ j₂ i₃) :
    r.enclosedText text = between text i₀ i₃ := by
  rw [enclosedText, h.before_start, h.after_start, Int.toNat_natCast, Int.toNat_natCast]

/-- There is text in the leading gap exactly if the tokens around it do not touch. -/
theorem leadingGap_ne_nil (h : r.LaidOut text i₀ j₀ i₁ j₂ i₃) :
    r.leadingGap text ≠ [] ↔ r.before.stop < r.first.start := by
  rw [h.leadingGap_eq, between_ne_nil_iff (h.first_le.trans h.le_length), h.before_stop,
    h.first_start]
  exact Int.ofNat_lt.symm

theorem trailingGap_ne_nil (h : r.LaidOut text i₀ j₀ i₁ j₂ i₃) :
    r.trailingGap text ≠ [] ↔ r.last.stop < r.after.start := by
  rw [h.trailingGap_eq, between_ne_nil_iff h.le_length, h.last_stop, h.after_start]
  exact Int.ofNat_lt.symm

theorem leadingGap_eq_nil (h : r.LaidOut text i₀ j₀ i₁ j₂ i₃) :
    r.leadingGap text = [] ↔ r.first.start ≤ r.before.stop := by
  rw [← Int.not_lt, ← h.leadingGap_ne_nil, not_not]

theorem trailingGap_eq_nil (h : r.LaidOut text i₀ j₀ i₁ j₂ i₃) :
    r.trailingGap text = [] ↔ r.after.start ≤ r.last.stop := by
  rw [← Int.not_lt, ← h.trailingGap_ne_nil, not_not]

/-- The brackets start on one line when no newline stands between them. -/
theorem sameLine_iff (h : r.LaidOut text i₀ j₀ i₁ j₂ i₃) :
    r.before.startLine = r.after.startLine ↔ '\n' ∉ r.enclosedText text := by
  have hle : i₀ ≤ i₃ := h.open_le.trans (h.last_le.trans h.trailing_le)
  rw [h.enclosedText_eq, ← row_eq_row_iff text hle, h.before_startLine, h.after_startLine]
  omega

/-- On one line, all places between the brackets count their columns from one start. -/
theorem lineStart_eq (h : r.LaidOut text i₀ j₀ i₁ j₂ i₃)
    (hline : r.before.startLine = r.after.startLine) {i : Nat} (hlow : i₀ ≤ i) (hhigh : i ≤ i₃) :
    lineStart text i = lineStart text i₀ := by
  rw [h.before_startLine, h.after_startLine] at hline
  have hleft := row_le_row text hlow
  have hright := row_le_row text hhigh
  exact lineStart_eq_of_row_eq (by omega)

/-- On one line the leading columns count the characters of the gap. -/
theorem leadingColumns_eq (h : r.LaidOut text i₀ j₀ i₁ j₂ i₃)
    (hline : r.before.startLine = r.after.startLine) :
    r.leadingColumns = (r.leadingGap text).length := by
  have hstop := h.lineStart_eq hline h.open_le (h.leading_le.trans h.first_le)
  have hstart := h.lineStart_eq hline (h.open_le.trans h.leading_le) h.first_le
  have hle := h.leading_le
  rw [leadingColumns, h.first_startColumn, h.before_stopColumn, hstop, hstart, h.leadingGap_eq,
    length_between (h.first_le.trans h.le_length)]
  omega

theorem trailingColumns_eq (h : r.LaidOut text i₀ j₀ i₁ j₂ i₃)
    (hline : r.before.startLine = r.after.startLine) :
    r.trailingColumns = (r.trailingGap text).length := by
  have hstop := h.lineStart_eq hline (h.open_le.trans h.last_le) h.trailing_le
  have hstart := h.lineStart_eq hline (h.open_le.trans (h.last_le.trans h.trailing_le)) le_rfl
  have hle := h.trailing_le
  rw [trailingColumns, h.after_startColumn, h.last_stopColumn, hstop, hstart, h.trailingGap_eq,
    length_between h.le_length]
  omega

/-- `even` is content exactly if there is no newline between the brackets and both gaps have the
same length, one character at most. -/
theorem evaluate_even_eq_nil_iff (h : r.LaidOut text i₀ j₀ i₁ j₂ i₃) :
    Spacing.evaluate .even r = [] ↔
      '\n' ∉ r.enclosedText text ∧
        (r.leadingGap text).length = (r.trailingGap text).length ∧
          (r.trailingGap text).length ≤ 1 := by
  rw [Spacing.evaluate_even_eq_nil, ← h.sameLine_iff]
  -- Columns count the characters of the gaps on one line only, and only there are they compared.
  refine and_congr_right fun hline ↦ ?_
  rw [h.leadingColumns_eq hline, h.trailingColumns_eq hline]
  omega

end LaidOut

end Region

/-- On a tree that fits its text, every region stands in order and is judged by its gaps. -/
theorem Document.regions_agree_with_text (text : List Char) (root : Node) (h : root.Fits text)
    (r : Region) (hr : r ∈ (Document.ofText text).regions root) : r.AgreesWith text := by
  obtain ⟨i₀, j₀, i₁, j₂, i₃, hlaid⟩ := Document.exists_laidOut h hr
  have hleading : r.before.stop ≤ r.first.start := by
    rw [hlaid.before_stop, hlaid.first_start]
    exact Int.ofNat_le.mpr hlaid.leading_le
  have htrailing : r.last.stop ≤ r.after.start := by
    rw [hlaid.last_stop, hlaid.after_start]
    exact Int.ofNat_le.mpr hlaid.trailing_le
  exact
    { leading_ordered := hleading
      trailing_ordered := htrailing
      never_leading := by
        rw [Spacing.noSpaceAfter_mem_never, hlaid.leadingGap_ne_nil]
      never_trailing := by
        rw [Spacing.noSpaceBefore_mem_never, hlaid.trailingGap_ne_nil]
      always_leading := by
        rw [Spacing.spaceRequiredAfter_mem_always, hlaid.leadingGap_eq_nil]
      always_trailing := by
        rw [Spacing.spaceRequiredBefore_mem_always, hlaid.trailingGap_eq_nil]
      even := hlaid.evaluate_even_eq_nil_iff }

/-- A leaf that spans characters is placed. -/
theorem Tree.Node.Placed.of_leaf {text : List Char} {l : Label} {i j : Nat}
    (h : l.Spans text i j) : (Node.mk l []).Placed text where
  spans := ⟨i, j, h⟩
  inside _ hc := by cases hc
  apart := List.Pairwise.nil
  access _ _ _ _ ho := by cases ho
  key _ _ _ _ ho := by cases ho
  parentheses _ _ _ _ ho := by cases ho

/-- A node on the first row of a text, where byte columns are bytes. -/
def Tree.Node.onFirstRow (kind : String) (named : Bool) (field : Option String) (start stop : Nat)
    (children : List Node) : Node :=
  .mk
    { kind, named, field, start := ⟨0, start⟩, stop := ⟨0, stop⟩
      startByte := start, stopByte := stop } children

def paddedText : List Char := ['x', '[', ' ', '(', 'é', ' ', ')', ']']

/-- The access `x[ (é )]`. -/
def paddedAccess : Node :=
  .onFirstRow "subscript_expression" true none 0 9
    [.onFirstRow "identifier" true (some "object") 0 1 [],
      .onFirstRow "[" false none 1 2 [],
      .onFirstRow "parenthesized_expression" true (some "index") 3 8
        [.onFirstRow "(" false none 3 4 [],
          .onFirstRow "identifier" true none 4 6 [],
          .onFirstRow ")" false none 7 8 []],
      .onFirstRow "]" false none 8 9 []]

/-- The parentheses stand for the brackets: only the trailing gap has a space. -/
def paddedRegion : Region where
  kind := .member
  owner := ⟨1, 0⟩
  before := ⟨"(", 3, 4, 1, 3, 1, 4⟩
  first := ⟨"é", 4, 5, 1, 4, 1, 5⟩
  last := ⟨"é", 4, 5, 1, 4, 1, 5⟩
  after := ⟨")", 6, 7, 1, 6, 1, 7⟩

theorem paddedAccess_fits : paddedAccess.Fits paddedText := by
  intro n hn
  simp only [paddedAccess, Node.onFirstRow, Node.preorder, Node.preorderAll, List.append_nil,
    List.cons_append, List.nil_append, List.mem_cons, List.not_mem_nil, or_false] at hn
  rcases hn with rfl | rfl | rfl | rfl | rfl | rfl | rfl | rfl
  · refine ⟨⟨0, 8, by constructor <;> decide⟩, by decide, by decide, ?_,
      fun h ↦ absurd h (by decide), fun h ↦ absurd h (by decide)⟩
    rintro - o m c ho hm hc
    cases ho
    cases hm
    cases hc
    exact (List.Sublist.refl _).cons _
  · exact .of_leaf (i := 0) (j := 1) (by constructor <;> decide)
  · exact .of_leaf (i := 1) (j := 2) (by constructor <;> decide)
  · refine ⟨⟨3, 7, by constructor <;> decide⟩, by decide, by decide,
      fun h ↦ absurd h (by decide), fun h ↦ absurd h (by decide), ?_⟩
    rintro - o m c ho hm hc
    cases ho
    cases hm
    cases hc
    exact List.Sublist.refl _
  · exact .of_leaf (i := 3) (j := 4) (by constructor <;> decide)
  · exact .of_leaf (i := 4) (j := 5) (by constructor <;> decide)
  · exact .of_leaf (i := 6) (j := 7) (by constructor <;> decide)
  · exact .of_leaf (i := 7) (j := 8) (by constructor <;> decide)

/-- A region with blanks on both sides agrees with its text. -/
theorem Document.paddedRegion_agrees_with_text :
    paddedAccess.Fits paddedText ∧
      paddedRegion ∈ (Document.ofText paddedText).regions paddedAccess ∧
      paddedRegion.AgreesWith paddedText := by
  have hregions : (Document.ofText paddedText).regions paddedAccess = [paddedRegion] := by
    decide +kernel
  have hmem : paddedRegion ∈ (Document.ofText paddedText).regions paddedAccess := by
    rw [hregions]
    exact List.mem_singleton_self paddedRegion
  exact ⟨paddedAccess_fits, hmem,
    Document.regions_agree_with_text paddedText paddedAccess paddedAccess_fits paddedRegion hmem⟩

end BracketSpacing
