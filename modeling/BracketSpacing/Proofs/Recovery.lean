import BracketSpacing.Proofs.Enclosure

/-!
Trees of broken code. Reading goes on past a fault by putting in tokens that are not in the text,
and such a tree may lack any part of a construct. `Incomplete` lists from the tree alone what keeps
a candidate from being a region. A candidate is skipped exactly when something of the list is the
case (`region?_eq_none_iff_incomplete`); so no region has a token that is not in the text
(`recovery_does_not_leak`).
-/

set_option autoImplicit false
set_option relaxedAutoImplicit false

namespace BracketSpacing

open BracketSpacing.Tree

namespace Candidate

/-- What keeps a candidate from being a region. -/
inductive Incomplete (k : Candidate) : Prop where
  | opening (absent : ∀ c ∈ k.container.children, ¬c.IsToken "[")
  | closing (absent : ∀ c ∈ k.container.children, ¬c.IsToken "]")
  | inner (absent : ∀ c ∈ k.container.children, ¬k.kind.Inside c)
  /-- Parentheses on the way down lack a bracket or have nothing inside. -/
  | layer {inner e : Node} {layers : List Node} (first : k.container.FirstChild k.kind.Inside inner)
      (way : inner.Descends layers e) (kind : e.kind = "parenthesized_expression")
      (broken : e.Broken)
  /-- The innermost expression or one of its ends is not in the text. -/
  | core {inner e : Node} {layers : List Node} (first : k.container.FirstChild k.kind.Inside inner)
      (way : inner.Descends layers e) (kind : e.kind ≠ "parenthesized_expression")
      (missing : e.missing = true ∨ e.firstLeaf.missing = true ∨ e.lastLeaf.missing = true)

variable {root : Node} {p : List Nat} {k : Candidate}

/-- A candidate has no region if nothing is enclosed, or if what is enclosed is missing from the
text or ends in something that is. -/
theorem region?_eq_none_iff (d : Document) :
    k.region? d = none ↔ k.enclosed? = none ∨
      ∃ e, k.enclosed? = some e ∧ (e.inner.missing = true ∨ e.inner.firstLeaf.missing = true ∨
        e.inner.lastLeaf.missing = true) := by
  unfold region?
  cases k.enclosed? with
  | none => simp
  | some e =>
    dsimp only
    by_cases h : (e.inner.missing || e.inner.firstLeaf.missing || e.inner.lastLeaf.missing) = true
    · rw [if_pos h]
      simpa [or_assoc] using h
    · rw [if_neg h]
      simpa [and_assoc] using h

/-- Nothing is enclosed exactly for the causes that do not look at the innermost expression. -/
theorem incomplete_of_enclosed?_eq_none (h : CandidateAt root p k) (hnone : k.enclosed? = none) :
    k.Incomplete := by
  rcases enclosed?_eq_none_iff.mp hnone with hopening | hclosing | hinner |
    ⟨o, c, inner, -, -, hinner, hpeel⟩
  · exact .opening (Node.bracket?_eq_none_iff.mp hopening)
  · exact .closing (Node.bracket?_eq_none_iff.mp hclosing)
  · exact .inner (h.inner_eq_none_iff.mp hinner)
  · obtain ⟨layers, e, hway, hkind, hbroken⟩ := Node.peel_eq_none_iff.mp hpeel
    exact .layer (h.inner_eq_some_iff.mp hinner) hway hkind hbroken

/-- A candidate that encloses something missing from the text is incomplete. -/
theorem Incomplete.of_missing (h : CandidateAt root p k) {e : Node.Enclosed}
    (he : k.enclosed? = some e)
    (hmissing : e.inner.missing = true ∨ e.inner.firstLeaf.missing = true ∨
      e.inner.lastLeaf.missing = true) : k.Incomplete := by
  obtain ⟨layers, holder, hpeeled⟩ := exists_peeled h he
  obtain ⟨inner, hinner, hway⟩ := hpeeled.way
  exact .core hinner hway hpeeled.innermost hmissing

/-- An incomplete candidate encloses nothing, or an expression that is not all in the text. -/
theorem Incomplete.missing_of_enclosed? (h : CandidateAt root p k) (hk : k.Incomplete)
    {e : Node.Enclosed} (he : k.enclosed? = some e) :
    e.inner.missing = true ∨ e.inner.firstLeaf.missing = true ∨
      e.inner.lastLeaf.missing = true := by
  obtain ⟨o, c, inner, ho, hc, hinner, hpeel⟩ := enclosed?_eq_some_iff.mp he
  cases hk with
  | opening absent =>
    rw [Node.bracket?_eq_none_iff.mpr absent] at ho
    cases ho
  | closing absent =>
    rw [Node.bracket?_eq_none_iff.mpr absent] at hc
    cases hc
  | inner absent =>
    rw [h.inner_eq_none_iff.mpr absent] at hinner
    cases hinner
  | layer first way kind broken =>
    cases hinner.symm.trans (h.inner_eq_some_iff.mpr first)
    rw [Node.peel_eq_none_iff.mpr ⟨_, _, way, kind, broken⟩] at hpeel
    cases hpeel
  | core first way kind missing =>
    cases hinner.symm.trans (h.inner_eq_some_iff.mpr first)
    -- The way has one end, so what is missing there is missing where peeling arrived.
    obtain ⟨layers, hway, hend, -⟩ := Node.exists_descends_of_peel hpeel
    cases hway.unique way hend kind
    exact missing

/-- A candidate has no region exactly if it is incomplete. -/
theorem region?_eq_none_iff_incomplete (d : Document) (h : CandidateAt root p k) :
    k.region? d = none ↔ k.Incomplete := by
  rw [region?_eq_none_iff]
  constructor
  · rintro (hnone | ⟨e, he, hmissing⟩)
    · exact incomplete_of_enclosed?_eq_none h hnone
    · exact .of_missing h he hmissing
  · intro hk
    cases he : k.enclosed? with
    | none => exact Or.inl rfl
    | some e => exact Or.inr ⟨e, rfl, hk.missing_of_enclosed? h he⟩

/-- A candidate is skipped just when it has no region. -/
theorem ofCandidate_eq_skipped_iff (d : Document) :
    Finding.ofCandidate d k = .skipped k.container.kind k.container.label.start ↔
      k.region? d = none := by
  unfold Finding.ofCandidate
  cases k.region? d <;> simp

/-- An expression and the brackets around it below a node, the brackets in the text. -/
structure Within (container opening inner closing : Node) : Prop where
  opening_present : opening.missing = false
  opening_mem : opening ∈ container.preorder
  inner_mem : inner ∈ container.preorder
  closing_present : closing.missing = false
  closing_mem : closing ∈ container.preorder

theorem Within.of_bracket? {container n o m c : Node} {opening closing : String}
    (hn : n ∈ container.preorder) (ho : n.bracket? opening = some o) (hm : m ∈ n.children)
    (hc : n.bracket? closing = some c) : Within container o m c := by
  have hbelow {b : Node} (hb : b ∈ n.children) : b ∈ container.preorder :=
    Node.mem_preorder_trans (Node.mem_preorder_of_child hb) hn
  have hfirst := Node.bracket?_eq_some_iff.mp ho
  have hlast := Node.bracket?_eq_some_iff.mp hc
  exact
    { opening_present := hfirst.holds.2
      opening_mem := hbelow hfirst.mem
      inner_mem := hbelow hm
      closing_present := hlast.holds.2
      closing_mem := hbelow hlast.mem }

/-- The pair and what it encloses stand within the container. -/
theorem within_of_enclosed? {e : Node.Enclosed} (h : CandidateAt root p k)
    (he : k.enclosed? = some e) : Within k.container e.opening e.inner e.closing := by
  obtain ⟨o, c, inner, ho, hc, hinner, hpeel⟩ := enclosed?_eq_some_iff.mp he
  have hchild := (h.inner_eq_some_iff.mp hinner).mem
  refine Node.peel_keeps ?_ (Within.of_bracket? k.container.self_mem_preorder ho hchild hc) hpeel
  rintro n o m c ⟨_, _, hn⟩ - ho hm hc
  exact .of_bracket? hn.inner_mem ho (Node.mem_children_of_inner? hm) hc

/-- Only an inner child that is a comment itself ends in a comment. -/
theorem isComment_of_ends {e : Node.Enclosed} (h : CandidateAt root p k)
    (he : k.enclosed? = some e)
    (hends : e.inner.firstLeaf.isComment = true ∨ e.inner.lastLeaf.isComment = true) :
    e.inner.isComment = true ∧ k.inner = some e.inner := by
  have hcomment : e.inner.isComment = true := by
    by_contra hnot
    rw [Bool.not_eq_true] at hnot
    rcases hends with hfirst | hlast
    · rw [Node.isComment_firstLeaf hnot] at hfirst
      cases hfirst
    · rw [Node.isComment_lastLeaf hnot] at hlast
      cases hlast
  obtain ⟨layers, holder, hpeeled⟩ := exists_peeled h he
  obtain ⟨inner, hinner, hway⟩ := hpeeled.way
  rcases hway.eq_or_isContent with hsame | hcontent
  · rw [hsame] at hcomment ⊢
    exact ⟨hcomment, h.inner_eq_some_iff.mpr hinner⟩
  · rw [hcontent.2] at hcomment
    cases hcomment

end Candidate

/-- A region is made from four nodes below its candidate, none of them missing, and its ends are no
comments unless the inner child is one. Every candidate has a finding, and is skipped exactly when
it is incomplete. -/
theorem Document.recovery_does_not_leak (d : Document) (root : Node) :
    (∀ r ∈ d.regions root, ∃ p k e, CandidateAt root p k ∧ k.enclosed? = some e ∧
      (r.before = d.token e.opening ∧ r.first = d.token e.inner.firstLeaf ∧
        r.last = d.token e.inner.lastLeaf ∧ r.after = d.token e.closing) ∧
      (∀ n ∈ [e.opening, e.inner.firstLeaf, e.inner.lastLeaf, e.closing],
        n.missing = false ∧ n ∈ k.container.preorder) ∧
      (e.inner.firstLeaf.isComment = true ∨ e.inner.lastLeaf.isComment = true →
        e.inner.isComment = true ∧ k.inner = some e.inner)) ∧
    ∀ p k, CandidateAt root p k → Finding.ofCandidate d k ∈ d.findings root ∧
      (Finding.ofCandidate d k = .skipped k.container.kind k.container.label.start ↔
        k.Incomplete) := by
  constructor
  · intro r hr
    rw [Document.regions_eq, List.mem_filterMap] at hr
    obtain ⟨⟨p, k⟩, hk, hregion⟩ := hr
    have hcandidate := Candidate.mem_inOrder.mp hk
    obtain ⟨e, he, ⟨-, hfirst, hlast⟩, rfl⟩ := Candidate.region?_eq_some.mp hregion
    have hwithin := Candidate.within_of_enclosed? hcandidate he
    refine ⟨p, k, e, hcandidate, he, ⟨rfl, rfl, rfl, rfl⟩, ?_,
      Candidate.isComment_of_ends hcandidate he⟩
    simp only [List.forall_mem_cons, List.not_mem_nil, false_implies, implies_true, and_true]
    exact ⟨⟨hwithin.opening_present, hwithin.opening_mem⟩,
      ⟨hfirst, Node.mem_preorder_trans e.inner.firstLeaf_mem_preorder hwithin.inner_mem⟩,
      ⟨hlast, Node.mem_preorder_trans e.inner.lastLeaf_mem_preorder hwithin.inner_mem⟩,
      ⟨hwithin.closing_present, hwithin.closing_mem⟩⟩
  · intro p k hcandidate
    constructor
    · rw [Document.findings_eq]
      exact List.mem_map.mpr ⟨(p, k), Candidate.mem_inOrder.mpr hcandidate, rfl⟩
    · rw [Candidate.ofCandidate_eq_skipped_iff,
        Candidate.region?_eq_none_iff_incomplete d hcandidate]

/-- The access `x[é`, the closing bracket put in behind its end. -/
def unclosedAccess : Node :=
  .onFirstRow "subscript_expression" true none 0 4
    [.onFirstRow "identifier" true (some "object") 0 1 [],
      .onFirstRow "[" false none 1 2 [],
      .onFirstRow "identifier" true (some "index") 2 4 [],
      .mk { kind := "]", missing := true, start := ⟨0, 4⟩, stop := ⟨0, 4⟩
            startByte := 4, stopByte := 4 } []]

/-- An access that is never closed is skipped, and the note says where it starts. -/
theorem Document.recovery_does_not_leak_from_unclosedAccess :
    (∀ c ∈ unclosedAccess.children, ¬c.IsToken "]") ∧
      Finding.ofCandidate (Document.ofText ['x', '[', 'é'])
          ⟨.member, unclosedAccess.label, unclosedAccess, unclosedAccess.childByField? "index"⟩ =
        .skipped "subscript_expression" ⟨0, 0⟩ ∧
      .skipped "subscript_expression" ⟨0, 0⟩ ∈
        (Document.ofText ['x', '[', 'é']).findings unclosedAccess := by
  have habsent : ∀ c ∈ unclosedAccess.children, ¬c.IsToken "]" := by
    change ∀ c ∈ unclosedAccess.children, ¬(c.kind = "]" ∧ c.missing = false)
    decide
  obtain ⟨hfound, hskipped⟩ := (Document.recovery_does_not_leak (Document.ofText ['x', '[', 'é'])
    unclosedAccess).2 [] _ (.member rfl rfl)
  have hfinding := hskipped.mpr (.closing habsent)
  exact ⟨habsent, hfinding, hfinding ▸ hfound⟩

end BracketSpacing
