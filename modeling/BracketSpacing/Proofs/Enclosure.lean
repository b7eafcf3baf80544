import BracketSpacing.Proofs.Tree.Descent
import BracketSpacing.Proofs.Verdict

/-!
Which pair of brackets a region stands in. From the inner child of a candidate the way goes down
through parentheses; the region's first and last token are the ends of the node that it arrives at,
and the tokens around it are the pair of the last layer, or of the candidate itself if there is none
(`exists_peeled`). So both are children of one node (`Peeled.pair`). More layers around a
parenthesized expression give the same region (`region?_of_wraps`).
`regions_stand_in_innermost_pair` says both of every tree.
-/

set_option autoImplicit false
set_option relaxedAutoImplicit false

namespace BracketSpacing

open BracketSpacing.Tree

/-- Whether a child is what the brackets stand around: the index of an access, or the first
construct of a key. -/
def Region.Kind.Inside : Region.Kind → Node → Prop
  | .member, c => c.label.field = some "index"
  | .property, c => c.IsContent

namespace CandidateAt

variable {root : Node} {p : List Nat} {k : Candidate}

/-- The inner node of a candidate is the first child inside its brackets. -/
theorem inner_eq_some_iff (h : CandidateAt root p k) {c : Node} :
    k.inner = some c ↔ k.container.FirstChild k.kind.Inside c := by
  cases h with
  | member => exact Node.find?_eq_some_iff fun d ↦ beq_iff_eq
  | pair => exact Node.inner?_eq_some_iff
  | method => exact Node.inner?_eq_some_iff

/-- A candidate without an inner node has no child inside its brackets. -/
theorem inner_eq_none_iff (h : CandidateAt root p k) :
    k.inner = none ↔ ∀ c ∈ k.container.children, ¬k.kind.Inside c := by
  cases h with
  | member => exact Node.find?_eq_none_iff fun d ↦ beq_iff_eq
  | pair => exact Node.inner?_eq_none_iff
  | method => exact Node.inner?_eq_none_iff

/-- Replacing a child of a candidate leaves a candidate of the same kind and owner. -/
theorem replaceAt (h : CandidateAt root p k) (i : Nat) (new : Node) :
    ∃ inner, CandidateAt (root.replaceAt (p ++ [i]) new) p
      ⟨k.kind, k.owner, k.container.replaceAt [i] new, inner⟩ := by
  cases h with
  | member at_p kind =>
    exact ⟨_, .member (Node.descend?_replaceAt at_p [i] new) kind⟩
  | @pair _ j _ _ at_parent at_p kind parent_kind =>
    have hparent := Node.descend?_replaceAt at_parent ([j] ++ [i]) new
    rw [← List.append_assoc] at hparent
    have hpair := pair hparent (Node.descend?_replaceAt at_p [i] new) kind parent_kind
    exact ⟨_, hpair⟩
  | @method _ m j _ _ _ at_object at_parent at_p kind parent_kind object_kind =>
    have hobject := Node.descend?_replaceAt at_object ([m] ++ [j] ++ [i]) new
    have hparent := Node.descend?_replaceAt at_parent ([j] ++ [i]) new
    simp only [← List.append_assoc] at hobject hparent
    have hmethod := method hobject hparent (Node.descend?_replaceAt at_p [i] new) kind parent_kind
      object_kind
    exact ⟨_, hmethod⟩

end CandidateAt

namespace Candidate

/-- A region needs both brackets and an inner child, and is made from what is peeled off these. -/
theorem enclosed?_eq_some_iff {k : Candidate} {e : Node.Enclosed} :
    k.enclosed? = some e ↔
      ∃ o c inner, k.container.bracket? "[" = some o ∧ k.container.bracket? "]" = some c ∧
        k.inner = some inner ∧ Node.peel o c inner = some e := by
  unfold enclosed?
  cases k.container.bracket? "[" <;> cases k.container.bracket? "]" <;> cases k.inner <;> simp

/-- Nothing is enclosed if a bracket or the inner node is missing, or if a layer of parentheses is
not complete. -/
theorem enclosed?_eq_none_iff {k : Candidate} :
    k.enclosed? = none ↔
      k.container.bracket? "[" = none ∨ k.container.bracket? "]" = none ∨ k.inner = none ∨
        ∃ o c inner, k.container.bracket? "[" = some o ∧ k.container.bracket? "]" = some c ∧
          k.inner = some inner ∧ Node.peel o c inner = none := by
  unfold enclosed?
  cases k.container.bracket? "[" <;> cases k.container.bracket? "]" <;> cases k.inner <;> simp

/-- How the inner expression of a candidate is peeled. The way from the inner child passes `layers`
and ends in `core`; `opening` and `closing` are the pair of `holder`, which is the innermost layer
or else the candidate's own node. -/
structure Peeled (k : Candidate) (layers : List Node) (core holder opening closing : Node) :
    Prop where
  way : ∃ inner, k.container.FirstChild k.kind.Inside inner ∧ inner.Descends layers core
  innermost : core.kind ≠ "parenthesized_expression"
  bare : layers = [] → holder = k.container ∧
    holder.FirstChild (Node.IsToken "[") opening ∧ holder.FirstChild (Node.IsToken "]") closing
  wrapped : ∀ layer, layers.getLast? = some layer → holder = layer ∧
    holder.FirstChild (Node.IsToken "(") opening ∧ holder.FirstChild (Node.IsToken ")") closing

/-- The pair around the last layer is a pair of brackets or parentheses among the children of one
node. -/
theorem Peeled.pair {k : Candidate} {layers : List Node} {core holder opening closing : Node}
    (h : k.Peeled layers core holder opening closing) :
    opening ∈ holder.children ∧ closing ∈ holder.children ∧
      (opening.kind = "[" ∧ closing.kind = "]" ∨ opening.kind = "(" ∧ closing.kind = ")") := by
  cases hlast : layers.getLast? with
  | none =>
    obtain ⟨-, hopening, hclosing⟩ := h.bare (List.getLast?_eq_none_iff.mp hlast)
    exact ⟨hopening.mem, hclosing.mem, Or.inl ⟨hopening.holds.1, hclosing.holds.1⟩⟩
  | some layer =>
    obtain ⟨-, hopening, hclosing⟩ := h.wrapped layer hlast
    exact ⟨hopening.mem, hclosing.mem, Or.inr ⟨hopening.holds.1, hclosing.holds.1⟩⟩

/-- What a candidate encloses is arrived at through layers of parentheses. -/
theorem exists_peeled {root : Node} {p : List Nat} {k : Candidate} {e : Node.Enclosed}
    (h : CandidateAt root p k) (he : k.enclosed? = some e) :
    ∃ layers holder, k.Peeled layers e.inner holder e.opening e.closing := by
  obtain ⟨o, c, inner, ho, hc, hinner, hpeel⟩ := enclosed?_eq_some_iff.mp he
  obtain ⟨layers, hway, hend, hpair⟩ := Node.exists_descends_of_peel hpeel
  refine ⟨layers, layers.getLast?.getD k.container,
    { way := ⟨inner, h.inner_eq_some_iff.mp hinner, hway⟩
      innermost := hend
      bare := fun hnil ↦ ?_
      wrapped := fun layer hlast ↦ ?_ }⟩
  · obtain ⟨hopening, hclosing⟩ := hpair.outside hnil
    rw [hopening, hclosing, hnil]
    exact ⟨rfl, Node.bracket?_eq_some_iff.mp ho, Node.bracket?_eq_some_iff.mp hc⟩
  · rw [hlast]
    exact ⟨rfl, hpair.inside layer hlast⟩

/-- The region of a candidate whose inner child is replaced by one that wraps it. -/
theorem region?_of_wraps {k : Candidate} {i : Nat} {old new : Node} (d : Document)
    (hat : k.container.children[i]? = some old) (hinner : k.inner = some old)
    (hold : old.kind = "parenthesized_expression") (hwraps : Node.Wraps old new) :
    region? d ⟨k.kind, k.owner, k.container.replaceAt [i] new, some new⟩ = k.region? d := by
  have hnew := hwraps.kind_eq hold
  have hbracket {kind : String} (hkind : "parenthesized_expression" ≠ kind) :
      (k.container.replaceAt [i] new).bracket? kind = k.container.bracket? kind :=
    Node.bracket?_replaceAt hat (hold ▸ hkind) (hnew ▸ hkind)
  have henclosed :
      enclosed? ⟨k.kind, k.owner, k.container.replaceAt [i] new, some new⟩ = k.enclosed? := by
    rw [enclosed?, enclosed?, hbracket (by decide), hbracket (by decide), hinner]
    cases k.container.bracket? "[" with
    | none => rfl
    | some opening =>
      cases k.container.bracket? "]" with
      | none => rfl
      | some closing => exact hwraps.peel_eq hold opening closing
  simp only [region?, henclosed]

end Candidate

/-- Every region stands in the innermost pair around its expression: the way down from the inner
child ends in a node that is not parenthesized, whose ends are the region's, and the tokens around
are a matching pair of brackets, children of the innermost layer, or of the candidate if there is
none. Wrapping an inner child that is parenthesized in further complete layers leaves the region. -/
theorem Document.regions_stand_in_innermost_pair (d : Document) (root : Node) :
    (∀ r ∈ d.regions root, ∃ p k layers core holder opening closing,
      CandidateAt root p k ∧ k.region? d = some r ∧
      k.Peeled layers core holder opening closing ∧
      (opening ∈ holder.children ∧ closing ∈ holder.children ∧
        (opening.kind = "[" ∧ closing.kind = "]" ∨ opening.kind = "(" ∧ closing.kind = ")")) ∧
      r.before = d.token opening ∧ r.first = d.token core.firstLeaf ∧
      r.last = d.token core.lastLeaf ∧ r.after = d.token closing) ∧
    ∀ p k i old new, CandidateAt root p k → k.container.FirstChildAt k.kind.Inside i old →
      old.kind = "parenthesized_expression" → Node.Wraps old new → k.kind.Inside new →
      (∃ k', CandidateAt (root.replaceAt (p ++ [i]) new) p k' ∧ k'.inner = some new ∧
        k'.region? d = k.region? d) ∧
      ∀ r, k.region? d = some r → r ∈ d.regions (root.replaceAt (p ++ [i]) new) := by
  constructor
  · intro r hr
    rw [Document.regions_eq, List.mem_filterMap] at hr
    obtain ⟨⟨p, k⟩, hk, hregion⟩ := hr
    have hcandidate := Candidate.mem_inOrder.mp hk
    obtain ⟨e, he, -, hr⟩ := Candidate.region?_eq_some.mp hregion
    obtain ⟨layers, holder, hpeeled⟩ := Candidate.exists_peeled hcandidate he
    subst hr
    exact ⟨p, k, layers, e.inner, holder, e.opening, e.closing, hcandidate, hregion, hpeeled,
      hpeeled.pair, rfl, rfl, rfl, rfl⟩
  · intro p k i old new hcandidate hfirst hold hwraps hnew
    obtain ⟨inner, hcandidate'⟩ := hcandidate.replaceAt i new
    have hinner : k.inner = some old := hcandidate.inner_eq_some_iff.mpr ⟨i, hfirst⟩
    have hinner' : inner = some new :=
      hcandidate'.inner_eq_some_iff.mpr ⟨i, hfirst.replaceAt hnew⟩
    subst hinner'
    have hregion := Candidate.region?_of_wraps d hfirst.at_i hinner hold hwraps
    refine ⟨⟨_, hcandidate', rfl, hregion⟩, fun r hr ↦ ?_⟩
    rw [Document.regions_eq, List.mem_filterMap]
    exact ⟨(p, _), Candidate.mem_inOrder.mpr hcandidate', hregion.trans hr⟩

/-- Another pair of parentheses around an index, on the first row. -/
def Tree.Node.inParentheses (inner : Node) : Node :=
  .onFirstRow "parenthesized_expression" true (some "index") 2 9
    [.onFirstRow "(" false none 2 3 [], inner, .onFirstRow ")" false none 8 9 []]

/-- One more layer around a wrapped node wraps it too. -/
theorem Tree.Node.Wraps.inParentheses {old m : Node} (h : Node.Wraps old m) (hm : m.IsContent) :
    Node.Wraps old m.inParentheses := by
  refine .layer rfl ⟨_, List.mem_cons_self, rfl, rfl⟩
    ⟨_, List.mem_cons_of_mem _ (List.mem_cons_of_mem _ List.mem_cons_self), rfl, rfl⟩
    ⟨1, rfl, hm, fun d hd hcontent ↦ ?_⟩ h
  cases List.mem_singleton.mp hd
  cases hcontent.1

/-- The access `x[ (é )]` with one and with two more pairs of parentheses. -/
theorem Document.paddedRegion_stands_in_innermost_pair :
    ∃ old, paddedAccess.children[2]? = some old ∧ old.kind = "parenthesized_expression" ∧
      paddedRegion ∈ (Document.ofText paddedText).regions
        (paddedAccess.replaceAt [2] old.inParentheses) ∧
      paddedRegion ∈ (Document.ofText paddedText).regions
        (paddedAccess.replaceAt [2] old.inParentheses.inParentheses) := by
  have hfirst (c : Node) (hc : c ∈ paddedAccess.children.take 2) :
      ¬Region.Kind.member.Inside c := by
    revert c
    change ∀ c ∈ paddedAccess.children.take 2, ¬c.label.field = some "index"
    decide
  have hregion : Candidate.region? (Document.ofText paddedText)
      ⟨.member, paddedAccess.label, paddedAccess, paddedAccess.childByField? "index"⟩ =
        some paddedRegion := by decide +kernel
  have hstays {old new : Node} (hold : paddedAccess.children[2]? = some old)
      (hwraps : Node.Wraps old new) (hnew : new.label.field = some "index") :
      paddedRegion ∈ (Document.ofText paddedText).regions (paddedAccess.replaceAt [2] new) := by
    cases hold
    exact ((Document.regions_stand_in_innermost_pair (Document.ofText paddedText) paddedAccess).2
      [] _ 2 _ new (.member rfl rfl) ⟨rfl, rfl, hfirst⟩ rfl hwraps hnew).2 paddedRegion hregion
  refine ⟨_, rfl, rfl, ?_⟩
  exact ⟨hstays rfl (Node.Wraps.self.inParentheses ⟨rfl, rfl⟩) rfl,
    hstays rfl ((Node.Wraps.self.inParentheses ⟨rfl, rfl⟩).inParentheses ⟨rfl, rfl⟩) rfl⟩

end BracketSpacing
