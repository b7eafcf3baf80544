import BracketSpacing.Tree.Node
import Mathlib.Data.List.Basic

/-!
Nodes below a node. The first and last leaf of a node, its brackets, its inner expression and
whatever parentheses are peeled down to are all among the nodes of its preorder
(`firstLeaf_mem_preorder`, `lastLeaf_mem_preorder`). What one step of peeling keeps, peeling to the
end keeps (`peel_keeps`).
-/

set_option autoImplicit false
set_option relaxedAutoImplicit false

namespace BracketSpacing.Tree.Node

/-- What passes from all children to their parent holds of every node. -/
@[elab_as_elim, induction_eliminator]
theorem inductionOnChildren {motive : Node → Prop}
    (mk : ∀ (l : Label) (cs : List Node), (∀ c ∈ cs, motive c) → motive (.mk l cs)) :
    ∀ n, motive n
  | .mk l cs => mk l cs fun c _ ↦ inductionOnChildren mk c

theorem size_pos (n : Node) : 0 < n.size := by
  obtain ⟨l, cs⟩ := n
  rw [size]
  omega

/-! ### Preorder -/

theorem mem_preorderAll {m : Node} {cs : List Node} :
    m ∈ preorderAll cs ↔ ∃ c ∈ cs, m ∈ c.preorder := by
  induction cs with
  | nil => simp [preorderAll]
  | cons c cs ih => simp [preorderAll, ih]

theorem mem_preorder {m n : Node} :
    m ∈ n.preorder ↔ m = n ∨ ∃ c ∈ n.children, m ∈ c.preorder := by
  obtain ⟨l, cs⟩ := n
  rw [preorder, List.mem_cons, mem_preorderAll]
  rfl

theorem self_mem_preorder (n : Node) : n ∈ n.preorder := mem_preorder.mpr (Or.inl rfl)

theorem mem_preorder_of_child {c n : Node} (h : c ∈ n.children) : c ∈ n.preorder :=
  mem_preorder.mpr (Or.inr ⟨c, h, c.self_mem_preorder⟩)

/-- What is below a node is below everything above the node. -/
theorem mem_preorder_trans {m n root : Node} (hm : m ∈ n.preorder) (hn : n ∈ root.preorder) :
    m ∈ root.preorder := by
  induction root with
  | mk l cs ih =>
    rcases mem_preorder.mp hn with rfl | ⟨c, hc, hnc⟩
    · exact hm
    · exact mem_preorder.mpr (Or.inr ⟨c, hc, ih c hc hnc⟩)

/-- What an address leads to is in the preorder. -/
theorem mem_preorder_of_descend? {root n : Node} {p : List Nat} (h : root.descend? p = some n) :
    n ∈ root.preorder := by
  induction p generalizing root with
  | nil =>
    cases h
    exact self_mem_preorder _
  | cons i p ih =>
    rw [descend?] at h
    cases hc : root.children[i]? with
    | none =>
      rw [hc] at h
      cases h
    | some c =>
      rw [hc] at h
      exact mem_preorder_trans (ih h) (mem_preorder_of_child (List.mem_of_getElem? hc))

/-! ### Leaves -/

theorem exists_of_firstLeafIn {cs : List Node} {leaf : Node} (h : firstLeafIn cs = some leaf) :
    ∃ c ∈ cs, c.isComment = false ∧ c.firstLeaf = leaf := by
  induction cs with
  | nil => cases h
  | cons c cs ih =>
    rw [firstLeafIn] at h
    split_ifs at h with hc
    · obtain ⟨d, hd, hleaf⟩ := ih h
      exact ⟨d, List.mem_cons_of_mem c hd, hleaf⟩
    · exact ⟨c, List.mem_cons_self, by simpa using hc, Option.some.inj h⟩

theorem exists_of_lastLeafIn {cs : List Node} {leaf : Node} (h : lastLeafIn cs = some leaf) :
    ∃ c ∈ cs, c.isComment = false ∧ c.lastLeaf = leaf := by
  induction cs with
  | nil => cases h
  | cons c cs ih =>
    rw [lastLeafIn] at h
    cases hrest : lastLeafIn cs with
    | some later =>
      rw [hrest] at h
      obtain ⟨d, hd, hleaf⟩ := ih (hrest.trans h)
      exact ⟨d, List.mem_cons_of_mem c hd, hleaf⟩
    | none =>
      rw [hrest] at h
      dsimp only at h
      split_ifs at h with hc
      exact ⟨c, List.mem_cons_self, by simpa using hc, Option.some.inj h⟩

/-- The first leaf is below the node, or the node itself. -/
theorem firstLeaf_mem_preorder (n : Node) : n.firstLeaf ∈ n.preorder := by
  induction n with
  | mk l cs ih =>
    rw [firstLeaf]
    cases h : firstLeafIn cs with
    | none => exact self_mem_preorder _
    | some leaf =>
      obtain ⟨c, hc, -, rfl⟩ := exists_of_firstLeafIn h
      exact mem_preorder.mpr (Or.inr ⟨c, hc, ih c hc⟩)

theorem lastLeaf_mem_preorder (n : Node) : n.lastLeaf ∈ n.preorder := by
  induction n with
  | mk l cs ih =>
    rw [lastLeaf]
    cases h : lastLeafIn cs with
    | none => exact self_mem_preorder _
    | some leaf =>
      obtain ⟨c, hc, -, rfl⟩ := exists_of_lastLeafIn h
      exact mem_preorder.mpr (Or.inr ⟨c, hc, ih c hc⟩)

/-- The first leaf of what is no comment is no comment. -/
theorem isComment_firstLeaf {n : Node} (hn : n.isComment = false) :
    n.firstLeaf.isComment = false := by
  induction n with
  | mk l cs ih =>
    rw [firstLeaf]
    cases h : firstLeafIn cs with
    | none => exact hn
    | some leaf =>
      obtain ⟨c, hc, hcomment, rfl⟩ := exists_of_firstLeafIn h
      exact ih c hc hcomment

theorem isComment_lastLeaf {n : Node} (hn : n.isComment = false) :
    n.lastLeaf.isComment = false := by
  induction n with
  | mk l cs ih =>
    rw [lastLeaf]
    cases h : lastLeafIn cs with
    | none => exact hn
    | some leaf =>
      obtain ⟨c, hc, hcomment, rfl⟩ := exists_of_lastLeafIn h
      exact ih c hc hcomment

/-! ### Peeling -/

theorem peelIn_eq_bind (opening closing : Node) (cs : List Node) :
    peelIn opening closing cs =
      (cs.find? fun c ↦ c.named && !c.isComment).bind (peel opening closing) := by
  induction cs with
  | nil => rfl
  | cons c cs ih =>
    rw [peelIn, List.find?_cons]
    by_cases h : c.named && !c.isComment
    · simp [h]
    · simp [h, ih]

/-- Peeling ends at a node that is not parenthesized. -/
theorem peel_of_not_parenthesized {opening closing n : Node}
    (h : n.kind ≠ "parenthesized_expression") :
    peel opening closing n = some ⟨n, opening, closing⟩ := by
  obtain ⟨l, cs⟩ := n
  change l.kind ≠ _ at h
  rw [peel, if_neg (by simpa using h)]

/-- Peeling goes on inside parentheses, whose brackets it takes. -/
theorem peel_of_parenthesized {opening closing n : Node}
    (h : n.kind = "parenthesized_expression") :
    peel opening closing n =
      (n.bracket? "(").bind fun o ↦ (n.bracket? ")").bind fun c ↦ n.inner?.bind (peel o c) := by
  obtain ⟨l, cs⟩ := n
  change l.kind = _ at h
  rw [peel, if_pos (by simpa using h)]
  cases (Node.mk l cs).bracket? "(" with
  | none => rfl
  | some o =>
    cases (Node.mk l cs).bracket? ")" with
    | none => rfl
    | some c => exact peelIn_eq_bind o c cs

/-- Peeling stops at once, or goes through one pair of parentheses and on from what is inside. -/
theorem peel_cases {opening closing n : Node} {e : Enclosed} (h : peel opening closing n = some e) :
    (n.kind ≠ "parenthesized_expression" ∧ e = ⟨n, opening, closing⟩) ∨
      n.kind = "parenthesized_expression" ∧ ∃ o m c, n.bracket? "(" = some o ∧ n.inner? = some m ∧
        n.bracket? ")" = some c ∧ peel o c m = some e := by
  obtain ⟨l, cs⟩ := n
  rw [peel] at h
  by_cases hkind : l.kind = "parenthesized_expression"
  · rw [if_pos (by simpa using hkind)] at h
    cases ho : (Node.mk l cs).bracket? "(" with
    | none => simp [ho] at h
    | some o =>
      cases hc : (Node.mk l cs).bracket? ")" with
      | none => simp [ho, hc] at h
      | some c =>
        simp only [ho, hc] at h
        rw [peelIn_eq_bind, Option.bind_eq_some_iff] at h
        obtain ⟨m, hm, he⟩ := h
        exact Or.inr ⟨hkind, o, m, c, rfl, hm, rfl, he⟩
  · rw [if_neg (by simpa using hkind)] at h
    exact Or.inl ⟨hkind, (Option.some.inj h).symm⟩

theorem mem_children_of_inner? {n c : Node} (h : n.inner? = some c) : c ∈ n.children :=
  List.mem_of_find?_eq_some h

/-- What every step through a pair of parentheses keeps of the brackets and the expression between
them holds of the innermost. -/
theorem peel_keeps {holds : Node → Node → Node → Prop}
    (step : ∀ n o m c, (∃ opening closing, holds opening n closing) →
      n.kind = "parenthesized_expression" → n.bracket? "(" = some o → n.inner? = some m →
      n.bracket? ")" = some c → holds o m c)
    {opening closing n : Node} {e : Enclosed} (hn : holds opening n closing)
    (h : peel opening closing n = some e) : holds e.opening e.inner e.closing := by
  induction n generalizing opening closing with
  | mk l cs ih =>
    rcases peel_cases h with ⟨-, rfl⟩ | ⟨hkind, o, m, c, ho, hm, hc, he⟩
    · exact hn
    · exact ih m (mem_children_of_inner? hm)
        (step _ o m c ⟨opening, closing, hn⟩ hkind ho hm hc) he

end BracketSpacing.Tree.Node
