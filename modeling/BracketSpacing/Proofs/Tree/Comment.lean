import BracketSpacing.Proofs.Tree.Node

/-!
Trees with their comments taken out. `withoutComments` removes every comment below a node and leaves
the labels of the others as they are (`map_label_preorder_withoutComments`). Brackets, inner
expressions, leaves and peeled parentheses do not see comments: each of them commutes with taking
the comments out (`bracket?_withoutComments`, `inner?_withoutComments`, `firstLeaf_withoutComments`,
`peel_withoutComments`).
-/

set_option autoImplicit false
set_option relaxedAutoImplicit false

namespace BracketSpacing.Tree.Node

mutual

/-- A node without the comments below it and without what is below those. -/
def withoutComments : Node → Node
  | .mk l cs => .mk l (withoutCommentsAll cs)

def withoutCommentsAll : List Node → List Node
  | [] => []
  | c :: cs =>
    if c.isComment then withoutCommentsAll cs else withoutComments c :: withoutCommentsAll cs

end

theorem withoutCommentsAll_cons_comment {c : Node} (h : c.isComment = true) (cs : List Node) :
    withoutCommentsAll (c :: cs) = withoutCommentsAll cs := by
  rw [withoutCommentsAll, if_pos h]

theorem withoutCommentsAll_cons {c : Node} (h : c.isComment = false) (cs : List Node) :
    withoutCommentsAll (c :: cs) = c.withoutComments :: withoutCommentsAll cs := by
  rw [withoutCommentsAll, if_neg (by simp [h])]

@[simp] theorem label_withoutComments (n : Node) : n.withoutComments.label = n.label := by
  obtain ⟨l, cs⟩ := n
  rfl

@[simp] theorem children_withoutComments (n : Node) :
    n.withoutComments.children = withoutCommentsAll n.children := by
  obtain ⟨l, cs⟩ := n
  rfl

@[simp] theorem kind_withoutComments (n : Node) : n.withoutComments.kind = n.kind :=
  congrArg Label.kind n.label_withoutComments

@[simp] theorem named_withoutComments (n : Node) : n.withoutComments.named = n.named :=
  congrArg Label.named n.label_withoutComments

@[simp] theorem missing_withoutComments (n : Node) : n.withoutComments.missing = n.missing :=
  congrArg Label.missing n.label_withoutComments

@[simp] theorem isComment_withoutComments (n : Node) :
    n.withoutComments.isComment = n.isComment := by
  rw [isComment, isComment, kind_withoutComments]

/-- Comments are leaves, and none of them stands where the index of an access is looked for. -/
def PlainComments (root : Node) : Prop :=
  ∀ n ∈ root.preorder, n.isComment = true → n.children = [] ∧ n.label.field ≠ some "index"

theorem PlainComments.of_child {n c : Node} (h : n.PlainComments) (hc : c ∈ n.children) :
    c.PlainComments :=
  fun m hm ↦ h m (mem_preorder.mpr (Or.inr ⟨c, hc, hm⟩))

/-! ### The labels that stay -/

/-- The labels below some children without comments are those with them, less the comments. -/
theorem map_label_preorderAll_withoutCommentsAll {cs : List Node}
    (hcomments : ∀ c ∈ cs, c.isComment = true → c.children = [])
    (h : ∀ c ∈ cs, c.isComment = false → c.withoutComments.preorder.map label =
      (c.preorder.map label).filter fun l ↦ l.kind != "comment") :
    (preorderAll (withoutCommentsAll cs)).map label =
      ((preorderAll cs).map label).filter fun l ↦ l.kind != "comment" := by
  induction cs with
  | nil => rfl
  | cons c cs ih =>
    rw [List.forall_mem_cons] at hcomments h
    have hrest := ih hcomments.2 h.2
    rw [preorderAll, List.map_append, List.filter_append]
    cases hc : c.isComment with
    | true =>
      obtain ⟨l, below⟩ := c
      obtain rfl : below = [] := hcomments.1 hc
      have hgone : (l.kind != "comment") = false := by simpa [isComment, kind, label] using hc
      rw [withoutCommentsAll_cons_comment hc, hrest, preorder, preorderAll, List.map_singleton,
        label, List.filter_cons_of_neg (by simp [hgone]), List.filter_nil, List.nil_append]
    | false => rw [withoutCommentsAll_cons hc, preorderAll, List.map_append, h.1 hc, hrest]

/-- Comments apart, all labels stay, in their order. -/
theorem map_label_preorder_withoutComments {n : Node} (hcomments : n.PlainComments)
    (hn : n.isComment = false) :
    n.withoutComments.preorder.map label =
      (n.preorder.map label).filter fun l ↦ l.kind != "comment" := by
  induction n with
  | mk l cs ih =>
    have hkept : (l.kind != "comment") = true := by simpa [isComment, kind, label] using hn
    rw [withoutComments, preorder, preorder, List.map_cons, List.map_cons, label, label,
      List.filter_cons_of_pos (by exact hkept)]
    refine congrArg (l :: ·) (map_label_preorderAll_withoutCommentsAll ?_ ?_)
    · exact fun c hc hcomment ↦ (hcomments c (mem_preorder_of_child hc) hcomment).1
    · exact fun c hc ↦ ih c hc (hcomments.of_child hc)

/-! ### Looking for a child -/

/-- A search that no comment answers finds the same child. -/
theorem find?_withoutCommentsAll {p : Node → Bool} (hp : ∀ n, p n.withoutComments = p n)
    {cs : List Node} (hcomments : ∀ c ∈ cs, c.isComment = true → p c = false) :
    (withoutCommentsAll cs).find? p = (cs.find? p).map withoutComments := by
  induction cs with
  | nil => rfl
  | cons c cs ih =>
    rw [List.forall_mem_cons] at hcomments
    have hrest := ih hcomments.2
    cases hc : c.isComment with
    | true =>
      rw [withoutCommentsAll_cons_comment hc, hrest,
        List.find?_cons_of_neg (by simp [hcomments.1 hc])]
    | false =>
      rw [withoutCommentsAll_cons hc, List.find?_cons, List.find?_cons, hp]
      cases p c with
      | true => rfl
      | false => exact hrest

/-- A bracket is found past comments. -/
theorem bracket?_withoutComments (n : Node) {bracket : String} (h : bracket ≠ "comment") :
    n.withoutComments.bracket? bracket = (n.bracket? bracket).map withoutComments := by
  rw [bracket?, children_withoutComments]
  refine find?_withoutCommentsAll (fun c ↦ by simp) fun c _ hc ↦ ?_
  have hkind : c.kind = "comment" := by simpa [isComment] using hc
  simp [hkind, Ne.symm h]

/-- An inner expression is found past comments. -/
theorem inner?_withoutComments (n : Node) :
    n.withoutComments.inner? = n.inner?.map withoutComments := by
  rw [inner?, children_withoutComments]
  exact find?_withoutCommentsAll (fun c ↦ by simp) fun c _ hc ↦ by simp [hc]

/-- The index of an access is found past comments. -/
theorem childByField?_withoutComments {n : Node} (hcomments : n.PlainComments) :
    n.withoutComments.childByField? "index" =
      (n.childByField? "index").map withoutComments := by
  rw [childByField?, children_withoutComments]
  refine find?_withoutCommentsAll (fun c ↦ by simp) fun c hc hcomment ↦ ?_
  simpa using (hcomments c (mem_preorder_of_child hc) hcomment).2

/-! ### Leaves -/

theorem firstLeafIn_withoutCommentsAll {cs : List Node}
    (h : ∀ c ∈ cs, c.withoutComments.firstLeaf = c.firstLeaf.withoutComments) :
    firstLeafIn (withoutCommentsAll cs) = (firstLeafIn cs).map withoutComments := by
  induction cs with
  | nil => rfl
  | cons c cs ih =>
    rw [List.forall_mem_cons] at h
    cases hc : c.isComment with
    | true => rw [withoutCommentsAll_cons_comment hc, ih h.2, firstLeafIn, if_pos hc]
    | false => simp [withoutCommentsAll_cons hc, firstLeafIn, hc, h.1]

/-- The first leaf is found past comments. -/
theorem firstLeaf_withoutComments (n : Node) :
    n.withoutComments.firstLeaf = n.firstLeaf.withoutComments := by
  induction n with
  | mk l cs ih =>
    rw [withoutComments, firstLeaf, firstLeaf, firstLeafIn_withoutCommentsAll ih]
    cases firstLeafIn cs <;> rfl

theorem lastLeafIn_withoutCommentsAll {cs : List Node}
    (h : ∀ c ∈ cs, c.withoutComments.lastLeaf = c.lastLeaf.withoutComments) :
    lastLeafIn (withoutCommentsAll cs) = (lastLeafIn cs).map withoutComments := by
  induction cs with
  | nil => rfl
  | cons c cs ih =>
    rw [List.forall_mem_cons] at h
    cases hc : c.isComment with
    | true =>
      rw [withoutCommentsAll_cons_comment hc, ih h.2, lastLeafIn]
      cases lastLeafIn cs <;> simp [hc]
    | false =>
      rw [withoutCommentsAll_cons hc, lastLeafIn, lastLeafIn, ih h.2]
      cases lastLeafIn cs <;> simp [hc, h.1]

theorem lastLeaf_withoutComments (n : Node) :
    n.withoutComments.lastLeaf = n.lastLeaf.withoutComments := by
  induction n with
  | mk l cs ih =>
    rw [withoutComments, lastLeaf, lastLeaf, lastLeafIn_withoutCommentsAll ih]
    cases lastLeafIn cs <;> rfl

/-! ### Peeling -/

def Enclosed.withoutComments (e : Enclosed) : Enclosed :=
  ⟨e.inner.withoutComments, e.opening.withoutComments, e.closing.withoutComments⟩

/-- Parentheses are peeled past comments. -/
theorem peel_withoutComments (opening closing n : Node) :
    peel opening.withoutComments closing.withoutComments n.withoutComments =
      (peel opening closing n).map Enclosed.withoutComments := by
  induction n generalizing opening closing with
  | mk l cs ih =>
    have hsame := (Node.mk l cs).kind_withoutComments
    by_cases hkind : (Node.mk l cs).kind = "parenthesized_expression"
    · rw [peel_of_parenthesized (hsame.trans hkind), peel_of_parenthesized hkind,
        bracket?_withoutComments _ (by decide), bracket?_withoutComments _ (by decide),
        inner?_withoutComments]
      cases (Node.mk l cs).bracket? "(" with
      | none => rfl
      | some o =>
        cases (Node.mk l cs).bracket? ")" with
        | none => rfl
        | some c =>
          cases hm : (Node.mk l cs).inner? with
          | none => rfl
          | some m => exact ih m (mem_children_of_inner? hm) o c
    · rw [peel_of_not_parenthesized (hsame ▸ hkind), peel_of_not_parenthesized hkind]
      rfl

end BracketSpacing.Tree.Node
