import BracketSpacing.Finding
import BracketSpacing.Proofs.Tree.Walk

/-!
Trees with other labels. `relabel` changes the label of every node and leaves the shape of the tree
as it is. Where kinds, names, fields and missing tokens stay the same, looking for a child, going to
a leaf, peeling parentheses and walking all commute with it: they find the relabelled nodes
(`find?_relabel`, `firstLeaf_relabel`, `peel_relabel`, `walk_relabel`, `enclosed?_relabel`).
-/

set_option autoImplicit false
set_option relaxedAutoImplicit false

namespace BracketSpacing.Tree

/-- A change of labels that only moves nodes: what a node is stays. -/
structure Label.Moves (f : Label → Label) : Prop where
  kind : ∀ l, (f l).kind = l.kind
  named : ∀ l, (f l).named = l.named
  missing : ∀ l, (f l).missing = l.missing
  field : ∀ l, (f l).field = l.field

namespace Node

mutual

/-- A tree of the same shape with every label changed. -/
def relabel (f : Label → Label) : Node → Node
  | .mk l cs => .mk (f l) (relabelAll f cs)

def relabelAll (f : Label → Label) : List Node → List Node
  | [] => []
  | c :: cs => relabel f c :: relabelAll f cs

end

section Relabel

variable (f : Label → Label)

theorem relabelAll_eq_map (cs : List Node) : relabelAll f cs = cs.map (relabel f) := by
  induction cs with
  | nil => rfl
  | cons c cs ih => rw [relabelAll, ih, List.map_cons]

@[simp] theorem label_relabel (n : Node) : (n.relabel f).label = f n.label := by
  obtain ⟨l, cs⟩ := n
  rfl

@[simp] theorem children_relabel (n : Node) :
    (n.relabel f).children = n.children.map (relabel f) := by
  obtain ⟨l, cs⟩ := n
  exact relabelAll_eq_map f cs

def Enclosed.relabel (e : Enclosed) : Enclosed :=
  ⟨e.inner.relabel f, e.opening.relabel f, e.closing.relabel f⟩

end Relabel

section Moves

variable {f : Label → Label} (hf : Label.Moves f)

include hf

theorem kind_relabel (n : Node) : (n.relabel f).kind = n.kind := by
  rw [kind, label_relabel, hf.kind]
  rfl

theorem named_relabel (n : Node) : (n.relabel f).named = n.named := by
  rw [named, label_relabel, hf.named]
  rfl

theorem missing_relabel (n : Node) : (n.relabel f).missing = n.missing := by
  rw [missing, label_relabel, hf.missing]
  rfl

theorem isComment_relabel (n : Node) : (n.relabel f).isComment = n.isComment := by
  rw [isComment, isComment, kind_relabel hf]

/-! ### Looking for a child -/

omit hf in
/-- A search that does not see the change finds the changed child. -/
theorem find?_relabel {p : Node → Bool} (hp : ∀ n, p (n.relabel f) = p n) (n : Node) :
    (n.relabel f).children.find? p = (n.children.find? p).map (relabel f) := by
  rw [children_relabel, List.find?_map]
  congr 2
  exact funext hp

theorem bracket?_relabel (n : Node) (bracket : String) :
    (n.relabel f).bracket? bracket = (n.bracket? bracket).map (relabel f) :=
  find?_relabel (fun c ↦ by rw [kind_relabel hf, missing_relabel hf]) n

theorem inner?_relabel (n : Node) : (n.relabel f).inner? = n.inner?.map (relabel f) :=
  find?_relabel (fun c ↦ by rw [named_relabel hf, isComment_relabel hf]) n

theorem childByField?_relabel (n : Node) (field : String) :
    (n.relabel f).childByField? field = (n.childByField? field).map (relabel f) :=
  find?_relabel (fun c ↦ by rw [label_relabel, hf.field]) n

/-! ### Leaves -/

theorem firstLeafIn_relabelAll {cs : List Node}
    (h : ∀ c ∈ cs, (c.relabel f).firstLeaf = c.firstLeaf.relabel f) :
    firstLeafIn (relabelAll f cs) = (firstLeafIn cs).map (relabel f) := by
  induction cs with
  | nil => rfl
  | cons c cs ih =>
    rw [List.forall_mem_cons] at h
    rw [relabelAll, firstLeafIn, firstLeafIn, isComment_relabel hf, ih h.2, h.1]
    split_ifs <;> rfl

/-- The first leaf of a relabelled node is its first leaf, relabelled. -/
theorem firstLeaf_relabel (n : Node) : (n.relabel f).firstLeaf = n.firstLeaf.relabel f := by
  induction n with
  | mk l cs ih =>
    rw [relabel, firstLeaf, firstLeaf, firstLeafIn_relabelAll hf ih]
    cases firstLeafIn cs <;> rfl

theorem lastLeafIn_relabelAll {cs : List Node}
    (h : ∀ c ∈ cs, (c.relabel f).lastLeaf = c.lastLeaf.relabel f) :
    lastLeafIn (relabelAll f cs) = (lastLeafIn cs).map (relabel f) := by
  induction cs with
  | nil => rfl
  | cons c cs ih =>
    rw [List.forall_mem_cons] at h
    rw [relabelAll, lastLeafIn, lastLeafIn, isComment_relabel hf, ih h.2, h.1]
    cases lastLeafIn cs with
    | some leaf => rfl
    | none => cases c.isComment <;> rfl

/-- The last leaf of a relabelled node is its last leaf, relabelled. -/
theorem lastLeaf_relabel (n : Node) : (n.relabel f).lastLeaf = n.lastLeaf.relabel f := by
  induction n with
  | mk l cs ih =>
    rw [relabel, lastLeaf, lastLeaf, lastLeafIn_relabelAll hf ih]
    cases lastLeafIn cs <;> rfl

/-! ### Peeling -/

/-- Peeling a relabelled node gives what peeling gives, relabelled. -/
theorem peel_relabel (opening closing n : Node) :
    peel (opening.relabel f) (closing.relabel f) (n.relabel f) =
      (peel opening closing n).map (Enclosed.relabel f) := by
  induction n generalizing opening closing with
  | mk l cs ih =>
    have hsame := kind_relabel hf (.mk l cs)
    by_cases hkind : (Node.mk l cs).kind = "parenthesized_expression"
    · rw [peel_of_parenthesized (hsame.trans hkind), peel_of_parenthesized hkind,
        bracket?_relabel hf, bracket?_relabel hf, inner?_relabel hf]
      cases (Node.mk l cs).bracket? "(" with
      | none => rfl
      | some o =>
        cases (Node.mk l cs).bracket? ")" with
        | none => rfl
        | some c =>
          cases hm : (Node.mk l cs).inner? with
          | none => rfl
          | some m => exact ih m (mem_children_of_inner? hm) o c
    · rw [peel_of_not_parenthesized (hsame ▸ hkind), peel_of_not_parenthesized hkind]
      rfl

end Moves

end Node

/-! ### Walking -/

def Frame.relabel (f : Label → Label) (frame : Frame) : Frame :=
  ⟨f frame.parent, frame.left.map (Node.relabel f), frame.right.map (Node.relabel f)⟩

namespace Cursor

/-- The cursor on the same node of the relabelled tree. -/
def relabel (f : Label → Label) (c : Cursor) : Cursor :=
  ⟨c.focus.relabel f, c.frames.map (Frame.relabel f)⟩

variable (f : Label → Label)

theorem ancestors_relabel (c : Cursor) : (c.relabel f).ancestors = c.ancestors.map f := by
  simp only [ancestors, relabel, List.map_map]
  rfl

theorem visitsFrom_relabel {cs : List Node}
    (h : ∀ c ∈ cs, ∀ frames, visits (frames.map (Frame.relabel f)) (c.relabel f) =
      (visits frames c).map (relabel f))
    (parent : Label) (frames : List Frame) (left : List Node) :
    visitsFrom (f parent) (frames.map (Frame.relabel f)) (left.map (Node.relabel f))
        (cs.map (Node.relabel f)) =
      (visitsFrom parent frames left cs).map (relabel f) := by
  induction cs generalizing left with
  | nil => rfl
  | cons c right ih =>
    rw [List.forall_mem_cons] at h
    have hchild := h.1 (⟨parent, left, right⟩ :: frames)
    have hrest := ih h.2 (c :: left)
    rw [List.map_cons] at hchild hrest
    rw [List.map_cons, visitsFrom, visitsFrom, List.map_append, ← hchild, ← hrest]
    rfl

/-- A relabelled tree is visited as the tree is, relabelled. -/
theorem visits_relabel (n : Node) (frames : List Frame) :
    visits (frames.map (Frame.relabel f)) (n.relabel f) = (visits frames n).map (relabel f) := by
  induction n generalizing frames with
  | mk l cs ih =>
    have hbelow := visitsFrom_relabel f ih l frames []
    rw [Node.relabel, visits, visits, List.map_cons, ← hbelow, Node.relabelAll_eq_map, relabel,
      Node.relabel, Node.relabelAll_eq_map, List.map_nil]

/-- Walking a relabelled tree visits the nodes of the tree, relabelled. -/
theorem walk_relabel (n : Node) : walk (n.relabel f) = (walk n).map (relabel f) := by
  rw [walk_eq_visits, walk_eq_visits]
  exact visits_relabel f n []

end Cursor

end BracketSpacing.Tree

/-! ### Candidates -/

namespace BracketSpacing.Candidate

open BracketSpacing.Tree

def relabel (f : Label → Label) (k : Candidate) : Candidate :=
  { k with
    owner := f k.owner
    container := k.container.relabel f
    inner := k.inner.map (Node.relabel f) }

variable {f : Label → Label} (hf : Label.Moves f)

include hf

theorem propertyOwner?_map (labels : List Label) :
    propertyOwner? (labels.map f) = (propertyOwner? labels).map f := by
  cases labels with
  | nil => rfl
  | cons parent above =>
    cases above with
    | nil =>
      simp only [List.map_cons, List.map_nil, propertyOwner?, hf.kind]
      split_ifs <;> rfl
    | cons grand rest =>
      simp only [List.map_cons, propertyOwner?, hf.kind]
      split_ifs <;> rfl

/-- A relabelled candidate is the candidate, relabelled. -/
theorem ofCursor?_relabel (c : Cursor) :
    ofCursor? (c.relabel f) = (ofCursor? c).map (relabel f) := by
  have hfocus : (c.relabel f).focus = c.focus.relabel f := rfl
  simp only [ofCursor?, hfocus, Node.kind_relabel hf, Node.label_relabel,
    Node.childByField?_relabel hf, Node.inner?_relabel hf, Cursor.ancestors_relabel,
    propertyOwner?_map hf]
  split_ifs
  · rfl
  · cases propertyOwner? c.ancestors <;> rfl
  · rfl

/-- What a relabelled candidate encloses is what it encloses, relabelled. -/
theorem enclosed?_relabel (k : Candidate) :
    (k.relabel f).enclosed? = k.enclosed?.map (Node.Enclosed.relabel f) := by
  obtain ⟨kind, owner, container, inner⟩ := k
  simp only [enclosed?, relabel, Node.bracket?_relabel hf]
  cases container.bracket? "[" with
  | none => rfl
  | some opening =>
    cases container.bracket? "]" with
    | none => rfl
    | some closing =>
      cases inner with
      | none => rfl
      | some n => exact Node.peel_relabel hf opening closing n

end BracketSpacing.Candidate
