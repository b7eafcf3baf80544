import BracketSpacing.Proofs.Tree.Comment
import BracketSpacing.Proofs.Tree.Walk
import Mathlib.Logic.Relation

/-!
The tokens of a tree. The frontier of a node lists what is left as leaves once all comments below it
are taken out, from left to right, each with its address (`map_withoutComments_frontierNodes`,
`descend?_of_mem_frontier`). Going down to the first child that is no comment comes to an end at the
first of them, and going down to the last such child at the last (`comesToRest_firstLeaf`,
`comesToRest_lastLeaf`, `leaves_end_the_frontier`).
-/

set_option autoImplicit false
set_option relaxedAutoImplicit false

namespace BracketSpacing.Tree.Node

/-- The children that are no comments. -/
def uncommented (n : Node) : List Node := n.children.filter fun c ↦ !c.isComment

theorem mem_children_of_mem_uncommented {n c : Node} (h : c ∈ n.uncommented) : c ∈ n.children :=
  List.mem_of_mem_filter h

/-! ### Leaves -/

mutual

/-- The leaves of a tree from left to right. A node without children is its own leaf. -/
def leaves : Node → List Node
  | .mk l [] => [.mk l []]
  | .mk _ (c :: cs) => leaves c ++ leavesAll cs

def leavesAll : List Node → List Node
  | [] => []
  | c :: cs => leaves c ++ leavesAll cs

end

theorem leavesAll_eq_flatMap (cs : List Node) : leavesAll cs = cs.flatMap leaves := by
  induction cs with
  | nil => rfl
  | cons c cs ih => rw [leavesAll, ih, List.flatMap_cons]

theorem leaves_of_children_eq_nil {n : Node} (h : n.children = []) : n.leaves = [n] := by
  obtain ⟨l, cs⟩ := n
  obtain rfl : cs = [] := h
  rw [leaves]

theorem leaves_of_children_ne_nil {n : Node} (h : n.children ≠ []) :
    n.leaves = n.children.flatMap leaves := by
  obtain ⟨l, cs⟩ := n
  cases cs with
  | nil => exact absurd rfl h
  | cons c cs =>
    rw [leaves, leavesAll_eq_flatMap]
    exact List.flatMap_cons.symm

theorem withoutCommentsAll_eq_map (cs : List Node) :
    withoutCommentsAll cs = (cs.filter fun c ↦ !c.isComment).map withoutComments := by
  induction cs with
  | nil => rfl
  | cons c cs ih =>
    cases hc : c.isComment with
    | true => rw [withoutCommentsAll_cons_comment hc, ih, List.filter_cons_of_neg (by simp [hc])]
    | false =>
      rw [withoutCommentsAll_cons hc, ih, List.filter_cons_of_pos (by simp [hc]), List.map_cons]

/-- The children without comments are the children that are no comments, each without its own. -/
theorem children_withoutComments_eq_map (n : Node) :
    n.withoutComments.children = n.uncommented.map withoutComments := by
  rw [children_withoutComments, withoutCommentsAll_eq_map, uncommented]

/-! ### The frontier -/

mutual

/-- What is left as leaves once the comments below a node are taken out, from left to right, each
with its address. -/
def frontier : Node → List (List Nat × Node)
  | .mk l cs => if cs.all isComment then [([], .mk l cs)] else frontierFrom 0 cs

/-- The same below a node whose children, from index `i` on, are given. -/
def frontierFrom (i : Nat) : List Node → List (List Nat × Node)
  | [] => []
  | c :: cs =>
    if c.isComment then frontierFrom (i + 1) cs
    else c.frontier.map (fun leaf ↦ (i :: leaf.1, leaf.2)) ++ frontierFrom (i + 1) cs

end

/-- The nodes of the frontier. -/
def frontierNodes (n : Node) : List Node := n.frontier.map Prod.snd

theorem map_snd_frontierFrom (i : Nat) (cs : List Node) :
    (frontierFrom i cs).map Prod.snd = (cs.filter fun c ↦ !c.isComment).flatMap frontierNodes := by
  induction cs generalizing i with
  | nil => rfl
  | cons c cs ih =>
    rw [frontierFrom]
    split_ifs with hc
    · rw [ih, List.filter_cons_of_neg (by simp [hc])]
    · rw [List.map_append, List.map_map, ih, List.filter_cons_of_pos (by simpa using hc),
        List.flatMap_cons]
      rfl

/-- A node with nothing but comments below it is its own frontier. -/
theorem frontierNodes_of_uncommented_eq_nil {n : Node} (h : n.uncommented = []) :
    n.frontierNodes = [n] := by
  obtain ⟨l, cs⟩ := n
  have hall : cs.all isComment = true := by
    simpa [uncommented, children] using h
  rw [frontierNodes, frontier, if_pos hall, List.map_singleton]

/-- Any other node has the frontiers of its children that are no comments, from left to right. -/
theorem frontierNodes_of_uncommented_ne_nil {n : Node} (h : n.uncommented ≠ []) :
    n.frontierNodes = n.uncommented.flatMap frontierNodes := by
  obtain ⟨l, cs⟩ := n
  have hall : ¬ cs.all isComment = true := by
    simpa [uncommented, children] using h
  rw [frontierNodes, frontier, if_neg hall]
  exact map_snd_frontierFrom 0 cs

/-- Without the comments, the frontier is made of the leaves of the tree without comments. -/
theorem map_withoutComments_frontierNodes (n : Node) :
    n.frontierNodes.map withoutComments = n.withoutComments.leaves := by
  induction n with
  | mk l cs ih =>
    have hchildren := children_withoutComments_eq_map (.mk l cs)
    by_cases h : (Node.mk l cs).uncommented = []
    · rw [h, List.map_nil] at hchildren
      rw [frontierNodes_of_uncommented_eq_nil h, leaves_of_children_eq_nil hchildren,
        List.map_singleton]
    · have hne : (Node.mk l cs).withoutComments.children ≠ [] := by
        rw [hchildren]
        exact mt List.map_eq_nil_iff.mp h
      rw [frontierNodes_of_uncommented_ne_nil h, leaves_of_children_ne_nil hne, hchildren,
        List.map_flatMap, List.flatMap_map]
      exact List.flatMap_congr fun c hc ↦ ih c (mem_children_of_mem_uncommented hc)

/-! ### Addresses -/

theorem exists_of_mem_frontierFrom {i : Nat} {cs : List Node} {leaf : List Nat × Node}
    (h : leaf ∈ frontierFrom i cs) :
    ∃ k c below, cs[k]? = some c ∧ below ∈ c.frontier ∧
      leaf = ((i + k) :: below.1, below.2) := by
  induction cs generalizing i with
  | nil => cases h
  | cons c cs ih =>
    have hlater (hmem : leaf ∈ frontierFrom (i + 1) cs) :
        ∃ k d below, (c :: cs)[k]? = some d ∧ below ∈ d.frontier ∧
          leaf = ((i + k) :: below.1, below.2) := by
      obtain ⟨k, d, below, hd, hbelow, rfl⟩ := ih hmem
      exact ⟨k + 1, d, below, hd, hbelow, by rw [Nat.add_assoc, Nat.add_comm 1]⟩
    rw [frontierFrom] at h
    split_ifs at h with hc
    · exact hlater h
    · rcases List.mem_append.mp h with hmem | hmem
      · obtain ⟨below, hbelow, rfl⟩ := List.mem_map.mp hmem
        exact ⟨0, c, below, rfl, hbelow, rfl⟩
      · exact hlater hmem

/-- Each leaf of the frontier stands at its address. -/
theorem descend?_of_mem_frontier {n : Node} {leaf : List Nat × Node} (h : leaf ∈ n.frontier) :
    n.descend? leaf.1 = some leaf.2 := by
  induction n generalizing leaf with
  | mk l cs ih =>
    rw [frontier] at h
    split_ifs at h
    · rw [List.mem_singleton.mp h]
      rfl
    · obtain ⟨k, c, below, hc, hbelow, rfl⟩ := exists_of_mem_frontierFrom h
      rw [Nat.zero_add]
      exact descend?_cons_eq_some.mpr ⟨c, hc, ih c (List.mem_of_getElem? hc) hbelow⟩

theorem map_fst_frontierFrom_sublist {cs : List Node}
    (h : ∀ c ∈ cs, (c.frontier.map Prod.fst).Sublist c.addresses) (i : Nat) :
    ((frontierFrom i cs).map Prod.fst).Sublist (addressesFrom i cs) := by
  induction cs generalizing i with
  | nil => exact List.Sublist.refl _
  | cons c cs ih =>
    rw [List.forall_mem_cons] at h
    have hrest := ih h.2 (i + 1)
    rw [frontierFrom, addressesFrom]
    split_ifs
    · exact hrest.trans (List.sublist_append_right _ _)
    · rw [List.map_append, List.map_map]
      refine List.Sublist.append ?_ hrest
      have hfirst := h.1.map (i :: ·)
      rwa [List.map_map] at hfirst

/-- The frontier is listed in the order of addresses. -/
theorem map_fst_frontier_sublist (n : Node) :
    (n.frontier.map Prod.fst).Sublist n.addresses := by
  induction n with
  | mk l cs ih =>
    rw [frontier, addresses]
    split_ifs
    · exact List.singleton_sublist.mpr List.mem_cons_self
    · exact (map_fst_frontierFrom_sublist ih 0).trans (List.sublist_cons_self _ _)

/-! ### The way down -/

/-- Single steps from a node come to an end at another one. -/
structure ComesToRest (next : Node → Option Node) (n leaf : Node) : Prop where
  reaches : Relation.ReflTransGen (fun m c ↦ next m = some c) n leaf
  rests : next leaf = none

/-- Steps to children come to an end, at the node that is found by going on from the first step. -/
theorem comesToRest_of_eq {next : Node → Option Node} {leaf : Node → Node}
    (hchild : ∀ n c, next n = some c → c ∈ n.children)
    (heq : ∀ n, leaf n = ((next n).map leaf).getD n) (n : Node) : ComesToRest next n (leaf n) := by
  induction n with
  | mk l cs ih =>
    rw [heq]
    cases h : next (.mk l cs) with
    | none => exact ⟨.refl, h⟩
    | some c =>
      obtain ⟨hreaches, hrests⟩ := ih c (hchild _ c h)
      exact ⟨.head h hreaches, hrests⟩

theorem firstLeafIn_eq (cs : List Node) :
    firstLeafIn cs = (cs.filter fun c ↦ !c.isComment).head?.map firstLeaf := by
  induction cs with
  | nil => rfl
  | cons c cs ih =>
    rw [firstLeafIn]
    split_ifs with hc
    · rw [ih, List.filter_cons_of_neg (by simp [hc])]
    · rw [List.filter_cons_of_pos (by simpa using hc), List.head?_cons, Option.map_some]

theorem lastLeafIn_eq (cs : List Node) :
    lastLeafIn cs = (cs.filter fun c ↦ !c.isComment).getLast?.map lastLeaf := by
  induction cs with
  | nil => rfl
  | cons c cs ih =>
    rw [lastLeafIn, ih]
    cases hc : c.isComment with
    | true =>
      rw [List.filter_cons_of_neg (by simp [hc])]
      cases (cs.filter fun c ↦ !c.isComment).getLast? <;> rfl
    | false =>
      rw [List.filter_cons_of_pos (by simp [hc]), List.getLast?_cons]
      cases (cs.filter fun c ↦ !c.isComment).getLast? <;> rfl

/-- The first leaf is that of the first child that is no comment, if there is one. -/
theorem firstLeaf_eq (n : Node) :
    n.firstLeaf = (n.uncommented.head?.map firstLeaf).getD n := by
  obtain ⟨l, cs⟩ := n
  rw [firstLeaf, firstLeafIn_eq]
  rfl

theorem lastLeaf_eq (n : Node) :
    n.lastLeaf = (n.uncommented.getLast?.map lastLeaf).getD n := by
  obtain ⟨l, cs⟩ := n
  rw [lastLeaf, lastLeafIn_eq]
  rfl

/-- Going down to the first child that is no comment ends at the first leaf. -/
theorem comesToRest_firstLeaf (n : Node) :
    ComesToRest (fun m ↦ m.uncommented.head?) n n.firstLeaf :=
  comesToRest_of_eq (fun _ _ h ↦ mem_children_of_mem_uncommented (List.mem_of_head? h))
    firstLeaf_eq n

/-- Going down to the last child that is no comment ends at the last leaf. -/
theorem comesToRest_lastLeaf (n : Node) :
    ComesToRest (fun m ↦ m.uncommented.getLast?) n n.lastLeaf :=
  comesToRest_of_eq (fun _ _ h ↦ mem_children_of_mem_uncommented (List.mem_of_getLast? h))
    lastLeaf_eq n

/-- The frontier starts with the first leaf. -/
theorem head?_frontierNodes (n : Node) : n.frontierNodes.head? = some n.firstLeaf := by
  induction n with
  | mk l cs ih =>
    rw [firstLeaf_eq]
    cases h : (Node.mk l cs).uncommented with
    | nil =>
      rw [frontierNodes_of_uncommented_eq_nil h]
      rfl
    | cons c rest =>
      have hc : c ∈ (Node.mk l cs).uncommented := h ▸ List.mem_cons_self
      rw [frontierNodes_of_uncommented_ne_nil (h ▸ List.cons_ne_nil c rest), h, List.flatMap_cons,
        List.head?_append, ih c (mem_children_of_mem_uncommented hc)]
      rfl

/-- The frontier ends with the last leaf. -/
theorem getLast?_frontierNodes (n : Node) : n.frontierNodes.getLast? = some n.lastLeaf := by
  induction n with
  | mk l cs ih =>
    rw [lastLeaf_eq]
    rcases List.eq_nil_or_concat (Node.mk l cs).uncommented with h | ⟨rest, c, h⟩
    · rw [frontierNodes_of_uncommented_eq_nil h, h]
      rfl
    · rw [List.concat_eq_append] at h
      have hc : c ∈ (Node.mk l cs).uncommented := h ▸ List.mem_append_right rest List.mem_cons_self
      have hne : (Node.mk l cs).uncommented ≠ [] := List.ne_nil_of_mem hc
      rw [frontierNodes_of_uncommented_ne_nil hne, h, List.flatMap_append, List.flatMap_singleton,
        List.getLast?_append, ih c (mem_children_of_mem_uncommented hc), List.getLast?_concat]
      rfl

/-- Once all comments below a node are taken out, with what is below them, the first and the last
leaf of the node are the ends of the list of all leaves that are left. They are so as nodes of the
tree, each leaf being known by its address. Going down to the first, or to the last, child that is
no comment comes to an end there. -/
theorem leaves_end_the_frontier (n : Node) :
    let left := n.withoutComments.leaves
    (left.head? = some n.firstLeaf.withoutComments ∧
      left.getLast? = some n.lastLeaf.withoutComments) ∧
    (n.frontier.map (fun leaf ↦ leaf.2.withoutComments) = left ∧
      (n.frontier.map Prod.fst).Pairwise (· < ·) ∧
      (∀ leaf ∈ n.frontier, n.descend? leaf.1 = some leaf.2) ∧
      n.frontier.head?.map Prod.snd = some n.firstLeaf ∧
      n.frontier.getLast?.map Prod.snd = some n.lastLeaf) ∧
    ComesToRest (fun m ↦ m.uncommented.head?) n n.firstLeaf ∧
    ComesToRest (fun m ↦ m.uncommented.getLast?) n n.lastLeaf := by
  intro left
  have hleft : n.frontierNodes.map withoutComments = left := map_withoutComments_frontierNodes n
  have hfirst := head?_frontierNodes n
  have hlast := getLast?_frontierNodes n
  refine ⟨⟨?_, ?_⟩, ⟨?_, ?_, fun leaf ↦ descend?_of_mem_frontier, ?_, ?_⟩,
    comesToRest_firstLeaf n, comesToRest_lastLeaf n⟩
  · rw [← hleft, List.head?_map, hfirst, Option.map_some]
  · rw [← hleft, List.getLast?_map, hlast, Option.map_some]
  · rw [← hleft, frontierNodes, List.map_map]
    rfl
  · exact n.addresses_increasing.sublist (map_fst_frontier_sublist n)
  · rwa [frontierNodes, List.head?_map] at hfirst
  · rwa [frontierNodes, List.getLast?_map] at hlast

end BracketSpacing.Tree.Node
