import BracketSpacing.Proofs.Tree.Node
import BracketSpacing.Tree.Cursor
import Mathlib.Data.List.Lex

/-!
Where a cursor goes. A node is known by its address, the child indexes on the way down to it; the
lexicographic order of addresses puts a node before all below it and a subtree before the next one
(`addresses_increasing`). Every move keeps the tree around the cursor (`whole_of_mem_walk`), and the
walk visits each address of a tree once, in increasing order (`map_address_walk`).
-/

set_option autoImplicit false
set_option relaxedAutoImplicit false

namespace BracketSpacing.Tree

namespace Node

/-! ### Addresses -/

mutual

/-- The addresses of a node and of all below it, in preorder. -/
def addresses : Node → List (List Nat)
  | .mk _ cs => [] :: addressesFrom 0 cs

/-- The addresses below a node whose children, from index `i` on, are given. -/
def addressesFrom (i : Nat) : List Node → List (List Nat)
  | [] => []
  | c :: cs => c.addresses.map (i :: ·) ++ addressesFrom (i + 1) cs

end

/-- An address below the children from index `i` on goes first to one of them, then on inside it. -/
theorem mem_addressesFrom {i : Nat} {cs : List Node} {p : List Nat} :
    p ∈ addressesFrom i cs ↔
      ∃ k child below, cs[k]? = some child ∧ below ∈ child.addresses ∧ p = (i + k) :: below := by
  induction cs generalizing i with
  | nil => simp [addressesFrom]
  | cons c cs ih =>
    have hshift (k : Nat) : i + 1 + k = i + (k + 1) := by omega
    rw [addressesFrom, List.mem_append, List.mem_map, ih]
    constructor
    · intro h
      rcases h with ⟨below, hbelow, rfl⟩ | ⟨k, child, below, hchild, hbelow, rfl⟩
      · exact ⟨0, c, below, List.getElem?_cons_zero, hbelow, by rw [Nat.add_zero]⟩
      · exact ⟨k + 1, child, below, by rwa [List.getElem?_cons_succ], hbelow, by rw [hshift]⟩
    · intro ⟨k, child, below, hchild, hbelow, hp⟩
      cases k with
      | zero =>
        rw [List.getElem?_cons_zero, Option.some.injEq] at hchild
        subst hchild
        exact Or.inl ⟨below, hbelow, hp.symm⟩
      | succ k =>
        rw [List.getElem?_cons_succ] at hchild
        exact Or.inr ⟨k, child, below, hchild, hbelow, by rw [hp, hshift]⟩

theorem descend?_cons_eq_some {n m : Node} {i : Nat} {p : List Nat} :
    n.descend? (i :: p) = some m ↔ ∃ c, n.children[i]? = some c ∧ c.descend? p = some m := by
  rw [descend?]
  cases n.children[i]? <;> simp

/-- A way down may be gone in two parts. -/
theorem descend?_append_eq_some {n m : Node} {p q : List Nat} :
    n.descend? (p ++ q) = some m ↔ ∃ c, n.descend? p = some c ∧ c.descend? q = some m := by
  induction p generalizing n with
  | nil => simp [descend?]
  | cons i p ih =>
    simp only [List.cons_append, descend?_cons_eq_some, ih]
    constructor
    · rintro ⟨c, hc, d, hd, hm⟩
      exact ⟨d, ⟨c, hc, hd⟩, hm⟩
    · rintro ⟨d, ⟨c, hc, hd⟩, hm⟩
      exact ⟨c, hc, d, hd, hm⟩

/-- The addresses of a tree are those at which there is a node. -/
theorem mem_addresses {n : Node} {p : List Nat} :
    p ∈ n.addresses ↔ ∃ m, n.descend? p = some m := by
  induction p generalizing n with
  | nil =>
    obtain ⟨l, cs⟩ := n
    simp [addresses, descend?]
  | cons i p ih =>
    obtain ⟨l, cs⟩ := n
    have hroot : i :: p ∈ (Node.mk l cs).addresses ↔ i :: p ∈ addressesFrom 0 cs := by
      simp [addresses]
    simp only [hroot, mem_addressesFrom, descend?_cons_eq_some, Nat.zero_add, List.cons.injEq]
    constructor
    · rintro ⟨k, c, below, hc, hbelow, rfl, rfl⟩
      obtain ⟨m, hm⟩ := ih.mp hbelow
      exact ⟨m, c, hc, hm⟩
    · rintro ⟨m, c, hc, hm⟩
      exact ⟨i, c, p, hc, ih.mpr ⟨m, hm⟩, rfl, rfl⟩

/-- The addresses below some children increase if those below each do. -/
theorem addressesFrom_increasing {cs : List Node}
    (h : ∀ c ∈ cs, c.addresses.Pairwise (· < ·)) (i : Nat) :
    (addressesFrom i cs).Pairwise (· < ·) := by
  induction cs generalizing i with
  | nil => exact List.Pairwise.nil
  | cons c cs ih =>
    rw [addressesFrom, List.pairwise_append]
    refine ⟨?_, ih (fun d hd ↦ h d (List.mem_cons_of_mem c hd)) (i + 1), ?_⟩
    · refine List.pairwise_map.mpr ((h c List.mem_cons_self).imp ?_)
      intro p q hpq
      exact List.Lex.cons hpq
    · intro p hp q hq
      obtain ⟨p', -, rfl⟩ := List.mem_map.mp hp
      obtain ⟨k, d, q', -, -, rfl⟩ := mem_addressesFrom.mp hq
      exact List.Lex.rel (by omega)

/-- The addresses of a tree increase in preorder. -/
theorem addresses_increasing (n : Node) : n.addresses.Pairwise (· < ·) := by
  induction n with
  | mk l cs ih =>
    rw [addresses, List.pairwise_cons]
    refine ⟨?_, addressesFrom_increasing ih 0⟩
    intro p hp
    obtain ⟨k, c, q, -, -, rfl⟩ := mem_addressesFrom.mp hp
    exact List.Lex.nil

end Node

namespace Cursor

/-! ### Where a cursor stands -/

/-- The address of the focus in the tree around the cursor. -/
def address (c : Cursor) : List Nat := (c.frames.map (·.left.length)).reverse

/-- The node that some frames put around a node. -/
def enclose (n : Node) : List Frame → Node
  | [] => n
  | frame :: frames => enclose (.mk frame.parent (frame.left.reverse ++ n :: frame.right)) frames

/-- The tree around a cursor. -/
def whole (c : Cursor) : Node := enclose c.focus c.frames

theorem address_cons (n : Node) (frame : Frame) (frames : List Frame) :
    address ⟨n, frame :: frames⟩ = address ⟨n, frames⟩ ++ [frame.left.length] := by
  simp [address]

/-- The focus is the node at its address. -/
theorem descend?_address (c : Cursor) : c.whole.descend? c.address = some c.focus := by
  obtain ⟨n, frames⟩ := c
  induction frames generalizing n with
  | nil => rfl
  | cons frame frames ih =>
    rw [address_cons, Node.descend?_append_eq_some]
    refine ⟨_, ih (.mk frame.parent (frame.left.reverse ++ n :: frame.right)), ?_⟩
    rw [Node.descend?_cons_eq_some]
    refine ⟨n, ?_, rfl⟩
    change (frame.left.reverse ++ n :: frame.right)[frame.left.length]? = some n
    rw [List.getElem?_append_right (by rw [List.length_reverse]), List.length_reverse, Nat.sub_self,
      List.getElem?_cons_zero]

/-- A cursor is at the root, or one step below a cursor on its parent. -/
theorem parent_cases (c : Cursor) :
    (c.address = [] ∧ c.ancestors = []) ∨
      ∃ (up : Cursor) (i : Nat), up.whole = c.whole ∧ c.address = up.address ++ [i] ∧
        c.ancestors = up.focus.label :: up.ancestors := by
  obtain ⟨n, frames⟩ := c
  cases frames with
  | nil => exact Or.inl ⟨rfl, rfl⟩
  | cons frame frames =>
    exact Or.inr ⟨⟨.mk frame.parent (frame.left.reverse ++ n :: frame.right), frames⟩,
      frame.left.length, rfl, address_cons n frame frames, rfl⟩

/-- Above a cursor that is not at the root stands a cursor at its parent. -/
theorem parent_of_address (c : Cursor) {p : List Nat} {i : Nat} {parent : Node}
    (hp : c.address = p ++ [i]) (hparent : c.whole.descend? p = some parent) :
    ∃ up : Cursor, up.focus = parent ∧ c.ancestors = parent.label :: up.ancestors ∧
      up.address = p ∧ up.whole = c.whole := by
  rcases c.parent_cases with ⟨hroot, -⟩ | ⟨up, j, hup, haddress, habove⟩
  · rw [hroot] at hp
    exact absurd hp.symm (List.concat_ne_nil i p)
  · obtain ⟨rfl, -⟩ := List.append_inj' (haddress.symm.trans hp) rfl
    rw [← hup, up.descend?_address] at hparent
    cases hparent
    exact ⟨up, rfl, habove, rfl, hup⟩

theorem whole_of_firstChild {c child : Cursor} (h : c.firstChild? = some child) :
    child.whole = c.whole := by
  obtain ⟨⟨l, cs⟩, frames⟩ := c
  cases cs with
  | nil => cases h
  | cons first rest =>
    cases h
    rfl

theorem whole_of_nextSibling {c next : Cursor} (h : c.nextSibling? = some next) :
    next.whole = c.whole := by
  obtain ⟨n, frames⟩ := c
  cases frames with
  | nil => cases h
  | cons frame frames =>
    obtain ⟨parent, left, right⟩ := frame
    cases right with
    | nil => cases h
    | cons sibling right =>
      cases h
      simp [whole, enclose]

theorem whole_of_parent {c parent : Cursor} (h : c.parent? = some parent) :
    parent.whole = c.whole := by
  obtain ⟨n, frames⟩ := c
  cases frames with
  | nil => cases h
  | cons frame frames =>
    cases h
    rfl

/-- No cursor of a walk leaves the tree. -/
theorem whole_of_mem_walkFrom {fuel : Nat} {c d : Cursor} {visited : Bool}
    (h : d ∈ walkFrom fuel c visited) : d.whole = c.whole := by
  fun_induction walkFrom fuel c visited with
  | case1 => cases h
  | case2 fuel c ihChild ihDone =>
    rcases List.mem_cons.mp h with rfl | hd
    · rfl
    · cases hchild : c.firstChild? with
      | some child =>
        rw [hchild] at hd
        rw [ihChild child hd, whole_of_firstChild hchild]
      | none =>
        rw [hchild] at hd
        exact ihDone hd
  | case3 fuel c next hnext ih => rw [ih h, whole_of_nextSibling hnext]
  | case4 fuel c hnext parent hparent ih => rw [ih h, whole_of_parent hparent]
  | case5 => cases h

/-! ### The walk as a recursion on the tree -/

mutual

/-- The cursors on a node, under some frames, and on all below it, in preorder. -/
def visits (frames : List Frame) : Node → List Cursor
  | .mk l cs => ⟨.mk l cs, frames⟩ :: visitsFrom l frames [] cs

/-- The cursors below a node, from the children after `left` on. -/
def visitsFrom (parent : Label) (frames : List Frame) (left : List Node) : List Node → List Cursor
  | [] => []
  | c :: right =>
    visits (⟨parent, left, right⟩ :: frames) c ++ visitsFrom parent frames (c :: left) right

end

/-- Walking a node to its end takes two steps for each node below it and one for itself; the step
that leaves it is still to come. -/
def WalksToEnd (n : Node) : Prop :=
  ∀ (frames : List Frame) (fuel : Nat),
    walkFrom (fuel + (2 * n.size - 1)) ⟨n, frames⟩ false =
      visits frames n ++ walkFrom fuel ⟨n, frames⟩ true

/-- The walk goes through siblings one after the other and then up. -/
theorem walkFrom_siblings {c : Node} {right : List Node} (h : ∀ n ∈ c :: right, WalksToEnd n)
    (parent : Label) (left : List Node) (frames : List Frame) (fuel : Nat) :
    walkFrom (fuel + 2 * Node.sizeAll (c :: right)) ⟨c, ⟨parent, left, right⟩ :: frames⟩ false =
      visitsFrom parent frames left (c :: right) ++
        walkFrom fuel ⟨.mk parent (left.reverse ++ c :: right), frames⟩ true := by
  -- Along the siblings: the step that leaves `c` goes to the next one, or after the last up to the
  -- parent, where the walk goes on as if it had just come back from below.
  induction right generalizing c left with
  | nil =>
    have hfuel : fuel + 2 * Node.sizeAll [c] = fuel + 1 + (2 * c.size - 1) := by
      have hpos := c.size_pos
      simp only [Node.sizeAll]
      omega
    rw [hfuel, h c List.mem_cons_self, visitsFrom, visitsFrom, List.append_nil, walkFrom]
    rfl
  | cons next right ih =>
    have hfuel : fuel + 2 * Node.sizeAll (c :: next :: right) =
        fuel + 2 * Node.sizeAll (next :: right) + 1 + (2 * c.size - 1) := by
      have hpos := c.size_pos
      simp only [Node.sizeAll]
      omega
    have hnext : nextSibling? ⟨c, ⟨parent, left, next :: right⟩ :: frames⟩ =
        some ⟨next, ⟨parent, c :: left, right⟩ :: frames⟩ := rfl
    rw [hfuel, visitsFrom, h c List.mem_cons_self, walkFrom, hnext]
    dsimp only
    rw [ih (fun n hn ↦ h n (List.mem_cons_of_mem c hn)), List.append_assoc, List.reverse_cons,
      List.append_assoc, List.singleton_append]

/-- The walk goes to the end of every subtree. -/
theorem walksToEnd (n : Node) : WalksToEnd n := by
  induction n with
  | mk l cs ih =>
    intro frames fuel
    cases cs with
    | nil => rfl
    | cons c right =>
      have hfuel : fuel + (2 * (Node.mk l (c :: right)).size - 1) =
          fuel + 2 * Node.sizeAll (c :: right) + 1 := by
        simp only [Node.size]
        omega
      have hchild : firstChild? ⟨.mk l (c :: right), frames⟩ =
          some ⟨c, ⟨l, [], right⟩ :: frames⟩ := rfl
      rw [hfuel, walkFrom, hchild, visits, List.cons_append]
      dsimp only
      rw [walkFrom_siblings ih]
      rfl

/-- The walk of a tree visits it in preorder. -/
theorem walk_eq_visits (n : Node) : walk n = visits [] n := by
  have hfuel : 2 * n.size = 1 + (2 * n.size - 1) := by
    have hpos := n.size_pos
    omega
  rw [walk, start, hfuel, walksToEnd n [] 1]
  exact List.append_nil _

theorem map_address_visitsFrom {cs : List Node} (parent : Label) (frames : List Frame)
    (left : List Node)
    (h : ∀ c ∈ cs, ∀ frames, (visits frames c).map address =
      c.addresses.map (address ⟨c, frames⟩ ++ ·)) (n : Node) :
    (visitsFrom parent frames left cs).map address =
      (Node.addressesFrom left.length cs).map (address ⟨n, frames⟩ ++ ·) := by
  induction cs generalizing left with
  | nil => rfl
  | cons c right ih =>
    have hrest := ih (c :: left) fun d hd ↦ h d (List.mem_cons_of_mem c hd)
    rw [visitsFrom, Node.addressesFrom, List.map_append, List.map_append, hrest, List.length_cons,
      h c List.mem_cons_self, List.map_map, address_cons]
    congr 2
    funext p
    exact List.append_assoc _ _ _

/-- What is visited below a node has the addresses below it. -/
theorem map_address_visits (n : Node) (frames : List Frame) :
    (visits frames n).map address = n.addresses.map (address ⟨n, frames⟩ ++ ·) := by
  induction n generalizing frames with
  | mk l cs ih =>
    rw [visits, Node.addresses, List.map_cons, List.map_cons, List.append_nil,
      map_address_visitsFrom l frames [] ih (.mk l cs)]
    rfl

/-- The walk visits every address of the tree, each once and in increasing order. -/
theorem map_address_walk (n : Node) : (walk n).map address = n.addresses := by
  rw [walk_eq_visits, map_address_visits]
  exact List.map_id n.addresses

/-- Every cursor of a walk stands in the tree that is walked. -/
theorem whole_of_mem_walk {n : Node} {c : Cursor} (h : c ∈ walk n) : c.whole = n :=
  whole_of_mem_walkFrom h

end Cursor

end BracketSpacing.Tree
