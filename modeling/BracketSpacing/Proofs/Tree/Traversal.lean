import BracketSpacing.Proofs.Tree.Walk

/-!
The loop of a walk, seen from the tree around the node it starts at. `Traverses` is the loop by
addresses: a cursor goes to a first child, else to the next sibling, else up, and never sideways or
up from its start, whatever stands beside it there. The loop comes to an end on every tree
(`traversed`), with one result (`unique`), and what it has visited by then is what the walk visits:
the subtree at the start in preorder (`walkFrom_start`, `walk_is_preorder_of_subtree`).
-/

set_option autoImplicit false
set_option relaxedAutoImplicit false

namespace BracketSpacing.Tree

/-! ### The loop -/

/-- From an address and the flag that tells that all below it is done, the loop comes to its end
after visiting some addresses. The cursor was made at `start` and stays at or below it. -/
inductive Traverses (tree : Node) (start : List Nat) : List Nat → Bool → List (List Nat) → Prop
  | down {a : List Nat} {child : Node} {visits : List (List Nat)}
    (hchild : tree.descend? (a ++ [0]) = some child)
    (rest : Traverses tree start (a ++ [0]) false visits) :
    Traverses tree start a false (a :: visits)
  | leaf {a : List Nat} {visits : List (List Nat)} (hchild : tree.descend? (a ++ [0]) = none)
    (rest : Traverses tree start a true visits) :
    Traverses tree start a false (a :: visits)
  | across {a : List Nat} {i : Nat} {next : Node} {visits : List (List Nat)} (hbelow : start <+: a)
    (hnext : tree.descend? (a ++ [i + 1]) = some next)
    (rest : Traverses tree start (a ++ [i + 1]) false visits) :
    Traverses tree start (a ++ [i]) true visits
  | up {a : List Nat} {i : Nat} {visits : List (List Nat)} (hbelow : start <+: a)
    (hnext : tree.descend? (a ++ [i + 1]) = none) (rest : Traverses tree start a true visits) :
    Traverses tree start (a ++ [i]) true visits
  | stop : Traverses tree start start true []

namespace Traverses

variable {tree : Node} {start a : List Nat} {visits others after : List (List Nat)}

theorem start_ne_concat (h : start <+: a) (i : Nat) : start ≠ a ++ [i] := by
  intro heq
  have hlength := h.length_le
  rw [heq, List.length_append, List.length_singleton] at hlength
  omega

/-- Once all below is done, the loop stops at its start, and else goes on beside or above. -/
theorem done_cases (h : Traverses tree start a true visits) :
    (a = start ∧ visits = []) ∨ ∃ b i, a = b ++ [i] ∧ start <+: b ∧
      ((∃ next, tree.descend? (b ++ [i + 1]) = some next ∧
          Traverses tree start (b ++ [i + 1]) false visits) ∨
        (tree.descend? (b ++ [i + 1]) = none ∧ Traverses tree start b true visits)) := by
  cases h with
  | across hbelow hnext rest => exact Or.inr ⟨_, _, rfl, hbelow, Or.inl ⟨_, hnext, rest⟩⟩
  | up hbelow hnext rest => exact Or.inr ⟨_, _, rfl, hbelow, Or.inr ⟨hnext, rest⟩⟩
  | stop => exact Or.inl ⟨rfl, rfl⟩

/-- Below the start, the loop goes on to the next sibling, or up if there is none. -/
theorem done_concat_cases {i : Nat} (hbelow : start <+: a)
    (h : Traverses tree start (a ++ [i]) true visits) :
    (∃ next, tree.descend? (a ++ [i + 1]) = some next ∧
        Traverses tree start (a ++ [i + 1]) false visits) ∨
      (tree.descend? (a ++ [i + 1]) = none ∧ Traverses tree start a true visits) := by
  rcases h.done_cases with ⟨hstart, -⟩ | ⟨b, j, heq, -, hcases⟩
  · exact absurd hstart.symm (start_ne_concat hbelow i)
  · obtain ⟨rfl, hlast⟩ := List.append_inj' heq rfl
    cases hlast
    exact hcases

/-- The loop is left no choice at any step. -/
theorem unique {visited : Bool} (h : Traverses tree start a visited visits)
    (hother : Traverses tree start a visited others) : visits = others := by
  induction h generalizing others with
  | down hchild _ ih =>
    cases hother with
    | down _ rest => rw [ih rest]
    | leaf hnone => rw [hchild] at hnone; cases hnone
  | leaf hchild _ ih =>
    cases hother with
    | down hsome => rw [hchild] at hsome; cases hsome
    | leaf _ rest => rw [ih rest]
  | across hbelow hnext _ ih =>
    rcases done_concat_cases hbelow hother with ⟨_, -, rest⟩ | ⟨hnone, -⟩
    · exact ih rest
    · rw [hnext] at hnone
      cases hnone
  | up hbelow hnext _ ih =>
    rcases done_concat_cases hbelow hother with ⟨_, hsome, -⟩ | ⟨-, rest⟩
    · rw [hnext] at hsome
      cases hsome
    · exact ih rest
  | stop =>
    rcases hother.done_cases with ⟨-, rfl⟩ | ⟨b, i, heq, hbelow, -⟩
    · rfl
    · exact absurd heq (start_ne_concat hbelow i)

end Traverses

/-! ### The loop on a subtree -/

theorem Node.descend?_concat {tree n : Node} {a : List Nat} (h : tree.descend? a = some n)
    (i : Nat) : tree.descend? (a ++ [i]) = n.children[i]? := by
  refine Option.ext fun m ↦ ?_
  rw [descend?_append_eq_some]
  constructor
  · rintro ⟨c, hc, hm⟩
    rw [h] at hc
    cases hc
    obtain ⟨d, hd, hdm⟩ := descend?_cons_eq_some.mp hm
    cases hdm
    exact hd
  · intro hm
    exact ⟨n, h, descend?_cons_eq_some.mpr ⟨m, hm, rfl⟩⟩

theorem Node.descend?_of_children {tree n c : Node} {a : List Nat} {left right : List Node}
    (h : tree.descend? a = some n) (hchildren : n.children = left ++ c :: right) :
    tree.descend? (a ++ [left.length]) = some c := by
  rw [descend?_concat h, hchildren, List.getElem?_append_right (Nat.le_refl _), Nat.sub_self,
    List.getElem?_cons_zero]

theorem Node.map_addressesFrom_cons (a : List Nat) (i : Nat) (c : Node) (right : List Node) :
    (addressesFrom i (c :: right)).map (a ++ ·) =
      c.addresses.map (a ++ [i] ++ ·) ++ (addressesFrom (i + 1) right).map (a ++ ·) := by
  rw [addressesFrom, List.map_append, List.map_map]
  congr 1
  exact List.map_congr_left fun p _ ↦ (List.append_assoc a [i] p).symm

/-- Wherever a node stands, the loop goes through all below it and is then back on it, done. -/
def Traversed (tree : Node) (start : List Nat) (n : Node) : Prop :=
  ∀ {a : List Nat} {after : List (List Nat)}, tree.descend? a = some n → start <+: a →
    Traverses tree start a true after →
    Traverses tree start a false (n.addresses.map (a ++ ·) ++ after)

section Subtree

variable {tree : Node} {start a : List Nat} {after : List (List Nat)}

/-- The loop goes through siblings one after the other and then up. -/
theorem traverses_siblings {n c : Node} {left right : List Node} (hn : tree.descend? a = some n)
    (hbelow : start <+: a) (hafter : Traverses tree start a true after)
    (hchildren : n.children = left ++ c :: right)
    (h : ∀ m ∈ c :: right, Traversed tree start m) :
    Traverses tree start (a ++ [left.length]) false
      ((Node.addressesFrom left.length (c :: right)).map (a ++ ·) ++ after) := by
  induction right generalizing c left with
  | nil =>
    have hnext : tree.descend? (a ++ [left.length + 1]) = none := by
      rw [Node.descend?_concat hn, hchildren]
      simp
    rw [Node.map_addressesFrom_cons, List.append_assoc]
    exact h c List.mem_cons_self (Node.descend?_of_children hn hchildren)
      (hbelow.trans (List.prefix_append a _)) (.up hbelow hnext hafter)
  | cons next right ih =>
    have hchildren' : n.children = (left ++ [c]) ++ next :: right := by
      rw [hchildren, List.append_assoc, List.singleton_append]
    have hlength : (left ++ [c]).length = left.length + 1 := by simp
    have hnext := Node.descend?_of_children hn hchildren'
    have hrest := ih hchildren' fun m hm ↦ h m (List.mem_cons_of_mem c hm)
    rw [hlength] at hnext hrest
    rw [Node.map_addressesFrom_cons, List.append_assoc]
    exact h c List.mem_cons_self (Node.descend?_of_children hn hchildren)
      (hbelow.trans (List.prefix_append a _)) (.across hbelow hnext hrest)

/-- The loop goes through the subtree of every node. -/
theorem traversed (n : Node) : Traversed tree start n := by
  induction n with
  | mk l cs ih =>
    intro a after hn hbelow hafter
    rw [Node.addresses, List.map_cons, List.append_nil, List.cons_append]
    cases cs with
    | nil => exact .leaf (Node.descend?_concat hn 0) hafter
    | cons c right =>
      have hchildren : (Node.mk l (c :: right)).children = [] ++ c :: right := rfl
      exact .down (Node.descend?_concat hn 0)
        (traverses_siblings hn hbelow hafter hchildren ih)

end Subtree

/-! ### The walk -/

namespace Cursor

theorem map_focus_visitsFrom {cs : List Node}
    (h : ∀ c ∈ cs, ∀ frames, (visits frames c).map focus = c.preorder) (parent : Label)
    (frames : List Frame) (left : List Node) :
    (visitsFrom parent frames left cs).map focus = Node.preorderAll cs := by
  induction cs generalizing left with
  | nil => rfl
  | cons c right ih =>
    rw [List.forall_mem_cons] at h
    rw [visitsFrom, Node.preorderAll, List.map_append, h.1, ih h.2]

/-- What is visited below a node is its preorder. -/
theorem map_focus_visits (n : Node) (frames : List Frame) :
    (visits frames n).map focus = n.preorder := by
  induction n generalizing frames with
  | mk l cs ih => rw [visits, Node.preorder, List.map_cons, map_focus_visitsFrom ih]

/-- The bound on the walk is never what ends it. -/
theorem walkFrom_start {n : Node} {fuel : Nat} (h : 2 * n.size ≤ fuel) :
    walkFrom fuel (start n) false = walk n := by
  have hpos := n.size_pos
  obtain ⟨k, rfl⟩ : ∃ k, fuel = k + 1 + (2 * n.size - 1) := ⟨fuel - 2 * n.size, by omega⟩
  rw [start, walksToEnd n [] (k + 1), walk_eq_visits]
  exact List.append_nil _

end Cursor

/-- From any node of a tree the loop comes to an end, having visited what the walk visits: the nodes
of the subtree, in preorder, each once by its address in the tree, and nothing outside. -/
theorem walk_is_preorder_of_subtree (tree start : Node) (p : List Nat)
    (h : tree.descend? p = some start) :
    let visits := (Cursor.walk start).map fun c ↦ p ++ c.address
    (∀ others, Traverses tree p p false others ↔ others = visits) ∧
    (∀ fuel, 2 * start.size ≤ fuel →
      Cursor.walkFrom fuel (Cursor.start start) false = Cursor.walk start) ∧
    (Cursor.walk start).map Cursor.focus = start.preorder ∧
    (∀ c ∈ Cursor.walk start, tree.descend? (p ++ c.address) = some c.focus) ∧
    visits.Pairwise (· < ·) ∧
    ∀ q, q ∈ visits ↔ p <+: q ∧ ∃ m, tree.descend? q = some m := by
  intro visits
  have hvisits : visits = start.addresses.map (p ++ ·) := by
    rw [← Cursor.map_address_walk, List.map_map]
    rfl
  have hloop : Traverses tree p p false visits := by
    have hall := traversed start h (List.prefix_refl p) (.stop : Traverses tree p p true [])
    rwa [List.append_nil, ← hvisits] at hall
  refine ⟨fun others ↦ ⟨fun hothers ↦ hothers.unique hloop, fun heq ↦ heq ▸ hloop⟩,
    fun _ hfuel ↦ Cursor.walkFrom_start hfuel, ?_, fun c hc ↦ ?_, ?_, fun q ↦ ?_⟩
  · rw [Cursor.walk_eq_visits, Cursor.map_focus_visits]
  · refine Node.descend?_append_eq_some.mpr ⟨start, h, ?_⟩
    rw [← Cursor.whole_of_mem_walk hc]
    exact c.descend?_address
  · rw [hvisits, List.pairwise_map]
    exact start.addresses_increasing.imp fun hlt ↦ List.append_left_lt hlt
  · rw [hvisits, List.mem_map]
    constructor
    · rintro ⟨below, hbelow, rfl⟩
      obtain ⟨m, hm⟩ := Node.mem_addresses.mp hbelow
      exact ⟨List.prefix_append p below, m, Node.descend?_append_eq_some.mpr ⟨start, h, hm⟩⟩
    · rintro ⟨⟨below, rfl⟩, m, hm⟩
      obtain ⟨c, hc, hm⟩ := Node.descend?_append_eq_some.mp hm
      rw [h] at hc
      cases hc
      exact ⟨below, Node.mem_addresses.mpr ⟨m, hm⟩, rfl⟩

/-- A node of a kind at the start of the text. -/
def atOrigin (kind : String) (children : List Node) : Node :=
  .mk { kind, start := ⟨0, 0⟩, stop := ⟨0, 0⟩, startByte := 0, stopByte := 0 } children

def middleAccess : Node :=
  atOrigin "subscript_expression"
    [atOrigin "call_expression" [atOrigin "identifier" []], atOrigin "number" []]

/-- An access between two siblings, one of them with a node below it. -/
def threeExpressions : Node :=
  atOrigin "program" [atOrigin "array" [atOrigin "string" []], middleAccess, atOrigin "regex" []]

/-- Neither the root nor what stands before and after the access is visited. -/
theorem walk_is_preorder_of_middleAccess :
    threeExpressions.descend? [1] = some middleAccess ∧
    Traverses threeExpressions [1] [1] false [[1], [1, 0], [1, 0, 0], [1, 1]] ∧
    ((Cursor.walk middleAccess).map Cursor.focus).map Node.kind =
      ["subscript_expression", "call_expression", "identifier", "number"] ∧
    ∀ q, q ∈ [[1], [1, 0], [1, 0, 0], [1, 1]] ↔
      [1] <+: q ∧ ∃ m, threeExpressions.descend? q = some m := by
  have hmiddle : threeExpressions.descend? [1] = some middleAccess := rfl
  obtain ⟨hloop, -, hfocus, -, -, hmem⟩ :=
    walk_is_preorder_of_subtree threeExpressions middleAccess [1] hmiddle
  refine ⟨hmiddle, (hloop _).mpr rfl, ?_, hmem⟩
  rw [hfocus]
  rfl

end BracketSpacing.Tree
