import BracketSpacing.Tree.Node

/-!
A cursor in a tree: the node in focus and the way back to the node it started from, which it never
leaves. `walk` visits the nodes by moving to the first child, else the next sibling, else up.
-/

set_option autoImplicit false
set_option relaxedAutoImplicit false

namespace BracketSpacing.Tree

/-- One step of the way down: the parent's label and the siblings on both sides. -/
structure Frame where
  parent : Label
  /-- The siblings before, nearest first. -/
  left : List Node
  right : List Node

structure Cursor where
  focus : Node
  /-- The way back, nearest step first. -/
  frames : List Frame

namespace Cursor

def start (n : Node) : Cursor := ⟨n, []⟩

/-- The labels above the focus, the parent first. -/
def ancestors (c : Cursor) : List Label := c.frames.map (·.parent)

def firstChild? (c : Cursor) : Option Cursor :=
  match c.focus.children with
  | [] => none
  | child :: rest => some ⟨child, ⟨c.focus.label, [], rest⟩ :: c.frames⟩

def nextSibling? (c : Cursor) : Option Cursor :=
  match c.frames with
  | [] => none
  | frame :: frames =>
    match frame.right with
    | [] => none
    | next :: rest => some ⟨next, ⟨frame.parent, c.focus :: frame.left, rest⟩ :: frames⟩

def parent? (c : Cursor) : Option Cursor :=
  match c.frames with
  | [] => none
  | frame :: frames =>
    some ⟨.mk frame.parent (frame.left.reverse ++ c.focus :: frame.right), frames⟩

/-- The visits from here on; `visited` tells that the focus and all below it are done. -/
def walkFrom : (fuel : Nat) → Cursor → (visited : Bool) → List Cursor
  | 0, _, _ => []
  | fuel + 1, c, false =>
    c :: match c.firstChild? with
      | some child => walkFrom fuel child false
      | none => walkFrom fuel c true
  | fuel + 1, c, true =>
    match c.nextSibling? with
    | some next => walkFrom fuel next false
    | none =>
      match c.parent? with
      | some parent => walkFrom fuel parent true
      | none => []

/-- Every node below `n`, `n` first; each is entered once and left once. -/
def walk (n : Node) : List Cursor := walkFrom (2 * n.size) (start n) false

end Cursor

end BracketSpacing.Tree
