/-!
Concrete trees of a source text. A node knows its kind, where it stands in the text as bytes and
as points (row and byte column), and its children in order. `firstLeaf` and `lastLeaf` are the
boundary tokens below a node, comments left out.
-/

set_option autoImplicit false
set_option relaxedAutoImplicit false

namespace BracketSpacing.Tree

/-- A place in the text: a row from zero and a byte column. -/
structure Point where
  row : Nat
  column : Nat
  deriving DecidableEq, Repr, Inhabited

structure Label where
  kind : String
  /-- Named nodes stand for a construct, the others for a fixed token. -/
  named : Bool := false
  /-- A token that was not in the text and was put in to go on reading. -/
  missing : Bool := false
  field : Option String := none
  start : Point
  stop : Point
  startByte : Nat
  stopByte : Nat
  deriving DecidableEq, Repr, Inhabited

inductive Node where
  | mk (label : Label) (children : List Node)
  deriving Repr, Inhabited

namespace Node

def label : Node → Label
  | .mk l _ => l

def children : Node → List Node
  | .mk _ cs => cs

def kind (n : Node) : String := n.label.kind

def named (n : Node) : Bool := n.label.named

def missing (n : Node) : Bool := n.label.missing

def isComment (n : Node) : Bool := n.kind == "comment"

mutual

/-- The number of nodes. -/
def size : Node → Nat
  | .mk _ cs => 1 + sizeAll cs

def sizeAll : List Node → Nat
  | [] => 0
  | c :: cs => size c + sizeAll cs

end

mutual

/-- A node, then the subtrees of its children from left to right. -/
def preorder : Node → List Node
  | .mk l cs => .mk l cs :: preorderAll cs

def preorderAll : List Node → List Node
  | [] => []
  | c :: cs => preorder c ++ preorderAll cs

end

/-- The node reached by a list of child indexes. -/
def descend? : Node → List Nat → Option Node
  | n, [] => some n
  | n, i :: rest =>
    match n.children[i]? with
    | some c => descend? c rest
    | none => none

/-- The first child with a field name. -/
def childByField? (n : Node) (field : String) : Option Node :=
  n.children.find? (·.label.field == some field)

/-- The first child of a kind that is in the text. -/
def bracket? (n : Node) (kind : String) : Option Node :=
  n.children.find? fun c ↦ c.kind == kind && !c.missing

/-- The first named child that is no comment. -/
def inner? (n : Node) : Option Node :=
  n.children.find? fun c ↦ c.named && !c.isComment

mutual

/-- The leftmost token below a node; a node with nothing but comments below is its own. -/
def firstLeaf : Node → Node
  | .mk l cs => (firstLeafIn cs).getD (.mk l cs)

def firstLeafIn : List Node → Option Node
  | [] => none
  | c :: cs => if c.isComment then firstLeafIn cs else some (firstLeaf c)

end

mutual

/-- The rightmost token below a node; a node with nothing but comments below is its own. -/
def lastLeaf : Node → Node
  | .mk l cs => (lastLeafIn cs).getD (.mk l cs)

def lastLeafIn : List Node → Option Node
  | [] => none
  | c :: cs =>
    match lastLeafIn cs with
    | some leaf => some leaf
    | none => if c.isComment then none else some (lastLeaf c)

end

/-- An inner expression with the two brackets around it. -/
structure Enclosed where
  inner : Node
  opening : Node
  closing : Node

mutual

/-- Goes down through parentheses: the innermost pair takes the place of the brackets. -/
def peel (opening closing : Node) : Node → Option Enclosed
  | .mk l cs =>
    if l.kind == "parenthesized_expression" then
      match (Node.mk l cs).bracket? "(", (Node.mk l cs).bracket? ")" with
      | some o, some c => peelIn o c cs
      | _, _ => none
    else some ⟨.mk l cs, opening, closing⟩

def peelIn (opening closing : Node) : List Node → Option Enclosed
  | [] => none
  | c :: cs => if c.named && !c.isComment then peel opening closing c else peelIn opening closing cs

end

end Node

end BracketSpacing.Tree
