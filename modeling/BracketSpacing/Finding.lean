import BracketSpacing.Document
import BracketSpacing.Region
import BracketSpacing.Tree.Cursor

/-!
Computed accesses of a tree. A candidate is a member access with brackets, or the computed key of
an object property; each candidate is either a region or skipped because a part of it is not there.
-/

set_option autoImplicit false
set_option relaxedAutoImplicit false

namespace BracketSpacing

open BracketSpacing.Tree

/-- A node whose brackets are looked at: what owns them, and what stands between them. -/
structure Candidate where
  kind : Region.Kind
  owner : Label
  container : Node
  inner : Option Node

namespace Candidate

/-- The property that a computed key belongs to, from the labels above it: a pair of an object or
of a pattern, or a method directly inside an object. -/
def propertyOwner? : List Label → Option Label
  | parent :: above =>
    if parent.kind == "pair" || parent.kind == "pair_pattern" then some parent
    else if parent.kind == "method_definition" then
      match above with
      | grand :: _ => if grand.kind == "object" then some parent else none
      | [] => none
    else none
  | [] => none

def ofCursor? (c : Cursor) : Option Candidate :=
  let n := c.focus
  if n.kind == "subscript_expression" then
    some ⟨.member, n.label, n, n.childByField? "index"⟩
  else if n.kind == "computed_property_name" then
    (propertyOwner? c.ancestors).map fun owner ↦ ⟨.property, owner, n, n.inner?⟩
  else none

/-- The inner expression and its brackets, once parentheses are peeled off. -/
def enclosed? (c : Candidate) : Option Node.Enclosed :=
  match c.container.bracket? "[", c.container.bracket? "]", c.inner with
  | some opening, some closing, some inner => Node.peel opening closing inner
  | _, _, _ => none

/-- The region of a candidate; none if a bracket, the inner expression or one of its ends is not in
the text. -/
def region? (d : Document) (c : Candidate) : Option Region :=
  match c.enclosed? with
  | none => none
  | some e =>
    let first := e.inner.firstLeaf
    let last := e.inner.lastLeaf
    if e.inner.missing || first.missing || last.missing then none
    else some
      { kind := c.kind
        owner := d.nodeStart c.owner
        before := d.token e.opening
        first := d.token first
        last := d.token last
        after := d.token e.closing }

end Candidate

inductive Finding where
  | region (r : Region)
  | skipped (kind : String) (start : Point)

namespace Finding

def ofCandidate (d : Document) (c : Candidate) : Finding :=
  match c.region? d with
  | some r => .region r
  | none => .skipped c.container.kind c.container.label.start

def region? : Finding → Option Region
  | .region r => some r
  | .skipped _ _ => none

/-- The note on a skipped candidate, with its row and byte column counted from one. -/
def note? : Finding → Option String
  | .region _ => none
  | .skipped kind start => some s!"skipping incomplete {kind} at {start.row + 1}:{start.column + 1}"

end Finding

/-- One finding for each candidate, in the order of the walk. -/
def Document.findings (d : Document) (root : Node) : List Finding :=
  ((Cursor.walk root).filterMap Candidate.ofCursor?).map (Finding.ofCandidate d)

def Document.regions (d : Document) (root : Node) : List Region :=
  (d.findings root).filterMap Finding.region?

end BracketSpacing
