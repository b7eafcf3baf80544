/-!
Paths as text names them: a root of zero, one or two slashes and the parts after it. Reading drops
`.` parts and repeated slashes and keeps `..`; nothing here looks at a file system.
-/

set_option autoImplicit false
set_option relaxedAutoImplicit false

namespace BracketSpacing

inductive Path.Root where
  | relative
  | single
  | double
  deriving DecidableEq, Repr

structure Path where
  root : Path.Root
  parts : List String
  deriving DecidableEq, Repr

namespace Path

/-- Two leading slashes stay two; three or more are one. -/
def rootOf : List Char → Root
  | '/' :: '/' :: '/' :: _ => .single
  | '/' :: '/' :: _ => .double
  | '/' :: _ => .single
  | _ => .relative

def ofString (s : String) : Path where
  root := rootOf s.toList
  parts := ((s.toList.splitOn '/').map String.ofList).filter fun p ↦ p ≠ "" && p ≠ "."

def Root.text : Root → String
  | .relative => ""
  | .single => "/"
  | .double => "//"

def render (p : Path) : String :=
  match p.root, p.parts with
  | .relative, [] => "."
  | root, parts => root.text ++ "/".intercalate parts

def isAbsolute (p : Path) : Bool := p.root ≠ .relative

/-- `p / q`: an absolute `q` stands for itself. -/
def join (p q : Path) : Path :=
  if q.isAbsolute then q else { p with parts := p.parts ++ q.parts }

/-- The path of an entry called `name`. -/
def child (p : Path) (name : String) : Path := { p with parts := p.parts ++ [name] }

def name (p : Path) : String := p.parts.getLast?.getD ""

/-- The part of a name from its last dot, unless that dot is the first or the last character. -/
def suffixOf (name : String) : String :=
  let cs := name.toList
  let tail := cs.reverse.takeWhile (· ≠ '.')
  if tail.isEmpty || cs.length ≤ tail.length + 1 then ""
  else String.ofList ('.' :: tail.reverse)

def suffix (p : Path) : String := suffixOf p.name

end Path

end BracketSpacing
