import BracketSpacing.Tree.Node

/-!
What a reader of scripts is told and what it gives: the dialect of a script, and its tree.
-/

set_option autoImplicit false
set_option relaxedAutoImplicit false

namespace BracketSpacing.Script

open BracketSpacing.Tree

/-- What a script may hold beside plain statements and expressions. -/
structure Dialect where
  /-- Type annotations and declarations. -/
  types : Bool
  /-- Elements such as `<a b={c} />`. -/
  elements : Bool
  deriving DecidableEq, Repr

/-- A tree of a script and whether the script is broken. -/
structure Parsed where
  root : Node
  broken : Bool

end BracketSpacing.Script
