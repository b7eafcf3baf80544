import BracketSpacing.Script.Dialect
import BracketSpacing.Text.Lower

/-!
Script languages by file extension. Letter case does not count.
-/

set_option autoImplicit false
set_option relaxedAutoImplicit false

namespace BracketSpacing

inductive Language where
  | javaScript
  | typeScript
  deriving DecidableEq, Repr

namespace Language

def extensions : Language → List String
  | .javaScript => [".js", ".jsx", ".mjs", ".cjs"]
  | .typeScript => [".ts", ".tsx", ".mts", ".cts"]

def lower (ext : String) : String := Text.lowerString ext

def ofExtension? (ext : String) : Option Language :=
  [javaScript, typeScript].find? fun l ↦ l.extensions.contains (lower ext)

/-- All extensions in increasing order. -/
def supportedExtensions : List String :=
  (javaScript.extensions ++ typeScript.extensions).mergeSort fun a b ↦ !(b < a)

/-- What scripts with an extension may hold: elements everywhere but in plain typed scripts. -/
def dialect (l : Language) (ext : String) : Script.Dialect :=
  match l with
  | .javaScript => { types := false, elements := true }
  | .typeScript => { types := true, elements := lower ext == ".tsx" }

end Language

end BracketSpacing
