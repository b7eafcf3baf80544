import BracketSpacing.Ignore
import BracketSpacing.Script.Dialect
import BracketSpacing.Value
import BracketSpacing.Yaml.Error

/-!
The readers that a run is given: of scripts, of YAML and of ignore patterns. Nothing is asked of
them but what their types say.
-/

set_option autoImplicit false
set_option relaxedAutoImplicit false

namespace BracketSpacing

structure Readers where
  /-- The tree of a text as a script in a dialect. -/
  script : Script.Dialect → List Char → Script.Parsed
  /-- The value that a text holds as YAML. -/
  yaml : List Char → Except Yaml.Error Value
  /-- The test for ignored paths that lines of patterns stand for. -/
  patterns : List String → Except Ignore.Error (String → Bool)

end BracketSpacing
