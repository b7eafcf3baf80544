import BracketSpacing.Ignore.Pattern
import BracketSpacing.Readers
import BracketSpacing.Script.Program
import BracketSpacing.Yaml

/-!
The readers that the program comes with.
-/

set_option autoImplicit false
set_option relaxedAutoImplicit false

namespace BracketSpacing

def Readers.builtin : Readers where
  script := Script.parse
  yaml := Yaml.parse
  patterns lines := (Ignore.Spec.read lines).map (·.ignores)

end BracketSpacing
