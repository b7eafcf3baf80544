/-!
Why a reader of YAML gives no value.
-/

set_option autoImplicit false
set_option relaxedAutoImplicit false

namespace BracketSpacing.Yaml

inductive Error where
  /-- The text is no YAML, as the detail says. -/
  | malformed (detail : String)
  /-- The reader broke off for another cause of some kind. -/
  | fault (kind detail : String)
  deriving DecidableEq, Repr

end BracketSpacing.Yaml
