/-!
The version of the linter.
-/

set_option autoImplicit false
set_option relaxedAutoImplicit false

namespace BracketSpacing

def toolVersion : String := "0.1.0"

end BracketSpacing
