import BracketSpacing.Discovery
import BracketSpacing.Ignore
import BracketSpacing.Lint
import BracketSpacing.Ruleset

/-!
What can go wrong in a run. Some failures are the user's to mend and are told in one line; the
others are faults that end the run.
-/

set_option autoImplicit false
set_option relaxedAutoImplicit false

namespace BracketSpacing

inductive Failure where
  | config (e : Config.Error)
  | registry (e : Registry.Error)
  | pathsNotFound (paths : List Path)
  | pattern (e : Ignore.Error)
  | read (e : FileSystem.ReadError)
  | fileSystem (e : FileSystem.Fault)
  | extension (e : UnsupportedExtension)

namespace Failure

def message : Failure → String
  | .config e => e.message
  | .registry e => e.message
  | .pathsNotFound paths => "Path not found: " ++ ", ".intercalate (paths.map Path.render)
  | .pattern e => e.message
  | .read e => e.message
  | .fileSystem e => e.message
  | .extension e => e.message

/-- Whether the failure is one that the user is told of. -/
def isUserError : Failure → Bool
  | .config e => e.isUserError
  | .registry (.unknown _) => true
  | .pathsNotFound _ => true
  | _ => false

end Failure

/-- A step that may fail for a cause of its own. -/
def SessionM.liftExcept {ε α : Type} (cause : ε → Failure) : Except ε α → SessionM Failure α
  | .ok a => pure a
  | .error e => throw (cause e)

end BracketSpacing
