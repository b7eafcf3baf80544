/-!
Log records and the logger's threshold. Debug records are let through when asked for on the command
line or by the environment.
-/

set_option autoImplicit false
set_option relaxedAutoImplicit false

namespace BracketSpacing

inductive Log.Level where
  | debug
  | info
  | warning
  | error
  | critical
  /-- A level without a name of its own. -/
  | other (severity : Int)
  deriving DecidableEq, Repr

namespace Log

namespace Level

def severity : Level → Int
  | .debug => 10
  | .info => 20
  | .warning => 30
  | .error => 40
  | .critical => 50
  | .other n => n

def ofSeverity (n : Int) : Level :=
  if n = 10 then .debug
  else if n = 20 then .info
  else if n = 30 then .warning
  else if n = 40 then .error
  else if n = 50 then .critical
  else .other n

def name : Level → String
  | .debug => "DEBUG"
  | .info => "INFO"
  | .warning => "WARNING"
  | .error => "ERROR"
  | .critical => "CRITICAL"
  | .other n => if n = 0 then "NOTSET" else s!"Level {n}"

end Level

structure Record where
  level : Level
  message : String
  deriving DecidableEq, Repr

def debug (message : String) : Record := ⟨.debug, message⟩

def warning (message : String) : Record := ⟨.warning, message⟩

/-- The line a handler writes. -/
def Record.line (r : Record) : String := s!"[{r.level.name}] {r.message}"

/-- The package's logger: its threshold and the number of handlers that write to standard error. -/
structure Logger where
  threshold : Level := .warning
  handlers : Nat := 0
  deriving DecidableEq, Repr

/-- Sets the threshold, and adds a handler if there is none; an empty setting counts as none. -/
def Logger.setup (verbose : Bool) (setting : Option String) (l : Logger) : Logger :=
  let wanted := verbose || (setting.getD "") ≠ ""
  { threshold := if wanted then .debug else .warning
    handlers := if l.handlers = 0 then 1 else l.handlers }

/-- What the handlers write of some records. -/
def Logger.output (l : Logger) (records : List Record) : String :=
  String.join ((records.filter fun r ↦ l.threshold.severity ≤ r.level.severity).map
    fun r ↦ r.line ++ "\n")

end Log

end BracketSpacing
