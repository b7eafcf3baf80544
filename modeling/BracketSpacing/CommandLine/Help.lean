import BracketSpacing.CommandLine.Invocation
import BracketSpacing.Version

/-!
Help pages and usage lines.
-/

set_option autoImplicit false
set_option relaxedAutoImplicit false

namespace BracketSpacing.CommandLine

def programName : String := "spacelint"

namespace Section

/-- How messages name a section. -/
def title : Section → String
  | .program => programName
  | .check => programName ++ " check"
  | .rules => programName ++ " rules"

/-- The lines that show how a section is used. -/
def usage : Section → List String
  | .program => ["usage: spacelint [-h] [-v] \x7bcheck,rules\x7d ..."]
  | .check =>
    ["usage: spacelint check [-h] [--rule ID=OPTION] [--config FILE]",
      "                       [--format \x7btext,json\x7d] [--verbose]",
      "                       [paths ...]"]
  | .rules => ["usage: spacelint rules [-h]"]

/-- What a section's help page says below the usage. -/
def details : Section → List String
  | .program =>
    ["Spacing checks for computed property access in JavaScript/TypeScript",
      "",
      "positional arguments:",
      "  \x7bcheck,rules\x7d",
      "    check        check files and directories",
      "    rules        list available rules (JSON)",
      "",
      "options:",
      "  -h, --help     show this help message and exit",
      "  -v, --version  show program's version number and exit"]
  | .check =>
    ["positional arguments:",
      "  paths                 files or directories to check (default: current",
      "                        directory)",
      "",
      "options:",
      "  -h, --help            show this help message and exit",
      "  --rule ID=OPTION      rule option override, e.g. computed-property-even-",
      "                        spacing=even (repeatable)",
      "  --config FILE         explicit config file instead of spacelint.yaml in the",
      "                        current directory",
      "  --format \x7btext,json\x7d  output format",
      "  --verbose             debug logging to stderr"]
  | .rules =>
    ["options:",
      "  -h, --help  show this help message and exit"]

end Section

def unlines (lines : List String) : String := String.join (lines.map (· ++ "\n"))

def Section.helpPage (s : Section) : String := unlines (s.usage ++ [""] ++ s.details)

namespace Stop

/-- The exit status of a command line that is answered at once. -/
def exitCode : Stop → Nat
  | .fault _ _ => 2
  | _ => 0

def stdout : Stop → String
  | .help s => s.helpPage
  | .version => unlines [programName ++ " " ++ toolVersion]
  | .fault _ _ => ""

def stderr : Stop → String
  | .fault s f => unlines (s.usage ++ [s.title ++ ": error: " ++ f.message])
  | _ => ""

end Stop

end BracketSpacing.CommandLine
