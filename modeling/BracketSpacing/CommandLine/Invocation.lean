import BracketSpacing.CommandLine.Argument

/-!
What a command line asks for. Flags before the command are the program's own; the command takes all
that follows it. The paths to check stand together: operands after other arguments are not
recognized.
-/

set_option autoImplicit false
set_option relaxedAutoImplicit false

namespace BracketSpacing.CommandLine

/-- The output format of a check. -/
inductive Format where
  | text
  | json
  deriving DecidableEq, Repr

namespace Format

def name : Format → String
  | .text => "text"
  | .json => "json"

def all : List Format := [.text, .json]

def ofName? (s : String) : Option Format := all.find? (·.name = s)

end Format

/-- What a check is asked to do. -/
structure Settings where
  /-- The paths, once they were given. -/
  given : Option (List String) := none
  rules : List String := []
  config : Option String := none
  format : Format := .text
  verbose : Bool := false
  deriving DecidableEq, Repr

/-- The paths to check: the current directory unless others are given. -/
def Settings.paths (s : Settings) : List String :=
  match s.given with
  | some (p :: rest) => p :: rest
  | _ => ["."]

/-- The parts of the program that have flags and a help page of their own. -/
inductive Section where
  | program
  | check
  | rules
  deriving DecidableEq, Repr

def Section.flags : Section → List Flag
  | .program => [.help, .version]
  | .check => [.help, .rule, .config, .format, .verbose]
  | .rules => [.help]

/-- Why reading a command line stops early. -/
inductive Stop where
  | help (s : Section)
  | version
  | fault (s : Section) (f : Fault)
  deriving DecidableEq, Repr

/-- What reading a section has found. -/
structure Found where
  settings : Settings := {}
  /-- Arguments that the section does not recognize. -/
  extras : List String := []

/-- Sets what a flag is for. -/
def Settings.apply (sec : Section) (s : Settings) (f : Flag) (value : String) :
    Except Stop Settings :=
  match f with
  | .help => .error (.help sec)
  | .version => .error .version
  | .rule => .ok { s with rules := s.rules ++ [value] }
  | .config => .ok { s with config := some value }
  | .format =>
    match Format.ofName? value with
    | some format => .ok { s with format }
    | none =>
      .error (.fault sec (.invalidChoice f.title value (Format.all.map Format.name)))
  | .verbose => .ok { s with verbose := true }

/-- The value of a flag that may stand in the argument behind it. -/
def valueFor (f : Flag) (value : Option String) (behind : List Argument) :
    Except Fault (String × List Argument) :=
  match f.takesValue, value, behind with
  | true, none, a :: rest =>
    if a.role = .operand then .ok (a.text, rest) else .error (.valueExpected f)
  | true, none, [] => .error (.valueExpected f)
  | _, value, behind => .ok (value.getD "", behind)

/-- Applies the flags of one argument in order; gives the arguments left behind it. -/
def applyAll (sec : Section) : Settings → List (Flag × Option String) → List Argument →
    Except Stop (Settings × List Argument)
  | s, [], behind => .ok (s, behind)
  | s, (f, value) :: more, behind =>
    match valueFor f value behind with
    | .error e => .error (.fault sec e)
    | .ok (value, behind) =>
      match s.apply sec f value with
      | .error stop => .error stop
      | .ok s => applyAll sec s more behind

def Argument.isOperand (a : Argument) : Bool := a.role = .operand || a.role = .separator

/-- The paths of a run of operands: the first two dashes among them do not count. -/
def pathsOf (run : List Argument) : List String := (run.map (·.text)).erase "--"

/-- Reads the arguments behind a command. Only a check takes operands, and only one run of them. -/
def readArguments (sec : Section) : (fuel : Nat) → Found → List Argument → Except Stop Found
  | 0, found, _ => .ok found
  | _, found, [] => .ok found
  | fuel + 1, found, a :: rest =>
    match a.role with
    | .unknown => readArguments sec fuel { found with extras := found.extras ++ [a.text] } rest
    | .flag f spelling attached =>
      match expand sec.flags f (isShort spelling) (attached.map String.toList) with
      | .error e => .error (.fault sec e)
      | .ok uses =>
        match applyAll sec found.settings uses rest with
        | .error stop => .error stop
        | .ok (settings, rest) => readArguments sec fuel { found with settings } rest
    | _ =>
      let run := (a :: rest).takeWhile Argument.isOperand
      let rest := rest.dropWhile Argument.isOperand
      if sec = .check && found.settings.given.isNone then
        let settings := { found.settings with given := some (pathsOf run) }
        readArguments sec fuel { found with settings } rest
      else
        readArguments sec fuel { found with extras := found.extras ++ run.map (·.text) } rest

/-- Reads a section's arguments. -/
def readSection (sec : Section) (arguments : List String) : Except Stop Found :=
  match classify sec.flags arguments with
  | .error e => .error (.fault sec e)
  | .ok classified => readArguments sec (classified.length + 1) {} classified

inductive Command where
  | check
  | rules
  deriving DecidableEq, Repr

namespace Command

def name : Command → String
  | .check => "check"
  | .rules => "rules"

def all : List Command := [.check, .rules]

def ofName? (s : String) : Option Command := all.find? (·.name = s)

def toSection : Command → Section
  | .check => .check
  | .rules => .rules

end Command

structure Invocation where
  command : Command
  settings : Settings

/-- Reads the command and what follows it. -/
def readCommand (name : String) (arguments : List String) : Except Stop (Command × Found) :=
  match Command.ofName? name with
  | none =>
    .error (.fault .program (.invalidChoice "cmd" name (Command.all.map Command.name)))
  | some command => (readSection command.toSection arguments).map fun found ↦ (command, found)

/-- Reads the flags before the command, then the command. -/
def readProgram :
    (extras : List String) → List Argument → Except Stop (List String × Command × Found)
  | _, [] => .error (.fault .program .commandRequired)
  | extras, a :: rest =>
    match a.role with
    | .unknown => readProgram (extras ++ [a.text]) rest
    | .flag f spelling attached =>
      match expand Section.program.flags f (isShort spelling) (attached.map String.toList) with
      | .error e => .error (.fault .program e)
      | .ok uses =>
        match applyAll .program {} uses rest with
        | .error stop => .error stop
        | .ok _ => readProgram extras rest
    | role =>
      if role = .separator && rest.isEmpty then .error (.fault .program .commandRequired)
      else (readCommand a.text (rest.map (·.text))).map fun r ↦ (extras, r)

/-- What a command line asks for. -/
def parse (arguments : List String) : Except Stop Invocation :=
  match classify Section.program.flags arguments with
  | .error e => .error (.fault .program e)
  | .ok classified =>
    match readProgram [] classified with
    | .error stop => .error stop
    | .ok (extras, command, found) =>
      match extras ++ found.extras with
      | [] => .ok ⟨command, found.settings⟩
      | unknown => .error (.fault .program (.unrecognized unknown))

end BracketSpacing.CommandLine
