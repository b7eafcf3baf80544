import BracketSpacing.Text.Digit
import BracketSpacing.Text.Quoted

/-!
Arguments of a command line. What starts with a dash is a flag, spelled out, shortened to a unique
beginning or with a value attached; everything else is an operand, and so is everything behind two
dashes.
-/

set_option autoImplicit false
set_option relaxedAutoImplicit false

namespace BracketSpacing.CommandLine

open Text

inductive Flag where
  | help
  | version
  | rule
  | config
  | format
  | verbose
  deriving DecidableEq, Repr

namespace Flag

def spellings : Flag → List String
  | .help => ["-h", "--help"]
  | .version => ["-v", "--version"]
  | .rule => ["--rule"]
  | .config => ["--config"]
  | .format => ["--format"]
  | .verbose => ["--verbose"]

def takesValue : Flag → Bool
  | .rule => true
  | .config => true
  | .format => true
  | _ => false

/-- How messages name a flag. -/
def title (f : Flag) : String := "/".intercalate f.spellings

end Flag

/-- Why a command line is not accepted. -/
inductive Fault where
  | ambiguous (argument : String) (spellings : List String)
  | valueExpected (f : Flag)
  | valueIgnored (f : Flag) (value : String)
  | invalidChoice (name value : String) (choices : List String)
  | commandRequired
  | unrecognized (arguments : List String)
  deriving DecidableEq, Repr

def Fault.message : Fault → String
  | .ambiguous argument spellings =>
    "ambiguous option: " ++ argument ++ " could match " ++ ", ".intercalate spellings
  | .valueExpected f => s!"argument {f.title}: expected one argument"
  | .valueIgnored f value =>
    s!"argument {f.title}: ignored explicit argument {Quoted.quote value}"
  | .invalidChoice name value choices =>
    s!"argument {name}: invalid choice: {Quoted.quote value} (choose from " ++
      ", ".intercalate (choices.map Quoted.quote) ++ ")"
  | .commandRequired => "the following arguments are required: cmd"
  | .unrecognized arguments => "unrecognized arguments: " ++ " ".intercalate arguments

inductive Role where
  | operand
  /-- Two dashes: operands follow. -/
  | separator
  /-- A flag in one of its spellings, and the value that was attached to it. -/
  | flag (f : Flag) (spelling : String) (attached : Option String)
  /-- Something that looks like a flag and is none. -/
  | unknown
  deriving DecidableEq, Repr

structure Argument where
  text : String
  role : Role
  deriving DecidableEq, Repr

/-- The spellings of some flags, each with its flag. -/
def spelled (flags : List Flag) : List (String × Flag) :=
  flags.flatMap fun f ↦ f.spellings.map fun s ↦ (s, f)

def flagOf? (flags : List Flag) (spelling : String) : Option Flag :=
  ((spelled flags).find? (·.1 = spelling)).map (·.2)

/-- The parts around the first equals sign. -/
def splitAtEquals (s : String) : Option (String × String) :=
  let cs := s.toList
  match cs.dropWhile (· ≠ '=') with
  | [] => none
  | _ :: value => some (String.ofList (cs.takeWhile (· ≠ '=')), String.ofList value)

/-- The flags that an argument with two dashes may be short for. -/
def longMatches (flags : List Flag) (s : String) : List (Flag × String × Option String) :=
  let (start, value) :=
    match splitAtEquals s with
    | some (start, value) => (start, some value)
    | none => (s, none)
  ((spelled flags).filter fun e ↦ start.toList.isPrefixOf e.1.toList).map fun e ↦
    (e.2, e.1, value)

/-- The flags that an argument with one dash may mean: a letter with the rest attached, or a
beginning. -/
def shortMatches (flags : List Flag) (s : String) : List (Flag × String × Option String) :=
  let letter := String.ofList (s.toList.take 2)
  (spelled flags).filterMap fun e ↦
    if e.1 = letter then some (e.2, e.1, some (String.ofList (s.toList.drop 2)))
    else if s.toList.isPrefixOf e.1.toList then some (e.2, e.1, none)
    else none

/-- A dash, digits and at most one point among them with a digit behind it. One newline at the end
does not count. -/
def isNegativeNumber (cs : List Char) : Bool :=
  match if cs.getLast? = some '\n' then cs.dropLast else cs with
  | '-' :: body =>
    match body.dropWhile isDecimalDigit with
    | [] => !body.isEmpty
    | '.' :: fraction => !fraction.isEmpty && fraction.all isDecimalDigit
    | _ => false
  | _ => false

/-- The role of an argument that no two dashes stand before. -/
def roleOf (flags : List Flag) (s : String) : Except Fault Role :=
  let cs := s.toList
  if cs.head? ≠ some '-' then .ok .operand
  else
    match flagOf? flags s with
    | some f => .ok (.flag f s none)
    | none =>
      if cs.length = 1 then .ok .operand
      else
        match (splitAtEquals s).bind fun e ↦ (flagOf? flags e.1).map fun f ↦ (f, e) with
        | some (f, spelling, value) => .ok (.flag f spelling (some value))
        | none =>
          let found :=
            if (cs.drop 1).head? = some '-' then longMatches flags s else shortMatches flags s
          match found with
          | [(f, spelling, value)] => .ok (.flag f spelling value)
          | [] =>
            if isNegativeNumber cs || cs.contains ' ' then .ok .operand else .ok .unknown
          | _ => .error (.ambiguous s (found.map (·.2.1)))

/-- The arguments with their roles under some flags. -/
def classify (flags : List Flag) : List String → Except Fault (List Argument)
  | [] => .ok []
  | s :: rest =>
    if s = "--" then .ok (⟨s, .separator⟩ :: rest.map fun t ↦ ⟨t, .operand⟩)
    else
      match roleOf flags s with
      | .error e => .error e
      | .ok role => (classify flags rest).map (⟨s, role⟩ :: ·)

/-- The flags that an argument stands for: letters behind one dash are flags of their own until one
takes a value. -/
def expand (flags : List Flag) (f : Flag) (short : Bool) :
    (attached : Option (List Char)) → Except Fault (List (Flag × Option String))
  | none => .ok [(f, none)]
  | some value =>
    if f.takesValue then .ok [(f, some (String.ofList value))]
    else
      match value with
      | [] => .error (.valueIgnored f "")
      | c :: rest =>
        match if short then flagOf? flags (String.ofList ['-', c]) else none with
        | none => .error (.valueIgnored f (String.ofList value))
        | some g =>
          match rest with
          | [] => .ok [(f, none), (g, none)]
          | d :: rest => (expand flags g short (some (d :: rest))).map ((f, none) :: ·)
termination_by attached => (attached.map List.length).getD 0

/-- Whether a spelling has one dash. -/
def isShort (spelling : String) : Bool := (spelling.toList.drop 1).head? ≠ some '-'

end BracketSpacing.CommandLine
