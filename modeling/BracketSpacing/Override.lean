import BracketSpacing.Config
import BracketSpacing.Text.Blank

/-!
Overrides of rule options, written `rule-id=option`. Blanks around the id and the option do not
count; of several options for one id the last one holds.
-/

set_option autoImplicit false
set_option relaxedAutoImplicit false

namespace BracketSpacing.Override

open Text

/-- The parts before and after the first equals sign. -/
def splitSpec (spec : List Char) : Option (List Char × List Char) :=
  match spec with
  | [] => none
  | c :: rest =>
    if c = '=' then some ([], rest)
    else (splitSpec rest).map fun parts ↦ (c :: parts.1, parts.2)

def parseOne (spec : String) : Except Config.Error (String × String) :=
  match splitSpec spec.toList with
  | none => .error (.badOverride spec)
  | some (id, option) => .ok (String.ofList (strip id), String.ofList (strip option))

/-- Reads specs from left to right into a map that starts as `overrides`. -/
def parseFrom : (overrides : List (String × String)) → List String →
    Except Config.Error (List (String × String))
  | overrides, [] => .ok overrides
  | overrides, spec :: rest =>
    match parseOne spec with
    | .error e => .error e
    | .ok (id, option) => parseFrom (Assoc.put id option overrides) rest

def parse (specs : List String) : Except Config.Error (List (String × String)) := parseFrom [] specs

end BracketSpacing.Override
