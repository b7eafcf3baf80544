import BracketSpacing.Diagnostic
import BracketSpacing.Region
import BracketSpacing.Value

/-!
The three spacing modes and their verdict on a region. `never` and `always` look at the two gaps
one by one and only within a line; `even` compares the two gaps, wants at most one column each and
both brackets on one line.
-/

set_option autoImplicit false
set_option relaxedAutoImplicit false

namespace BracketSpacing

inductive Mode where
  | never
  | always
  | even
  deriving DecidableEq, Repr

namespace Mode

def name : Mode → String
  | .never => "never"
  | .always => "always"
  | .even => "even"

def all : List Mode := [.never, .always, .even]

/-- The mode that the first option names; anything else is `never`. -/
def ofOption : Option Value → Mode
  | some (.str s) => if s = "always" then .always else if s = "even" then .even else .never
  | _ => .never

/-- Only the first option counts. -/
def ofOptions (options : List Value) : Mode := ofOption options.head?

end Mode

/-- Options of a shape that holds no option list. -/
inductive OptionError where
  | notIndexable (typeName : String)
  | noFirstEntry
  | notIterable (typeName : String)
  deriving DecidableEq, Repr

def OptionError.message : OptionError → String
  | .notIndexable t => s!"'{t}' object is not subscriptable"
  | .noFirstEntry => "0"
  | .notIterable t => s!"'{t}' object is not iterable"

namespace Value

/-- Whether a mapping key counts as the number zero. -/
def isZeroKey : Value → Bool
  | .int i => i = 0
  | .bool b => !b
  | .float x => x.isZero
  | _ => false

/-- The option at the head of a value used as an option list: a text stands for its characters, and
a value that counts as absent has none. -/
def firstOption (v : Value) : Except OptionError (Option Value) :=
  if !v.truthy then .ok none
  else
    match v with
    | .str s => .ok (s.toList.head?.map fun c ↦ .str (String.ofList [c]))
    | .list items => .ok items.head?
    | .tuple items => .ok items.head?
    | .map entries =>
      match entries.find? (·.1.isZeroKey) with
      | some entry => .ok (some entry.2)
      | none => .error .noFirstEntry
    | other => .error (.notIndexable other.typeName)

/-- The option list a rule takes from a value: a text is one option, a mapping gives its keys. -/
def ruleOptions (v : Value) : Except OptionError (List Value) :=
  match v with
  | .str s => .ok [.str s]
  | v =>
    if !v.truthy then .ok []
    else
      match v with
      | .list items => .ok items
      | .tuple items => .ok items
      | .map entries => .ok (entries.map (·.1))
      | other => .error (.notIterable other.typeName)

end Value

/-- The mode that a value used as an option list selects. -/
def Mode.resolve (options : Value) : Except OptionError Mode :=
  options.firstOption.map Mode.ofOption

namespace Spacing

def ruleId : String := "computed-property-even-spacing"

def noSpaceAfter (t : Token) : Diagnostic :=
  .ofPosition ruleId t.startPosition s!"There should be no space after '{t.text}'"

def noSpaceBefore (t : Token) : Diagnostic :=
  .ofPosition ruleId t.startPosition s!"There should be no space before '{t.text}'"

def spaceRequiredAfter (t : Token) : Diagnostic :=
  .ofPosition ruleId t.startPosition s!"A space is required after '{t.text}'"

def spaceRequiredBefore (t : Token) : Diagnostic :=
  .ofPosition ruleId t.startPosition s!"A space is required before '{t.text}'"

def bracketsApart (r : Region) : Diagnostic :=
  .ofPosition ruleId r.owner "Expected \"[\" and \"]\" to be on the same line"

def unevenSpaces (r : Region) : Diagnostic :=
  .ofPosition ruleId r.owner "Expected 1 or 0 spaces around \"[\" and \"]\""

/-- The verdict on one gap in a mode that wants it `wanted`; gaps across lines are not judged. -/
def judgeGap (wanted sameLine spaced : Bool) (whenMissing whenPresent : Diagnostic) :
    List Diagnostic :=
  if !sameLine then []
  else if wanted && !spaced then [whenMissing]
  else if !wanted && spaced then [whenPresent]
  else []

def judgeLeading (wanted : Bool) (r : Region) : List Diagnostic :=
  judgeGap wanted r.leadingSameLine r.leadingSpaced (spaceRequiredAfter r.before)
    (noSpaceAfter r.before)

def judgeTrailing (wanted : Bool) (r : Region) : List Diagnostic :=
  judgeGap wanted r.trailingSameLine r.trailingSpaced (spaceRequiredBefore r.after)
    (noSpaceBefore r.after)

def judgeEven (r : Region) : List Diagnostic :=
  if !r.before.sameLine r.after then [bracketsApart r]
  else if r.leadingColumns ≠ r.trailingColumns ∨ 1 < r.leadingColumns ∨ 1 < r.trailingColumns then
    [unevenSpaces r]
  else []

/-- The diagnostics of a region: the leading gap first, then the trailing one. -/
def evaluate (mode : Mode) (r : Region) : List Diagnostic :=
  match mode with
  | .even => judgeEven r
  | .never => judgeLeading false r ++ judgeTrailing false r
  | .always => judgeLeading true r ++ judgeTrailing true r

end Spacing

end BracketSpacing
