import BracketSpacing.Spacing

/-!
Rules. A definition says how a kind of rule checks a region under given options; a rule is a
definition with its options.
-/

set_option autoImplicit false
set_option relaxedAutoImplicit false

namespace BracketSpacing

structure RuleInfo where
  id : String
  type : String
  description : String
  docsUrl : String
  options : List String := []
  deriving DecidableEq, Repr

structure RuleDefinition where
  name : String
  info : RuleInfo
  /-- The spacing mode under given options, for rules that have one. -/
  mode : List Value → Option Mode
  check : List Value → Region → List Diagnostic

structure Rule where
  definition : RuleDefinition
  options : List Value

namespace Rule

def id (r : Rule) : String := r.definition.info.id

def mode (r : Rule) : Option Mode := r.definition.mode r.options

def check (r : Rule) (region : Region) : List Diagnostic := r.definition.check r.options region

end Rule

/-- The rule on spaces inside the brackets of computed properties. -/
def Spacing.definition : RuleDefinition where
  name := "ComputedPropertySpacingRule"
  info :=
    { id := Spacing.ruleId
      type := "layout"
      description := "Disallows or enforces spaces inside computed properties."
      docsUrl := "https://github.com/standard/eslint-plugin-standard#rules-explanations"
      options := Mode.all.map Mode.name }
  mode options := some (Mode.ofOptions options)
  check options := Spacing.evaluate (Mode.ofOptions options)

/-- A rule from a value that holds its options. -/
def RuleDefinition.instantiate (d : RuleDefinition) (options : Value) : Except OptionError Rule :=
  options.ruleOptions.map fun list ↦ ⟨d, list⟩

end BracketSpacing
