import BracketSpacing.Assoc
import BracketSpacing.Catalogue
import BracketSpacing.Log

/-!
The registry of rules: where each id is to be loaded from, and which ids were loaded already. A
rule is loaded the first time it is asked for; registering an id again forgets what was loaded.
-/

set_option autoImplicit false
set_option relaxedAutoImplicit false

namespace BracketSpacing

/-- Where a rule is loaded from. -/
structure Registration where
  module : String
  name : String
  deriving DecidableEq, Repr

structure Registry where
  registrations : List (String × Registration)
  loaded : List (String × RuleDefinition)

namespace Registry

inductive Error where
  | unknown (id : String)
  | load (e : LoadError)
  deriving DecidableEq, Repr

def Error.message : Error → String
  | .unknown id => s!"Unknown rule: {id}"
  | .load e => e.message

def empty : Registry := ⟨[], []⟩

def register (id : String) (r : Registration) (reg : Registry) : Registry where
  registrations := Assoc.put id r reg.registrations
  loaded := Assoc.remove id reg.loaded

/-- The registry with the linter's own rule. -/
def builtin : Registry :=
  empty.register Spacing.ruleId ⟨".computed_property_spacing", Spacing.definition.name⟩

/-- The outcome of asking for a rule: its definition or an error, the registry afterwards and what
was logged. -/
structure Lookup where
  result : Except Error RuleDefinition
  registry : Registry
  log : List Log.Record

def get (c : Catalogue) (id : String) (reg : Registry) : Lookup :=
  match reg.loaded.lookup id with
  | some d => ⟨.ok d, reg, []⟩
  | none =>
    match reg.registrations.lookup id with
    | none => ⟨.error (.unknown id), reg, []⟩
    | some r =>
      match c.load r.module r.name id with
      | .error e => ⟨.error (.load e), reg, []⟩
      | .ok d =>
        ⟨.ok d, { reg with loaded := Assoc.put id d reg.loaded },
          [Log.debug s!"loaded rule {id} from {r.module}"]⟩

/-- The registered ids in increasing order. -/
def ids (reg : Registry) : List String :=
  (reg.registrations.map (·.1)).mergeSort fun a b ↦ !(b < a)

end Registry

end BracketSpacing
