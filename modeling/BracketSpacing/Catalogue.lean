import BracketSpacing.Rule

/-!
Where rules are found: modules by dotted name, each offering things by name. A module name that
starts with dots is relative to the package of the rules.
-/

set_option autoImplicit false
set_option relaxedAutoImplicit false

namespace BracketSpacing

/-- What a module offers under a name. -/
inductive Offer where
  | rule (d : RuleDefinition)
  /-- A rule type that lacks its description. -/
  | undescribed (name : String)
  /-- A type that is no rule. -/
  | type
  /-- Something that is no type. -/
  | value

/-- A module or, when it can hold others, a package. -/
structure Module where
  /-- The parts of its dotted name. -/
  path : List String
  package : Bool := false
  offers : List (String × Offer) := []

def Module.offer? (m : Module) (name : String) : Option Offer :=
  (m.offers.find? (·.1 == name)).map (·.2)

inductive LoadError where
  | emptyModuleName
  | beyondTopLevel
  | moduleNotFound (name : String)
  | notAPackage (name parent : String)
  | notOffered (module name : String)
  | notAType
  | notARule (module name : String)
  | undescribed (name : String)
  | otherId (module name declared registered : String)
  deriving DecidableEq, Repr

def LoadError.message : LoadError → String
  | .emptyModuleName => "Empty module name"
  | .beyondTopLevel => "attempted relative import beyond top-level package"
  | .moduleNotFound name => s!"No module named '{name}'"
  | .notAPackage name parent => s!"No module named '{name}'; '{parent}' is not a package"
  | .notOffered module name => s!"Rule class '{name}' not found in {module}"
  | .notAType => "issubclass() arg 1 must be a class"
  | .notARule module name => s!"{module}.{name} is not a subclass of BaseRule"
  | .undescribed name => s!"type object '{name}' has no attribute 'meta'"
  | .otherId module name declared registered =>
    s!"Rule {module}.{name} declares id '{declared}', registered as '{registered}'"

structure Catalogue where
  modules : List Module

namespace Catalogue

/-- The package that relative names start from. -/
def rulesPackage : List String := ["spacelint", "rules"]

def dotted (path : List String) : String := ".".intercalate path

def nameParts (cs : List Char) : List String := (cs.splitOn '.').map String.ofList

/-- The full path of a module name: one dot stands for the rules' package, each further dot for the
package above. -/
def absolutePath (name : String) : Except LoadError (List String) :=
  let cs := name.toList
  let dots := (cs.takeWhile (· = '.')).length
  if cs.isEmpty then .error .emptyModuleName
  else if dots = 0 then .ok (nameParts cs)
  else if rulesPackage.length < dots then .error .beyondTopLevel
  else
    let base := rulesPackage.take (rulesPackage.length + 1 - dots)
    let rest := cs.drop dots
    .ok (if rest.isEmpty then base else base ++ nameParts rest)

def module? (c : Catalogue) (path : List String) : Option Module :=
  c.modules.find? (·.path == path)

/-- Finds the module reached from `parent` through `rest`, every package on the way included. -/
def findFrom (c : Catalogue) (parent : Module) : List String → Except LoadError Module
  | [] => .ok parent
  | part :: rest =>
    let path := parent.path ++ [part]
    if !parent.package then .error (.notAPackage (dotted path) (dotted parent.path))
    else
      match c.module? path with
      | some m => findFrom c m rest
      | none => .error (.moduleNotFound (dotted path))

def find (c : Catalogue) (name : String) : Except LoadError Module :=
  match absolutePath name with
  | .error e => .error e
  | .ok path => c.findFrom { path := [], package := true } path

/-- Loads what a module offers under a name as the rule with a given id. -/
def load (c : Catalogue) (module name id : String) : Except LoadError RuleDefinition :=
  match c.find module with
  | .error e => .error e
  | .ok m =>
    match m.offer? name with
    | none => .error (.notOffered module name)
    | some .value => .error .notAType
    | some .type => .error (.notARule module name)
    | some (.undescribed typeName) => .error (.undescribed typeName)
    | some (.rule d) =>
      if d.info.id = id then .ok d else .error (.otherId module name d.info.id id)

/-- The packages and modules of the linter's own rules. -/
def builtin : Catalogue where
  modules :=
    [{ path := ["spacelint"], package := true },
      { path := rulesPackage, package := true },
      { path := rulesPackage ++ ["computed_property_spacing"]
        offers := [(Spacing.definition.name, .rule Spacing.definition)] }]

end Catalogue

end BracketSpacing
