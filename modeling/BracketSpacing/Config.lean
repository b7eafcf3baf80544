import BracketSpacing.Assoc
import BracketSpacing.Path
import BracketSpacing.Value.Order
import BracketSpacing.Value.Shown

/-!
The configuration: an entry for each rule and the ignore patterns. `ofValue` reads it from a
mapping with the keys `rules` and `ignore`; a rule's entry may be a switch, an option, an option
list or a mapping with the keys `enabled` and `options`.
-/

set_option autoImplicit false
set_option relaxedAutoImplicit false

namespace BracketSpacing

structure RuleEntry where
  enabled : Bool := true
  options : List Value := []

structure Config where
  /-- The entries by rule id, in order of first occurrence. -/
  rules : List (String × RuleEntry) := []
  ignore : List String := []

namespace Config

inductive Error where
  /-- Unknown keys, as they are shown. -/
  | unknownKeys (shown : String)
  | rulesNotMapping
  | ignoreNotPatterns
  | entryUnknownKeys (rule shown : String)
  | enabledNotBoolean (rule : String)
  | badOverride (spec : String)
  | fileNotFound (path : Path)
  | invalidYaml (path : Path) (detail : String)
  | notMapping (path : Path)
  /-- Unknown keys that cannot be put in order to be named. -/
  | unordered (e : Value.Incomparable)
  /-- A key that is too long to be written out. -/
  | tooManyDigits (e : Value.TooManyDigits)
  /-- The reader of YAML broke off. -/
  | readerFault (kind detail : String)

def Error.message : Error → String
  | .unknownKeys shown => s!"Unknown config keys: {shown}"
  | .rulesNotMapping => "'rules' must be a mapping of rule id to options"
  | .ignoreNotPatterns => "'ignore' must be a list of patterns"
  | .entryUnknownKeys rule shown => s!"rules.{rule}: unknown keys {shown}"
  | .enabledNotBoolean rule => s!"rules.{rule}.enabled must be a boolean"
  | .badOverride spec => s!"Invalid rule override '{spec}'. Expected 'rule-id=option'"
  | .fileNotFound path => s!"Config file not found: {path.render}"
  | .invalidYaml path detail => s!"Invalid YAML in {path.render}: {detail}"
  | .notMapping path => s!"YAML must be a mapping: {path.render}"
  | .unordered e => e.message
  | .tooManyDigits e => e.message
  | .readerFault _ detail => detail

/-- Whether the error is one that the user is told of; the others are faults of the program. -/
def Error.isUserError : Error → Bool
  | .unordered _ => false
  | .tooManyDigits _ => false
  | .readerFault _ _ => false
  | _ => true

end Config

/-- The keys of a mapping other than the two that are known. -/
def Value.keysBut (first second : String) (entries : List (Value × Value)) : List Value :=
  (entries.map (·.1)).filter fun
    | .str s => s ≠ first && s ≠ second
    | _ => true

/-- Fails with the keys in order, as they are shown, if there are any. -/
def Config.refuseKeys (keys : List Value) (error : String → Config.Error) :
    Except Config.Error PUnit :=
  if keys.isEmpty then .ok ⟨⟩
  else
    match Value.sortKeys keys with
    | .error e => .error (.unordered e)
    | .ok sorted =>
      match (Value.list sorted).shown with
      | .error e => .error (.tooManyDigits e)
      | .ok shown => .error (error shown)

namespace RuleEntry

/-- The option list of an entry's `options`: nothing when absent, a list as it is, any other value
as the one option. -/
def optionList : Option Value → List Value
  | none => []
  | some v =>
    if !v.truthy then []
    else
      match v with
      | .list items => items
      | other => [other]

def ofMapping (rule : String) (entries : List (Value × Value)) : Except Config.Error RuleEntry := do
  Config.refuseKeys (Value.keysBut "enabled" "options" entries) (.entryUnknownKeys rule)
  match (Value.lookup "enabled" entries).getD (.bool true) with
  | .bool enabled => .ok ⟨enabled, optionList (Value.lookup "options" entries)⟩
  | _ => .error (.enabledNotBoolean rule)

def ofValue (rule : String) : Value → Except Config.Error RuleEntry
  | .null => .ok {}
  | .bool enabled => .ok { enabled }
  | .list items => .ok { options := items }
  | .map entries => ofMapping rule entries
  | other => .ok { options := [other] }

end RuleEntry

namespace Config

/-- The mapping under `rules`; a value that counts as absent is an empty one. -/
def rulesMapping : Option Value → Except Error (List (Value × Value))
  | none => .ok []
  | some v =>
    if !v.truthy then .ok []
    else
      match v with
      | .map entries => .ok entries
      | _ => .error .rulesNotMapping

/-- The patterns under `ignore`: one text or a list of texts. -/
def ignorePatterns : Option Value → Except Error (List String)
  | none => .ok []
  | some v =>
    if !v.truthy then .ok []
    else
      match v with
      | .str s => .ok [s]
      | .list items =>
        if items.all Value.isString then .ok (items.filterMap Value.string?)
        else .error .ignoreNotPatterns
      | _ => .error .ignoreNotPatterns

/-- Adds the entries of a mapping under `rules`, ids being the plain text of the keys. -/
def addEntries : List (String × RuleEntry) → List (Value × Value) →
    Except Error (List (String × RuleEntry))
  | rules, [] => .ok rules
  | rules, (key, v) :: rest =>
    match key.plain with
    | .error e => .error (.tooManyDigits e)
    | .ok id =>
      match RuleEntry.ofValue id v with
      | .error e => .error e
      | .ok entry => addEntries (Assoc.put id entry rules) rest

/-- The configuration in a mapping's entries. -/
def ofMapping (entries : List (Value × Value)) : Except Error Config := do
  refuseKeys (Value.keysBut "rules" "ignore" entries) .unknownKeys
  let rulesRaw ← rulesMapping (Value.lookup "rules" entries)
  let ignore ← ignorePatterns (Value.lookup "ignore" entries)
  let rules ← addEntries [] rulesRaw
  return { rules, ignore }

def entry? (c : Config) (id : String) : Option RuleEntry := c.rules.lookup id

end Config

end BracketSpacing
