import BracketSpacing.Config
import BracketSpacing.Registry

/-!
The rules in force: every registered rule that the configuration does not switch off, with its
configured options. An override switches its rule on and gives it that one option.
-/

set_option autoImplicit false
set_option relaxedAutoImplicit false

namespace BracketSpacing

/-- What looking up rules changes: the registry's memory and the log. -/
structure Session where
  registry : Registry
  log : List Log.Record := []

abbrev SessionM (ε : Type) := ExceptT ε (StateM Session)

namespace Session

def record {ε : Type} (r : Log.Record) : SessionM ε PUnit :=
  modify fun s ↦ { s with log := s.log ++ [r] }

def recordAll {ε : Type} (rs : List Log.Record) : SessionM ε PUnit :=
  modify fun s ↦ { s with log := s.log ++ rs }

/-- Asks the registry for a rule. -/
def definition (c : Catalogue) (id : String) : SessionM Registry.Error RuleDefinition := do
  let s ← get
  let found := s.registry.get c id
  set ({ registry := found.registry, log := s.log ++ found.log } : Session)
  match found.result with
  | .ok d => return d
  | .error e => throw e

/-- Asks the registry for several rules, up to the first that fails. -/
def definitions (c : Catalogue) : List String → SessionM Registry.Error PUnit
  | [] => return ⟨⟩
  | id :: rest => do
    let _ ← definition c id
    definitions c rest

end Session

namespace Ruleset

/-- The entry of a rule under configuration and overrides. -/
def entryFor (config : Config) (overrides : List (String × String)) (id : String) : RuleEntry :=
  match overrides.lookup id with
  | some option => { enabled := true, options := [.str option] }
  | none => (config.entry? id).getD {}

/-- The record of a rule's options; options that have no text leave none. -/
def optionsRecord (rule : Rule) : List Log.Record :=
  match Value.shownOptions rule.options with
  | .ok shown => [Log.debug s!"rule {rule.id} options={shown}"]
  | .error _ => []

/-- Builds the rules of some ids, leaving out those that are switched off. -/
def buildAll (c : Catalogue) (config : Config) (overrides : List (String × String)) :
    List String → SessionM Registry.Error (List Rule)
  | [] => return []
  | id :: rest => do
    let entry := entryFor config overrides id
    if !entry.enabled then
      Session.record (Log.debug s!"rule {id} disabled")
      buildAll c config overrides rest
    else
      let d ← Session.definition c id
      let rule : Rule := ⟨d, entry.options⟩
      Session.recordAll (optionsRecord rule)
      let rules ← buildAll c config overrides rest
      return rule :: rules

/-- The rules in force, by increasing id; overrides must name registered rules. -/
def build (c : Catalogue) (config : Config) (overrides : List (String × String)) :
    SessionM Registry.Error (List Rule) := do
  Session.definitions c (overrides.map (·.1))
  let s ← get
  buildAll c config overrides s.registry.ids

end Ruleset

end BracketSpacing
