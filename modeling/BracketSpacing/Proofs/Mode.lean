import BracketSpacing.Proofs.Config
import BracketSpacing.Proofs.Ruleset

/-!
The mode that an option selects, however the option is given: alone, in a list or under `options` in
the configuration (`ofValue_of_spells`), as an override (`inForce_of_override`), or to the rule
itself. On some of these ways an empty text or a zero is dropped and on others it is kept, which
makes no difference to the mode (`ofOptions_optionList`). `every_spelling_selects_the_mode` takes
all ways together.
-/

set_option autoImplicit false
set_option relaxedAutoImplicit false

namespace BracketSpacing

/-! ### Options -/

namespace Value

/-- A number or a text. -/
inductive IsOption : Value → Prop
  | int (i : Int) : IsOption (.int i)
  | float (x : Binary64) : IsOption (.float x)
  | str (s : String) : IsOption (.str s)

/-- The ways to configure a rule with one option. -/
inductive Spells (v : Value) : Value → Prop
  | alone : Spells v v
  | listed : Spells v (.list [v])
  | option : Spells v (.map [(.str "options", v)])
  | optionListed : Spells v (.map [(.str "options", .list [v])])

/-- A list of options is taken as it stands, also when it is empty. -/
theorem ruleOptions_list (options : List Value) : ruleOptions (.list options) = .ok options := by
  cases options <;> rfl

theorem firstOption_tuple (options : List Value) :
    firstOption (.tuple options) = .ok options.head? := by
  cases options <;> rfl

end Value

namespace Mode

/-- A mode other than `never` is selected by its name only. -/
theorem ofOption_eq_iff {v : Value} {mode : Mode} (hmode : mode ≠ .never) :
    ofOption (some v) = mode ↔ v = .str mode.name := by
  cases v with
  | str s =>
    by_cases halways : s = "always"
    · subst halways
      cases mode <;> simp_all [ofOption, name]
    · by_cases heven : s = "even" <;> cases mode <;> simp_all [ofOption, name]
  | _ => simp [ofOption, Ne.symm hmode]

/-- Every option but two texts selects `never`. -/
theorem ofOption_eq_never_iff {v : Value} :
    ofOption (some v) = .never ↔ v ≠ .str "always" ∧ v ≠ .str "even" := by
  have halways : ofOption (some v) = .always ↔ v = .str "always" := ofOption_eq_iff nofun
  have heven : ofOption (some v) = .even ↔ v = .str "even" := ofOption_eq_iff nofun
  rw [Ne, Ne, ← halways, ← heven]
  cases ofOption (some v) <;> simp

theorem resolve_tuple (options : List Value) :
    resolve (.tuple options) = .ok (ofOptions options) := by
  rw [resolve, Value.firstOption_tuple]
  rfl

end Mode

namespace RuleEntry

theorem ofValue_options (rule : String) (v : Value) :
    ofValue rule (.map [(.str "options", v)]) = .ok ⟨true, optionList (some v)⟩ := rfl

theorem optionList_list (options : List Value) : optionList (some (.list options)) = options := by
  cases options <;> rfl

/-- What counts as absent selects `never`, as no option at all does. -/
theorem ofOptions_optionList {v : Value} (hv : v.IsOption) :
    Mode.ofOptions (optionList (some v)) = Mode.ofOption (some v) := by
  cases htruthy : v.truthy with
  | true => cases hv <;> simp [optionList, htruthy, Mode.ofOptions]
  | false =>
    have hnever : Mode.ofOption (some v) = .never := by
      rw [Mode.ofOption_eq_never_iff]
      constructor <;> rintro rfl <;> cases htruthy
    have hnone : optionList (some v) = [] := by simp [optionList, htruthy]
    rw [hnever, hnone]
    rfl

/-- All spellings of an option switch the rule on, with options that select the same mode. -/
theorem ofValue_of_spells {v raw : Value} (hv : v.IsOption) (h : v.Spells raw) (rule : String) :
    ∃ options, ofValue rule raw = .ok ⟨true, options⟩ ∧
      Mode.ofOptions options = Mode.ofOption (some v) := by
  cases h with
  | alone => cases hv <;> exact ⟨_, rfl, rfl⟩
  | listed => exact ⟨_, rfl, rfl⟩
  | option => exact ⟨_, ofValue_options rule v, ofOptions_optionList hv⟩
  | optionListed => exact ⟨_, ofValue_options rule _, by rw [optionList_list]; rfl⟩

end RuleEntry

/-! ### The rule in force -/

namespace Spacing

/-- The rules in force are the linter's own one, or none if its entry is switched off. -/
theorem yields_build (config : Config) (overrides : List (String × String))
    (h : ∀ id ∈ overrides.map (·.1), id = ruleId) :
    (Ruleset.build .builtin config overrides).Yields
      (.ok (if (Ruleset.entryFor config overrides ruleId).enabled then
        [⟨definition, (Ruleset.entryFor config overrides ruleId).options⟩] else [])) := by
  have hids : Registry.ids ⟨Registry.builtin.registrations, []⟩ = [ruleId] :=
    List.mergeSort_singleton _
  have hloads : Registry.fromScratch .builtin ruleId
      (Registry.builtin.registrations.lookup ruleId) = .ok definition := rfl
  have hbuild : (Ruleset.build .builtin config overrides).Yields _ := Ruleset.gives_build config
    (fun id hid ↦ Registry.available_of_mem_ids (Registry.mem_ids.mpr hid))
    (fun id hid ↦ Registry.available_of_mem_ids (Registry.mem_builtin_ids.mpr (h id hid)))
  rw [hids] at hbuild
  cases henabled : (Ruleset.entryFor config overrides ruleId).enabled with
  | true =>
    rwa [List.filterMap_cons_some (Ruleset.ruleFor?_of_enabled henabled hloads)] at hbuild
  | false =>
    rwa [List.filterMap_cons_none (Ruleset.ruleFor?_of_disabled henabled)] at hbuild

/-- In every session the rules in force are the linter's own one in this mode, and no other. -/
def InForce (config : Config) (overrides : List (String × String)) (mode : Mode) : Prop :=
  ∃ rule : Rule, (Ruleset.build .builtin config overrides).Yields (.ok [rule]) ∧
    rule.definition = definition ∧ rule.mode = some mode

/-- A mapping that gives the rule this value is read as a configuration, and wherever the rule has
the entry that is read, it is in force in this mode. -/
def ConfiguredBy (raw : Value) (mode : Mode) : Prop :=
  ∃ entry, RuleEntry.ofValue ruleId raw = .ok entry ∧
    Config.ofMapping [(.str "rules", .map [(.str ruleId, raw)])] =
      .ok { rules := [(ruleId, entry)] } ∧
    ∀ config : Config, config.entry? ruleId = some entry → InForce config [] mode

/-- The rule is in force in the mode of its options if its entry is switched on. -/
theorem inForce_of_enabled (config : Config) (overrides : List (String × String))
    (h : ∀ id ∈ overrides.map (·.1), id = ruleId) {options : List Value}
    (hentry : Ruleset.entryFor config overrides ruleId = ⟨true, options⟩) :
    InForce config overrides (Mode.ofOptions options) := by
  have hbuild := yields_build config overrides h
  rw [hentry] at hbuild
  exact ⟨_, hbuild, rfl, rfl⟩

/-- A configuration of one rule has the entry that the rule's value is read as. -/
theorem ofMapping_of_ofValue {raw : Value} {entry : RuleEntry}
    (h : RuleEntry.ofValue ruleId raw = .ok entry) :
    Config.ofMapping [(.str "rules", .map [(.str ruleId, raw)])] =
      .ok { rules := [(ruleId, entry)] } := by
  have hplain : (Value.str ruleId).plain = .ok ruleId := rfl
  have hrules : Config.addEntries [] [(.str ruleId, raw)] = .ok [(ruleId, entry)] := by
    rw [Config.addEntries, hplain]
    dsimp only
    rw [h]
    rfl
  refine bind_eq_ok_iff.mpr ⟨⟨⟩, rfl, bind_eq_ok_iff.mpr ⟨_, rfl, ?_⟩⟩
  exact bind_eq_ok_iff.mpr ⟨_, rfl, bind_eq_ok_iff.mpr ⟨_, hrules, rfl⟩⟩

/-- A value that is read as options configures the mode of these. -/
theorem configuredBy_of_ofValue {raw : Value} {options : List Value} {mode : Mode}
    (h : RuleEntry.ofValue ruleId raw = .ok ⟨true, options⟩)
    (hmode : Mode.ofOptions options = mode) : ConfiguredBy raw mode := by
  subst hmode
  refine ⟨_, h, ofMapping_of_ofValue h, fun config hconfig ↦ inForce_of_enabled config [] nofun ?_⟩
  rw [Ruleset.entryFor_of_none rfl, hconfig, Option.getD_some]

/-- An override puts the rule in force in the mode of its option, whatever is configured. -/
theorem inForce_of_override (config : Config) (option : String) :
    InForce config [(ruleId, option)] (Mode.ofOption (some (.str option))) := by
  have hentry : Ruleset.entryFor config [(ruleId, option)] ruleId = ⟨true, [.str option]⟩ :=
    Ruleset.entryFor_of_override List.lookup_cons_self
  exact inForce_of_enabled config [(ruleId, option)] (fun id hid ↦ List.mem_singleton.mp hid) hentry

/-- However a number or a text is given as the option, the rule is in force in the same mode, the
one that the text names, and else `never`. Of several options the first one decides. Every value
that is read as an entry leads to a rule: nothing in its options, however nested, is refused. -/
theorem every_spelling_selects_the_mode :
    (∀ v : Value, v.IsOption → ∃ mode : Mode,
      ((mode = .always ↔ v = .str "always") ∧ (mode = .even ↔ v = .str "even") ∧
        (mode = .never ↔ v ≠ .str "always" ∧ v ≠ .str "even")) ∧
      (∀ raw, v.Spells raw → ConfiguredBy raw mode) ∧
      ∀ s, v = .str s →
        (∃ rule, definition.instantiate (.str s) = .ok rule ∧ rule.mode = some mode) ∧
        ∀ config, InForce config [(ruleId, s)] mode) ∧
    (∀ (first : Value) (rest : List Value), ∃ mode,
      ConfiguredBy (.list [first]) mode ∧ ConfiguredBy (.list (first :: rest)) mode ∧
      ConfiguredBy (.map [(.str "options", .list (first :: rest))]) mode ∧
      ∃ rule, definition.instantiate (.list (first :: rest)) = .ok rule ∧
        rule.mode = some mode) ∧
    ∀ raw entry, RuleEntry.ofValue ruleId raw = .ok entry →
      definition.instantiate (.list entry.options) = .ok ⟨definition, entry.options⟩ ∧
      (∃ mode, Mode.resolve (.tuple entry.options) = .ok mode) ∧
      ∀ config : Config, config.entry? ruleId = some entry →
        (Ruleset.build .builtin config []).Yields
          (.ok (if entry.enabled then [⟨definition, entry.options⟩] else [])) := by
  refine ⟨fun v hv ↦ ⟨Mode.ofOption (some v), ?_, fun raw hraw ↦ ?_, ?_⟩, fun first rest ↦ ?_,
    fun raw entry hentry ↦ ⟨?_, ⟨_, Mode.resolve_tuple _⟩, fun config hconfig ↦ ?_⟩⟩
  · exact ⟨Mode.ofOption_eq_iff nofun, Mode.ofOption_eq_iff nofun, Mode.ofOption_eq_never_iff⟩
  · obtain ⟨options, hread, hmode⟩ := RuleEntry.ofValue_of_spells hv hraw ruleId
    exact configuredBy_of_ofValue hread hmode
  · rintro s rfl
    exact ⟨⟨_, rfl, rfl⟩, fun config ↦ inForce_of_override config s⟩
  · refine ⟨Mode.ofOption (some first), configuredBy_of_ofValue rfl rfl,
      configuredBy_of_ofValue rfl rfl, ?_, ⟨definition, first :: rest⟩, ?_, rfl⟩
    · refine configuredBy_of_ofValue (RuleEntry.ofValue_options ruleId _) ?_
      rw [RuleEntry.optionList_list]
      rfl
    · rw [RuleDefinition.instantiate, Value.ruleOptions_list]
      rfl
  · rw [RuleDefinition.instantiate, Value.ruleOptions_list]
    rfl
  · have hbuild := yields_build config [] nofun
    rwa [Ruleset.entryFor_of_none rfl, hconfig, Option.getD_some] at hbuild

/-- An empty text under `options` is dropped, and selects the mode that it selects elsewhere. -/
theorem every_spelling_selects_the_mode_of_empty_text :
    (Value.str "").IsOption ∧ Value.Spells (.str "") (.map [(.str "options", .str "")]) ∧
      ConfiguredBy (.str "") .never ∧ ConfiguredBy (.map [(.str "options", .str "")]) .never := by
  obtain ⟨mode, ⟨-, -, hnever⟩, hconfigured, -⟩ :=
    every_spelling_selects_the_mode.1 (.str "") (.str "")
  obtain rfl : mode = .never := hnever.mpr ⟨by simp, by simp⟩
  exact ⟨.str "", .option, hconfigured _ .alone, hconfigured _ .option⟩

end Spacing

end BracketSpacing
