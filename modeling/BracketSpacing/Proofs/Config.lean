import BracketSpacing.Config
import BracketSpacing.Proofs.Assoc
import BracketSpacing.Proofs.Value.Shown
import Mathlib.Algebra.Group.Nat.Defs

/-!
Which mappings are configurations, and what they say. `Config.Schema` is the form that a mapping
must have, and `Config.Described` the configuration it then stands for, value by value: the
patterns to ignore, the rule ids in order of first occurrence, and for each id what its last value
says. `mapping_is_configuration_iff_schema`: reading a mapping succeeds on this form only, if every
rule's key can be written as an id, and gives this configuration and no other. The form alone is not
enough: `long_key_is_no_configuration` is of this form, with a number for a key that is too long to
be written.
-/

set_option autoImplicit false
set_option relaxedAutoImplicit false

namespace BracketSpacing

/-! ### Keys -/

/-- Every key is one of the two texts. -/
def Value.KeysAmong (first second : String) (entries : List (Value × Value)) : Prop :=
  ∀ entry ∈ entries, entry.1 = .str first ∨ entry.1 = .str second

/-- There are no other keys exactly if every key is one of the two. -/
theorem Value.keysBut_eq_nil_iff {first second : String} {entries : List (Value × Value)} :
    keysBut first second entries = [] ↔ KeysAmong first second entries := by
  rw [keysBut, List.filter_eq_nil_iff, List.forall_mem_map]
  refine forall₂_congr fun entry _ ↦ ?_
  cases entry.1 with
  | str s => simp [or_iff_not_imp_left]
  | _ => simp

/-- Only no keys are not refused. -/
theorem Config.refuseKeys_eq_ok_iff {keys : List Value} {error : String → Error} {u : PUnit} :
    refuseKeys keys error = .ok u ↔ keys = [] := by
  unfold refuseKeys
  split_ifs with h
  · exact iff_of_true rfl (List.isEmpty_iff.mp h)
  · refine iff_of_false ?_ (mt List.isEmpty_iff.mpr h)
    split
    next => exact nofun
    next => split <;> exact nofun

/-! ### The entry of a rule -/

namespace Value

/-- A rule's value, if it is a mapping, has the two known keys only and a switch as `enabled`. -/
def FitsRule (v : Value) : Prop :=
  ∀ entries, v = .map entries → KeysAmong "enabled" "options" entries ∧
    ∀ e, lookup "enabled" entries = some e → ∃ b, e = .bool b

/-- The value switches its rule off. -/
def SwitchesOff (v : Value) : Prop :=
  v = .bool false ∨ ∃ entries, v = .map entries ∧ lookup "enabled" entries = some (.bool false)

theorem switchesOff_map_iff {entries : List (Value × Value)} :
    SwitchesOff (.map entries) ↔ lookup "enabled" entries = some (.bool false) := by
  simp [SwitchesOff]

/-- Whether a value is an option by itself: a number or a text, a date and the like, or what only a
key can be. -/
def isSingle : Value → Bool
  | .int _ | .float _ | .str _ | .tuple _ | .foreign _ => true
  | .null | .bool _ | .list _ | .map _ => false

/-- The options that a rule's value gives. -/
inductive GivesOptions : Value → List Value → Prop
  | null : GivesOptions .null []
  | bool (b : Bool) : GivesOptions (.bool b) []
  | list (items : List Value) : GivesOptions (.list items) items
  | single {v : Value} (h : v.isSingle = true) : GivesOptions v [v]
  | mapAbsent {entries : List (Value × Value)} (h : lookup "options" entries = none) :
    GivesOptions (.map entries) []
  | mapFalsy {entries : List (Value × Value)} {o : Value} (h : lookup "options" entries = some o)
    (ho : o.truthy = false) : GivesOptions (.map entries) []
  | mapList {entries : List (Value × Value)} {items : List Value}
    (h : lookup "options" entries = some (.list items)) : GivesOptions (.map entries) items
  | mapOther {entries : List (Value × Value)} {o : Value} (h : lookup "options" entries = some o)
    (ho : o.truthy = true) (hlist : ∀ items, o ≠ .list items) : GivesOptions (.map entries) [o]

/-- The entry that a rule's value stands for. -/
structure Describes (v : Value) (entry : RuleEntry) : Prop where
  disabled_iff : entry.enabled = false ↔ v.SwitchesOff
  options : v.GivesOptions entry.options

end Value

namespace RuleEntry

/-- A mapping gives the options under `options`. -/
theorem givesOptions_map (entries : List (Value × Value)) :
    Value.GivesOptions (.map entries) (optionList (Value.lookup "options" entries)) := by
  cases h : Value.lookup "options" entries with
  | none => exact .mapAbsent h
  | some o =>
    cases ho : o.truthy with
    | false =>
      simp only [optionList, ho, Bool.not_false, if_true]
      exact .mapFalsy h ho
    | true =>
      cases o with
      | list items =>
        simp only [optionList, ho, Bool.not_true]
        exact .mapList h
      | _ =>
        simp only [optionList, ho, Bool.not_true]
        exact .mapOther h ho nofun

theorem eq_optionList_of_givesOptions {entries : List (Value × Value)} {options : List Value}
    (h : Value.GivesOptions (.map entries) options) :
    options = optionList (Value.lookup "options" entries) := by
  cases h with
  | single h => cases h
  | mapAbsent h => rw [h, optionList]
  | mapFalsy h ho => simp [h, optionList, ho]
  | mapList h => cases options <;> simp [h, optionList, Value.truthy]
  | @mapOther _ o h ho hlist =>
    cases o with
    | list items => exact absurd rfl (hlist items)
    | _ => simp [h, optionList, ho]

/-- A mapping that is read as an entry fits, and describes the entry. -/
theorem describes_of_ofMapping {rule : String} {entries : List (Value × Value)}
    {entry : RuleEntry} (h : ofMapping rule entries = .ok entry) :
    Value.FitsRule (.map entries) ∧ Value.Describes (.map entries) entry := by
  obtain ⟨_, hkeys, h⟩ := bind_eq_ok_iff.mp h
  rw [Config.refuseKeys_eq_ok_iff, Value.keysBut_eq_nil_iff] at hkeys
  split at h
  case h_2 => cases h
  case h_1 enabled henabled =>
    cases h
    refine ⟨?_, ?_, givesOptions_map entries⟩
    · rintro _ ⟨⟩
      refine ⟨hkeys, fun e he ↦ ⟨enabled, ?_⟩⟩
      rwa [he, Option.getD_some] at henabled
    · rw [Value.switchesOff_map_iff]
      cases hswitch : Value.lookup "enabled" entries with
      | none =>
        rw [hswitch] at henabled
        cases henabled
        simp
      | some e =>
        rw [hswitch] at henabled
        cases henabled
        simp

theorem exists_ofMapping (rule : String) {entries : List (Value × Value)}
    (h : Value.FitsRule (.map entries)) : ∃ entry, ofMapping rule entries = .ok entry := by
  obtain ⟨hkeys, hswitch⟩ := h entries rfl
  have hrefuse : Config.refuseKeys (Value.keysBut "enabled" "options" entries)
      (.entryUnknownKeys rule) = .ok ⟨⟩ :=
    Config.refuseKeys_eq_ok_iff.mpr (Value.keysBut_eq_nil_iff.mpr hkeys)
  cases henabled : Value.lookup "enabled" entries with
  | none => exact ⟨_, bind_eq_ok_iff.mpr ⟨_, hrefuse, by rw [henabled]; rfl⟩⟩
  | some e =>
    obtain ⟨b, rfl⟩ := hswitch e henabled
    exact ⟨_, bind_eq_ok_iff.mpr ⟨_, hrefuse, by rw [henabled]; rfl⟩⟩

end RuleEntry

theorem Value.GivesOptions.unique {v : Value} {options others : List Value}
    (h : v.GivesOptions options) (hothers : v.GivesOptions others) : options = others := by
  cases v with
  | map entries =>
    rw [RuleEntry.eq_optionList_of_givesOptions h, RuleEntry.eq_optionList_of_givesOptions hothers]
  | _ => cases h <;> cases hothers <;> first | rfl | contradiction

theorem Value.Describes.unique {v : Value} {entry other : RuleEntry} (h : v.Describes entry)
    (hother : v.Describes other) : entry = other := by
  obtain ⟨enabled, options⟩ := entry
  obtain ⟨enabled', options'⟩ := other
  have henabled : enabled = enabled' :=
    Bool.eq_iff_iff.mpr <| not_iff_not.mp <| by
      simpa using h.disabled_iff.trans hother.disabled_iff.symm
  have hoptions : options = options' := h.options.unique hother.options
  rw [henabled, hoptions]

namespace RuleEntry

/-- A value that is read as an entry fits, and describes the entry. -/
theorem describes_of_ofValue {rule : String} {v : Value} {entry : RuleEntry}
    (h : ofValue rule v = .ok entry) : v.FitsRule ∧ v.Describes entry := by
  cases v with
  | map entries => exact describes_of_ofMapping h
  | null =>
    cases h
    exact ⟨nofun, by simp [Value.SwitchesOff], .null⟩
  | bool b =>
    cases h
    exact ⟨nofun, by simp [Value.SwitchesOff], .bool b⟩
  | list items =>
    cases h
    exact ⟨nofun, by simp [Value.SwitchesOff], .list items⟩
  | _ =>
    cases h
    exact ⟨nofun, by simp [Value.SwitchesOff], .single rfl⟩

/-- A value that fits is read. -/
theorem exists_ofValue (rule : String) {v : Value} (h : v.FitsRule) :
    ∃ entry, ofValue rule v = .ok entry := by
  cases v with
  | map entries => exact exists_ofMapping rule h
  | _ => exact ⟨_, rfl⟩

/-- A rule's value is read as an entry exactly if it fits and describes the entry. -/
theorem ofValue_eq_ok_iff {rule : String} {v : Value} {entry : RuleEntry} :
    ofValue rule v = .ok entry ↔ v.FitsRule ∧ v.Describes entry := by
  refine ⟨describes_of_ofValue, fun ⟨hfits, hentry⟩ ↦ ?_⟩
  obtain ⟨other, hother⟩ := exists_ofValue rule hfits
  rw [hother, hentry.unique (describes_of_ofValue hother).2]

/-- An entry written out in full is read back. -/
theorem ofValue_written (rule : String) (entry : RuleEntry) :
    ofValue rule (.map [(.str "enabled", .bool entry.enabled),
      (.str "options", .list entry.options)]) = .ok entry := by
  rw [ofValue_eq_ok_iff]
  refine ⟨?_, ?_, .mapList rfl⟩
  · rintro _ ⟨⟩
    simp [Value.KeysAmong, Value.lookup]
  · simp [Value.switchesOff_map_iff, Value.lookup]

end RuleEntry

namespace Config

/-! ### The form of a configuration -/

variable {entries : List (Value × Value)}

/-- The entries under `rules`, if a mapping is there. -/
def givenRules (entries : List (Value × Value)) : List (Value × Value) :=
  match Value.lookup "rules" entries with
  | some (.map given) => given
  | _ => []

/-- What is under `rules` is absent, counts as absent or is a mapping. -/
def RulesFit (entries : List (Value × Value)) : Prop :=
  ∀ v, Value.lookup "rules" entries = some v → v.truthy = false ∨ ∃ given, v = .map given

/-- What is under `ignore` is absent, counts as absent, or is a text or a list of texts. -/
def IgnoreFits (entries : List (Value × Value)) : Prop :=
  ∀ v, Value.lookup "ignore" entries = some v →
    v.truthy = false ∨ (∃ s, v = .str s) ∨ ∃ patterns : List String, v = .list (patterns.map .str)

/-- The form that a mapping must have to be a configuration. -/
structure Schema (entries : List (Value × Value)) : Prop where
  keys : Value.KeysAmong "rules" "ignore" entries
  rules : RulesFit entries
  ignore : IgnoreFits entries
  values : ∀ given ∈ givenRules entries, given.2.FitsRule

/-- The patterns that the value under `ignore` gives; the empty text counts as absent. -/
inductive GivesPatterns : Option Value → List String → Prop
  | absent : GivesPatterns none []
  | falsy {v : Value} (h : v.truthy = false) : GivesPatterns (some v) []
  | one {s : String} (h : s ≠ "") : GivesPatterns (some (.str s)) [s]
  | list (patterns : List String) : GivesPatterns (some (.list (patterns.map .str))) patterns

/-- The configuration that a mapping stands for. A rule id is the text of its key, so that two keys
may give one id. -/
structure Described (entries : List (Value × Value)) (id : Value → String) (config : Config) :
    Prop where
  rendered : ∀ given ∈ givenRules entries, given.1.RenderedAs (id given.1)
  ignore : GivesPatterns (Value.lookup "ignore" entries) config.ignore
  ids : config.rules.map (·.1) = ((givenRules entries).map (id ·.1)).eraseDups
  entry : ∀ before key v after, givenRules entries = before ++ (key, v) :: after →
    id key ∉ after.map (id ·.1) →
    ∃ entry, config.entry? (id key) = some entry ∧ v.Describes entry

/-- The rules are read exactly if they are absent, falsy or a mapping. -/
theorem rulesMapping_eq_ok_iff {given : List (Value × Value)} :
    rulesMapping (Value.lookup "rules" entries) = .ok given ↔
      RulesFit entries ∧ givenRules entries = given := by
  unfold givenRules RulesFit
  cases h : Value.lookup "rules" entries with
  | none => simp [rulesMapping]
  | some v =>
    cases htruthy : v.truthy with
    | true => cases v <;> simp [rulesMapping, htruthy]
    | false =>
      cases v with
      | map given => cases given <;> simp_all [rulesMapping, Value.truthy]
      | _ => simp [rulesMapping, htruthy]

theorem map_str_filterMap_string? {items : List Value} (h : ∀ item ∈ items, item.isString = true) :
    (items.filterMap Value.string?).map .str = items := by
  induction items with
  | nil => rfl
  | cons item rest ih =>
    rw [List.forall_mem_cons] at h
    cases item with
    | str s => simpa [Value.string?] using ih h.2
    | _ => cases h.1

/-- The patterns that a value gives are read. -/
theorem ignorePatterns_of_givesPatterns {v : Option Value} {patterns : List String}
    (h : GivesPatterns v patterns) : ignorePatterns v = .ok patterns := by
  cases h with
  | absent => rfl
  | falsy h => simp [ignorePatterns, h]
  | one h => simp [ignorePatterns, Value.truthy, h]
  | list =>
    cases patterns <;>
      simp [ignorePatterns, Value.truthy, Value.isString, Value.string?, Function.comp_def]

/-- Patterns are read exactly if the value gives them. -/
theorem ignorePatterns_eq_ok_iff {v : Option Value} {patterns : List String} :
    ignorePatterns v = .ok patterns ↔ GivesPatterns v patterns := by
  refine ⟨fun h ↦ ?_, ignorePatterns_of_givesPatterns⟩
  unfold ignorePatterns at h
  split at h
  · cases h
    exact .absent
  · split_ifs at h with htruthy
    · cases h
      exact .falsy (by simpa using htruthy)
    · split at h
      · cases h
        refine .one ?_
        rintro rfl
        exact htruthy rfl
      · next items =>
        split_ifs at h with hall
        cases h
        have hlist := GivesPatterns.list (items.filterMap Value.string?)
        rwa [map_str_filterMap_string? (List.all_eq_true.mp hall)] at hlist
      · cases h

/-- A value gives patterns if it is absent, falsy, a text or a list of texts. -/
theorem exists_givesPatterns_iff {v : Option Value} :
    (∃ patterns, GivesPatterns v patterns) ↔
      ∀ w, v = some w → w.truthy = false ∨ (∃ s, w = .str s) ∨
        ∃ patterns : List String, w = .list (patterns.map .str) := by
  constructor
  · rintro ⟨patterns, h⟩ w rfl
    cases h with
    | falsy h => exact Or.inl h
    | one => exact Or.inr (Or.inl ⟨_, rfl⟩)
    | list => exact Or.inr (Or.inr ⟨_, rfl⟩)
  · intro h
    cases v with
    | none => exact ⟨[], .absent⟩
    | some w =>
      rcases h w rfl with hfalsy | ⟨s, rfl⟩ | ⟨patterns, rfl⟩
      · exact ⟨[], .falsy hfalsy⟩
      · by_cases hs : s = ""
        · exact ⟨[], .falsy (by simp [hs, Value.truthy])⟩
        · exact ⟨[s], .one hs⟩
      · exact ⟨patterns, .list patterns⟩

/-! ### The rules -/

/-- Rules that are all read have keys that can be written and values that fit. -/
theorem of_addEntries {rules result : List (String × RuleEntry)}
    {given : List (Value × Value)} (h : addEntries rules given = .ok result) :
    ∀ g ∈ given, g.1.Writable ∧ g.2.FitsRule := by
  induction given generalizing rules with
  | nil => exact nofun
  | cons g rest ih =>
    obtain ⟨key, v⟩ := g
    rw [addEntries] at h
    split at h
    next => cases h
    next id hid =>
      split at h
      next => cases h
      next entry hentry =>
        have hwritable := Value.exists_renderedAs_iff.mp ⟨id, Value.plain_eq_ok_iff.mp hid⟩
        exact List.forall_mem_cons.mpr
          ⟨⟨hwritable, (RuleEntry.describes_of_ofValue hentry).1⟩, ih h⟩

/-- Values that fit are put one after the other under the texts of their keys. -/
theorem addEntries_of_ofValue {id : Value → String} {read : Value → RuleEntry}
    {given : List (Value × Value)} (hid : ∀ g ∈ given, g.1.RenderedAs (id g.1))
    (h : ∀ g ∈ given, ∀ rule, RuleEntry.ofValue rule g.2 = .ok (read g.2))
    (rules : List (String × RuleEntry)) :
    addEntries rules given =
      .ok ((given.map fun g ↦ (id g.1, read g.2)).foldl
        (fun entries pair ↦ Assoc.put pair.1 pair.2 entries) rules) := by
  induction given generalizing rules with
  | nil => rfl
  | cons g rest ih =>
    obtain ⟨key, v⟩ := g
    rw [List.forall_mem_cons] at hid h
    rw [addEntries, Value.plain_eq_ok_iff.mpr hid.1]
    dsimp only
    rw [h.1 (id key)]
    exact ih hid.2 h.2 _

/-- A mapping of the form is read as the configuration that it describes. -/
theorem exists_described {id : Value → String} (h : Schema entries)
    (hid : ∀ given ∈ givenRules entries, given.1.RenderedAs (id given.1)) :
    ∃ config, ofMapping entries = .ok config ∧ Described entries id config := by
  obtain ⟨patterns, hpatterns⟩ := exists_givesPatterns_iff.mpr h.ignore
  have hread (v : Value) : ∃ entry, v.FitsRule → v.Describes entry := by
    by_cases hfits : v.FitsRule
    · obtain ⟨entry, hentry⟩ := RuleEntry.exists_ofValue "" hfits
      exact ⟨entry, fun _ ↦ (RuleEntry.describes_of_ofValue hentry).2⟩
    · exact ⟨{}, fun hv ↦ absurd hv hfits⟩
  -- the entry depends on the value alone, so the ids can be paired with the entries at once
  choose read hread using hread
  have hrules := addEntries_of_ofValue hid (fun g hg rule ↦ RuleEntry.ofValue_eq_ok_iff.mpr
    ⟨h.values g hg, hread g.2 (h.values g hg)⟩) []
  set pairs := (givenRules entries).map fun g ↦ (id g.1, read g.2) with hpairs
  refine ⟨⟨Assoc.ofList pairs, patterns⟩, ?_, hid, hpatterns, ?_,
    fun before key v after heq hlast ↦ ?_⟩
  · have hkeys := Value.keysBut_eq_nil_iff.mpr h.keys
    refine bind_eq_ok_iff.mpr ⟨⟨⟩, refuseKeys_eq_ok_iff.mpr hkeys, ?_⟩
    refine bind_eq_ok_iff.mpr ⟨_, rulesMapping_eq_ok_iff.mpr ⟨h.rules, rfl⟩, ?_⟩
    refine bind_eq_ok_iff.mpr ⟨_, ignorePatterns_of_givesPatterns hpatterns, ?_⟩
    exact bind_eq_ok_iff.mpr ⟨_, hrules, rfl⟩
  · rw [Assoc.keys_ofList, hpairs, List.map_map]
    rfl
  · have hmem : (key, v) ∈ givenRules entries :=
      heq ▸ List.mem_append_right before List.mem_cons_self
    refine ⟨read v, ?_, hread v (h.values _ hmem)⟩
    unfold entry?
    rw [hpairs, heq, List.map_append, List.map_cons]
    exact Assoc.lookup_ofList_of_last (by simpa [List.map_map] using hlast)

/-- A mapping that is read has the form, and its rules' keys can be written. -/
theorem schema_of_ofMapping {config : Config} (h : ofMapping entries = .ok config) :
    Schema entries ∧ ∀ given ∈ givenRules entries, given.1.Writable := by
  obtain ⟨_, hkeys, h⟩ := bind_eq_ok_iff.mp h
  obtain ⟨given, hgiven, h⟩ := bind_eq_ok_iff.mp h
  obtain ⟨patterns, hpatterns, h⟩ := bind_eq_ok_iff.mp h
  obtain ⟨rules, hrules, -⟩ := bind_eq_ok_iff.mp h
  obtain ⟨hmapping, rfl⟩ := rulesMapping_eq_ok_iff.mp hgiven
  refine ⟨?_, fun given hgiven ↦ (of_addEntries hrules given hgiven).1⟩
  exact
    { keys := Value.keysBut_eq_nil_iff.mp (refuseKeys_eq_ok_iff.mp hkeys)
      rules := hmapping
      ignore := exists_givesPatterns_iff.mp ⟨patterns, ignorePatterns_eq_ok_iff.mp hpatterns⟩
      values := fun given hgiven ↦ (of_addEntries hrules given hgiven).2 }

/-- Ids in order and last values leave no choice. -/
theorem Described.unique {id : Value → String} {config other : Config}
    (h : Described entries id config) (hother : Described entries id other) : config = other := by
  obtain ⟨rules, ignore⟩ := config
  obtain ⟨rules', ignore'⟩ := other
  have hignore : ignore = ignore' := Except.ok.inj <|
    (ignorePatterns_of_givesPatterns h.ignore).symm.trans
      (ignorePatterns_of_givesPatterns hother.ignore)
  have hrules : rules = rules' := by
    refine Assoc.ext_of_lookup (h.ids ▸ Assoc.nodup_eraseDups _) (h.ids.trans hother.ids.symm) ?_
    intro i hi
    rw [h.ids, List.mem_eraseDups] at hi
    -- both configurations describe the last value that is given for the id
    obtain ⟨before, ⟨key, v⟩, after, hgiven, rfl, hlast⟩ := Assoc.exists_last_of_mem hi
    obtain ⟨entry, hentry, hv⟩ := h.entry before key v after hgiven hlast
    obtain ⟨entry', hentry', hv'⟩ := hother.entry before key v after hgiven hlast
    unfold entry? at hentry hentry'
    rw [hentry, hentry', hv.unique hv']
  rw [hignore, hrules]

/-- Keys that can be written have texts. -/
theorem exists_rendered (h : ∀ given ∈ givenRules entries, given.1.Writable) :
    ∃ id : Value → String, ∀ given ∈ givenRules entries, given.1.RenderedAs (id given.1) := by
  have htext (v : Value) : ∃ text, v.Writable → v.RenderedAs text := by
    by_cases hv : v.Writable
    · obtain ⟨text, htext⟩ := Value.exists_renderedAs_iff.mpr hv
      exact ⟨text, fun _ ↦ htext⟩
    · exact ⟨"", fun hwritable ↦ absurd hwritable hv⟩
  choose id hid using htext
  exact ⟨id, fun given hgiven ↦ hid given.1 (h given hgiven)⟩

/-- A mapping is read exactly if it has the form and its rules' keys can be written. -/
theorem exists_ofMapping_iff :
    (∃ config, ofMapping entries = .ok config) ↔
      Schema entries ∧ ∀ given ∈ givenRules entries, given.1.Writable := by
  constructor
  · rintro ⟨config, h⟩
    exact schema_of_ofMapping h
  · rintro ⟨hschema, hwritable⟩
    obtain ⟨id, hid⟩ := exists_rendered hwritable
    obtain ⟨config, hconfig, -⟩ := exists_described hschema hid
    exact ⟨config, hconfig⟩

/-- A mapping is read as a configuration exactly if it has the form and describes it. -/
theorem ofMapping_eq_ok_iff {config : Config} :
    ofMapping entries = .ok config ↔ Schema entries ∧ ∃ id, Described entries id config := by
  constructor
  · intro h
    obtain ⟨hschema, hwritable⟩ := schema_of_ofMapping h
    obtain ⟨id, hid⟩ := exists_rendered hwritable
    obtain ⟨other, hother, hdescribed⟩ := exists_described hschema hid
    cases h.symm.trans hother
    exact ⟨hschema, id, hdescribed⟩
  · rintro ⟨hschema, id, hdescribed⟩
    obtain ⟨other, hother, hdescribed'⟩ := exists_described hschema hdescribed.rendered
    rw [hother, hdescribed.unique hdescribed']

/-- A mapping is read as a configuration exactly if it has the documented form and the keys of its
rules can be written, and the configuration is the one that it describes. A rule's value is read in
the same way whatever the rule, and an entry written out in full is read back. -/
theorem mapping_is_configuration_iff_schema (entries : List (Value × Value)) :
    ((∃ config, ofMapping entries = .ok config) ↔
      Schema entries ∧ ∀ given ∈ givenRules entries, given.1.Writable) ∧
    (∀ config, ofMapping entries = .ok config ↔
      Schema entries ∧ ∃ id, Described entries id config) ∧
    (∀ rule v entry,
      RuleEntry.ofValue rule v = .ok entry ↔ v.FitsRule ∧ v.Describes entry) ∧
    ∀ rule (entry : RuleEntry),
      RuleEntry.ofValue rule (.map [(.str "enabled", .bool entry.enabled),
        (.str "options", .list entry.options)]) = .ok entry :=
  ⟨exists_ofMapping_iff, fun _ ↦ ofMapping_eq_ok_iff, fun _ _ _ ↦ RuleEntry.ofValue_eq_ok_iff,
    RuleEntry.ofValue_written⟩

/-- The switch and the text are one id: it stands where the switch stood, with the text's value. -/
example : ofMapping [(.str "rules", .map [(.bool true, .bool false), (.str "b", .null),
      (.str "True", .str "even")]), (.str "ignore", .str "dist")] =
    .ok ⟨[("True", ⟨true, [.str "even"]⟩), ("b", ⟨true, []⟩)], ["dist"]⟩ := by
  cbv

/-- A mapping with one rule, all at its default. -/
def oneRule (key : Value) : List (Value × Value) := [(.str "rules", .map [(key, .null)])]

theorem schema_oneRule (key : Value) : Schema (oneRule key) where
  keys := List.forall_mem_singleton.mpr (Or.inl rfl)
  rules := by
    rintro v ⟨⟩
    exact Or.inr ⟨_, rfl⟩
  ignore := by rintro v ⟨⟩
  values := List.forall_mem_singleton.mpr nofun

/-- A key that cannot be written breaks reading off. -/
theorem ofMapping_oneRule {key : Value} (h : ¬key.Writable) :
    ofMapping (oneRule key) = .error (.tooManyDigits .inWhole) := by
  have hrules : addEntries [] [(key, .null)] = .error (.tooManyDigits .inWhole) := by
    rw [addEntries, Value.plain_eq_error h]
  change (addEntries [] [(key, .null)] >>= fun rules ↦ Except.ok (Config.mk rules [])) = _
  rw [hrules]
  rfl

/-- A mapping of the documented form that is no configuration: its rule has a number of one digit
more than can be written for a key. -/
theorem long_key_is_no_configuration :
    let entries := oneRule (.int (10 ^ Value.digitLimit : Nat))
    Schema entries ∧ ∀ config, ofMapping entries ≠ .ok config := by
  intro entries
  have hlong : ¬Value.Writable (.int (10 ^ Value.digitLimit : Nat)) := fun hwritable ↦ by
    have hlength := hwritable _ (.int _)
    rw [Int.natAbs_natCast] at hlength
    exact Nat.lt_irrefl _ ((Nat.length_toDigits_le_iff (by decide) (by decide)).mp hlength)
  refine ⟨schema_oneRule _, fun config hconfig ↦ ?_⟩
  cases (ofMapping_oneRule hlong).symm.trans hconfig

end Config

end BracketSpacing
