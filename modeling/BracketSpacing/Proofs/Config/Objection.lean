import BracketSpacing.Proofs.Config
import BracketSpacing.Proofs.Value.Order

/-!
What is said of a mapping that is no configuration. `Told` gives the text, that of the first thing
that is wrong: unknown keys, named in order; `rules` or `ignore` of another kind; or the first rule
whose value does not fit. `Breaks` gives the causes for which reading breaks off instead: unknown
keys that cannot be compared, and a number that is too long to be written. A mapping is a
configuration, is told of or breaks reading off (`ofMapping_cases`), and reading does as these say
(`ofMapping_of_told`, `ofMapping_of_breaks`).
-/

set_option autoImplicit false
set_option relaxedAutoImplicit false

namespace BracketSpacing

/-- Either all members have a property, or there is a first one that has not. -/
theorem forall_mem_or_first {α : Type} (p : α → Prop) [DecidablePred p] (xs : List α) :
    (∀ x ∈ xs, p x) ∨
      ∃ before x after, xs = before ++ x :: after ∧ (∀ b ∈ before, p b) ∧ ¬ p x := by
  cases h : xs.find? (fun x ↦ !decide (p x)) with
  | none => exact Or.inl (by simpa using h)
  | some x =>
    obtain ⟨hx, before, after, heq, hbefore⟩ := List.find?_eq_some_iff_append.mp h
    exact Or.inr ⟨before, x, after, heq, by simpa using hbefore, by simpa using hx⟩

namespace Config

/-! ### Unknown keys -/

/-- Unknown keys are shown in order. -/
inductive KeysTold (keys : List Value) : String → Prop
  | named {sorted : List Value} {shown : String} (some : keys ≠ [])
    (sorts : Value.Sorts keys sorted) (shows : Value.ShownAs (.list sorted) shown) :
    KeysTold keys shown

/-- Unknown keys that cannot be shown in order: two of them cannot be compared, or a number in them
is too long. -/
inductive KeysBreak (keys : List Value) : Error → Prop
  | unordered {e : Value.Incomparable} (fails : Value.sortKeys keys = .error e)
    (pair : ∃ a ∈ keys, ∃ b ∈ keys, Value.before a b = .error e) : KeysBreak keys (.unordered e)
  | tooLong {sorted : List Value} (sorts : Value.Sorts keys sorted)
    (long : ∃ key ∈ keys, ¬key.Writable) : KeysBreak keys (.tooManyDigits .inWhole)

section Keys

variable {keys : List Value} (error : String → Error)

/-- Unknown keys are refused by their text. -/
theorem KeysTold.refuseKeys_eq {shown : String} (h : KeysTold keys shown) :
    refuseKeys keys error = .error (error shown) := by
  obtain ⟨hsome, hsorts, hshows⟩ := h
  rw [refuseKeys, if_neg (by simpa using hsome), hsorts.found]
  dsimp only
  rw [Value.shown_eq_ok_iff.mpr hshows]

/-- Unknown keys that cannot be shown break reading off. -/
theorem KeysBreak.refuseKeys_eq {e : Error} (h : KeysBreak keys e) :
    refuseKeys keys error = .error e := by
  cases h with
  | unordered fails pair =>
    obtain ⟨a, ha, -⟩ := pair
    rw [refuseKeys, if_neg (by simpa using List.ne_nil_of_mem ha), fails]
  | @tooLong sorted sorts long =>
    obtain ⟨key, hkey, hlong⟩ := long
    have hsorted : ¬Value.Writable (.list sorted) := fun hwritable ↦
      hlong fun i hi ↦ hwritable i (.list (sorts.perm.mem_iff.mpr hkey) hi)
    rw [refuseKeys, if_neg (by simpa using List.ne_nil_of_mem hkey), sorts.found]
    dsimp only
    rw [Value.shown_eq_error hsorted]

end Keys

/-- Unknown keys are absent, told or break reading off. -/
theorem keys_cases (keys : List Value) :
    keys = [] ∨ (∃ shown, KeysTold keys shown) ∨ ∃ e, KeysBreak keys e := by
  by_cases hnone : keys = []
  · exact Or.inl hnone
  right
  cases hsort : Value.sortKeys keys with
  | error e => exact Or.inr ⟨_, .unordered hsort (Value.exists_of_sortKeys hsort)⟩
  | ok sorted =>
    have hsorts := Value.sorts_of_sortKeys hsort
    by_cases hlong : ∃ key ∈ keys, ¬key.Writable
    · exact Or.inr ⟨_, .tooLong hsorts hlong⟩
    · push Not at hlong
      have hwritable : Value.Writable (.list sorted) := fun i hi ↦ by
        cases hi with
        | list hitem hi => exact hlong _ (hsorts.perm.mem_iff.mp hitem) i hi
      obtain ⟨shown, hshown⟩ := hwritable.exists_shownAs
      exact Or.inl ⟨shown, .named hnone hsorts hshown⟩

/-! ### A rule's value -/

/-- What is said of a rule's value. -/
inductive EntryTold (id : String) : Value → String → Prop
  | unknownKeys {entries : List (Value × Value)} {shown : String}
    (keys : KeysTold (Value.keysBut "enabled" "options" entries) shown) :
    EntryTold id (.map entries) s!"rules.{id}: unknown keys {shown}"
  | enabled {entries : List (Value × Value)} {e : Value}
    (keys : Value.KeysAmong "enabled" "options" entries)
    (present : Value.lookup "enabled" entries = some e) (other : ∀ b, e ≠ .bool b) :
    EntryTold id (.map entries) s!"rules.{id}.enabled must be a boolean"

/-- A rule's value with unknown keys that cannot be shown. -/
inductive EntryBreaks : Value → Error → Prop
  | unknownKeys {entries : List (Value × Value)} {e : Error}
    (keys : KeysBreak (Value.keysBut "enabled" "options" entries) e) : EntryBreaks (.map entries) e

/-- What is said of a rule's value is the error of reading it. -/
theorem EntryTold.ofValue_eq {id text : String} {v : Value} (h : EntryTold id v text) :
    ∃ e, RuleEntry.ofValue id v = .error e ∧ e.isUserError = true ∧ e.message = text := by
  cases h with
  | @unknownKeys entries shown keys =>
    refine ⟨.entryUnknownKeys id shown, ?_, rfl, rfl⟩
    rw [RuleEntry.ofValue, RuleEntry.ofMapping, keys.refuseKeys_eq]
    rfl
  | @enabled entries e keys present other =>
    refine ⟨.enabledNotBoolean id, ?_, rfl, rfl⟩
    have hkeys : refuseKeys (Value.keysBut "enabled" "options" entries) (.entryUnknownKeys id) =
        .ok ⟨⟩ := refuseKeys_eq_ok_iff.mpr (Value.keysBut_eq_nil_iff.mpr keys)
    rw [RuleEntry.ofValue, RuleEntry.ofMapping, hkeys, present, Option.getD_some]
    cases e with
    | bool b => exact absurd rfl (other b)
    | _ => rfl

theorem EntryBreaks.ofValue_eq {v : Value} {e : Error} (h : EntryBreaks v e) (id : String) :
    RuleEntry.ofValue id v = .error e := by
  obtain ⟨keys⟩ := h
  rw [RuleEntry.ofValue, RuleEntry.ofMapping, keys.refuseKeys_eq]
  rfl

/-- A rule's value fits, is told of or breaks reading off. -/
theorem entry_cases (id : String) (v : Value) :
    v.FitsRule ∨ (∃ text, EntryTold id v text) ∨ ∃ e, EntryBreaks v e := by
  by_cases hmap : ∃ entries, v = .map entries
  · obtain ⟨entries, rfl⟩ := hmap
    obtain hkeys | ⟨shown, htold⟩ | ⟨e, hbreaks⟩ :=
      keys_cases (Value.keysBut "enabled" "options" entries)
    · have hamong := Value.keysBut_eq_nil_iff.mp hkeys
      by_cases hswitch : ∀ e, Value.lookup "enabled" entries = some e → ∃ b, e = .bool b
      · refine Or.inl fun _ heq ↦ ?_
        cases heq
        exact ⟨hamong, hswitch⟩
      · push Not at hswitch
        obtain ⟨e, hpresent, hother⟩ := hswitch
        exact Or.inr (Or.inl ⟨_, .enabled hamong hpresent hother⟩)
    · exact Or.inr (Or.inl ⟨_, .unknownKeys htold⟩)
    · exact Or.inr (Or.inr ⟨e, .unknownKeys hbreaks⟩)
  · exact Or.inl fun entries heq ↦ absurd ⟨entries, heq⟩ hmap

/-! ### A mapping -/

/-- The keys and what is under `rules` and `ignore` are as they should be, and so are the rules
before one. -/
structure FitsBefore (entries before : List (Value × Value)) : Prop where
  keys : Value.KeysAmong "rules" "ignore" entries
  rules : RulesFit entries
  ignore : IgnoreFits entries
  before : ∀ given ∈ before, given.1.Writable ∧ given.2.FitsRule

/-- What is said of a mapping. -/
inductive Told (entries : List (Value × Value)) : String → Prop
  | unknownKeys {shown : String} (keys : KeysTold (Value.keysBut "rules" "ignore" entries) shown) :
    Told entries s!"Unknown config keys: {shown}"
  | rules (keys : Value.KeysAmong "rules" "ignore" entries) (other : ¬RulesFit entries) :
    Told entries "'rules' must be a mapping of rule id to options"
  | ignore (keys : Value.KeysAmong "rules" "ignore" entries) (rules : RulesFit entries)
    (other : ¬IgnoreFits entries) : Told entries "'ignore' must be a list of patterns"
  | entry {before after : List (Value × Value)} {key v : Value} {id text : String}
    (fits : FitsBefore entries before) (given : givenRules entries = before ++ (key, v) :: after)
    (rendered : key.RenderedAs id) (told : EntryTold id v text) : Told entries text

/-- The causes for which reading a mapping breaks off. -/
inductive Breaks (entries : List (Value × Value)) : Error → Prop
  | unknownKeys {e : Error} (keys : KeysBreak (Value.keysBut "rules" "ignore" entries) e) :
    Breaks entries e
  | longKey {before after : List (Value × Value)} {key v : Value}
    (fits : FitsBefore entries before) (given : givenRules entries = before ++ (key, v) :: after)
    (long : ¬key.Writable) : Breaks entries (.tooManyDigits .inWhole)
  | entry {before after : List (Value × Value)} {key v : Value} {e : Error}
    (fits : FitsBefore entries before) (given : givenRules entries = before ++ (key, v) :: after)
    (writable : key.Writable) (breaks : EntryBreaks v e) : Breaks entries e

variable {entries : List (Value × Value)}

/-- Rules of another kind are refused. -/
theorem rulesMapping_of_not_fit (h : ¬RulesFit entries) :
    rulesMapping (Value.lookup "rules" entries) = .error .rulesNotMapping := by
  unfold RulesFit at h
  push Not at h
  obtain ⟨v, hv, htruthy, hmap⟩ := h
  unfold rulesMapping
  rw [hv]
  dsimp only
  rw [if_neg (by simpa using htruthy)]
  split
  next given => exact absurd rfl (hmap given)
  next => rfl

/-- Patterns of another kind are refused. -/
theorem ignorePatterns_of_not_fit (h : ¬IgnoreFits entries) :
    ignorePatterns (Value.lookup "ignore" entries) = .error .ignoreNotPatterns := by
  cases hpatterns : ignorePatterns (Value.lookup "ignore" entries) with
  | ok patterns =>
    exact absurd (exists_givesPatterns_iff.mp ⟨_, ignorePatterns_eq_ok_iff.mp hpatterns⟩) h
  | error e =>
    unfold ignorePatterns at hpatterns
    split at hpatterns
    next => cases hpatterns
    next =>
      split_ifs at hpatterns
      split at hpatterns
      next => cases hpatterns
      next =>
        split_ifs at hpatterns
        cases hpatterns
        rfl
      next =>
        cases hpatterns
        rfl

/-- Rules that fit are added, and the rest is added to them. -/
theorem exists_addEntries_append {before : List (Value × Value)}
    (h : ∀ given ∈ before, given.1.Writable ∧ given.2.FitsRule)
    (rules : List (String × RuleEntry)) :
    ∃ more, ∀ rest, addEntries rules (before ++ rest) = addEntries more rest := by
  induction before generalizing rules with
  | nil => exact ⟨rules, fun _ ↦ rfl⟩
  | cons given before ih =>
    obtain ⟨key, v⟩ := given
    rw [List.forall_mem_cons] at h
    obtain ⟨id, hid⟩ := Value.exists_renderedAs_iff.mpr h.1.1
    obtain ⟨entry, hentry⟩ := RuleEntry.exists_ofValue id h.1.2
    obtain ⟨more, hmore⟩ := ih h.2 (Assoc.put id entry rules)
    refine ⟨more, fun rest ↦ ?_⟩
    rw [List.cons_append, addEntries, Value.plain_eq_ok_iff.mpr hid]
    dsimp only
    rw [hentry]
    exact hmore rest

/-- Reading comes to the first rule that does not fit. -/
theorem FitsBefore.ofMapping_eq {before after : List (Value × Value)} {key v : Value} {e : Error}
    (h : FitsBefore entries before) (hgiven : givenRules entries = before ++ (key, v) :: after)
    (herror : ∀ rules, addEntries rules ((key, v) :: after) = .error e) :
    ofMapping entries = .error e := by
  have hkeys : refuseKeys (Value.keysBut "rules" "ignore" entries) .unknownKeys = .ok ⟨⟩ :=
    refuseKeys_eq_ok_iff.mpr (Value.keysBut_eq_nil_iff.mpr h.keys)
  have hrules := rulesMapping_eq_ok_iff.mpr ⟨h.rules, hgiven⟩
  obtain ⟨patterns, hpatterns⟩ := exists_givesPatterns_iff.mpr h.ignore
  obtain ⟨more, hmore⟩ := exists_addEntries_append h.before []
  rw [ofMapping, hkeys, hrules, ignorePatterns_of_givesPatterns hpatterns]
  change (addEntries [] (before ++ (key, v) :: after) >>= _) = _
  rw [hmore, herror]
  rfl

/-- What is said of a mapping is the error of reading it, one for the user. -/
theorem ofMapping_of_told {text : String} (h : Told entries text) :
    ∃ e, ofMapping entries = .error e ∧ e.isUserError = true ∧ e.message = text := by
  have hkeys (hamong : Value.KeysAmong "rules" "ignore" entries) :
      refuseKeys (Value.keysBut "rules" "ignore" entries) .unknownKeys = .ok ⟨⟩ :=
    refuseKeys_eq_ok_iff.mpr (Value.keysBut_eq_nil_iff.mpr hamong)
  cases h with
  | @unknownKeys shown keys =>
    refine ⟨.unknownKeys shown, ?_, rfl, rfl⟩
    rw [ofMapping, keys.refuseKeys_eq]
    rfl
  | rules keys other =>
    refine ⟨.rulesNotMapping, ?_, rfl, rfl⟩
    rw [ofMapping, hkeys keys, rulesMapping_of_not_fit other]
    rfl
  | ignore keys rules other =>
    refine ⟨.ignoreNotPatterns, ?_, rfl, rfl⟩
    rw [ofMapping, hkeys keys, rulesMapping_eq_ok_iff.mpr ⟨rules, rfl⟩,
      ignorePatterns_of_not_fit other]
    rfl
  | entry fits given rendered told =>
    obtain ⟨e, hvalue, huser, hmessage⟩ := told.ofValue_eq
    refine ⟨e, fits.ofMapping_eq given fun rules ↦ ?_, huser, hmessage⟩
    rw [addEntries, Value.plain_eq_ok_iff.mpr rendered]
    dsimp only
    rw [hvalue]

theorem KeysBreak.isUserError {keys : List Value} {e : Error} (h : KeysBreak keys e) :
    e.isUserError = false := by
  cases h <;> rfl

/-- What breaks reading off is its error, none for the user. -/
theorem ofMapping_of_breaks {e : Error} (h : Breaks entries e) :
    ofMapping entries = .error e ∧ e.isUserError = false := by
  cases h with
  | unknownKeys keys =>
    refine ⟨?_, keys.isUserError⟩
    rw [ofMapping, keys.refuseKeys_eq]
    rfl
  | longKey fits given long =>
    refine ⟨fits.ofMapping_eq given fun rules ↦ ?_, rfl⟩
    rw [addEntries, Value.plain_eq_error long]
  | entry fits given writable breaks =>
    have huser : e.isUserError = false := by
      obtain ⟨keys⟩ := breaks
      exact keys.isUserError
    obtain ⟨id, hid⟩ := Value.exists_renderedAs_iff.mpr writable
    refine ⟨fits.ofMapping_eq given fun rules ↦ ?_, huser⟩
    rw [addEntries, Value.plain_eq_ok_iff.mpr hid]
    dsimp only
    rw [breaks.ofValue_eq]

/-- A mapping is a configuration, is told of or breaks reading off. -/
theorem ofMapping_cases (entries : List (Value × Value)) :
    (∃ config, ofMapping entries = .ok config) ∨ (∃ text, Told entries text) ∨
      ∃ e, Breaks entries e := by
  classical
  obtain hkeys | ⟨shown, htold⟩ | ⟨e, hbreaks⟩ :=
    keys_cases (Value.keysBut "rules" "ignore" entries)
  · have hamong := Value.keysBut_eq_nil_iff.mp hkeys
    by_cases hrules : RulesFit entries
    · by_cases hignore : IgnoreFits entries
      · rcases forall_mem_or_first (fun given : Value × Value ↦
          given.1.Writable ∧ given.2.FitsRule) (givenRules entries) with
          hall | ⟨before, ⟨key, v⟩, after, hgiven, hbefore, hfirst⟩
        · exact Or.inl (exists_ofMapping_iff.mpr
            ⟨⟨hamong, hrules, hignore, fun given hgiven ↦ (hall given hgiven).2⟩,
              fun given hgiven ↦ (hall given hgiven).1⟩)
        · have hfits : FitsBefore entries before := ⟨hamong, hrules, hignore, hbefore⟩
          by_cases hwritable : key.Writable
          · obtain ⟨id, hid⟩ := Value.exists_renderedAs_iff.mpr hwritable
            obtain hv | ⟨text, htext⟩ | ⟨e, he⟩ := entry_cases id v
            · exact absurd ⟨hwritable, hv⟩ hfirst
            · exact Or.inr (Or.inl ⟨text, .entry hfits hgiven hid htext⟩)
            · exact Or.inr (Or.inr ⟨e, .entry hfits hgiven hwritable he⟩)
          · exact Or.inr (Or.inr ⟨_, .longKey hfits hgiven hwritable⟩)
      · exact Or.inr (Or.inl ⟨_, .ignore hamong hrules hignore⟩)
    · exact Or.inr (Or.inl ⟨_, .rules hamong hrules⟩)
  · exact Or.inr (Or.inl ⟨_, .unknownKeys htold⟩)
  · exact Or.inr (Or.inr ⟨e, .unknownKeys hbreaks⟩)

end Config

end BracketSpacing
