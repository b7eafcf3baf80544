import BracketSpacing.Proofs.ConfigFile
import BracketSpacing.Proofs.Lint

/-!
The rules in force as a function of registry, configuration and overrides. Every registered id has
one entry, that of its override, or else the configured one, or else the default; the rules are
those of the ids whose entry is enabled, by increasing id (`built_of_registered`). So an override is
the same as a configured entry (`built_withOverrides`), and entries of ids that nobody registered do
nothing (`built_congr`). `rules_follow_registry_config_and_overrides` says so after any calls.
-/

set_option autoImplicit false
set_option relaxedAutoImplicit false

namespace BracketSpacing

/-! ### Entries -/

/-- The configuration with each overridden id enabled and given its one option. -/
def Config.withOverrides (config : Config) (overrides : List (String × String)) : Config where
  rules := overrides.foldr
    (fun override rules ↦ Assoc.put override.1 ⟨true, [.str override.2]⟩ rules) config.rules
  ignore := config.ignore

/-- An override written into the configuration takes the place of the configured entry. -/
theorem Config.entry?_withOverrides (config : Config) (overrides : List (String × String))
    (id : String) :
    Config.entry? (config.withOverrides overrides) id =
      ((overrides.lookup id).map fun option ↦ ⟨true, [.str option]⟩).or
        (config.entry? id) := by
  induction overrides with
  | nil => rfl
  | cons override rest ih =>
    obtain ⟨key, option⟩ := override
    change (Assoc.put key _ (config.withOverrides rest).rules).lookup id = _
    by_cases hid : id = key
    · subst hid
      rw [Assoc.lookup_put_self, Assoc.lookup_cons_eq_if, if_pos rfl]
      rfl
    · rw [Assoc.lookup_put_of_ne hid, Assoc.lookup_cons_eq_if, if_neg (Ne.symm hid)]
      exact ih

/-- What loading gives for an id says this id. -/
theorem Registry.id_of_fromScratch {c : Catalogue} {id : String} {r : Option Registration}
    {d : RuleDefinition} (h : fromScratch c id r = .ok d) : d.info.id = id := by
  cases r with
  | none => cases h
  | some r =>
    cases hload : c.load r.module r.name id with
    | error e =>
      rw [fromScratch, hload] at h
      cases h
    | ok d' =>
      rw [fromScratch, hload] at h
      cases h
      exact (Catalogue.load_eq_ok hload).1

theorem Registry.mem_of_latest? {calls : List Call} {id : String} {r : Registration}
    (h : latest? id calls = some r) : .register id r ∈ calls := by
  obtain ⟨call, hcall, hr⟩ := List.exists_of_findSome?_eq_some h
  rw [← registration?_eq_some.mp hr]
  exact List.mem_reverse.mp hcall

/-- Every id listed after some calls can be had, if its latest registration loads. -/
theorem Registry.available_after {c : Catalogue} {calls : List Call} {id : String}
    (hload : ∀ id r, latest? id calls = some r → ∃ d, c.load r.module r.name id = .ok d)
    (hid : id ∈ (after c calls).ids) : Session.Available c (after c calls).registrations id := by
  rw [Session.Available, lookup_registrations_after]
  cases hlatest : latest? id calls with
  | none =>
    obtain ⟨r, hr⟩ := mem_ids_after.mp hid
    exact absurd hr (latest?_eq_none_iff.mp hlatest r)
  | some r =>
    obtain ⟨d, hd⟩ := hload id r hlatest
    exact ⟨d, by rw [fromScratch, hd]; rfl⟩

namespace Ruleset

variable {config : Config} {overrides : List (String × String)} {id : String}

/-- An override switches its rule on with its option alone. -/
theorem entryFor_of_override {option : String} (h : overrides.lookup id = some option) :
    entryFor config overrides id = ⟨true, [.str option]⟩ := by
  rw [entryFor, h]

/-- Without an override the configured entry counts, or else the default. -/
theorem entryFor_of_none (h : overrides.lookup id = none) :
    entryFor config overrides id = (config.entry? id).getD {} := by
  rw [entryFor, h]

/-- An override is the matching entry of the configuration. -/
theorem entryFor_withOverrides (config : Config) (overrides : List (String × String))
    (id : String) :
    entryFor (config.withOverrides overrides) [] id = entryFor config overrides id := by
  rw [entryFor_of_none rfl, Config.entry?_withOverrides]
  cases h : overrides.lookup id with
  | none => rw [entryFor_of_none h, Option.map_none, Option.none_or]
  | some option => rw [entryFor_of_override h, Option.map_some, Option.some_or, Option.getD_some]

/-- The options are those of the override, or else the configured ones, or else none. -/
theorem options_entryFor :
    (entryFor config overrides id).options =
      match overrides.lookup id, config.entry? id with
      | some option, _ => [.str option]
      | none, some entry => entry.options
      | none, none => [] := by
  cases h : overrides.lookup id with
  | some option => rw [entryFor_of_override h]
  | none =>
    rw [entryFor_of_none h]
    cases config.entry? id <;> rfl

/-- A rule is switched off only by a configured entry that no override replaces. -/
theorem enabled_entryFor_iff :
    (entryFor config overrides id).enabled = true ↔
      id ∈ overrides.map (·.1) ∨ ∀ entry, config.entry? id = some entry → entry.enabled = true := by
  cases h : overrides.lookup id with
  | some option =>
    have hmem : id ∈ overrides.map (·.1) := List.mem_map.mpr ⟨_, Assoc.mem_of_lookup h, rfl⟩
    simp [entryFor_of_override h, hmem]
  | none =>
    rw [entryFor_of_none h, or_iff_right (Assoc.lookup_eq_none_iff_notMem.mp h)]
    cases config.entry? id <;> simp

/-! ### Rules -/

section Rules

variable {c : Catalogue} {registrations : List (String × Registration)}

/-- A rule is in force for an id that is switched on, with the options of its entry. -/
theorem ruleFor?_eq_some_iff {rule : Rule} :
    ruleFor? c registrations config overrides id = some rule ↔
      (entryFor config overrides id).enabled = true ∧
        Registry.fromScratch c id (registrations.lookup id) = .ok rule.definition ∧
        rule.options = (entryFor config overrides id).options := by
  obtain ⟨definition, options⟩ := rule
  cases henabled : (entryFor config overrides id).enabled with
  | false => simp [ruleFor?_of_disabled henabled]
  | true =>
    cases hd : Registry.fromScratch c id (registrations.lookup id) with
    | error e => simp [ruleFor?, hd, Except.toOption]
    | ok d => simp [ruleFor?_of_enabled henabled hd, eq_comm]

/-- A rule has the id under which it is registered, as loading makes sure. -/
theorem id_of_ruleFor? {rule : Rule}
    (h : ruleFor? c registrations config overrides id = some rule) : rule.id = id := by
  obtain ⟨-, hd, -⟩ := ruleFor?_eq_some_iff.mp h
  exact Registry.id_of_fromScratch hd

/-- The rules in force have the ids that are switched on, in their order. -/
theorem map_id_filterMap_ruleFor? {ids : List String}
    (h : ∀ id ∈ ids, Session.Available c registrations id) :
    (ids.filterMap (ruleFor? c registrations config overrides)).map Rule.id =
      ids.filter fun id ↦ (entryFor config overrides id).enabled := by
  induction ids with
  | nil => rfl
  | cons id rest ih =>
    rw [List.forall_mem_cons] at h
    obtain ⟨d, hd⟩ := h.1
    cases henabled : (entryFor config overrides id).enabled with
    | false =>
      rw [List.filterMap_cons_none (ruleFor?_of_disabled henabled),
        List.filter_cons_of_neg (by simp [henabled]), ih h.2]
    | true =>
      have hrule := ruleFor?_of_enabled henabled hd
      rw [List.filterMap_cons_some hrule, List.filter_cons_of_pos (by simp [henabled]),
        List.map_cons, id_of_ruleFor? hrule, ih h.2]

/-- The rules look at the entries of the ids only. -/
theorem filterMap_ruleFor?_congr {config' : Config} {overrides' : List (String × String)}
    {ids : List String}
    (h : ∀ id ∈ ids, entryFor config overrides id = entryFor config' overrides' id) :
    ids.filterMap (ruleFor? c registrations config overrides) =
      ids.filterMap (ruleFor? c registrations config' overrides') := by
  refine List.filterMap_congr fun id hid ↦ ?_
  rw [ruleFor?, ruleFor?, h id hid]

end Rules

/-! ### Building -/

/-- What building the rules gives, from a registry as it is. -/
def built (c : Catalogue) (reg : Registry) (config : Config) (overrides : List (String × String)) :
    Except Registry.Error (List Rule) :=
  SessionM.outcome (build c config overrides) { registry := reg }

section Built

variable {c : Catalogue} {reg : Registry}

theorem inOrder_of_coherent (hreg : reg.Coherent c) :
    Session.InOrder c reg.registrations { registry := reg } := ⟨hreg, rfl, nofun⟩

/-- With every override registered, the rules are those of the ids in order. -/
theorem built_of_registered (hreg : reg.Coherent c)
    (hload : ∀ id ∈ reg.ids, Session.Available c reg.registrations id)
    (h : ∀ id ∈ overrides.map (·.1), id ∈ reg.ids) :
    built c reg config overrides =
      .ok (reg.ids.filterMap (ruleFor? c reg.registrations config overrides)) :=
  (gives_build config (fun id hid ↦ hload id (Registry.mem_ids.mpr hid))
    (fun id hid ↦ hload id (h id hid)) _ (inOrder_of_coherent hreg)).1

/-- The first override that is not registered decides. -/
theorem built_of_unregistered (hreg : reg.Coherent c)
    (hload : ∀ id ∈ reg.ids, Session.Available c reg.registrations id)
    {known rest : List String} (hids : overrides.map (·.1) = known ++ id :: rest)
    (hknown : ∀ k ∈ known, k ∈ reg.ids) (hid : id ∉ reg.ids) :
    built c reg config overrides = .error (.unknown id) := by
  have hunknown : Registry.fromScratch c id (reg.registrations.lookup id) =
      .error (.unknown id) := by
    rw [Assoc.lookup_eq_none_iff_notMem.mpr (mt Registry.mem_ids.mpr hid), Registry.fromScratch]
  exact (gives_build_error config hids (fun k hk ↦ hload k (hknown k hk)) hunknown _
    (inOrder_of_coherent hreg)).1

/-- Building fails for the first override of an unknown id, and for nothing else. -/
theorem built_eq_unknown_iff (hreg : reg.Coherent c)
    (hload : ∀ id ∈ reg.ids, Session.Available c reg.registrations id) :
    built c reg config overrides = .error (.unknown id) ↔
      ∃ known rest, overrides.map (·.1) = known ++ id :: rest ∧ (∀ k ∈ known, k ∈ reg.ids) ∧
        id ∉ reg.ids := by
  constructor
  · intro h
    rcases forall_mem_or_first (· ∈ reg.ids) (overrides.map (·.1)) with
      hall | ⟨known, first, rest, hids, hknown, hfirst⟩
    · rw [built_of_registered hreg hload hall] at h
      cases h
    · rw [built_of_unregistered hreg hload hids hknown hfirst] at h
      cases h
      exact ⟨known, rest, hids, hknown, hfirst⟩
  · rintro ⟨known, rest, hids, hknown, hid⟩
    exact built_of_unregistered hreg hload hids hknown hid

/-- Entries of ids that are not registered do nothing. -/
theorem built_congr (hreg : reg.Coherent c)
    (hload : ∀ id ∈ reg.ids, Session.Available c reg.registrations id) {other : Config}
    (h : ∀ id ∈ reg.ids, other.entry? id = config.entry? id) :
    built c reg other overrides = built c reg config overrides := by
  rcases forall_mem_or_first (· ∈ reg.ids) (overrides.map (·.1)) with
    hall | ⟨known, first, rest, hids, hknown, hfirst⟩
  · rw [built_of_registered hreg hload hall, built_of_registered hreg hload hall]
    congr 1
    refine filterMap_ruleFor?_congr fun id hid ↦ ?_
    rw [entryFor, entryFor, h id hid]
  · rw [built_of_unregistered hreg hload hids hknown hfirst,
      built_of_unregistered hreg hload hids hknown hfirst]

/-- Overrides do the same when they are written into the configuration. -/
theorem built_withOverrides (hreg : reg.Coherent c)
    (hload : ∀ id ∈ reg.ids, Session.Available c reg.registrations id)
    (h : ∀ id ∈ overrides.map (·.1), id ∈ reg.ids) :
    built c reg (config.withOverrides overrides) [] = built c reg config overrides := by
  rw [built_of_registered hreg hload h, built_of_registered hreg hload
    fun _ hid ↦ absurd hid List.not_mem_nil]
  congr 1
  exact filterMap_ruleFor?_congr fun id _ ↦ entryFor_withOverrides config overrides id

end Built

/-- From a registry whose registered rules all load, building fails for the first override of an id
that is not registered, and for nothing else. Otherwise it gives, by increasing id, the registered
rules that are overridden or not switched off, with the option of the override, or else the
configured options, or else none. Entries of other ids do nothing, and overriding is the same as
configuring. -/
theorem rules_follow_registry_config_and_overrides (c : Catalogue) (calls : List Registry.Call)
    (hload : ∀ id r, Registry.latest? id calls = some r →
      ∃ d, c.load r.module r.name id = .ok d)
    (config : Config) (overrides : List (String × String)) :
    let reg := Registry.after c calls
    (∀ id, built c reg config overrides = .error (.unknown id) ↔
      ∃ known rest, overrides.map (·.1) = known ++ id :: rest ∧ (∀ k ∈ known, k ∈ reg.ids) ∧
        id ∉ reg.ids) ∧
    ((∀ id ∈ overrides.map (·.1), id ∈ reg.ids) → ∃ rules,
      built c reg config overrides = .ok rules ∧
      (rules.map Rule.id).Pairwise (· < ·) ∧
      (∀ id, id ∈ rules.map Rule.id ↔ id ∈ reg.ids ∧
        (id ∈ overrides.map (·.1) ∨
          ∀ entry, config.entry? id = some entry → entry.enabled = true)) ∧
      ∀ rule ∈ rules,
        Registry.fromScratch c rule.id (Registry.latest? rule.id calls) = .ok rule.definition ∧
        rule.options =
          match overrides.lookup rule.id, config.entry? rule.id with
          | some option, _ => [.str option]
          | none, some entry => entry.options
          | none, none => []) ∧
    (∀ other : Config, (∀ id ∈ reg.ids, other.entry? id = config.entry? id) →
      built c reg other overrides = built c reg config overrides) ∧
    ∀ rules, built c reg config overrides = .ok rules →
      built c reg (config.withOverrides overrides) [] = .ok rules := by
  intro reg
  have hreg : reg.Coherent c := Registry.coherent_after c calls
  have havailable (id : String) (hid : id ∈ reg.ids) :
      Session.Available c reg.registrations id := Registry.available_after hload hid
  refine ⟨fun id ↦ built_eq_unknown_iff hreg havailable, fun hall ↦ ?_,
    fun other hother ↦ built_congr hreg havailable hother, fun rules hrules ↦ ?_⟩
  · refine ⟨_, built_of_registered hreg havailable hall, ?_, fun id ↦ ?_, fun rule hrule ↦ ?_⟩
    · rw [map_id_filterMap_ruleFor? havailable]
      exact hreg.ids_increasing.filter _
    · rw [map_id_filterMap_ruleFor? havailable, List.mem_filter, enabled_entryFor_iff]
    · obtain ⟨id, -, hid⟩ := List.mem_filterMap.mp hrule
      rw [id_of_ruleFor? hid]
      obtain ⟨-, hdefinition, hoptions⟩ := ruleFor?_eq_some_iff.mp hid
      rw [← Registry.lookup_registrations_after c, hoptions, options_entryFor]
      exact ⟨hdefinition, rfl⟩
  · rcases forall_mem_or_first (· ∈ reg.ids) (overrides.map (·.1)) with
      hall | ⟨known, first, rest, hids, hknown, hfirst⟩
    · rw [built_withOverrides hreg havailable hall, hrules]
    · rw [built_of_unregistered hreg havailable hids hknown hfirst] at hrules
      cases hrules

/-- The linter's own modules and one more, with a rule of its own. -/
def ownerCatalogue : Catalogue where
  modules :=
    { path := ["owner"], offers := [("OwnerRule", .rule ownerRule.definition)] } ::
      Catalogue.builtin.modules

def ownerCalls : List Registry.Call :=
  [.register "owner" ⟨"owner", "OwnerRule"⟩,
    .register Spacing.ruleId ⟨".computed_property_spacing", Spacing.definition.name⟩]

/-- One rule with an option, one switched off, and an id that nobody registered. -/
def ownerConfig : Config where
  rules := [("owner", ⟨true, [.int 3]⟩), (Spacing.ruleId, ⟨false, []⟩), ("nobody", ⟨true, []⟩)]

/-- The override switches its rule on, as the entry in its place does. -/
theorem rules_follow_registry_config_and_overrides_of_ownerConfig :
    let reg := Registry.after ownerCatalogue ownerCalls
    let overrides := [(Spacing.ruleId, "even")]
    (∀ id r, Registry.latest? id ownerCalls = some r →
      ∃ d, ownerCatalogue.load r.module r.name id = .ok d) ∧
    (∀ id ∈ overrides.map (·.1), id ∈ reg.ids) ∧
    ∃ rules, built ownerCatalogue reg ownerConfig overrides = .ok rules ∧
      Spacing.ruleId ∈ rules.map Rule.id ∧ "owner" ∈ rules.map Rule.id ∧
      built ownerCatalogue reg (ownerConfig.withOverrides overrides) [] = .ok rules := by
  intro reg overrides
  have hload (id : String) (r : Registration) (h : Registry.latest? id ownerCalls = some r) :
      ∃ d, ownerCatalogue.load r.module r.name id = .ok d := by
    have hmem := Registry.mem_of_latest? h
    simp only [ownerCalls, List.mem_cons, List.not_mem_nil, or_false,
      Registry.Call.register.injEq] at hmem
    rcases hmem with ⟨rfl, rfl⟩ | ⟨rfl, rfl⟩
    · exact ⟨ownerRule.definition, rfl⟩
    · exact ⟨Spacing.definition, rfl⟩
  have hregistered (id : String) (hid : id = "owner" ∨ id = Spacing.ruleId) : id ∈ reg.ids := by
    rw [Registry.mem_ids_after]
    rcases hid with rfl | rfl
    · exact ⟨_, List.mem_cons_self⟩
    · exact ⟨_, List.mem_cons_of_mem _ List.mem_cons_self⟩
  have hall : ∀ id ∈ overrides.map (·.1), id ∈ reg.ids :=
    fun id hid ↦ hregistered id (Or.inr (List.mem_singleton.mp hid))
  obtain ⟨-, hok, -, hsame⟩ := rules_follow_registry_config_and_overrides ownerCatalogue ownerCalls
    hload ownerConfig overrides
  obtain ⟨rules, hrules, -, hids, -⟩ := hok hall
  refine ⟨hload, hall, rules, hrules, (hids _).mpr ⟨hregistered _ (Or.inr rfl), Or.inl ?_⟩,
    (hids _).mpr ⟨hregistered _ (Or.inl rfl), Or.inr ?_⟩, hsame rules hrules⟩
  · exact List.mem_singleton_self _
  · intro entry hentry
    cases hentry
    rfl

end Ruleset

end BracketSpacing
