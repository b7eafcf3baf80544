import BracketSpacing.Proofs.Registry
import BracketSpacing.Proofs.Report

/-!
Steps that leave a session in order. A session is in order while its registry's memory agrees with
the registrations it started with and nothing but debug records was logged (`Session.InOrder`).
`Gives m r` says that from every such session the step `m` gives `r` and leaves a session in order,
so steps compose without looking at the session between them (`Gives.bind`). Looking up ids and
building rules are such steps: `gives_definitions`, `gives_build`, and with the first id that cannot
be had, `gives_definitions_error` and `gives_build_error`.
-/

set_option autoImplicit false
set_option relaxedAutoImplicit false

namespace BracketSpacing

/-- Nothing happened in a session but looking up rules. -/
structure Session.InOrder (c : Catalogue) (registrations : List (String × Registration))
    (s : Session) : Prop where
  coherent : Registry.Coherent c s.registry
  registrations : s.registry.registrations = registrations
  debug : ∀ r ∈ s.log, r.level = .debug

namespace SessionM

variable {c : Catalogue} {registrations : List (String × Registration)} {ε ε' α β : Type}

/-- From every session in order a step gives `r` and leaves a session in order. -/
def Gives (c : Catalogue) (registrations : List (String × Registration)) (m : SessionM ε α)
    (r : Except ε α) : Prop :=
  ∀ s : Session, s.InOrder c registrations →
    outcome m s = r ∧ (m.run s).2.InOrder c registrations

theorem gives_pure (a : α) : Gives c registrations (pure a : SessionM ε α) (.ok a) :=
  fun _ hs ↦ ⟨rfl, hs⟩

theorem gives_throw (e : ε) : Gives c registrations (throw e : SessionM ε α) (.error e) :=
  fun _ hs ↦ ⟨rfl, hs⟩

/-- A step whose errors are renamed gives the renamed error. -/
theorem Gives.adapt {m : SessionM ε α} {r : Except ε α} (h : Gives c registrations m r)
    (cause : ε → ε') : Gives c registrations (m.adapt cause) (r.mapError cause) := by
  intro s hs
  obtain ⟨hm, hafter⟩ := h s hs
  exact ⟨by rw [outcome_adapt, hm], hafter⟩

/-- Two steps run one after the other, unless the first fails. -/
theorem run_bind (m : SessionM ε α) (f : α → SessionM ε β) (s : Session) :
    (m >>= f).run s =
      match m.run s with
      | (.ok a, s') => (f a).run s'
      | (.error e, s') => (.error e, s') := by
  change ExceptT.bindCont f (m.run s).1 (m.run s).2 = _
  obtain ⟨r, s'⟩ := m.run s
  cases r <;> rfl

/-- A step run in a session in order gives its result and a session in order. -/
theorem Gives.run_eq {m : SessionM ε α} {r : Except ε α} (h : Gives c registrations m r)
    {s : Session} (hs : s.InOrder c registrations) :
    ∃ s' : Session, m.run s = (r, s') ∧ s'.InOrder c registrations :=
  ⟨(m.run s).2, Prod.ext (h s hs).1 rfl, (h s hs).2⟩

/-- Steps compose: what the first gives goes to the second. -/
theorem Gives.bind {m : SessionM ε α} {a : α} {f : α → SessionM ε β} {r : Except ε β}
    (hm : Gives c registrations m (.ok a)) (hf : Gives c registrations (f a) r) :
    Gives c registrations (m >>= f) r := by
  intro s hs
  obtain ⟨s', hrun, hs'⟩ := hm.run_eq hs
  rw [outcome, run_bind, hrun]
  exact hf s' hs'

/-- A step that fails decides. -/
theorem Gives.bind_error {m : SessionM ε α} {e : ε} (hm : Gives c registrations m (.error e))
    (f : α → SessionM ε β) : Gives c registrations (m >>= f) (.error e) := by
  intro s hs
  obtain ⟨s', hrun, hs'⟩ := hm.run_eq hs
  rw [outcome, run_bind, hrun]
  exact ⟨rfl, hs'⟩

/-- Debug records leave a session in order. -/
theorem gives_recordAll_debug {records : List Log.Record} (h : ∀ r ∈ records, r.level = .debug) :
    Gives c registrations (Session.recordAll records : SessionM ε PUnit) (.ok ⟨⟩) := by
  intro s hs
  refine ⟨rfl, hs.coherent, hs.registrations, ?_⟩
  exact List.forall_mem_append.mpr ⟨hs.debug, h⟩

/-- A debug record leaves a session in order. -/
theorem gives_record_debug (message : String) :
    Gives c registrations (Session.record (Log.debug message) : SessionM ε PUnit) (.ok ⟨⟩) :=
  gives_recordAll_debug (List.forall_mem_singleton.mpr rfl)

end SessionM

/-! ### Looking up rules -/

namespace Registry

theorem debug_of_mem_log_get {c : Catalogue} {id : String} {reg : Registry} {r : Log.Record}
    (h : r ∈ (reg.get c id).log) : r.level = .debug := by
  obtain ⟨d, -, hget⟩ | ⟨-, -, hget⟩ | ⟨_, e, -, -, -, hget⟩ | ⟨_, d, -, -, -, hget⟩ :=
    get_cases c id reg
  · rw [hget] at h
    cases h
  · rw [hget] at h
    cases h
  · rw [hget] at h
    cases h
  · rw [hget] at h
    rw [List.mem_singleton.mp h]
    rfl

end Registry

namespace Session

open SessionM

variable {c : Catalogue} {registrations : List (String × Registration)}

theorem run_definition (id : String) (s : Session) :
    (definition c id).run s = ((s.registry.get c id).result,
      ⟨(s.registry.get c id).registry, s.log ++ (s.registry.get c id).log⟩) := by
  have hget : (get : SessionM Registry.Error Session).run s = (.ok s, s) := rfl
  have hset (s' : Session) :
      (set s' : SessionM Registry.Error PUnit).run s = (.ok ⟨⟩, s') := rfl
  rw [definition, run_bind, hget]
  dsimp only
  rw [run_bind, hset]
  dsimp only
  cases (s.registry.get c id).result with
  | error e => rfl
  | ok d => rfl

/-- Looking up an id gives what its registration loads. -/
theorem gives_definition (id : String) :
    Gives c registrations (definition c id)
      (Registry.fromScratch c id (registrations.lookup id)) := by
  intro s hs
  rw [outcome, run_definition]
  refine ⟨?_, hs.coherent.get id, ?_, ?_⟩
  · rw [← hs.registrations]
    exact hs.coherent.result_get id
  · exact (Registry.registrations_get c id s.registry).trans hs.registrations
  · intro r hr
    rcases List.mem_append.mp hr with hr | hr
    · exact hs.debug r hr
    · exact Registry.debug_of_mem_log_get hr

/-- An id that is registered and can be loaded. -/
def Available (c : Catalogue) (registrations : List (String × Registration)) (id : String) : Prop :=
  ∃ d, Registry.fromScratch c id (registrations.lookup id) = .ok d

/-- Ids that can all be had are looked up without fault. -/
theorem gives_definitions {ids : List String} (h : ∀ id ∈ ids, Available c registrations id) :
    Gives c registrations (definitions c ids) (.ok ⟨⟩) := by
  induction ids with
  | nil => exact gives_pure _
  | cons id rest ih =>
    rw [List.forall_mem_cons] at h
    obtain ⟨d, hd⟩ := h.1
    exact (hd ▸ gives_definition id : Gives c registrations (definition c id) (.ok d)).bind
      (ih h.2)

/-- The first id that cannot be had decides. -/
theorem gives_definitions_error {ids known rest : List String} {id : String} {e : Registry.Error}
    (hids : ids = known ++ id :: rest) (hknown : ∀ k ∈ known, Available c registrations k)
    (hid : Registry.fromScratch c id (registrations.lookup id) = .error e) :
    Gives c registrations (definitions c ids) (.error e) := by
  subst hids
  induction known with
  | nil =>
    exact (hid ▸ gives_definition id :
      Gives c registrations (definition c id) (.error e)).bind_error _
  | cons k known ih =>
    rw [List.forall_mem_cons] at hknown
    obtain ⟨d, hd⟩ := hknown.1
    exact (hd ▸ gives_definition k : Gives c registrations (definition c k) (.ok d)).bind
      (ih hknown.2)

end Session

/-! ### Building rules -/

namespace Ruleset

open SessionM Session

variable {c : Catalogue} {registrations : List (String × Registration)} (config : Config)
  {overrides : List (String × String)}

/-- The rule of an id, if it is in force. -/
def ruleFor? (c : Catalogue) (registrations : List (String × Registration)) (config : Config)
    (overrides : List (String × String)) (id : String) : Option Rule :=
  if (entryFor config overrides id).enabled then
    (Registry.fromScratch c id (registrations.lookup id)).toOption.map fun d ↦
      ⟨d, (entryFor config overrides id).options⟩
  else none

variable {config} in
theorem ruleFor?_of_disabled {id : String} (h : (entryFor config overrides id).enabled = false) :
    ruleFor? c registrations config overrides id = none := by
  rw [ruleFor?, h]
  rfl

variable {config} in
theorem ruleFor?_of_enabled {id : String} {d : RuleDefinition}
    (h : (entryFor config overrides id).enabled = true)
    (hd : Registry.fromScratch c id (registrations.lookup id) = .ok d) :
    ruleFor? c registrations config overrides id =
      some ⟨d, (entryFor config overrides id).options⟩ := by
  rw [ruleFor?, h, hd]
  rfl

theorem debug_of_mem_optionsRecord {rule : Rule} {r : Log.Record} (h : r ∈ optionsRecord rule) :
    r.level = .debug := by
  unfold optionsRecord at h
  split at h
  next =>
    rw [List.mem_singleton.mp h]
    rfl
  next => cases h

/-- For ids that can be had, the rules are those that are switched on, in order. -/
theorem gives_buildAll {ids : List String} (h : ∀ id ∈ ids, Available c registrations id)
    (overrides : List (String × String)) :
    Gives c registrations (buildAll c config overrides ids)
      (.ok (ids.filterMap (ruleFor? c registrations config overrides))) := by
  induction ids with
  | nil => exact gives_pure _
  | cons id rest ih =>
    rw [List.forall_mem_cons] at h
    have hrules := ih h.2
    unfold buildAll
    dsimp only
    cases henabled : (entryFor config overrides id).enabled with
    | false =>
      rw [List.filterMap_cons_none (ruleFor?_of_disabled henabled)]
      exact (gives_record_debug _).bind hrules
    | true =>
      obtain ⟨d, hd⟩ := h.1
      have hdefinition : Gives c registrations (definition c id) (.ok d) := hd ▸ gives_definition id
      rw [List.filterMap_cons_some (ruleFor?_of_enabled henabled hd)]
      refine hdefinition.bind (Gives.bind (a := ⟨⟩) ?_ (hrules.bind (gives_pure _)))
      exact gives_recordAll_debug fun r ↦ debug_of_mem_optionsRecord

/-- The rules are built if every id and every override can be had. -/
theorem gives_build (h : ∀ id ∈ registrations.map (·.1), Available c registrations id)
    (hoverrides : ∀ id ∈ overrides.map (·.1), Available c registrations id) :
    Gives c registrations (build c config overrides)
      (.ok ((Registry.ids ⟨registrations, []⟩).filterMap
        (ruleFor? c registrations config overrides))) := by
  have hregistered (id : String) (hid : id ∈ Registry.ids ⟨registrations, []⟩) :
      Available c registrations id := h id (Registry.mem_ids.mp hid)
  have hrules := gives_buildAll config hregistered overrides
  refine (gives_definitions hoverrides).bind fun s hs ↦ ?_
  -- The ids depend on the registrations alone, and those have not changed.
  have hids : s.registry.ids = Registry.ids ⟨registrations, []⟩ := by
    rw [Registry.ids, Registry.ids, hs.registrations]
  have hrest := hrules s hs
  rw [← hids] at hrest ⊢
  exact hrest

/-- The first override that cannot be had decides. -/
theorem gives_build_error {known rest : List String} {id : String} {e : Registry.Error}
    (hids : overrides.map (·.1) = known ++ id :: rest)
    (hknown : ∀ k ∈ known, Available c registrations k)
    (hid : Registry.fromScratch c id (registrations.lookup id) = .error e) :
    Gives c registrations (build c config overrides) (.error e) :=
  (gives_definitions_error hids hknown hid).bind_error _

end Ruleset

/-! ### The linter's own rule -/

namespace Registry

theorem builtin_registrations : builtin.registrations =
    [(Spacing.ruleId, ⟨".computed_property_spacing", Spacing.definition.name⟩)] := rfl

/-- One rule is registered from the start. -/
theorem mem_builtin_ids {id : String} : id ∈ builtin.ids ↔ id = Spacing.ruleId := by
  rw [mem_ids, builtin_registrations, List.map_singleton, List.mem_singleton]

/-- The rule registered from the start can be had. -/
theorem available_of_mem_ids {id : String} (h : id ∈ builtin.ids) :
    Session.Available .builtin builtin.registrations id := by
  rw [mem_builtin_ids.mp h]
  exact ⟨Spacing.definition, rfl⟩

/-- Any other id is unknown. -/
theorem fromScratch_of_notMem_ids {id : String} (h : id ∉ builtin.ids) :
    fromScratch .builtin id (builtin.registrations.lookup id) = .error (.unknown id) := by
  rw [mem_ids] at h
  rw [Assoc.lookup_eq_none_iff_notMem.mpr h, fromScratch]

end Registry

/-- What a step gives in every session of the linter that is in order. -/
abbrev SessionM.Yields {ε α : Type} (m : SessionM ε α) (r : Except ε α) : Prop :=
  Gives .builtin Registry.builtin.registrations m r

/-- A session at its start is in order. -/
theorem Session.inOrder_builtin :
    Session.InOrder .builtin Registry.builtin.registrations { registry := .builtin } :=
  ⟨(Registry.coherent_empty _).register _ _, rfl, nofun⟩

/-- What a step yields is its outcome in a session at its start. -/
theorem SessionM.Yields.outcome_eq {ε α : Type} {m : SessionM ε α} {r : Except ε α}
    (h : m.Yields r) : outcome m { registry := .builtin } = r := (h _ Session.inOrder_builtin).1

end BracketSpacing
