import BracketSpacing.Proofs.Sorting
import BracketSpacing.Registry
import Mathlib.Data.List.Induction
import Mathlib.Data.List.Nodup

/-!
The registry over a sequence of calls. What was loaded is kept, but nobody can tell: asking for an
id gives what loading its most recent registration would give, whatever was asked for before
(`result_get`, `lookup_registrations_after`). Only the log shows the memory, by one record at the
first success after each registration (`log_of_first_success`, `log_eq_nil`). `memory_is_invisible`
puts this together.
-/

set_option autoImplicit false
set_option relaxedAutoImplicit false

namespace BracketSpacing

/-- What is loaded for an id is a rule that says this id, offered by the module under the name. -/
theorem Catalogue.load_eq_ok {c : Catalogue} {module name id : String} {d : RuleDefinition}
    (h : c.load module name id = .ok d) :
    d.info.id = id ∧ ∃ m, c.find module = .ok m ∧ m.offer? name = some (.rule d) := by
  unfold load at h
  cases hfind : c.find module with
  | error e =>
    rw [hfind] at h
    cases h
  | ok m =>
    rw [hfind] at h
    dsimp only at h
    split at h
    any_goals cases h
    next d' hoffer =>
      split_ifs at h with hid
      cases h
      exact ⟨hid, m, rfl, hoffer⟩

namespace Registry

/-! ### One call -/

/-- What asking for a registered or an unregistered id gives when nothing was loaded before. -/
def fromScratch (c : Catalogue) (id : String) :
    Option Registration → Except Error RuleDefinition
  | none => .error (.unknown id)
  | some r => (c.load r.module r.name id).mapError .load

/-- The ways of asking for an id: it was loaded before, is unknown, fails to load or is loaded. -/
theorem get_cases (c : Catalogue) (id : String) (reg : Registry) :
    (∃ d, reg.loaded.lookup id = some d ∧ reg.get c id = ⟨.ok d, reg, []⟩) ∨
    (reg.loaded.lookup id = none ∧ reg.registrations.lookup id = none ∧
      reg.get c id = ⟨.error (.unknown id), reg, []⟩) ∨
    (∃ r e, reg.loaded.lookup id = none ∧ reg.registrations.lookup id = some r ∧
      c.load r.module r.name id = .error e ∧ reg.get c id = ⟨.error (.load e), reg, []⟩) ∨
    ∃ r d, reg.loaded.lookup id = none ∧ reg.registrations.lookup id = some r ∧
      c.load r.module r.name id = .ok d ∧
      reg.get c id = ⟨.ok d, { reg with loaded := Assoc.put id d reg.loaded },
        [Log.debug s!"loaded rule {id} from {r.module}"]⟩ := by
  unfold get
  cases hloaded : reg.loaded.lookup id with
  | some d => exact Or.inl ⟨d, rfl, rfl⟩
  | none =>
    cases hregistered : reg.registrations.lookup id with
    | none => exact Or.inr (Or.inl ⟨rfl, rfl, rfl⟩)
    | some r =>
      cases hload : c.load r.module r.name id with
      | error e => exact Or.inr (Or.inr (Or.inl ⟨r, e, rfl, rfl, hload, by simp [hload]⟩))
      | ok d => exact Or.inr (Or.inr (Or.inr ⟨r, d, rfl, rfl, hload, by simp [hload]⟩))

/-- The two tables are in step: what was loaded is what the registration would give now. -/
structure Coherent (c : Catalogue) (reg : Registry) : Prop where
  loads {id : String} {d : RuleDefinition} : reg.loaded.lookup id = some d →
    ∃ r, reg.registrations.lookup id = some r ∧ c.load r.module r.name id = .ok d
  nodup : (reg.registrations.map (·.1)).Nodup

theorem coherent_empty (c : Catalogue) : Coherent c empty := ⟨nofun, List.nodup_nil⟩

namespace Coherent

variable {c : Catalogue} {reg : Registry}

/-- Registering an id forgets what was loaded for it. -/
theorem register (h : Coherent c reg) (id : String) (r : Registration) :
    Coherent c (reg.register id r) := by
  refine ⟨?_, Assoc.nodup_keys_put h.nodup id r⟩
  intro other d hother
  by_cases heq : other = id
  · subst heq
    rw [Registry.register, Assoc.lookup_remove_self] at hother
    cases hother
  · rw [Registry.register, Assoc.lookup_remove_of_ne heq] at hother
    obtain ⟨s, hs, hload⟩ := h.loads hother
    exact ⟨s, (Assoc.lookup_put_of_ne heq r reg.registrations).trans hs, hload⟩

/-- Asking for an id remembers what its registration gives. -/
theorem get (h : Coherent c reg) (id : String) : Coherent c (reg.get c id).registry := by
  obtain ⟨d, -, hget⟩ | ⟨-, -, hget⟩ | ⟨r, e, -, -, -, hget⟩ | ⟨r, d, -, hr, hload, hget⟩ :=
    get_cases c id reg
  · rwa [hget]
  · rwa [hget]
  · rwa [hget]
  · rw [hget]
    refine ⟨?_, h.nodup⟩
    intro other d' hother
    by_cases heq : other = id
    · subst heq
      rw [Assoc.lookup_put_self] at hother
      cases hother
      exact ⟨r, hr, hload⟩
    · rw [Assoc.lookup_put_of_ne heq] at hother
      exact h.loads hother

/-- In step, the memory does not show in the answer. -/
theorem result_get (h : Coherent c reg) (id : String) :
    (reg.get c id).result = fromScratch c id (reg.registrations.lookup id) := by
  obtain ⟨d, hd, hget⟩ | ⟨-, hr, hget⟩ | ⟨r, e, -, hr, hload, hget⟩ | ⟨r, d, -, hr, hload, hget⟩ :=
    get_cases c id reg
  · obtain ⟨r, hr, hload⟩ := h.loads hd
    rw [hget, hr, fromScratch, hload]
    rfl
  · rw [hget, hr, fromScratch]
  · rw [hget, hr, fromScratch, hload]
    rfl
  · rw [hget, hr, fromScratch, hload]
    rfl

/-- Only what is registered was loaded. -/
theorem loaded_subset (h : Coherent c reg) :
    reg.loaded.map (·.1) ⊆ reg.registrations.map (·.1) := by
  intro id hid
  by_contra hnot
  obtain ⟨d, hd⟩ : ∃ d, reg.loaded.lookup id = some d := by
    rw [← Option.ne_none_iff_exists', Ne, Assoc.lookup_eq_none_iff_notMem]
    exact not_not.mpr hid
  obtain ⟨r, hr, -⟩ := h.loads hd
  rw [Assoc.lookup_eq_none_iff_notMem.mpr hnot] at hr
  cases hr

end Coherent

/-- A failed request leaves the registry as it was. -/
theorem registry_of_error {c : Catalogue} {id : String} {reg : Registry} {e : Error}
    (h : (reg.get c id).result = .error e) : (reg.get c id).registry = reg := by
  obtain ⟨d, -, hget⟩ | ⟨-, -, hget⟩ | ⟨r, e, -, -, -, hget⟩ | ⟨r, d, -, -, -, hget⟩ :=
    get_cases c id reg
  · rw [hget]
  · rw [hget]
  · rw [hget]
  · rw [hget] at h
    cases h

@[simp] theorem registrations_get (c : Catalogue) (id : String) (reg : Registry) :
    (reg.get c id).registry.registrations = reg.registrations := by
  obtain ⟨d, -, hget⟩ | ⟨-, -, hget⟩ | ⟨r, e, -, -, -, hget⟩ | ⟨r, d, -, -, -, hget⟩ :=
    get_cases c id reg <;> rw [hget]

theorem mem_ids {reg : Registry} {id : String} :
    id ∈ reg.ids ↔ id ∈ reg.registrations.map (·.1) := List.mem_mergeSort

/-- The ids are listed in increasing order, each once. -/
theorem Coherent.ids_increasing {c : Catalogue} {reg : Registry} (h : Coherent c reg) :
    reg.ids.Pairwise (· < ·) := by
  have hsorted : reg.ids.Pairwise fun a b ↦ !decide (b < a) :=
    List.pairwise_mergeSort (Sorting.byName_trans id) (Sorting.byName_total id) _
  have hdistinct : reg.ids.Nodup := (List.mergeSort_perm _ _).nodup_iff.mpr h.nodup
  refine (hsorted.and hdistinct).imp ?_
  intro a b hab
  exact lt_of_le_of_ne (Sorting.notAfter_iff_le.mp hab.1) hab.2

/-! ### A sequence of calls -/

inductive Call where
  | register (id : String) (r : Registration)
  | get (id : String)

/-- The registry after one more call. -/
def Call.step (c : Catalogue) (reg : Registry) : Call → Registry
  | .register id r => reg.register id r
  | .get id => (reg.get c id).registry

/-- The registry after some calls on an empty one. -/
def after (c : Catalogue) (calls : List Call) : Registry := calls.foldl (Call.step c) empty

def Call.registration? (id : String) : Call → Option Registration
  | .register other r => if other = id then some r else none
  | .get _ => none

/-- The most recent registration of an id. -/
def latest? (id : String) (calls : List Call) : Option Registration :=
  calls.reverse.findSome? (Call.registration? id)

/-- Some call for an id succeeded, and the id was not registered again since. -/
def Succeeded (c : Catalogue) (id : String) (calls : List Call) : Prop :=
  ∃ earlier later d, calls = earlier ++ .get id :: later ∧
    ((after c earlier).get c id).result = .ok d ∧ ∀ r, .register id r ∉ later

section Calls

variable {c : Catalogue} {id : String} {calls : List Call}

@[simp] theorem after_nil : after c [] = empty := rfl

@[simp] theorem after_concat (call : Call) :
    after c (calls ++ [call]) = call.step c (after c calls) := by
  rw [after, List.foldl_append]
  rfl

/-- The registry is coherent after any calls. -/
theorem coherent_after (c : Catalogue) (calls : List Call) : Coherent c (after c calls) := by
  induction calls using List.reverseRecOn with
  | nil => exact coherent_empty c
  | append_singleton calls call ih =>
    rw [after_concat]
    cases call with
    | register id r => exact ih.register id r
    | get id => exact ih.get id

@[simp] theorem registration?_register_self (r : Registration) :
    (Call.register id r).registration? id = some r := if_pos rfl

theorem registration?_eq_some {call : Call} {r : Registration} :
    call.registration? id = some r ↔ call = .register id r := by
  cases call with
  | register other s =>
    by_cases h : other = id <;> simp [Call.registration?, h]
  | get other => simp [Call.registration?]

theorem latest?_concat (call : Call) :
    latest? id (calls ++ [call]) = (call.registration? id).or (latest? id calls) := by
  rw [latest?, List.reverse_append, List.reverse_singleton, List.singleton_append,
    List.findSome?_cons]
  cases call.registration? id <;> rfl

/-- An id has no latest registration exactly if no call registers it. -/
theorem latest?_eq_none_iff : latest? id calls = none ↔ ∀ r, .register id r ∉ calls := by
  rw [latest?, List.findSome?_eq_none_iff]
  constructor
  · intro h r hr
    have hnone := h _ (List.mem_reverse.mpr hr)
    rw [registration?_register_self] at hnone
    cases hnone
  · intro h call hcall
    rw [Option.eq_none_iff_forall_ne_some]
    intro r hr
    rw [registration?_eq_some.mp hr] at hcall
    exact h r (List.mem_reverse.mp hcall)

/-- The registration of an id is that of the latest call that registers it. -/
theorem lookup_registrations_after (c : Catalogue) (id : String) (calls : List Call) :
    (after c calls).registrations.lookup id = latest? id calls := by
  induction calls using List.reverseRecOn with
  | nil => rfl
  | append_singleton calls call ih =>
    rw [after_concat, latest?_concat]
    cases call with
    | register other r =>
      by_cases heq : id = other
      · subst heq
        rw [registration?_register_self]
        exact Assoc.lookup_put_self id r _
      · rw [Call.registration?, if_neg (Ne.symm heq), Option.none_or, ← ih]
        exact Assoc.lookup_put_of_ne heq r _
    | get other =>
      rw [Call.step, registrations_get, ih]
      rfl

/-! ### What is remembered -/

/-- An id has succeeded since its registration if the last call asks for it with success, or if it
had before and the last call does not register it again. -/
theorem succeeded_concat {call : Call} :
    Succeeded c id (calls ++ [call]) ↔
      (call = .get id ∧ ∃ d, ((after c calls).get c id).result = .ok d) ∨
        (Succeeded c id calls ∧ ∀ r, call ≠ .register id r) := by
  constructor
  · rintro ⟨earlier, later, d, heq, hok, hlater⟩
    rcases List.eq_nil_or_concat' later with rfl | ⟨later, last, rfl⟩
    · obtain ⟨rfl, hlast⟩ := List.append_inj' heq rfl
      cases hlast
      exact Or.inl ⟨rfl, d, hok⟩
    · rw [← List.cons_append, ← List.append_assoc] at heq
      obtain ⟨rfl, hlast⟩ := List.append_inj' heq rfl
      cases hlast
      refine Or.inr ⟨⟨earlier, later, d, rfl, hok, ?_⟩, ?_⟩
      · exact fun r hr ↦ hlater r (List.mem_append_left _ hr)
      · rintro r rfl
        exact hlater r (List.mem_append_right later List.mem_cons_self)
  · rintro (⟨rfl, d, hok⟩ | ⟨⟨earlier, later, d, rfl, hok, hlater⟩, hcall⟩)
    · exact ⟨calls, [], d, rfl, hok, fun _ ↦ List.not_mem_nil⟩
    · refine ⟨earlier, later ++ [call], d, List.append_assoc _ _ _, hok, ?_⟩
      intro r hr
      rcases List.mem_append.mp hr with hr | hr
      · exact hlater r hr
      · exact hcall r (List.mem_singleton.mp hr).symm

/-- A call for an id leaves it loaded if it succeeds, and other ids as they were. -/
theorem lookup_loaded_get (c : Catalogue) (reg : Registry) (id other : String) :
    (reg.get c other).registry.loaded.lookup id ≠ none ↔
      (other = id ∧ ∃ d, (reg.get c id).result = .ok d) ∨ reg.loaded.lookup id ≠ none := by
  by_cases heq : other = id
  · subst heq
    obtain ⟨d, hd, hget⟩ | ⟨hnone, -, hget⟩ | ⟨r, e, hnone, -, -, hget⟩ | ⟨r, d, -, -, -, hget⟩ :=
      get_cases c other reg
    · simp [hget, hd]
    · simp [hget, hnone]
    · simp [hget, hnone]
    · simp [hget]
  · obtain ⟨d, -, hget⟩ | ⟨-, -, hget⟩ | ⟨r, e, -, -, -, hget⟩ | ⟨r, d, -, -, -, hget⟩ :=
      get_cases c other reg
    · simp [hget, heq]
    · simp [hget, heq]
    · simp [hget, heq]
    · simp [hget, heq, Assoc.lookup_put_of_ne (Ne.symm heq)]

/-- An id is remembered exactly if it has succeeded since its latest registration. -/
theorem loaded_after_iff (c : Catalogue) (id : String) (calls : List Call) :
    (after c calls).loaded.lookup id ≠ none ↔ Succeeded c id calls := by
  induction calls using List.reverseRecOn with
  | nil => simp [Succeeded, empty]
  | append_singleton calls call ih =>
    rw [after_concat]
    cases call with
    | register other r =>
      rw [succeeded_concat, ← ih]
      by_cases heq : other = id
      · simp [heq, Call.step, register]
      · simp [heq, Call.step, register, Assoc.lookup_remove_of_ne (Ne.symm heq)]
    | get other =>
      rw [succeeded_concat, ← ih, Call.step, lookup_loaded_get]
      simp

/-- The first success since a registration is noted, with the module of that registration. -/
theorem log_of_first_success {d : RuleDefinition}
    (hok : ((after c calls).get c id).result = .ok d) (hfirst : ¬ Succeeded c id calls) :
    ∃ r, latest? id calls = some r ∧
      ((after c calls).get c id).log = [Log.debug s!"loaded rule {id} from {r.module}"] := by
  rw [← loaded_after_iff] at hfirst
  obtain ⟨d', hd, -⟩ | ⟨-, -, hget⟩ | ⟨r, e, -, -, -, hget⟩ | ⟨r, d', -, hr, -, hget⟩ :=
    get_cases c id (after c calls)
  · exact absurd (by simp [hd]) hfirst
  · rw [hget] at hok
    cases hok
  · rw [hget] at hok
    cases hok
  · exact ⟨r, lookup_registrations_after c id calls ▸ hr, by rw [hget]⟩

/-- Nothing is logged at a failure, nor after the first success. -/
theorem log_eq_nil (h : (∃ e, ((after c calls).get c id).result = .error e) ∨
    Succeeded c id calls) : ((after c calls).get c id).log = [] := by
  obtain ⟨d, -, hget⟩ | ⟨-, -, hget⟩ | ⟨r, e, -, -, -, hget⟩ | ⟨r, d, hnone, -, -, hget⟩ :=
    get_cases c id (after c calls)
  · rw [hget]
  · rw [hget]
  · rw [hget]
  · rcases h with ⟨e, he⟩ | hsucceeded
    · rw [hget] at he
      cases he
    · exact absurd hnone ((loaded_after_iff c id calls).mpr hsucceeded)

/-- The ids are those that some call registers. -/
theorem mem_ids_after {other : String} :
    other ∈ (after c calls).ids ↔ ∃ r, .register other r ∈ calls := by
  rw [mem_ids, ← not_iff_not, ← Assoc.lookup_eq_none_iff_notMem, lookup_registrations_after,
    latest?_eq_none_iff, not_exists]

end Calls

/-- After any calls, asking for an id gives what loading its most recent registration from scratch
gives, and changes nothing if it fails. The ids are those ever registered, and only the first
success since a registration is noted. -/
theorem memory_is_invisible (c : Catalogue) (calls : List Call) (id : String) :
    let reg := after c calls
    let found := reg.get c id
    found.result = fromScratch c id (latest? id calls) ∧
    (found.result = .error (.unknown id) ↔ ∀ r, .register id r ∉ calls) ∧
    (∀ d, found.result = .ok d → d.info.id = id ∧
      ∃ r m, latest? id calls = some r ∧ c.find r.module = .ok m ∧
        m.offer? r.name = some (.rule d)) ∧
    (∀ e, found.result = .error e → found.registry = reg) ∧
    reg.loaded.map (·.1) ⊆ reg.registrations.map (·.1) ∧
    reg.ids.Pairwise (· < ·) ∧
    (∀ other, other ∈ reg.ids ↔ ∃ r, .register other r ∈ calls) ∧
    (∀ d, found.result = .ok d → ¬ Succeeded c id calls →
      ∃ r, latest? id calls = some r ∧
        found.log = [Log.debug s!"loaded rule {id} from {r.module}"]) ∧
    ((∃ e, found.result = .error e) ∨ Succeeded c id calls → found.log = []) := by
  intro reg found
  have hcoherent := coherent_after c calls
  have hresult : found.result = fromScratch c id (latest? id calls) := by
    rw [← lookup_registrations_after c]
    exact hcoherent.result_get id
  refine ⟨hresult, ?_, ?_, fun e ↦ registry_of_error, hcoherent.loaded_subset,
    hcoherent.ids_increasing, fun other ↦ mem_ids_after, fun d ↦ log_of_first_success, log_eq_nil⟩
  · rw [hresult, ← latest?_eq_none_iff]
    cases latest? id calls with
    | none => simp [fromScratch]
    | some r =>
      cases hload : c.load r.module r.name id <;> simp [fromScratch, hload, Except.mapError]
  · intro d hd
    rw [hresult] at hd
    cases hlatest : latest? id calls with
    | none =>
      rw [hlatest] at hd
      cases hd
    | some r =>
      cases hload : c.load r.module r.name id with
      | error e =>
        rw [hlatest, fromScratch, hload] at hd
        cases hd
      | ok d' =>
        rw [hlatest, fromScratch, hload] at hd
        cases hd
        obtain ⟨hid, m, hfind, hoffer⟩ := Catalogue.load_eq_ok hload
        exact ⟨hid, r, m, rfl, hfind, hoffer⟩

/-- A registration that cannot be loaded, asked for, and then one that can. -/
def mendedCalls : List Call :=
  [.register Spacing.ruleId ⟨".computed_property_spacing", "SpacingMode"⟩, .get Spacing.ruleId,
    .register Spacing.ruleId ⟨".computed_property_spacing", Spacing.definition.name⟩]

/-- The failure is not kept, the success is: it is noted once. -/
theorem memory_is_invisible_after_mending :
    let failing := (after .builtin (mendedCalls.take 1)).get .builtin Spacing.ruleId
    let mended := (after .builtin mendedCalls).get .builtin Spacing.ruleId
    let again := (after .builtin (mendedCalls ++ [.get Spacing.ruleId])).get .builtin Spacing.ruleId
    failing.registry = after .builtin (mendedCalls.take 1) ∧
    mended.result = .ok Spacing.definition ∧ mended.log.length = 1 ∧
    again.result = .ok Spacing.definition ∧ again.log = [] := by
  intro failing mended again
  have hfailing := memory_is_invisible .builtin (mendedCalls.take 1) Spacing.ruleId
  have hmended := memory_is_invisible .builtin mendedCalls Spacing.ruleId
  have hagain := memory_is_invisible .builtin (mendedCalls ++ [.get Spacing.ruleId]) Spacing.ruleId
  have hok : mended.result = .ok Spacing.definition := hmended.1.trans rfl
  have hfirst : ¬ Succeeded .builtin Spacing.ruleId mendedCalls := by
    rw [← loaded_after_iff, not_not]
    rfl
  obtain ⟨r, -, hlog⟩ := hmended.2.2.2.2.2.2.2.1 _ hok hfirst
  refine ⟨hfailing.2.2.2.1 _ (hfailing.1.trans rfl), hok, ?_, hagain.1.trans rfl,
    hagain.2.2.2.2.2.2.2.2 (Or.inr ⟨mendedCalls, [], _, rfl, hok, fun _ ↦ List.not_mem_nil⟩)⟩
  exact congrArg List.length hlog

end Registry

end BracketSpacing
