import BracketSpacing.Proofs.Value.Shown
import BracketSpacing.Value.Order
import Mathlib.Data.List.Chain

/-!
Keys in order. Keys that are put in order are the same keys, each in order with the next
(`sorts_of_sortKeys`); when they cannot be, there are two of them that cannot be compared
(`exists_of_sortKeys`).
-/

set_option autoImplicit false
set_option relaxedAutoImplicit false

namespace BracketSpacing.Value

/-- The first of two values comes before the second, or the second does not come before it. -/
def InOrder (a b : Value) : Prop := before a b = .ok true ∨ before b a = .ok false

/-- Putting a key in adds it and nothing else. -/
theorem insertKey_perm {v : Value} {keys sorted : List Value} (h : insertKey v keys = .ok sorted) :
    sorted.Perm (v :: keys) := by
  induction keys generalizing sorted with
  | nil =>
    cases h
    exact .refl _
  | cons k rest ih =>
    rw [insertKey] at h
    split at h
    next => cases h
    next =>
      cases h
      exact .refl _
    next =>
      obtain ⟨more, hmore, rfl⟩ := map_eq_ok_iff.mp h
      exact ((ih hmore).cons k).trans (.swap v k rest)

/-- A value that is put into keys in order stands first or behind the first of them. -/
theorem isChain_insertKey {v : Value} {keys sorted : List Value} (hkeys : keys.IsChain InOrder)
    (h : insertKey v keys = .ok sorted) :
    sorted.IsChain InOrder ∧ (sorted.head? = some v ∨ sorted.head? = keys.head?) := by
  induction keys generalizing sorted with
  | nil =>
    cases h
    exact ⟨.singleton v, Or.inl rfl⟩
  | cons k rest ih =>
    rw [insertKey] at h
    split at h
    next => cases h
    next hbefore =>
      cases h
      exact ⟨.cons_cons (Or.inl hbefore) hkeys, Or.inl rfl⟩
    next hbefore =>
      obtain ⟨more, hmore, rfl⟩ := map_eq_ok_iff.mp h
      obtain ⟨hchain, hhead⟩ := ih hkeys.tail hmore
      refine ⟨List.isChain_cons.mpr ⟨fun next hnext ↦ ?_, hchain⟩, Or.inr rfl⟩
      -- Behind `k` comes the value, or what came behind `k` before.
      rcases hhead with hhead | hhead
      · cases hhead.symm.trans hnext
        exact Or.inr hbefore
      · exact (List.isChain_cons.mp hkeys).1 next (hhead.symm.trans hnext)

/-- Keys in order: the same keys, each in order with the next. -/
structure Sorts (keys sorted : List Value) : Prop where
  found : sortKeys keys = .ok sorted
  perm : sorted.Perm keys
  chain : sorted.IsChain InOrder

/-- Keys that are put in order are the same keys, in order. -/
theorem sorts_of_sortKeys {keys sorted : List Value} (h : sortKeys keys = .ok sorted) :
    Sorts keys sorted := by
  have hsorted : sorted.Perm keys ∧ sorted.IsChain InOrder := by
    induction keys generalizing sorted with
    | nil =>
      cases h
      exact ⟨.refl _, .nil⟩
    | cons k rest ih =>
      rw [sortKeys] at h
      split at h
      next => cases h
      next more hmore =>
        obtain ⟨hperm, hchain⟩ := ih hmore
        exact ⟨(insertKey_perm h).trans (hperm.cons k), (isChain_insertKey hchain h).1⟩
  exact ⟨h, hsorted.1, hsorted.2⟩

/-- A key that cannot be put in cannot be compared with one of the others. -/
theorem exists_of_insertKey {v : Value} {keys : List Value} {e : Incomparable}
    (h : insertKey v keys = .error e) : ∃ b ∈ keys, before v b = .error e := by
  induction keys with
  | nil => cases h
  | cons k rest ih =>
    rw [insertKey] at h
    split at h
    next e' hbefore =>
      cases h
      exact ⟨k, List.mem_cons_self, hbefore⟩
    next => cases h
    next =>
      cases hmore : insertKey v rest with
      | ok more =>
        rw [hmore] at h
        cases h
      | error e' =>
        rw [hmore] at h
        cases h
        obtain ⟨b, hb, hbefore⟩ := ih hmore
        exact ⟨b, List.mem_cons_of_mem _ hb, hbefore⟩

/-- Keys that cannot be put in order hold two that cannot be compared. -/
theorem exists_of_sortKeys {keys : List Value} {e : Incomparable} (h : sortKeys keys = .error e) :
    ∃ a ∈ keys, ∃ b ∈ keys, before a b = .error e := by
  induction keys with
  | nil => cases h
  | cons k rest ih =>
    rw [sortKeys] at h
    split at h
    next e' hrest =>
      cases h
      obtain ⟨a, ha, b, hb, hbefore⟩ := ih hrest
      exact ⟨a, List.mem_cons_of_mem _ ha, b, List.mem_cons_of_mem _ hb, hbefore⟩
    next sorted hsorted =>
      obtain ⟨b, hb, hbefore⟩ := exists_of_insertKey h
      have hmem := (sorts_of_sortKeys hsorted).perm.mem_iff.mp hb
      exact ⟨k, List.mem_cons_self, b, List.mem_cons_of_mem _ hmem, hbefore⟩

end BracketSpacing.Value
