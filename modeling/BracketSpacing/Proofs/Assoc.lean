import BracketSpacing.Assoc
import Mathlib.Data.List.Induction

/-!
Maps built by putting pairs one after the other. The keys stand in the order in which they first
occur (`keys_ofList`), and each has the value of its last pair (`lookup_ofList_of_last`); by
`ext_of_lookup` nothing else is in such a map.
-/

set_option autoImplicit false
set_option relaxedAutoImplicit false

namespace BracketSpacing.Assoc

variable {α β : Type} [DecidableEq α] {key : α} {value : β} {entries : List (α × β)}

theorem mem_put {entry : α × β} (h : entry ∈ put key value entries) :
    entry = (key, value) ∨ entry ∈ entries := by
  induction entries with
  | nil => exact Or.inl (List.mem_singleton.mp h)
  | cons first rest ih =>
    by_cases hk : first.1 = key
    · rw [put, if_pos hk, List.mem_cons, hk] at h
      exact h.imp_right (List.mem_cons_of_mem first)
    · rw [put, if_neg hk, List.mem_cons] at h
      rcases h with rfl | h
      · exact Or.inr List.mem_cons_self
      · exact (ih h).imp_right (List.mem_cons_of_mem first)

/-- A key that is there keeps its place. -/
theorem keys_put_of_mem (h : key ∈ entries.map (·.1)) :
    (put key value entries).map (·.1) = entries.map (·.1) := by
  induction entries with
  | nil => cases h
  | cons entry rest ih =>
    by_cases hk : entry.1 = key
    · simp [put, hk]
    · have hrest : key ∈ rest.map (·.1) := (List.mem_cons.mp h).resolve_left (Ne.symm hk)
      rw [put, if_neg hk, List.map_cons, ih hrest, List.map_cons]

/-- A new key comes last. -/
theorem keys_put_of_notMem (h : key ∉ entries.map (·.1)) :
    (put key value entries).map (·.1) = entries.map (·.1) ++ [key] := by
  induction entries with
  | nil => rfl
  | cons entry rest ih =>
    rw [List.map_cons, List.mem_cons, not_or] at h
    rw [put, if_neg (Ne.symm h.1), List.map_cons, ih h.2, List.map_cons, List.cons_append]

/-- The last pair is put last. -/
theorem ofList_concat (pairs : List (α × β)) (pair : α × β) :
    ofList (pairs ++ [pair]) = put pair.1 pair.2 (ofList pairs) := by
  rw [ofList, List.foldl_append, ofList, List.foldl_cons, List.foldl_nil]

/-- The keys in order of first occurrence. -/
theorem keys_ofList (pairs : List (α × β)) :
    (ofList pairs).map (·.1) = (pairs.map (·.1)).eraseDups := by
  induction pairs using List.reverseRecOn with
  | nil => rfl
  | append_singleton pairs pair ih =>
    rw [ofList_concat, List.map_append, List.eraseDups_append, ← ih]
    by_cases hkey : pair.1 ∈ pairs.map (·.1)
    · rw [keys_put_of_mem (by rwa [ih, List.mem_eraseDups])]
      simp [List.removeAll, hkey]
    · rw [keys_put_of_notMem (by rwa [ih, List.mem_eraseDups])]
      simp [List.removeAll, hkey, List.eraseDups_cons]

/-- No key stands twice. -/
theorem nodup_keys_ofList (pairs : List (α × β)) : ((ofList pairs).map (·.1)).Nodup := by
  induction pairs using List.reverseRecOn with
  | nil => exact List.nodup_nil
  | append_singleton pairs pair ih =>
    rw [ofList_concat]
    exact nodup_keys_put ih _ _

theorem nodup_eraseDups (keys : List α) : keys.eraseDups.Nodup := by
  have h := nodup_keys_ofList (keys.map fun key ↦ (key, ()))
  rwa [keys_ofList, List.map_map, show (Prod.fst ∘ fun key : α ↦ (key, ())) = id from rfl,
    List.map_id] at h

/-- The last value of a key wins. -/
theorem lookup_ofList_of_last {before after : List (α × β)} (h : key ∉ after.map (·.1)) :
    (ofList (before ++ (key, value) :: after)).lookup key = some value := by
  induction after using List.reverseRecOn with
  | nil => rw [ofList_concat, lookup_put_self]
  | append_singleton after pair ih =>
    rw [List.map_append, List.mem_append, not_or] at h
    have hne : key ≠ pair.1 := fun heq ↦ h.2 (List.mem_singleton.mpr heq)
    rw [← List.cons_append, ← List.append_assoc, ofList_concat, lookup_put_of_ne hne, ih h.1]

/-- A key that occurs has a last pair. -/
theorem exists_last_of_mem {γ : Type} {f : γ → α} {xs : List γ} (h : key ∈ xs.map f) :
    ∃ before x after, xs = before ++ x :: after ∧ f x = key ∧ key ∉ after.map f := by
  induction xs with
  | nil => cases h
  | cons x xs ih =>
    by_cases hrest : key ∈ xs.map f
    · obtain ⟨before, last, after, heq, hlast, hafter⟩ := ih hrest
      exact ⟨x :: before, last, after, by rw [heq, List.cons_append], hlast, hafter⟩
    · exact ⟨[], x, xs, rfl, ((List.mem_cons.mp h).resolve_right hrest).symm, hrest⟩

/-- A map is given by its keys in order and its values. -/
theorem ext_of_lookup {others : List (α × β)} (hnodup : (entries.map (·.1)).Nodup)
    (hkeys : entries.map (·.1) = others.map (·.1))
    (hvalues : ∀ key ∈ entries.map (·.1), entries.lookup key = others.lookup key) :
    entries = others := by
  induction entries generalizing others with
  | nil => exact (List.map_eq_nil_iff.mp hkeys.symm).symm
  | cons entry rest ih =>
    obtain ⟨other, rest', rfl, hkey, hkeys'⟩ := List.map_eq_cons_iff.mp hkeys.symm
    obtain ⟨hnew, hrest⟩ := List.nodup_cons.mp hnodup
    have hvalue : entry.2 = other.2 := by
      simpa [lookup_cons_eq_if, hkey] using hvalues entry.1 List.mem_cons_self
    have htail : rest = rest' := by
      refine ih hrest hkeys'.symm fun k hk ↦ ?_
      have hne : entry.1 ≠ k := by
        rintro rfl
        exact hnew hk
      have hk' := hvalues k (List.mem_cons_of_mem _ hk)
      rwa [lookup_cons_eq_if, if_neg hne, lookup_cons_eq_if, if_neg (hkey ▸ hne)] at hk'
    rw [htail, Prod.ext hkey.symm hvalue]

end BracketSpacing.Assoc
