/-!
Lists of pairs as maps in order of first insertion: setting a key that is there replaces its value
where it stands. A key is looked up by `List.lookup`.
-/

set_option autoImplicit false
set_option relaxedAutoImplicit false

namespace BracketSpacing.Assoc

variable {α β : Type} [DecidableEq α]

def put (key : α) (value : β) : List (α × β) → List (α × β)
  | [] => [(key, value)]
  | (k, v) :: rest => if k = key then (k, value) :: rest else (k, v) :: put key value rest

def remove (key : α) (entries : List (α × β)) : List (α × β) :=
  entries.filter fun entry ↦ entry.1 ≠ key

/-- A map from pairs, a later value of a key winning over an earlier one. -/
def ofList (pairs : List (α × β)) : List (α × β) :=
  pairs.foldl (fun entries pair ↦ put pair.1 pair.2 entries) []

theorem lookup_cons_eq_if (key : α) (entry : α × β) (entries : List (α × β)) :
    (entry :: entries).lookup key = if entry.1 = key then some entry.2 else entries.lookup key := by
  rw [List.lookup_cons]
  by_cases h : entry.1 = key
  · simp [h]
  · rw [if_neg h, beq_false_of_ne (Ne.symm h)]

@[simp] theorem lookup_put_self (key : α) (value : β) (entries : List (α × β)) :
    (put key value entries).lookup key = some value := by
  induction entries with
  | nil => simp [put]
  | cons entry rest ih =>
    by_cases h : entry.1 = key <;> simp [put, lookup_cons_eq_if, h, ih]

theorem lookup_put_of_ne {key other : α} (h : other ≠ key) (value : β) (entries : List (α × β)) :
    (put key value entries).lookup other = entries.lookup other := by
  induction entries with
  | nil => simp [put, lookup_cons_eq_if, Ne.symm h]
  | cons entry rest ih =>
    obtain ⟨k, v⟩ := entry
    by_cases hk : k = key
    · subst hk
      simp [put, lookup_cons_eq_if, Ne.symm h]
    · by_cases ho : k = other
      · subst ho
        simp [put, hk, lookup_cons_eq_if]
      · simp [put, lookup_cons_eq_if, hk, ho, ih]

/-- Nothing is found under a key exactly if no pair has it. -/
theorem lookup_eq_none_iff_notMem {key : α} {entries : List (α × β)} :
    entries.lookup key = none ↔ key ∉ entries.map (·.1) := by
  simp only [List.lookup_eq_none_iff, bne_iff_ne, ne_eq, List.mem_map, not_exists, not_and]
  exact ⟨fun h entry hentry heq ↦ h entry hentry heq.symm,
    fun h entry hentry heq ↦ h entry hentry heq.symm⟩

theorem mem_of_lookup {key : α} {value : β} {entries : List (α × β)}
    (h : entries.lookup key = some value) : (key, value) ∈ entries := by
  obtain ⟨before, after, rfl, -⟩ := List.lookup_eq_some_iff.mp h
  exact List.mem_append_right before List.mem_cons_self

theorem lookup_eq_some_of_mem {entries : List (α × β)} (hkeys : (entries.map (·.1)).Nodup)
    {entry : α × β} (hentry : entry ∈ entries) : entries.lookup entry.1 = some entry.2 := by
  induction entries with
  | nil => cases hentry
  | cons first rest ih =>
    obtain ⟨hnew, hrest⟩ := List.nodup_cons.mp hkeys
    rcases List.mem_cons.mp hentry with rfl | hmem
    · rw [lookup_cons_eq_if, if_pos rfl]
    · have hne : first.1 ≠ entry.1 := fun heq ↦ hnew (List.mem_map.mpr ⟨entry, hmem, heq.symm⟩)
      rw [lookup_cons_eq_if, if_neg hne, ih hrest hmem]

@[simp] theorem lookup_remove_self (key : α) (entries : List (α × β)) :
    (remove key entries).lookup key = none := by
  rw [lookup_eq_none_iff_notMem]
  simp [remove]

theorem lookup_remove_of_ne {key other : α} (h : other ≠ key) (entries : List (α × β)) :
    (remove key entries).lookup other = entries.lookup other := by
  unfold remove
  induction entries with
  | nil => rfl
  | cons entry rest ih =>
    by_cases hk : entry.1 = key
    · rw [List.filter_cons_of_neg (by simpa using hk), ih, lookup_cons_eq_if]
      simp [hk, Ne.symm h]
    · rw [List.filter_cons_of_pos (by simpa using hk), lookup_cons_eq_if, lookup_cons_eq_if, ih]

theorem mem_keys_put {key other : α} {value : β} {entries : List (α × β)} :
    other ∈ (put key value entries).map (·.1) ↔ other = key ∨ other ∈ entries.map (·.1) := by
  induction entries with
  | nil => simp [put]
  | cons entry rest ih =>
    by_cases hk : entry.1 = key
    · simp [put, hk]
    · simp only [put, hk, if_false, List.map_cons, List.mem_cons, ih]
      exact or_left_comm

theorem nodup_keys_put {entries : List (α × β)} (h : (entries.map (·.1)).Nodup) (key : α)
    (value : β) : ((put key value entries).map (·.1)).Nodup := by
  induction entries with
  | nil => simp [put]
  | cons entry rest ih =>
    obtain ⟨hnew, hrest⟩ := List.nodup_cons.mp h
    by_cases hk : entry.1 = key
    · simpa [put, hk] using h
    · rw [put, if_neg hk, List.map_cons, List.nodup_cons, mem_keys_put]
      exact ⟨fun hmem ↦ hmem.elim hk hnew, ih hrest⟩

end BracketSpacing.Assoc
