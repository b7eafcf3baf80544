import Mathlib.Data.String.Basic
import Mathlib.Data.List.Basic

/-!
Sorting and leaving out. A sort that keeps ties in order may come before or after elements are left
out (`filter_mergeSort`). Names are compared by asking that the second is not less than the first;
this is a total order (`byName_trans`, `byName_total`).
-/

set_option autoImplicit false
set_option relaxedAutoImplicit false

namespace BracketSpacing.Sorting

variable {α : Type}

/-! ### Leaving out -/

section Filter

variable {le : α → α → Bool} (trans : ∀ a b c, le a b → le b c → le a c)
  (total : ∀ a b, le a b || le b a)

/-- A list has one place to be cut into elements that `a` does not come before and elements that
it comes before. -/
theorem eq_of_append_eq {a : α} {l₁ l₂ m₁ m₂ : List α} (h : l₁ ++ l₂ = m₁ ++ m₂)
    (hl₁ : ∀ b ∈ l₁, !le a b) (hl₂ : ∀ b ∈ l₂, le a b) (hm₁ : ∀ b ∈ m₁, !le a b)
    (hm₂ : ∀ b ∈ m₂, le a b) : l₁ = m₁ ∧ l₂ = m₂ := by
  have hl : (l₁ ++ l₂).filter (le a) = l₂ := by
    rw [List.filter_append, List.filter_eq_self.mpr hl₂,
      List.filter_eq_nil_iff.mpr fun b hb ↦ by simpa using hl₁ b hb, List.nil_append]
  have hm : (m₁ ++ m₂).filter (le a) = m₂ := by
    rw [List.filter_append, List.filter_eq_self.mpr hm₂,
      List.filter_eq_nil_iff.mpr fun b hb ↦ by simpa using hm₁ b hb, List.nil_append]
  have htails : l₂ = m₂ := by rw [← hl, h, hm]
  subst htails
  exact ⟨List.append_cancel_right h, rfl⟩

include trans total in
/-- Elements may be left out before or after sorting. -/
theorem filter_mergeSort (keep : α → Bool) (l : List α) :
    (l.mergeSort le).filter keep = (l.filter keep).mergeSort le := by
  induction l with
  | nil => simp
  | cons a l ih =>
    obtain ⟨l₁, l₂, hsorted, hrest, hbefore⟩ := List.mergeSort_cons trans total a l
    rw [hrest, List.filter_append] at ih
    rw [hsorted, List.filter_append]
    by_cases ha : keep a
    · -- Both sorts put `a` before the first element that it may come before.
      obtain ⟨m₁, m₂, hsorted', hrest', hbefore'⟩ :=
        List.mergeSort_cons trans total a (l.filter keep)
      have hafter : ∀ b ∈ l₂, le a b := by
        have hpair := List.pairwise_mergeSort trans total (a :: l)
        rw [hsorted, List.pairwise_append] at hpair
        exact fun b hb ↦ List.rel_of_pairwise_cons hpair.2.1 hb
      have hafter' : ∀ b ∈ m₂, le a b := by
        have hpair := List.pairwise_mergeSort trans total (a :: l.filter keep)
        rw [hsorted', List.pairwise_append] at hpair
        exact fun b hb ↦ List.rel_of_pairwise_cons hpair.2.1 hb
      obtain ⟨rfl, rfl⟩ := eq_of_append_eq (ih.trans hrest')
        (fun b hb ↦ hbefore b (List.mem_filter.mp hb).1)
        (fun b hb ↦ hafter b (List.mem_filter.mp hb).1) hbefore' hafter'
      rw [List.filter_cons_of_pos ha, List.filter_cons_of_pos ha, hsorted']
    · rw [List.filter_cons_of_neg ha, List.filter_cons_of_neg ha, ih]

end Filter

/-! ### By name -/

theorem notAfter_iff_le {a b : String} : (!decide (b < a)) = true ↔ a ≤ b := by
  rw [Bool.not_eq_true', decide_eq_false_iff_not, not_lt]

theorem byName_trans (name : α → String) (a b c : α) (hab : !decide (name b < name a))
    (hbc : !decide (name c < name b)) : !decide (name c < name a) := by
  rw [notAfter_iff_le] at hab hbc ⊢
  exact hab.trans hbc

theorem byName_total (name : α → String) (a b : α) :
    !decide (name b < name a) || !decide (name a < name b) := by
  rw [Bool.or_eq_true, notAfter_iff_le, notAfter_iff_le]
  exact le_total _ _

/-- Sorting gives the one arrangement that is in order. -/
theorem mergeSort_eq_of_perm {l m : List String} (h : l.Perm m) (hm : m.Pairwise (· ≤ ·)) :
    (l.mergeSort fun a b ↦ !decide (b < a)) = m := by
  have hsorted := List.pairwise_mergeSort (byName_trans id) (byName_total id) l
  refine ((List.mergeSort_perm l _).trans h).eq_of_pairwise ?_ ?_ hm
  · intro a b _ _ hab hba
    exact le_antisymm hab hba
  · exact hsorted.imp fun hab ↦ notAfter_iff_le.mp hab

end BracketSpacing.Sorting
