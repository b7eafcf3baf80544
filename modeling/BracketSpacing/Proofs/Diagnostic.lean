import BracketSpacing.Diagnostic
import Mathlib.Data.List.Basic

/-!
Diagnostics by position. Sorting only moves diagnostics past others that stand at a later position
(`filter_isAt_sorted`), and a list in order is determined by what it holds at each position
(`eq_of_filter_isAt_eq`). So leaving diagnostics out before or after sorting is the same
(`filter_sorted`).
-/

set_option autoImplicit false
set_option relaxedAutoImplicit false

namespace BracketSpacing.Diagnostic

/-! ### The order by position -/

/-- The order of two diagnostics is that of their lines, then of their columns. -/
theorem notAfter_iff {a b : Diagnostic} :
    a.notAfter b ↔ a.line < b.line ∨ a.line = b.line ∧ a.column ≤ b.column := by
  simp [notAfter]

theorem notAfter_trans (a b c : Diagnostic) (hab : a.notAfter b) (hbc : b.notAfter c) :
    a.notAfter c := by
  rw [notAfter_iff] at hab hbc ⊢
  omega

/-- Of two diagnostics one is not after the other. -/
theorem notAfter_total (a b : Diagnostic) : a.notAfter b || b.notAfter a := by
  rw [Bool.or_eq_true, notAfter_iff, notAfter_iff]
  omega

def position (d : Diagnostic) : Position := ⟨d.line, d.column⟩

@[simp] theorem position_withPath (path : Option Path) (d : Diagnostic) :
    (d.withPath path).position = d.position := rfl

/-- Whether a diagnostic stands at a position. -/
def isAt (line column : Int) (d : Diagnostic) : Bool := d.line = line ∧ d.column = column

theorem isAt_iff {line column : Int} {d : Diagnostic} :
    d.isAt line column ↔ d.line = line ∧ d.column = column := by
  simp [isAt]

@[simp] theorem isAt_self (d : Diagnostic) : d.isAt d.line d.column := isAt_iff.mpr ⟨rfl, rfl⟩

/-- A diagnostic is among those at its own position. -/
theorem mem_filter_isAt {d : Diagnostic} {ds : List Diagnostic} :
    d ∈ ds.filter (isAt d.line d.column) ↔ d ∈ ds := by
  simp

/-- Lists in order that hold the same at each position, in the same order, are equal. -/
theorem eq_of_filter_isAt_eq {ds es : List Diagnostic} (hds : ds.Pairwise (notAfter · ·))
    (hes : es.Pairwise (notAfter · ·))
    (h : ∀ line column, ds.filter (isAt line column) = es.filter (isAt line column)) : ds = es := by
  have hmem (d : Diagnostic) : d ∈ ds ↔ d ∈ es := by
    rw [← mem_filter_isAt, h, mem_filter_isAt]
  induction ds generalizing es with
  | nil =>
    cases es with
    | nil => rfl
    | cons e es => exact absurd ((hmem e).mpr List.mem_cons_self) List.not_mem_nil
  | cons d ds ih =>
    cases es with
    | nil => exact absurd ((hmem d).mp List.mem_cons_self) List.not_mem_nil
    | cons e es =>
      -- Both heads come first, so they stand at one position, and there the lists agree.
      have hde : d.notAfter e := by
        rcases List.mem_cons.mp ((hmem e).mpr List.mem_cons_self) with rfl | he
        · exact notAfter_iff.mpr (by omega)
        · exact List.rel_of_pairwise_cons hds he
      have hed : e.notAfter d := by
        rcases List.mem_cons.mp ((hmem d).mp List.mem_cons_self) with rfl | hd
        · exact notAfter_iff.mpr (by omega)
        · exact List.rel_of_pairwise_cons hes hd
      have hat : e.isAt d.line d.column := by
        rw [notAfter_iff] at hde hed
        exact isAt_iff.mpr (by omega)
      have hheads := h d.line d.column
      rw [List.filter_cons_of_pos d.isAt_self, List.filter_cons_of_pos hat] at hheads
      obtain ⟨rfl, -⟩ := List.cons.inj hheads
      have htails (line column : Int) :
          ds.filter (isAt line column) = es.filter (isAt line column) := by
        have hboth := h line column
        by_cases hd : d.isAt line column
        · rw [List.filter_cons_of_pos hd, List.filter_cons_of_pos hd] at hboth
          exact (List.cons.inj hboth).2
        · rwa [List.filter_cons_of_neg hd, List.filter_cons_of_neg hd] at hboth
      rw [ih hds.of_cons hes.of_cons htails]
      intro x
      rw [← mem_filter_isAt, htails, mem_filter_isAt]

/-! ### Sorting -/

/-- Sorting neither drops nor repeats a diagnostic. -/
theorem sorted_perm (ds : List Diagnostic) : (sorted ds).Perm ds := List.mergeSort_perm ds _

/-- Sorted diagnostics are in the order of their positions. -/
theorem sorted_increasing (ds : List Diagnostic) : (sorted ds).Pairwise (notAfter · ·) :=
  List.pairwise_mergeSort notAfter_trans notAfter_total ds

/-- Diagnostics at one position keep their order. -/
theorem filter_isAt_sorted (line column : Int) (ds : List Diagnostic) :
    (sorted ds).filter (isAt line column) = ds.filter (isAt line column) := by
  have hpair : (ds.filter (isAt line column)).Pairwise (notAfter · ·) := by
    refine List.pairwise_of_forall_mem_list ?_
    intro a ha b hb
    have hat := isAt_iff.mp (List.mem_filter.mp ha).2
    have hbt := isAt_iff.mp (List.mem_filter.mp hb).2
    exact notAfter_iff.mpr (by omega)
  have hsub : (ds.filter (isAt line column)).Sublist (sorted ds) :=
    List.sublist_mergeSort notAfter_trans notAfter_total hpair List.filter_sublist
  have hfilter := hsub.filter (isAt line column)
  rw [List.filter_filter] at hfilter
  simp only [Bool.and_self] at hfilter
  exact (hfilter.eq_of_length ((sorted_perm ds).filter _).length_eq.symm).symm

/-- Diagnostics may be left out before or after sorting. -/
theorem filter_sorted (keep : Diagnostic → Bool) (ds : List Diagnostic) :
    (sorted ds).filter keep = sorted (ds.filter keep) := by
  refine eq_of_filter_isAt_eq ((sorted_increasing ds).filter keep) (sorted_increasing _) ?_
  intro line column
  rw [List.filter_comm, filter_isAt_sorted, List.filter_comm, filter_isAt_sorted]

end BracketSpacing.Diagnostic
