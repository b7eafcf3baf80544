import BracketSpacing.Document
import BracketSpacing.Proofs.Text.Utf8
import Mathlib.Data.List.DropRight

/-!
Where a character of a text stands. A place is a character index; before it come a number of
newlines, and on its own line some characters. Splitting at newlines, as characters or as bytes, and
the table of line starts all number the lines by the newlines before them (`splitOn_getElem?_row`,
`splitOn_encode`, `lineStarts_getElem?_row`).
-/

set_option autoImplicit false
set_option relaxedAutoImplicit false

namespace BracketSpacing.Text

/-! ### Splitting -/

section Split

variable {α : Type} [DecidableEq α]

theorem splitOn_cons_self (separator : α) (l : List α) :
    (separator :: l).splitOn separator = [] :: l.splitOn separator := by
  rw [List.splitOn_cons_eq_if_modifyHead, if_pos (beq_self_eq_true separator)]

theorem splitOn_cons_of_ne {separator a : α} (h : a ≠ separator) (l : List α) :
    (a :: l).splitOn separator = (l.splitOn separator).modifyHead (a :: ·) := by
  rw [List.splitOn_cons_eq_if_modifyHead, if_neg (by simpa using h)]

/-- There is one piece more than there are separators. -/
theorem length_splitOn (separator : α) (l : List α) :
    (l.splitOn separator).length = l.count separator + 1 := by
  induction l with
  | nil => rfl
  | cons a l ih =>
    by_cases h : a = separator
    · subst h
      rw [splitOn_cons_self, List.length_cons, ih, List.count_cons_self]
    · rw [splitOn_cons_of_ne h, List.length_modifyHead, ih, List.count_cons_of_ne h]

/-- What holds no separator joins the first piece. -/
theorem splitOn_append_of_notMem {separator : α} {start : List α} (h : separator ∉ start)
    (l : List α) :
    (start ++ l).splitOn separator = (l.splitOn separator).modifyHead (start ++ ·) := by
  induction start with
  | nil =>
    rw [List.nil_append]
    cases l.splitOn separator <;> rfl
  | cons a start ih =>
    obtain ⟨hne, hrest⟩ := not_or.mp (mt List.mem_cons.mpr h)
    rw [List.cons_append, splitOn_cons_of_ne (Ne.symm hne), ih hrest, List.modifyHead_modifyHead]
    rfl

/-- The first piece ends at the first separator. -/
theorem splitOn_getElem?_zero (separator : α) (l : List α) :
    (l.splitOn separator)[0]? = some (l.takeWhile (· ≠ separator)) := by
  induction l with
  | nil => rfl
  | cons a l ih =>
    by_cases h : a = separator
    · subst h
      rw [splitOn_cons_self]
      simp
    · rw [splitOn_cons_of_ne h, List.getElem?_modifyHead_zero, ih]
      simp [h]

/-- Each piece stands in the list behind as many separators as there are pieces before it, the last
of them right before the piece. -/
theorem exists_append_of_splitOn {separator : α} {l piece : List α} {k : Nat}
    (h : (l.splitOn separator)[k]? = some piece) :
    ∃ above below, l = above ++ piece ++ below ∧ separator ∉ piece ∧ above.count separator = k ∧
      (above = [] ∨ ∃ upper, above = upper ++ [separator]) := by
  induction l generalizing k piece with
  | nil =>
    obtain ⟨rfl, rfl⟩ : k = 0 ∧ piece = [] := by
      simpa [List.splitOn_nil, List.getElem?_singleton, eq_comm] using h
    exact ⟨[], [], rfl, List.not_mem_nil, rfl, Or.inl rfl⟩
  | cons a l ih =>
    by_cases ha : a = separator
    · subst ha
      rw [splitOn_cons_self] at h
      cases k with
      | zero =>
        obtain rfl : [] = piece := Option.some.inj h
        exact ⟨[], a :: l, rfl, List.not_mem_nil, rfl, Or.inl rfl⟩
      | succ k =>
        obtain ⟨above, below, rfl, hfree, hcount, hends⟩ := ih h
        refine ⟨a :: above, below, rfl, hfree, by rw [List.count_cons_self, hcount], Or.inr ?_⟩
        rcases hends with rfl | ⟨upper, rfl⟩
        · exact ⟨[], rfl⟩
        · exact ⟨a :: upper, rfl⟩
    · rw [splitOn_cons_of_ne ha] at h
      cases k with
      | zero =>
        rw [List.getElem?_modifyHead_zero, Option.map_eq_some_iff] at h
        obtain ⟨piece, hpiece, rfl⟩ := h
        obtain ⟨above, below, rfl, hfree, hcount, hends⟩ := ih hpiece
        obtain rfl : above = [] := by
          rcases hends with hnil | ⟨upper, rfl⟩
          · exact hnil
          · exact absurd (List.mem_append_right upper List.mem_cons_self)
              (List.count_eq_zero.mp hcount)
        exact ⟨[], below, rfl, List.not_mem_cons_of_ne_of_not_mem (Ne.symm ha) hfree, rfl,
          Or.inl rfl⟩
      | succ k =>
        rw [List.getElem?_modifyHead_succ] at h
        obtain ⟨above, below, rfl, hfree, hcount, hends⟩ := ih h
        refine ⟨a :: above, below, rfl, hfree, by rw [List.count_cons_of_ne ha, hcount], Or.inr ?_⟩
        rcases hends with rfl | ⟨upper, rfl⟩
        · cases hcount
        · exact ⟨a :: upper, rfl⟩

end Split

/-- Lines can be cut before or after writing a text as bytes. -/
theorem splitOn_encode (text : List Char) :
    (Utf8.encode text).splitOn 0x0A = (text.splitOn '\n').map Utf8.encode := by
  induction text with
  | nil => rfl
  | cons c rest ih =>
    rw [Utf8.encode_cons]
    by_cases h : c = '\n'
    · subst h
      rw [Utf8.encodeChar_newline, List.singleton_append, splitOn_cons_self, splitOn_cons_self,
        ih, List.map_cons, Utf8.encode_nil]
    · rw [splitOn_append_of_notMem (Utf8.newline_notMem_encodeChar h), ih, splitOn_cons_of_ne h]
      cases rest.splitOn '\n' with
      | nil => rfl
      | cons line lines => simp

/-! ### Places -/

/-- The newlines before a place. -/
def row (text : List Char) (i : Nat) : Nat := (text.take i).count '\n'

/-- The index just after the last newline before a place. -/
def lineStart (text : List Char) (i : Nat) : Nat := ((text.take i).rdropWhile (· ≠ '\n')).length

/-- What stands before a place on its own line. -/
def lineBefore (text : List Char) (i : Nat) : List Char := (text.take i).rtakeWhile (· ≠ '\n')

/-- The UTF-8 bytes before a place. -/
def byteOffset (text : List Char) (i : Nat) : Nat := (String.ofList (text.take i)).utf8ByteSize

/-- A place as a row and the UTF-8 bytes before it on that row. -/
def pointAt (text : List Char) (i : Nat) : Tree.Point :=
  ⟨row text i, (String.ofList (lineBefore text i)).utf8ByteSize⟩

/-- The characters from one place up to another. -/
def between (text : List Char) (i j : Nat) : List Char := (text.take j).drop i

theorem take_append_between (text : List Char) {i j : Nat} (hij : i ≤ j) :
    text.take i ++ between text i j = text.take j := by
  have hshort : text.take i = (text.take j).take i := by
    rw [List.take_take, Nat.min_eq_left hij]
  rw [hshort, between, List.take_append_drop]

theorem length_between {text : List Char} {i j : Nat} (hj : j ≤ text.length) :
    (between text i j).length = j - i := by
  rw [between, List.length_drop, List.length_take, Nat.min_eq_left hj]

theorem between_ne_nil_iff {text : List Char} {i j : Nat} (hj : j ≤ text.length) :
    between text i j ≠ [] ↔ i < j := by
  rw [← List.length_pos_iff, length_between hj]
  exact Nat.sub_pos_iff_lt

/-- The row grows by the newlines passed. -/
theorem row_add_count_between (text : List Char) {i j : Nat} (hij : i ≤ j) :
    row text i + (between text i j).count '\n' = row text j := by
  rw [row, row, ← List.count_append, take_append_between text hij]

theorem row_le_row (text : List Char) {i j : Nat} (hij : i ≤ j) : row text i ≤ row text j :=
  Nat.le.intro (row_add_count_between text hij)

/-- Two places are on one line when there is no newline between them. -/
theorem row_eq_row_iff (text : List Char) {i j : Nat} (hij : i ≤ j) :
    row text i = row text j ↔ '\n' ∉ between text i j := by
  rw [← row_add_count_between text hij, ← List.count_eq_zero]
  omega

/-- The byte of a place is the size of what stands before it. -/
theorem byteOffset_eq_size (text : List Char) (i : Nat) :
    byteOffset text i = Utf8.size (text.take i) := (Utf8.size_eq_utf8ByteSize _).symm

/-- The byte grows by the size of what is passed. -/
theorem byteOffset_add_size_between (text : List Char) {i j : Nat} (hij : i ≤ j) :
    byteOffset text i + Utf8.size (between text i j) = byteOffset text j := by
  rw [byteOffset_eq_size, byteOffset_eq_size, ← Utf8.size_append, take_append_between text hij]

theorem byteOffset_le_byteOffset (text : List Char) {i j : Nat} (hij : i ≤ j) :
    byteOffset text i ≤ byteOffset text j :=
  Nat.le.intro (byteOffset_add_size_between text hij)

/-- Bytes are in the order of the characters. -/
theorem le_of_byteOffset_le {text : List Char} {i j : Nat} (hi : i ≤ text.length)
    (h : byteOffset text i ≤ byteOffset text j) : i ≤ j := by
  by_contra hlt
  have hsum := byteOffset_add_size_between text (Nat.le_of_not_le hlt)
  have hlength := length_between (i := j) hi
  have hsize := Utf8.length_le_size (between text j i)
  omega

/-- What stands before a place on its line holds no newline. -/
theorem newline_notMem_lineBefore (text : List Char) (i : Nat) : '\n' ∉ lineBefore text i := by
  intro hmem
  simpa using List.mem_rtakeWhile_imp hmem

/-- A place is its line's start and the characters before it there. -/
theorem lineStart_add_length_lineBefore {text : List Char} {i : Nat} (hi : i ≤ text.length) :
    lineStart text i + (lineBefore text i).length = i := by
  rw [lineStart, lineBefore, ← List.length_append, List.rdropWhile_append_rtakeWhile,
    List.length_take, Nat.min_eq_left hi]

/-- A text up to a place is either all on the first line, or a newline stands right before the line
of the place. -/
theorem take_cases (text : List Char) (i : Nat) :
    (lineStart text i = 0 ∧ text.take i = lineBefore text i) ∨
      ∃ above, lineStart text i = above.length + 1 ∧
        text.take i = above ++ '\n' :: lineBefore text i := by
  have hsplit : (text.take i).rdropWhile (· ≠ '\n') ++ (text.take i).rtakeWhile (· ≠ '\n') =
      text.take i := List.rdropWhile_append_rtakeWhile
  unfold lineStart lineBefore
  rcases List.eq_nil_or_concat ((text.take i).rdropWhile (· ≠ '\n')) with hnil | ⟨above, last, heq⟩
  · left
    rw [hnil, List.nil_append] at hsplit
    exact ⟨by rw [hnil, List.length_nil], hsplit.symm⟩
  · right
    rw [List.concat_eq_append] at heq
    have hne : (text.take i).rdropWhile (· ≠ '\n') ≠ [] := by
      rw [heq]
      exact List.concat_ne_nil last above
    have hlast := List.rdropWhile_last_not _ _ hne
    simp only [heq, List.getLast_append_singleton] at hlast
    have hnewline : last = '\n' := by simpa using hlast
    subst hnewline
    rw [heq, List.append_assoc, List.singleton_append] at hsplit
    exact ⟨above, by rw [heq, List.length_append, List.length_singleton], hsplit.symm⟩

/-- The line of a place goes on after it up to the next newline. -/
theorem splitOn_getElem?_row (text : List Char) (i : Nat) :
    (text.splitOn '\n')[row text i]? =
      some (lineBefore text i ++ (text.drop i).takeWhile (· ≠ '\n')) := by
  have hfree := newline_notMem_lineBefore text i
  have hline : ((lineBefore text i ++ text.drop i).splitOn '\n')[0]? =
      some (lineBefore text i ++ (text.drop i).takeWhile (· ≠ '\n')) := by
    rw [splitOn_append_of_notMem hfree, List.getElem?_modifyHead_zero, splitOn_getElem?_zero,
      Option.map_some]
  have htext : text.splitOn '\n' = (text.take i ++ text.drop i).splitOn '\n' := by
    rw [List.take_append_drop]
  rw [htext, row]
  rcases take_cases text i with ⟨-, htake⟩ | ⟨above, -, htake⟩
  · -- On the first line nothing was cut off before the place.
    rw [htake, List.count_eq_zero.mpr hfree]
    exact hline
  · have hrow : (text.take i).count '\n' = (above.splitOn '\n').length := by
      rw [htake, List.count_append, List.count_cons_self, List.count_eq_zero.mpr hfree,
        length_splitOn, Nat.zero_add]
    rw [hrow, htake, List.append_assoc, List.cons_append, List.splitOn_append_cons_self,
      List.getElem?_append_right (Nat.le_refl _), Nat.sub_self]
    exact hline

open Document in
/-- The line starts of two texts one after the other are those of both. -/
theorem newlineEnds_append (offset : Nat) (first second : List Char) :
    newlineEnds offset (first ++ second) =
      newlineEnds offset first ++ newlineEnds (offset + first.length) second := by
  induction first generalizing offset with
  | nil => rfl
  | cons c first ih =>
    have hlength : offset + (c :: first).length = offset + 1 + first.length := by
      rw [List.length_cons]
      omega
    rw [List.cons_append, newlineEnds, newlineEnds, ih, hlength]
    split_ifs <;> rfl

open Document in
theorem length_newlineEnds (offset : Nat) (text : List Char) :
    (newlineEnds offset text).length = text.count '\n' := by
  induction text generalizing offset with
  | nil => rfl
  | cons c text ih =>
    rw [newlineEnds]
    split_ifs with h
    · rw [List.length_cons, ih, h, List.count_cons_self]
    · rw [ih, List.count_cons_of_ne h]

open Document in
/-- The table of line starts holds the start of the line at its row. -/
theorem lineStarts_getElem?_row (text : List Char) (i : Nat) :
    (0 :: newlineEnds 0 text)[row text i]? = some (lineStart text i) := by
  have hfree := newline_notMem_lineBefore text i
  have htext : newlineEnds 0 text = newlineEnds 0 (text.take i ++ text.drop i) := by
    rw [List.take_append_drop]
  rw [row]
  rcases take_cases text i with ⟨hstart, htake⟩ | ⟨above, hstart, htake⟩
  · rw [htake, List.count_eq_zero.mpr hfree, hstart]
    rfl
  · have hrow : (text.take i).count '\n' = (newlineEnds 0 above).length + 1 := by
      rw [htake, List.count_append, List.count_cons_self, List.count_eq_zero.mpr hfree,
        length_newlineEnds, Nat.zero_add]
    rw [hrow, List.getElem?_cons_succ, htext, htake, List.append_assoc, newlineEnds_append,
      List.getElem?_append_right (Nat.le_refl _), Nat.sub_self, hstart, List.cons_append,
      newlineEnds, if_pos rfl, List.getElem?_cons_zero, Nat.zero_add]

/-- Places on one row have one line start. -/
theorem lineStart_eq_of_row_eq {text : List Char} {i j : Nat} (h : row text i = row text j) :
    lineStart text i = lineStart text j := by
  have hi := lineStarts_getElem?_row text i
  rw [h, lineStarts_getElem?_row text j] at hi
  exact (Option.some.inj hi).symm

end BracketSpacing.Text
