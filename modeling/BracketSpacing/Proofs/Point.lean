import BracketSpacing.Proofs.Document
import BracketSpacing.Proofs.Text.Cut
import Mathlib.Data.Prod.Lex
import Mathlib.Order.Interval.Set.Basic

/-!
Points anywhere. A point is a row and a byte column, and neither has to be in the text. On a line of
the text its column counts the whole characters before it (`isGreatest_charColumn`): a byte column
inside a character is the column of that character, and one behind the line is the end of the line
(`columns_round_down`). So a point on a line is rounded down to a place of this line
(`offset_le_and_row_offset`), and a point below all lines is the end of the text
(`offset_of_length_le`). Offsets are then in the order of the points
(`offsets_are_in_order_of_points`).
-/

set_option autoImplicit false
set_option relaxedAutoImplicit false

namespace BracketSpacing

open Text BracketSpacing.Tree

namespace Document

variable {text line : List Char} {p q : Point}

/-! ### Columns -/

/-- The lines in bytes are the lines of the text, encoded one by one. -/
theorem byteLines_getElem? (text : List Char) (r : Nat) :
    (ofText text).byteLines[r]? = (text.splitOn '\n')[r]?.map Utf8.encode := by
  change ((Utf8.encode text).splitOn 0x0A)[r]? = _
  rw [splitOn_encode, List.getElem?_map]

/-- The column counts the characters of the line that fit into the byte column. -/
theorem charColumn_of_line (h : (text.splitOn '\n')[p.row]? = some line) :
    (ofText text).charColumn p = (Utf8.fitting line p.column).length := by
  simp only [charColumn, byteLines_getElem?, h, Option.map_some]
  rw [Utf8.decodeDropping_take_encode]

/-- The column of a point is the number of whole characters before it on its line. -/
theorem isGreatest_charColumn (h : (text.splitOn '\n')[p.row]? = some line) :
    IsGreatest {k | k ≤ line.length ∧ byteOffset line k ≤ p.column}
      ((ofText text).charColumn p) := by
  rw [charColumn_of_line h]
  simp only [byteOffset_eq_size]
  exact Utf8.isGreatest_length_fitting line p.column

/-- Below all lines every column is zero. -/
theorem charColumn_of_length_le (h : (text.splitOn '\n').length ≤ p.row) :
    (ofText text).charColumn p = 0 := by
  simp only [charColumn, byteLines_getElem?, List.getElem?_eq_none h, Option.map_none]

/-- On one row, columns are in the order of their byte columns. -/
theorem charColumn_le_charColumn (text : List Char) (hrow : p.row = q.row)
    (hcolumn : p.column ≤ q.column) :
    (ofText text).charColumn p ≤ (ofText text).charColumn q := by
  rcases Nat.lt_or_ge p.row (text.splitOn '\n').length with hlt | hge
  · have hline := List.getElem?_eq_getElem hlt
    obtain ⟨⟨hlength, hbytes⟩, -⟩ := isGreatest_charColumn hline
    exact (isGreatest_charColumn (hrow ▸ hline)).2 ⟨hlength, hbytes.trans hcolumn⟩
  · rw [charColumn_of_length_le hge]
    exact Nat.zero_le _

end Document

/-- On a line of a text, the character column of a byte column is the greatest number of characters
of the line whose bytes do not go beyond it. Inside a character it is the column of this character,
and behind the line it is the length of the line. -/
theorem Document.columns_round_down (text : List Char) (row column : Nat)
    (hrow : row < (text.splitOn '\n').length) :
    let line := (text.splitOn '\n')[row]
    let found := (Document.ofText text).charColumn ⟨row, column⟩
    IsGreatest {k | k ≤ line.length ∧ byteOffset line k ≤ column} found ∧
    (∀ k < line.length, byteOffset line k < column → column < byteOffset line (k + 1) →
      found = k) ∧
    (byteOffset line line.length ≤ column → found = line.length) := by
  intro line found
  have hline : (text.splitOn '\n')[row]? = some line := List.getElem?_eq_getElem hrow
  have hgreatest : IsGreatest {k | k ≤ line.length ∧ byteOffset line k ≤ column} found :=
    isGreatest_charColumn (p := ⟨row, column⟩) hline
  refine ⟨hgreatest, fun k hk hstart hstop ↦ hgreatest.unique ⟨⟨hk.le, hstart.le⟩, ?_⟩,
    fun hend ↦ hgreatest.unique ⟨⟨Nat.le_refl _, hend⟩, fun k hk ↦ hk.1⟩⟩
  rintro m ⟨-, hbytes⟩
  by_contra hlt
  have hnext := byteOffset_le_byteOffset line (Nat.succ_le_of_lt (Nat.lt_of_not_le hlt))
  exact absurd (hnext.trans hbytes) (Nat.not_le_of_lt hstop)

/-- The second line of `a⏎é😀b` has a character of two bytes and one of four. The byte column 4 is
inside the latter, which is at column 1, and the byte column 9 is behind the line. -/
theorem Document.columns_round_down_inside_character :
    let text := ['a', '\n', 'é', '😀', 'b']
    1 < (text.splitOn '\n').length ∧ (Document.ofText text).charColumn ⟨1, 4⟩ = 1 ∧
      (Document.ofText text).charColumn ⟨1, 9⟩ = 3 := by
  intro text
  obtain ⟨-, hinside, -⟩ := Document.columns_round_down text 1 4 (by decide)
  obtain ⟨-, -, hbehind⟩ := Document.columns_round_down text 1 9 (by decide)
  exact ⟨by decide, hinside 1 (by decide) (by decide) (by decide), hbehind (by decide)⟩

/-! ### Offsets -/

namespace Document

variable {text : List Char} {p q : Point}

/-- The offset of a point is its column behind the start of its line. -/
theorem offset_of_lineStart {start : Nat} (h : (0 :: newlineEnds 0 text)[p.row]? = some start) :
    (ofText text).offset p = start + (ofText text).charColumn p := by
  have hstart : (ofText text).lineStarts[p.row]? = some start := h
  simp only [offset, hstart]

/-- Below all lines every point is the end of the text. -/
theorem offset_of_length_le (h : (text.splitOn '\n').length ≤ p.row) :
    (ofText text).offset p = text.length := by
  have hnone : (ofText text).lineStarts[p.row]? = none := by
    rw [length_splitOn] at h
    rw [List.getElem?_eq_none_iff]
    change (0 :: newlineEnds 0 text).length ≤ p.row
    rwa [List.length_cons, length_newlineEnds]
  simp only [offset, hnone]
  rfl

/-- A line starts at the offset in the table, and all its places are on its row. -/
theorem exists_start_of_line {line : List Char} {r : Nat}
    (h : (text.splitOn '\n')[r]? = some line) :
    ∃ start, (0 :: newlineEnds 0 text)[r]? = some start ∧
      ∀ k ≤ line.length, start + k ≤ text.length ∧ row text (start + k) = r := by
  obtain ⟨above, below, rfl, hfree, hcount, hends⟩ := exists_append_of_splitOn h
  have htake (k : Nat) (hk : k ≤ line.length) :
      (above ++ line ++ below).take (above.length + k) = above ++ line.take k := by
    rw [List.append_assoc, List.take_length_add_append, List.take_append_of_le_length hk]
  have hrow (k : Nat) (hk : k ≤ line.length) :
      row (above ++ line ++ below) (above.length + k) = r := by
    rw [row, htake k hk, List.count_append, hcount,
      List.count_eq_zero.mpr fun hmem ↦ hfree (List.mem_of_mem_take hmem), Nat.add_zero]
  refine ⟨above.length, ?_, fun k hk ↦ ⟨?_, hrow k hk⟩⟩
  · have hstart : lineStart (above ++ line ++ below) (above.length + 0) = above.length := by
      rw [lineStart, htake 0 (Nat.zero_le _), List.take_zero, List.append_nil,
        List.rdropWhile_eq_self_iff.mpr]
      rintro hne
      rcases hends with hnil | ⟨upper, rfl⟩
      · exact absurd hnil hne
      · simp
    have hplace := lineStarts_getElem?_row (above ++ line ++ below) (above.length + 0)
    rwa [hrow 0 (Nat.zero_le _), hstart] at hplace
  · rw [List.length_append, List.length_append]
    omega

/-- A point on a line of the text is rounded to a place of this line. -/
theorem offset_le_and_row_offset (h : p.row < (text.splitOn '\n').length) :
    (ofText text).offset p ≤ text.length ∧ row text ((ofText text).offset p) = p.row := by
  have hline := List.getElem?_eq_getElem h
  obtain ⟨start, hstart, hplace⟩ := exists_start_of_line hline
  rw [offset_of_lineStart hstart]
  exact hplace _ (isGreatest_charColumn hline).1.1

/-- No offset lies behind the text. -/
theorem offset_le_length (text : List Char) (p : Point) :
    (ofText text).offset p ≤ text.length := by
  rcases Nat.lt_or_ge p.row (text.splitOn '\n').length with hlt | hge
  · exact (offset_le_and_row_offset hlt).1
  · exact Nat.le_of_eq (offset_of_length_le hge)

/-- Offsets are in the order of the rows. -/
theorem offset_le_offset_of_row_lt (h : p.row < q.row) :
    (ofText text).offset p ≤ (ofText text).offset q := by
  rcases Nat.lt_or_ge q.row (text.splitOn '\n').length with hlt | hge
  · have hp := (offset_le_and_row_offset (h.trans hlt)).2
    have hq := (offset_le_and_row_offset hlt).2
    by_contra hnot
    have hrows := row_le_row text (Nat.le_of_not_le hnot)
    omega
  · rw [offset_of_length_le hge]
    exact offset_le_length text p

/-- On one row, offsets differ as columns do. -/
theorem offset_sub_offset (text : List Char) (h : p.row = q.row) :
    ((ofText text).offset p : Int) - (ofText text).offset q =
      ((ofText text).charColumn p : Int) - (ofText text).charColumn q := by
  rcases Nat.lt_or_ge p.row (text.splitOn '\n').length with hlt | hge
  · obtain ⟨start, hstart, -⟩ := exists_start_of_line (List.getElem?_eq_getElem hlt)
    rw [offset_of_lineStart hstart, offset_of_lineStart (h ▸ hstart)]
    omega
  · rw [offset_of_length_le hge, offset_of_length_le (h ▸ hge), charColumn_of_length_le hge,
      charColumn_of_length_le (h ▸ hge), Int.sub_self, Int.sub_self]

end Document

/-- Wherever two points are, their offsets are in the text and in the order of the points, by row
and then by byte column. On one row offsets differ by as much as character columns do. -/
theorem Document.offsets_are_in_order_of_points (text : List Char) (p q : Point) :
    let d := Document.ofText text
    d.offset p ∈ Set.Icc 0 text.length ∧
    (toLex (p.row, p.column) ≤ toLex (q.row, q.column) → d.offset p ≤ d.offset q) ∧
    (p.row = q.row →
      (d.offset p : Int) - d.offset q = (d.charColumn p : Int) - d.charColumn q) := by
  intro d
  refine ⟨⟨Nat.zero_le _, offset_le_length text p⟩, fun h ↦ ?_, offset_sub_offset text⟩
  rcases Prod.Lex.toLex_le_toLex.mp h with hrow | ⟨hrow, hcolumn⟩
  · exact offset_le_offset_of_row_lt hrow
  · have hcolumns := charColumn_le_charColumn text hrow hcolumn
    have hoffsets := offset_sub_offset text hrow
    change (ofText text).offset p ≤ (ofText text).offset q
    omega

/-- In `aé⏎😀b` the first point is inside `é`, the second one is behind the end of the same line, and
the third one is below all lines. -/
theorem Document.offsets_are_in_order_of_points_anywhere :
    let d := Document.ofText ['a', 'é', '\n', '😀', 'b']
    (toLex (0, 2) ≤ toLex (0, 7) ∧ d.offset ⟨0, 2⟩ ≤ d.offset ⟨0, 7⟩) ∧
      (toLex (0, 7) ≤ toLex (5, 3) ∧ d.offset ⟨0, 7⟩ ≤ d.offset ⟨5, 3⟩) ∧
      (d.offset ⟨0, 2⟩ : Int) - d.offset ⟨0, 7⟩ = -1 := by
  intro d
  have hsame : toLex (0, 2) ≤ toLex (0, 7) := by decide
  have hbelow : toLex (0, 7) ≤ toLex (5, 3) := by decide
  obtain ⟨-, hfirst, hcolumns⟩ :=
    Document.offsets_are_in_order_of_points ['a', 'é', '\n', '😀', 'b'] ⟨0, 2⟩ ⟨0, 7⟩
  obtain ⟨-, hlast, -⟩ :=
    Document.offsets_are_in_order_of_points ['a', 'é', '\n', '😀', 'b'] ⟨0, 7⟩ ⟨5, 3⟩
  exact ⟨⟨hsame, hfirst hsame⟩, ⟨hbelow, hlast hbelow⟩, (hcolumns rfl).trans (by decide +kernel)⟩

end BracketSpacing
