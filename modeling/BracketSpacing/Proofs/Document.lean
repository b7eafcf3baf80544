import BracketSpacing.Proofs.Text.Line

/-!
Byte places and characters. The bytes, the lines as bytes and the line starts of a text are three
tables built apart from each other; at the bytes and points of a character index they agree
(`slice_byteOffset`, `charColumn_pointAt`, `offset_pointAt`). So a node that covers some characters
becomes the token of exactly these characters (`token_of_spans`).
-/

set_option autoImplicit false
set_option relaxedAutoImplicit false

namespace BracketSpacing

open Text BracketSpacing.Tree

namespace Document

/-! ### The tables at a place -/

/-- The bytes before a character are those of the characters before it. -/
theorem take_byteOffset (text : List Char) (i : Nat) :
    (Utf8.encode text).take (byteOffset text i) = Utf8.encode (text.take i) := by
  have htext : Utf8.encode text = Utf8.encode (text.take i) ++ Utf8.encode (text.drop i) := by
    rw [← Utf8.encode_append, List.take_append_drop]
  rw [htext, byteOffset_eq_size]
  exact List.take_left

/-- The bytes between two places are those of the characters between them. -/
theorem slice_byteOffset (text : List Char) {i j : Nat} (hij : i ≤ j) :
    (ofText text).slice (byteOffset text i) (byteOffset text j) = between text i j := by
  have hbytes : Utf8.encode (text.take j) =
      Utf8.encode (text.take i) ++ Utf8.encode (between text i j) := by
    rw [← Utf8.encode_append, take_append_between text hij]
  have hdrop : (Utf8.encode (text.take j)).drop (byteOffset text i) =
      Utf8.encode (between text i j) := by
    rw [hbytes, byteOffset_eq_size]
    exact List.drop_left
  change Utf8.decodeReplacing (((Utf8.encode text).take _).drop _) = _
  rw [take_byteOffset, hdrop, Utf8.decodeReplacing_encode]

/-- The column of a character counts the characters before it on its line. -/
theorem charColumn_pointAt (text : List Char) (i : Nat) :
    (ofText text).charColumn (pointAt text i) = (lineBefore text i).length := by
  have hline : (ofText text).byteLines[(pointAt text i).row]? =
      some (Utf8.encode (lineBefore text i ++ (text.drop i).takeWhile (· ≠ '\n'))) := by
    change ((Utf8.encode text).splitOn 0x0A)[row text i]? = _
    rw [splitOn_encode, List.getElem?_map, splitOn_getElem?_row, Option.map_some]
  have hcut : (Utf8.encode (lineBefore text i ++ (text.drop i).takeWhile (· ≠ '\n'))).take
      (pointAt text i).column = Utf8.encode (lineBefore text i) := by
    rw [Utf8.encode_append, pointAt, ← Utf8.size_eq_utf8ByteSize]
    exact List.take_left
  simp only [charColumn, hline]
  rw [hcut, Utf8.decodeDropping_encode]

/-- The point of a character leads back to the character. -/
theorem offset_pointAt {text : List Char} {i : Nat} (hi : i ≤ text.length) :
    (ofText text).offset (pointAt text i) = i := by
  have hstart : (ofText text).lineStarts[(pointAt text i).row]? = some (lineStart text i) :=
    lineStarts_getElem?_row text i
  simp only [offset, hstart]
  rw [charColumn_pointAt, lineStart_add_length_lineBefore hi]

end Document

/-! ### Tokens -/

/-- A label covers the characters from `i` up to `j`: its bytes and its points are those of the two
places. -/
structure Tree.Label.Spans (l : Label) (text : List Char) (i j : Nat) : Prop where
  le : i ≤ j
  le_length : j ≤ text.length
  startByte : l.startByte = byteOffset text i
  stopByte : l.stopByte = byteOffset text j
  start : l.start = pointAt text i
  stop : l.stop = pointAt text j

namespace Tree.Label.Spans

variable {text : List Char} {n : Node} {i j : Nat}

/-- What a label spans starts within the text. -/
theorem start_le_length {l : Label} (h : l.Spans text i j) : i ≤ text.length :=
  h.le.trans h.le_length

section Order

variable {l l' : Label} {i' j' : Nat}

/-- Labels one after the other in bytes span characters one after the other. -/
theorem stop_le_start (h : l.Spans text i j) (h' : l'.Spans text i' j')
    (hle : l.stopByte ≤ l'.startByte) : j ≤ i' := by
  rw [h.stopByte, h'.startByte] at hle
  exact le_of_byteOffset_le h.le_length hle

theorem start_le_start (h : l.Spans text i j) (h' : l'.Spans text i' j')
    (hle : l.startByte ≤ l'.startByte) : i ≤ i' := by
  rw [h.startByte, h'.startByte] at hle
  exact le_of_byteOffset_le h.start_le_length hle

theorem stop_le_stop (h : l.Spans text i j) (h' : l'.Spans text i' j')
    (hle : l.stopByte ≤ l'.stopByte) : j ≤ j' := by
  rw [h.stopByte, h'.stopByte] at hle
  exact le_of_byteOffset_le h.le_length hle

end Order

/-- The token has the characters that the label spans. -/
theorem token_text (h : n.label.Spans text i j) :
    ((Document.ofText text).token n).text = String.ofList (between text i j) := by
  change String.ofList ((Document.ofText text).slice n.label.startByte n.label.stopByte) = _
  rw [h.startByte, h.stopByte, Document.slice_byteOffset text h.le]

theorem token_start (h : n.label.Spans text i j) :
    ((Document.ofText text).token n).start = i := by
  change (((Document.ofText text).offset n.label.start : Nat) : Int) = i
  rw [h.start, Document.offset_pointAt h.start_le_length]

theorem token_stop (h : n.label.Spans text i j) :
    ((Document.ofText text).token n).stop = j := by
  change (((Document.ofText text).offset n.label.stop : Nat) : Int) = j
  rw [h.stop, Document.offset_pointAt h.le_length]

theorem token_startLine (h : n.label.Spans text i j) :
    ((Document.ofText text).token n).startLine = 1 + row text i := by
  change (n.label.start.row : Int) + 1 = _
  rw [h.start, Int.add_comm]
  rfl

theorem token_stopLine (h : n.label.Spans text i j) :
    ((Document.ofText text).token n).stopLine = 1 + row text j := by
  change (n.label.stop.row : Int) + 1 = _
  rw [h.stop, Int.add_comm]
  rfl

theorem token_startColumn (h : n.label.Spans text i j) :
    ((Document.ofText text).token n).startColumn = i - lineStart text i := by
  change (((Document.ofText text).charColumn n.label.start : Nat) : Int) = _
  rw [h.start, Document.charColumn_pointAt]
  have hsum := lineStart_add_length_lineBefore h.start_le_length
  omega

theorem token_stopColumn (h : n.label.Spans text i j) :
    ((Document.ofText text).token n).stopColumn = j - lineStart text j := by
  change (((Document.ofText text).charColumn n.label.stop : Nat) : Int) = _
  rw [h.stop, Document.charColumn_pointAt]
  have hsum := lineStart_add_length_lineBefore h.le_length
  omega

end Tree.Label.Spans

/-- A node that covers the characters from `i` up to `j` becomes the token of these characters, with
the lines and columns at which they start and stop. -/
theorem Document.token_of_spans (text : List Char) (n : Node) (i j : Nat)
    (h : n.label.Spans text i j) :
    (Document.ofText text).token n =
      { text := String.ofList (between text i j)
        start := i
        stop := j
        startLine := 1 + row text i
        startColumn := i - lineStart text i
        stopLine := 1 + row text j
        stopColumn := j - lineStart text j } := by
  rw [Document.token, Token.mk.injEq]
  exact ⟨h.token_text, h.token_start, h.token_stop, h.token_startLine, h.token_startColumn,
    h.token_stopLine, h.token_stopColumn⟩

/-- Characters of one, two and four bytes before and inside the node, on the second line. -/
theorem Document.token_of_spans_second_line :
    let n : Node := .mk
      { kind := "identifier"
        start := ⟨1, 2⟩
        stop := ⟨1, 7⟩
        startByte := 5
        stopByte := 10 } []
    n.label.Spans ['a', 'b', '\n', 'é', '😀', 'c', ']'] 4 6 ∧
      (Document.ofText ['a', 'b', '\n', 'é', '😀', 'c', ']']).token n =
        ⟨"😀c", 4, 6, 2, 1, 2, 3⟩ := by
  intro n
  have hspans : n.label.Spans ['a', 'b', '\n', 'é', '😀', 'c', ']'] 4 6 :=
    ⟨by decide, by decide, by decide, by decide, by decide, by decide⟩
  exact ⟨hspans, (Document.token_of_spans _ n 4 6 hspans).trans (by decide)⟩

end BracketSpacing
