import BracketSpacing.Proofs.Document
import BracketSpacing.Proofs.Finding
import BracketSpacing.Proofs.Tree.Relabel
import BracketSpacing.Proofs.Verdict

/-!
Code further down in a text. Lines put above a text move every row, byte and character of it by
fixed amounts. The three tables of the longer text, looked at so many rows or bytes further on, are
those of the text itself, out of their range as well as within it (`slice_below`,
`charColumn_below`, `offset_below`). So a tree that is moved down gives the tokens, regions and
findings that it gave before, moved down (`findings_below`), and no verdict changes
(`evaluate_shift`, `place_does_not_count`).
-/

set_option autoImplicit false
set_option relaxedAutoImplicit false

namespace BracketSpacing

open Text BracketSpacing.Tree

/-- How far something is moved down in a text. -/
structure Shift where
  rows : Nat
  bytes : Nat
  characters : Nat
  deriving DecidableEq, Repr

/-- The way down past some lines. -/
def Shift.past (above : List Char) : Shift where
  rows := above.count '\n'
  bytes := (String.ofList above).utf8ByteSize
  characters := above.length

section Definitions

variable (s : Shift)

def Tree.Point.shift (p : Point) : Point := ⟨p.row + s.rows, p.column⟩

def Tree.Label.shift (l : Label) : Label :=
  { l with
    start := l.start.shift s
    stop := l.stop.shift s
    startByte := l.startByte + s.bytes
    stopByte := l.stopByte + s.bytes }

/-- The tree moved down: rows and bytes of every node are raised. -/
def Tree.Node.shift (n : Node) : Node := n.relabel (Label.shift s)

def Position.shift (p : Position) : Position := ⟨p.line + s.rows, p.column⟩

/-- The token moved down: lines and offsets are raised, columns and text stay. -/
def Token.shift (t : Token) : Token :=
  { t with
    start := t.start + s.characters
    stop := t.stop + s.characters
    startLine := t.startLine + s.rows
    stopLine := t.stopLine + s.rows }

def Region.shift (r : Region) : Region where
  kind := r.kind
  owner := r.owner.shift s
  before := r.before.shift s
  first := r.first.shift s
  last := r.last.shift s
  after := r.after.shift s

def Finding.shift : Finding → Finding
  | .region r => .region (r.shift s)
  | .skipped kind start => .skipped kind (start.shift s)

def Diagnostic.shift (d : Diagnostic) : Diagnostic := { d with line := d.line + s.rows }

end Definitions

theorem Tree.Label.moves_shift (s : Shift) : Label.Moves (Label.shift s) :=
  ⟨fun _ ↦ rfl, fun _ ↦ rfl, fun _ ↦ rfl, fun _ ↦ rfl⟩

/-! ### The tables of a longer text -/

/-- The line starts of a text further on are its own, moved. -/
theorem Text.newlineEnds_eq_map (offset : Nat) (text : List Char) :
    Document.newlineEnds offset text = (Document.newlineEnds 0 text).map (· + offset) := by
  induction text generalizing offset with
  | nil => rfl
  | cons c rest ih =>
    rw [Document.newlineEnds, Document.newlineEnds, ih (offset + 1), ih (0 + 1)]
    split_ifs <;> simp [Nat.add_comm, Nat.add_left_comm]

namespace Document

section Tables

variable {above : List Char} (text : List Char) (habove : above.getLast? = some '\n')

/-- Bytes may be counted from the start of the text. -/
theorem slice_below (startByte stopByte : Nat) :
    (ofText (above ++ text)).slice (startByte + (Shift.past above).bytes)
        (stopByte + (Shift.past above).bytes) = (ofText text).slice startByte stopByte := by
  have hbytes : (Shift.past above).bytes = (Utf8.encode above).length :=
    (Utf8.size_eq_utf8ByteSize above).symm
  change Utf8.decodeReplacing (((Utf8.encode (above ++ text)).take _).drop _) =
    Utf8.decodeReplacing (((Utf8.encode text).take _).drop _)
  rw [Utf8.encode_append, hbytes, Nat.add_comm startByte, Nat.add_comm stopByte,
    List.take_length_add_append, List.drop_length_add_append]

include habove

/-- The lines below are the lines of the text. -/
theorem byteLines_below (row : Nat) :
    (ofText (above ++ text)).byteLines[row + (Shift.past above).rows]? =
      (ofText text).byteLines[row]? := by
  obtain ⟨upper, rfl⟩ := List.getLast?_eq_some_iff.mp habove
  have hrows : (Shift.past (upper ++ ['\n'])).rows =
      ((Utf8.encode upper).splitOn 0x0A).length := by
    rw [splitOn_encode, List.length_map, length_splitOn, Shift.past, List.count_append]
    rfl
  change ((Utf8.encode (upper ++ ['\n'] ++ text)).splitOn 0x0A)[_]? =
    ((Utf8.encode text).splitOn 0x0A)[row]?
  rw [List.append_assoc, List.singleton_append, Utf8.encode_append, Utf8.encode_cons,
    Utf8.encodeChar_newline, List.singleton_append, List.splitOn_append_cons_self, hrows,
    List.getElem?_append_right (Nat.le_add_left _ _), Nat.add_sub_cancel]

/-- The line starts below are those of the text, moved by the characters above. -/
theorem lineStarts_below (row : Nat) :
    (ofText (above ++ text)).lineStarts[row + (Shift.past above).rows]? =
      (ofText text).lineStarts[row]?.map (· + (Shift.past above).characters) := by
  obtain ⟨upper, rfl⟩ := List.getLast?_eq_some_iff.mp habove
  have hrows : (Shift.past (upper ++ ['\n'])).rows = (0 :: newlineEnds 0 upper).length := by
    rw [List.length_cons, length_newlineEnds, Shift.past, List.count_append]
    rfl
  -- The last newline above gives the start of the first line below.
  have hends : 0 :: newlineEnds 0 (upper ++ ['\n'] ++ text) =
      (0 :: newlineEnds 0 upper) ++
        (0 :: newlineEnds 0 text).map (· + (upper ++ ['\n']).length) := by
    rw [List.append_assoc, List.singleton_append, newlineEnds_append, newlineEnds, if_pos rfl,
      newlineEnds_eq_map (0 + upper.length + 1)]
    simp
  change (0 :: newlineEnds 0 (upper ++ ['\n'] ++ text))[_]? = (0 :: newlineEnds 0 text)[row]?.map _
  rw [hends, hrows, List.getElem?_append_right (Nat.le_add_left _ _), Nat.add_sub_cancel,
    List.getElem?_map]
  rfl

/-- A column below is the column in the text. -/
theorem charColumn_below (p : Point) :
    (ofText (above ++ text)).charColumn (p.shift (Shift.past above)) =
      (ofText text).charColumn p := by
  simp only [charColumn, Point.shift, byteLines_below text habove]

/-- An offset below is the offset in the text, moved by the characters above. -/
theorem offset_below (p : Point) :
    (ofText (above ++ text)).offset (p.shift (Shift.past above)) =
      (ofText text).offset p + (Shift.past above).characters := by
  have hcolumn := charColumn_below text habove p
  have hstart := lineStarts_below text habove p.row
  have hrow : (p.shift (Shift.past above)).row = p.row + (Shift.past above).rows := rfl
  unfold offset
  rw [hrow, hstart, hcolumn]
  cases (ofText text).lineStarts[p.row]? with
  | none =>
    -- Beyond the last line both offsets are the ends of the texts.
    change (above ++ text).length = text.length + above.length
    rw [List.length_append, Nat.add_comm]
  | some start =>
    change start + _ + _ = start + _ + _
    omega

theorem nodeStart_below (l : Label) :
    (ofText (above ++ text)).nodeStart (l.shift (Shift.past above)) =
      ((ofText text).nodeStart l).shift (Shift.past above) := by
  have hcolumn := charColumn_below text habove l.start
  have hrow : (l.start.shift (Shift.past above)).row = l.start.row + (Shift.past above).rows := rfl
  simp only [nodeStart, position, Label.shift, Position.shift, hcolumn, hrow, Position.mk.injEq,
    and_true]
  omega

/-- The token of a node moved down is its token, moved down. -/
theorem token_below (n : Node) :
    (ofText (above ++ text)).token (n.shift (Shift.past above)) =
      ((ofText text).token n).shift (Shift.past above) := by
  have hrow (p : Point) : (p.shift (Shift.past above)).row = p.row + (Shift.past above).rows := rfl
  simp only [token, Node.shift, Node.label_relabel, Label.shift, Token.shift, slice_below,
    charColumn_below text habove, offset_below text habove, hrow, Token.mk.injEq, true_and,
    and_true]
  omega

/-! ### Findings -/

/-- The region of a candidate moved down is its region, moved down. -/
theorem region?_below (k : Candidate) :
    (k.relabel (Label.shift (Shift.past above))).region? (ofText (above ++ text)) =
      (k.region? (ofText text)).map (Region.shift (Shift.past above)) := by
  have hmoves := Label.moves_shift (Shift.past above)
  have htoken := token_below text habove
  have howner := nodeStart_below text habove k.owner
  unfold Node.shift at htoken
  unfold Candidate.region?
  rw [Candidate.enclosed?_relabel hmoves]
  cases k.enclosed? with
  | none => rfl
  | some e =>
    simp only [Option.map_some, Node.Enclosed.relabel, Node.missing_relabel hmoves,
      Node.firstLeaf_relabel hmoves, Node.lastLeaf_relabel hmoves, Candidate.relabel, htoken,
      howner]
    split_ifs <;> rfl

/-- The finding of a candidate moved down is its finding, moved down. -/
theorem finding_below (k : Candidate) :
    Finding.ofCandidate (ofText (above ++ text)) (k.relabel (Label.shift (Shift.past above))) =
      (Finding.ofCandidate (ofText text) k).shift (Shift.past above) := by
  rw [Finding.ofCandidate, Finding.ofCandidate, region?_below text habove]
  cases k.region? (ofText text) with
  | some r => rfl
  | none =>
    simp only [Option.map_none, Candidate.relabel, Node.label_relabel,
      Node.kind_relabel (Label.moves_shift (Shift.past above))]
    rfl

/-- A tree moved down has its findings, moved down. -/
theorem findings_below (root : Node) :
    (ofText (above ++ text)).findings (root.shift (Shift.past above)) =
      ((ofText text).findings root).map (Finding.shift (Shift.past above)) := by
  have hmoves := Label.moves_shift (Shift.past above)
  have hcandidates : ((Cursor.walk root).map
        (Cursor.relabel (Label.shift (Shift.past above)))).filterMap Candidate.ofCursor? =
      ((Cursor.walk root).filterMap Candidate.ofCursor?).map
        (Candidate.relabel (Label.shift (Shift.past above))) := by
    rw [List.filterMap_map, List.map_filterMap]
    exact congrArg (List.filterMap · _) (funext (Candidate.ofCursor?_relabel hmoves))
  rw [findings, Node.shift, Cursor.walk_relabel, hcandidates, findings, List.map_map, List.map_map]
  exact congrArg (List.map · _) (funext (finding_below text habove))

end Tables

theorem filterMap_region?_shift (s : Shift) (findings : List Finding) :
    (findings.map (Finding.shift s)).filterMap Finding.region? =
      (findings.filterMap Finding.region?).map (Region.shift s) := by
  rw [List.filterMap_map, List.map_filterMap]
  congr 1
  funext finding
  cases finding <;> rfl

end Document

/-! ### Verdicts -/

namespace Region

variable (s : Shift) (r : Region)

theorem leadingSameLine_shift : (r.shift s).leadingSameLine = r.leadingSameLine := by
  simp [leadingSameLine, Token.sameLine, shift, Token.shift]

theorem trailingSameLine_shift : (r.shift s).trailingSameLine = r.trailingSameLine := by
  simp [trailingSameLine, Token.sameLine, shift, Token.shift]

theorem leadingSpaced_shift : (r.shift s).leadingSpaced = r.leadingSpaced := by
  simp [leadingSpaced, Token.spaced, shift, Token.shift]

theorem trailingSpaced_shift : (r.shift s).trailingSpaced = r.trailingSpaced := by
  simp [trailingSpaced, Token.spaced, shift, Token.shift]

end Region

namespace Spacing

variable (s : Shift) (r : Region)

/-- A change of both possible reports is a change of the report. -/
theorem judgeGap_map (wanted sameLine spaced : Bool) (whenMissing whenPresent : Diagnostic)
    (f : Diagnostic → Diagnostic) :
    judgeGap wanted sameLine spaced (f whenMissing) (f whenPresent) =
      (judgeGap wanted sameLine spaced whenMissing whenPresent).map f := by
  unfold judgeGap
  split_ifs <;> rfl

/-- The leading gap is judged alike further down. -/
theorem judgeLeading_shift (wanted : Bool) :
    judgeLeading wanted (r.shift s) = (judgeLeading wanted r).map (Diagnostic.shift s) := by
  rw [judgeLeading, r.leadingSameLine_shift, r.leadingSpaced_shift, judgeLeading, ← judgeGap_map]
  rfl

theorem judgeTrailing_shift (wanted : Bool) :
    judgeTrailing wanted (r.shift s) = (judgeTrailing wanted r).map (Diagnostic.shift s) := by
  rw [judgeTrailing, r.trailingSameLine_shift, r.trailingSpaced_shift, judgeTrailing,
    ← judgeGap_map]
  rfl

/-- Evenness is judged alike further down. -/
theorem judgeEven_shift : judgeEven (r.shift s) = (judgeEven r).map (Diagnostic.shift s) := by
  have hline : (r.shift s).before.sameLine (r.shift s).after = r.before.sameLine r.after := by
    simp [Token.sameLine, Region.shift, Token.shift]
  have hleading : (r.shift s).leadingColumns = r.leadingColumns := rfl
  have htrailing : (r.shift s).trailingColumns = r.trailingColumns := rfl
  rw [judgeEven, judgeEven, hline, hleading, htrailing]
  split_ifs <;> rfl

/-- The diagnostics of a region move with it. -/
theorem evaluate_shift (mode : Mode) :
    evaluate mode (r.shift s) = (evaluate mode r).map (Diagnostic.shift s) := by
  cases mode with
  | even => exact judgeEven_shift s r
  | never =>
    rw [evaluate, evaluate, List.map_append, judgeLeading_shift, judgeTrailing_shift]
  | always =>
    rw [evaluate, evaluate, List.map_append, judgeLeading_shift, judgeTrailing_shift]

end Spacing

/-- Lines above a text change nothing but where it stands. On the longer text, the tree moved down
gives the same findings with rows, lines and offsets raised by what was put above; regions keep
their columns and texts, and every mode reports the same messages at the same columns. The tree may
be any, also one that does not fit the text. -/
theorem Document.place_does_not_count (above text : List Char) (root : Node)
    (h : above.getLast? = some '\n') :
    let s : Shift :=
      { rows := above.count '\n'
        bytes := (String.ofList above).utf8ByteSize
        characters := above.length }
    let d := Document.ofText text
    let lower := Document.ofText (above ++ text)
    lower.regions (root.shift s) = (d.regions root).map (Region.shift s) ∧
    lower.findings (root.shift s) = (d.findings root).map (Finding.shift s) ∧
    ∀ mode, (lower.regions (root.shift s)).map (Spacing.evaluate mode) =
      (d.regions root).map fun r ↦ (Spacing.evaluate mode r).map (Diagnostic.shift s) := by
  intro s d lower
  have hfindings : lower.findings (root.shift s) = (d.findings root).map (Finding.shift s) :=
    Document.findings_below text h root
  have hregions : lower.regions (root.shift s) = (d.regions root).map (Region.shift s) := by
    rw [Document.regions, hfindings, Document.filterMap_region?_shift, Document.regions]
  refine ⟨hregions, hfindings, fun mode ↦ ?_⟩
  rw [hregions, List.map_map]
  exact List.map_congr_left fun r _ ↦ Spacing.evaluate_shift s r mode

/-- Two lines of three characters and four bytes above the access `x[ (é )]`. -/
theorem Document.place_does_not_count_for_paddedAccess :
    let s : Shift := ⟨2, 4, 3⟩
    ['é', '\n', '\n'].getLast? = some '\n' ∧
    (Document.ofText (['é', '\n', '\n'] ++ paddedText)).regions (paddedAccess.shift s) =
      [{ kind := .member
         owner := ⟨3, 0⟩
         before := ⟨"(", 6, 7, 3, 3, 3, 4⟩
         first := ⟨"é", 7, 8, 3, 4, 3, 5⟩
         last := ⟨"é", 7, 8, 3, 4, 3, 5⟩
         after := ⟨")", 9, 10, 3, 6, 3, 7⟩ }] := by
  intro s
  have hregions : (Document.ofText paddedText).regions paddedAccess = [paddedRegion] := by
    decide +kernel
  refine ⟨rfl, ?_⟩
  exact (Document.place_does_not_count ['é', '\n', '\n'] paddedText paddedAccess rfl).1.trans
    (by rw [hregions]; decide)

end BracketSpacing
