import BracketSpacing.Proofs.Document
import BracketSpacing.Proofs.Text.Cut
import Mathlib.Order.Interval.Finset.Nat

/-!
The text of any byte range. A range may start and end inside a character. The bytes at its start
that belong to a character from before the range give one mark each, then come the characters that
are in the range as a whole, and a character that starts in the range and is cut at its end gives
one mark (`decodeReplacing_drop_take`, `slice_is_chars_between_marks`). Each of the three parts is
what the first character of a text adds to that of its rest (`strayBytes_cons_of_le`,
`charsWithin_cons`, `cutsChar_cons`).
-/

set_option autoImplicit false
set_option relaxedAutoImplicit false

namespace BracketSpacing

namespace Text

/-! ### The parts of a byte range -/

/-- The bytes from `a` up to `b` that belong to a character which starts before `a`. -/
def strayBytes (text : List Char) (a b : Nat) : Finset Nat :=
  {k ∈ Finset.Ico a b | ∃ i < text.length,
    byteOffset text i < a ∧ byteOffset text i ≤ k ∧ k < byteOffset text (i + 1)}

/-- The characters all of whose bytes are from `a` up to `b`. -/
def charsWithin (text : List Char) (a b : Nat) : List Char :=
  ((List.range text.length).filter fun i ↦
    a ≤ byteOffset text i ∧ byteOffset text (i + 1) ≤ b).filterMap (text[·]?)

/-- The end of the bytes from `a` up to `b` is inside a character which starts at `a` or later. -/
def CutsChar (text : List Char) (a b : Nat) : Prop :=
  ∃ i < text.length, a ≤ byteOffset text i ∧ byteOffset text i < b ∧ b < byteOffset text (i + 1)

instance (text : List Char) (a b : Nat) : Decidable (CutsChar text a b) :=
  inferInstanceAs (Decidable (∃ i < text.length,
    a ≤ byteOffset text i ∧ byteOffset text i < b ∧ b < byteOffset text (i + 1)))

/-! ### What the first character adds -/

section Cons

variable {c : Char} {text : List Char} {a b : Nat}

theorem byteOffset_zero (text : List Char) : byteOffset text 0 = 0 := by
  rw [byteOffset_eq_size]
  rfl

/-- The first character moves every later one by its width. -/
theorem byteOffset_cons_succ (c : Char) (text : List Char) (i : Nat) :
    byteOffset (c :: text) (i + 1) = Utf8.width c + byteOffset text i := by
  rw [byteOffset_eq_size, byteOffset_eq_size, List.take_succ_cons, Utf8.size_cons]

theorem byteOffset_succ_pos {i : Nat} (h : i < text.length) : 0 < byteOffset text (i + 1) := by
  cases text with
  | nil => exact absurd h (Nat.not_lt_zero i)
  | cons c text =>
    rw [byteOffset_cons_succ]
    exact Nat.add_pos_left (Utf8.width_pos c) _

/-- The first character is within a range from the start that it fits into; the others are within
the range less its width. -/
theorem charsWithin_cons (c : Char) (text : List Char) (a b : Nat) :
    charsWithin (c :: text) a b =
      (if a = 0 ∧ Utf8.width c ≤ b then [c] else []) ++
        charsWithin text (a - Utf8.width c) (b - Utf8.width c) := by
  have hrest : ((List.range text.length).filter fun i ↦
      a ≤ byteOffset (c :: text) (i + 1) ∧ byteOffset (c :: text) (i + 1 + 1) ≤ b) =
      (List.range text.length).filter fun i ↦
        a - Utf8.width c ≤ byteOffset text i ∧ byteOffset text (i + 1) ≤ b - Utf8.width c := by
    refine List.filter_congr fun i hi ↦ ?_
    have hpos := byteOffset_succ_pos (List.mem_range.mp hi)
    rw [byteOffset_cons_succ, byteOffset_cons_succ, decide_eq_decide]
    omega
  have hfirst : (a ≤ byteOffset (c :: text) 0 ∧ byteOffset (c :: text) (0 + 1) ≤ b) ↔
      (a = 0 ∧ Utf8.width c ≤ b) := by
    rw [byteOffset_zero, byteOffset_cons_succ, byteOffset_zero, Nat.le_zero, Nat.add_zero]
  rw [charsWithin, charsWithin, List.length_cons, List.range_succ_eq_map, List.filter_cons,
    List.filter_map, ← hrest]
  simp only [hfirst, decide_eq_true_eq]
  split_ifs <;> simp [Function.comp_def, List.filterMap_map]

/-- The first character is cut by a range from the start that is shorter; else the rest is cut. -/
theorem cutsChar_cons :
    CutsChar (c :: text) a b ↔
      (a = 0 ∧ 0 < b ∧ b < Utf8.width c) ∨
        CutsChar text (a - Utf8.width c) (b - Utf8.width c) := by
  rw [CutsChar, CutsChar, List.length_cons, Nat.exists_lt_succ_left]
  simp only [byteOffset_cons_succ, byteOffset_zero, Nat.add_zero, Nat.le_zero]
  refine or_congr_right (exists_congr fun i ↦ and_congr_right fun _ ↦ ?_)
  omega

/-- A stray byte belongs to the first character, if the range starts inside it, or to a later
one. -/
theorem mem_strayBytes_cons {k : Nat} :
    k ∈ strayBytes (c :: text) a b ↔ (a ≤ k ∧ k < b) ∧
      ((0 < a ∧ k < Utf8.width c) ∨ ∃ i < text.length, Utf8.width c + byteOffset text i < a ∧
        Utf8.width c + byteOffset text i ≤ k ∧ k < Utf8.width c + byteOffset text (i + 1)) := by
  rw [strayBytes, Finset.mem_filter, Finset.mem_Ico, List.length_cons, Nat.exists_lt_succ_left]
  simp only [byteOffset_cons_succ, byteOffset_zero, Nat.add_zero, Nat.zero_le, true_and]

/-- Behind the first character stray bytes are those of the rest. -/
theorem strayBytes_cons_of_le (h : Utf8.width c ≤ a) :
    strayBytes (c :: text) a b =
      (strayBytes text (a - Utf8.width c) (b - Utf8.width c)).image (Utf8.width c + ·) := by
  ext k
  rw [mem_strayBytes_cons, Finset.mem_image]
  simp only [strayBytes, Finset.mem_filter, Finset.mem_Ico]
  constructor
  · rintro ⟨⟨hak, hkb⟩, ⟨-, hk⟩ | ⟨i, hi, hstart, hlow, hhigh⟩⟩
    · omega
    · exact ⟨k - Utf8.width c, ⟨by omega, i, hi, by omega, by omega, by omega⟩, by omega⟩
  · rintro ⟨m, ⟨⟨hlow, hhigh⟩, i, hi, hstart, hm, hmhigh⟩, rfl⟩
    exact ⟨by omega, Or.inr ⟨i, hi, by omega, by omega, by omega⟩⟩

/-- Inside the first character all its bytes are stray ones. -/
theorem strayBytes_cons_of_lt (hpos : 0 < a) (h : a < Utf8.width c) :
    strayBytes (c :: text) a b = Finset.Ico a (min b (Utf8.width c)) := by
  ext k
  rw [mem_strayBytes_cons, Finset.mem_Ico, Nat.lt_min]
  constructor
  · rintro ⟨⟨hak, hkb⟩, ⟨-, hk⟩ | ⟨i, -, hstart, -, -⟩⟩
    · exact ⟨hak, hkb, hk⟩
    · omega
  · rintro ⟨hak, hkb, hk⟩
    exact ⟨⟨hak, hkb⟩, Or.inl ⟨hpos, hk⟩⟩

theorem strayBytes_zero (text : List Char) (b : Nat) : strayBytes text 0 b = ∅ := by
  simp [strayBytes]

end Cons

/-! ### Ranges from the start of a text -/

theorem not_cutsChar_self (text : List Char) (a : Nat) : ¬ CutsChar text a a := by
  rintro ⟨i, -, hlow, hhigh, -⟩
  omega

/-- The characters that fit into some bytes are those within the range from the start. -/
theorem fitting_eq_charsWithin (text : List Char) (b : Nat) :
    Utf8.fitting text b = charsWithin text 0 b := by
  induction text generalizing b with
  | nil => rfl
  | cons c text ih =>
    rw [charsWithin_cons, Nat.zero_sub, ← ih]
    rcases Nat.lt_or_ge b (Utf8.width c) with hlt | hle
    · rw [Utf8.fitting_cons_of_lt hlt, if_neg (by omega), Nat.sub_eq_zero_of_le hlt.le,
        Utf8.fitting_zero, List.append_nil]
    · rw [Utf8.fitting_cons_of_le hle, if_pos ⟨rfl, hle⟩, List.singleton_append]

/-- Nothing is left over exactly if no character is cut. -/
theorem leftOver_eq_zero_iff (text : List Char) (b : Nat) :
    Utf8.leftOver text b = 0 ↔ ¬ CutsChar text 0 b := by
  induction text generalizing b with
  | nil =>
    refine iff_of_true (by simp [Utf8.leftOver, Utf8.size]) ?_
    rintro ⟨i, hi, -⟩
    exact absurd hi (Nat.not_lt_zero i)
  | cons c text ih =>
    rw [cutsChar_cons, Nat.zero_sub, not_or, ← ih]
    rcases Nat.lt_or_ge b (Utf8.width c) with hlt | hle
    · have hrest : Utf8.leftOver text (b - Utf8.width c) = 0 := by
        rw [Nat.sub_eq_zero_of_le hlt.le, ih]
        exact not_cutsChar_self text 0
      rw [Utf8.leftOver_cons_of_lt hlt]
      omega
    · rw [Utf8.leftOver_cons_of_le hle]
      omega

/-- The bytes up to `b` give the characters within them and a mark for a character that is cut. -/
theorem decodeReplacing_take (text : List Char) (b : Nat) :
    Utf8.decodeReplacing ((Utf8.encode text).take b) =
      charsWithin text 0 b ++ if CutsChar text 0 b then [Utf8.replacement] else [] := by
  rw [Utf8.decodeReplacing_take_encode, fitting_eq_charsWithin]
  simp only [leftOver_eq_zero_iff, ite_not]

/-! ### Ranges anywhere -/

/-- A range of a longer text is the range of its first character and then the range of the rest. -/
theorem drop_take_encode_cons (c : Char) (text : List Char) (a b : Nat) :
    ((Utf8.encode (c :: text)).take b).drop a =
      ((Utf8.encodeChar c).take b).drop a ++
        ((Utf8.encode text).take (b - Utf8.width c)).drop (a - Utf8.width c) := by
  rw [Utf8.encode_cons, List.take_append, List.drop_append, List.length_take]
  change _ ++ ((Utf8.encode text).take (b - Utf8.width c)).drop (a - min b (Utf8.width c)) = _
  rcases Nat.lt_or_ge b (Utf8.width c) with hlt | hle
  · rw [Nat.sub_eq_zero_of_le hlt.le, List.take_zero, List.drop_nil, List.drop_nil]
  · rw [Nat.min_eq_right hle]

/-- The bytes from `a` up to `b` give a mark for each stray one, the characters within them and a
mark for a character that is cut. -/
theorem decodeReplacing_drop_take (text : List Char) (a b : Nat) :
    Utf8.decodeReplacing (((Utf8.encode text).take b).drop a) =
      List.replicate (strayBytes text a b).card Utf8.replacement ++ charsWithin text a b ++
        if CutsChar text a b then [Utf8.replacement] else [] := by
  induction text generalizing a b with
  | nil => simp [strayBytes, charsWithin, CutsChar, Utf8.decodeReplacing, Utf8.pieces]
  | cons c text ih =>
    rcases Nat.eq_zero_or_pos a with rfl | hpos
    · rw [List.drop_zero, decodeReplacing_take, strayBytes_zero, Finset.card_empty,
        List.replicate_zero, List.nil_append]
    -- The range starts behind the first byte of `c`: `c` is neither whole in it nor cut by its end.
    have hchars : charsWithin (c :: text) a b =
        charsWithin text (a - Utf8.width c) (b - Utf8.width c) := by
      rw [charsWithin_cons, if_neg (by omega), List.nil_append]
    have hcut : CutsChar (c :: text) a b ↔
        CutsChar text (a - Utf8.width c) (b - Utf8.width c) := by
      rw [cutsChar_cons, or_iff_right (by omega)]
    rw [drop_take_encode_cons, hchars]
    simp only [hcut]
    rcases Nat.lt_or_ge a (Utf8.width c) with hlt | hle
    · have hstray : ∀ byte ∈ ((Utf8.encodeChar c).take b).drop a, Utf8.IsContinuation byte := by
        intro byte hbyte
        rw [List.drop_take] at hbyte
        exact Utf8.isContinuation_of_mem_drop hpos (List.mem_of_mem_take hbyte)
      have hlength : (((Utf8.encodeChar c).take b).drop a).length =
          (strayBytes (c :: text) a b).card := by
        rw [strayBytes_cons_of_lt hpos hlt, Nat.card_Ico, List.length_drop, List.length_take]
        rfl
      rw [Utf8.decodeReplacing_append_of_isContinuation hstray, hlength,
        Nat.sub_eq_zero_of_le hlt.le, List.drop_zero, decodeReplacing_take, List.append_assoc]
    · have hgone : ((Utf8.encodeChar c).take b).drop a = [] := by
        rw [List.drop_eq_nil_iff, List.length_take]
        exact (Nat.min_le_right _ _).trans hle
      rw [hgone, List.nil_append, ih, strayBytes_cons_of_le hle,
        Finset.card_image_of_injective _ fun _ _ ↦ Nat.add_left_cancel]

end Text

open Text

/-- The text of the bytes from `a` up to `b`, with the end of the text in the place of an end behind
it, is empty if there are no such bytes. Otherwise it has one mark for each byte of a character that
starts before `a`, then the characters that are in the range as a whole, and then one mark if the
range ends inside a character that starts in it. -/
theorem Document.slice_is_chars_between_marks (text : List Char) (a b : Nat) :
    let stop := min b (String.ofList text).utf8ByteSize
    (Document.ofText text).slice a b =
      if stop ≤ a then []
      else
        List.replicate (strayBytes text a stop).card '\uFFFD' ++ charsWithin text a stop ++
          if CutsChar text a stop then ['\uFFFD'] else [] := by
  intro stop
  have hslice : (Document.ofText text).slice a b =
      Utf8.decodeReplacing (((Utf8.encode text).take stop).drop a) := by
    have hstop : stop = min b (Utf8.encode text).length := by
      rw [← Utf8.size, Utf8.size_eq_utf8ByteSize]
    rw [hstop, ← List.take_eq_take_min]
    rfl
  rw [hslice]
  by_cases hempty : stop ≤ a
  · rw [if_pos hempty, List.drop_eq_nil_of_le ((List.length_take_le _ _).trans hempty)]
    exact Utf8.decodeReplacing_encode []
  · rw [if_neg hempty]
    exact decodeReplacing_drop_take text a stop

/-- In `é😀b` the range starts at the second byte of `é` and ends before the last byte of `😀`. -/
example : (Document.ofText ['é', '😀', 'b']).slice 1 5 = ['\uFFFD', '\uFFFD'] := by decide +kernel

end BracketSpacing
