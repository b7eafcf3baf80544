import BracketSpacing.Text.Utf8
import Mathlib.Data.List.Basic

/-!
Reading undoes writing. The bytes of a character are those of the library's own encoder
(`encodeChar_eq`), and a byte sequence that starts with them is read as that character and then as
whatever follows (`pieces_encodeChar_append`). So every reader gives back a written text
(`decodeReplacing_encode`, `decodeDropping_encode`), and sizes in bytes grow with every character.
-/

set_option autoImplicit false
set_option relaxedAutoImplicit false

namespace BracketSpacing.Text.Utf8

/-- A character is a number below `0x110000` outside the surrogates. -/
theorem toNat_bounds (c : Char) :
    c.toNat < 0xD800 ∨ 0xDFFF < c.toNat ∧ c.toNat < 0x110000 := c.valid

/-- Characters are encoded as the library encodes them. -/
theorem encodeChar_eq (c : Char) : encodeChar c = String.utf8EncodeChar c := by
  have bounds := toNat_bounds c
  have hval : c.val.toNat = c.toNat := rfl
  simp only [encodeChar, String.utf8EncodeChar, hval]
  split_ifs <;> try omega
  · rfl
  · rw [show c.toNat / 64 % 32 + 192 = 192 + c.toNat / 64 by omega, Nat.add_comm 128]
  · rw [show c.toNat / 4096 % 16 + 224 = 224 + c.toNat / 4096 by omega]
    simp only [Nat.add_comm 128]
  · rw [show c.toNat / 262144 % 8 + 240 = 240 + c.toNat / 262144 by omega]
    simp only [Nat.add_comm 128]

theorem width_eq_utf8Size (c : Char) : width c = c.utf8Size := by
  rw [width, encodeChar_eq, String.length_utf8EncodeChar]

theorem width_pos (c : Char) : 0 < width c := by
  rw [width_eq_utf8Size]
  exact c.utf8Size_pos

@[simp] theorem encode_nil : encode [] = [] := rfl

@[simp] theorem encode_cons (c : Char) (text : List Char) :
    encode (c :: text) = encodeChar c ++ encode text := List.flatMap_cons

@[simp] theorem encode_append (first second : List Char) :
    encode (first ++ second) = encode first ++ encode second := List.flatMap_append

@[simp] theorem size_cons (c : Char) (text : List Char) :
    size (c :: text) = width c + size text := by
  simp [size, width]

@[simp] theorem size_append (first second : List Char) :
    size (first ++ second) = size first + size second := by
  simp [size]

/-- A text has no fewer bytes than characters. -/
theorem length_le_size (text : List Char) : text.length ≤ size text := by
  induction text with
  | nil => exact Nat.le_refl 0
  | cons c rest ih =>
    have hpos := width_pos c
    rw [List.length_cons, size_cons]
    omega

/-- Sizes agree with the library's own count of UTF-8 bytes. -/
theorem size_eq_utf8ByteSize (text : List Char) :
    size text = (String.ofList text).utf8ByteSize := by
  induction text with
  | nil => rfl
  | cons c rest ih =>
    rw [size_cons, ih, width_eq_utf8Size, ← String.utf8ByteSize_singleton,
      String.singleton_eq_ofList, ← String.utf8ByteSize_append, ← String.ofList_append,
      List.singleton_append]

/-! ### Reading what was written -/

theorem toNat_ofNat_of_lt {n : Nat} (h : n < 256) : (UInt8.ofNat n).toNat = n := by
  rw [UInt8.toNat_ofNat']
  exact Nat.mod_eq_of_lt h

/-- One continuation byte within its range adds its six bits. -/
theorem continueFrom_cons {owed low high bits taken b : Nat} {rest : List UInt8}
    (hlow : low ≤ 0x80 + b) (hhigh : 0x80 + b ≤ high) (hb : b < 64) :
    continueFrom (owed + 1) low high bits taken (.ofNat (0x80 + b) :: rest) =
      continueFrom owed 0x80 0xBF (bits * 64 + b) (taken + 1) rest := by
  have hbyte : (UInt8.ofNat (0x80 + b)).toNat = 0x80 + b := toNat_ofNat_of_lt (by omega)
  rw [continueFrom, hbyte, if_pos ⟨hlow, hhigh⟩, Nat.add_sub_cancel_left]

/-- A lead byte above `0x7F` hands over to the continuation bytes that it promises. -/
theorem firstPiece_of_lead {b : Nat} {p : Pending} (rest : List UInt8) (hb : 0x80 ≤ b)
    (hmax : b < 256) (hp : Pending.ofLead b = some p) :
    firstPiece (.ofNat b) rest = continueFrom p.owed p.low p.high p.bits 1 rest := by
  rw [firstPiece, toNat_ofNat_of_lt hmax, if_neg (by omega), hp]

/-- Two bytes are read as the character they were written for. -/
theorem firstPiece_two {n : Nat} (rest : List UInt8) (hlow : 0x80 ≤ n) (hhigh : n < 0x800) :
    firstPiece (.ofNat (0xC0 + n / 64)) (.ofNat (0x80 + n % 64) :: rest) =
      .char (Char.ofNat n) 2 := by
  have hlead : Pending.ofLead (0xC0 + n / 64) = some ⟨1, 0x80, 0xBF, n / 64⟩ := by
    rw [Pending.ofLead, if_pos (by omega), Nat.add_sub_cancel_left]
  rw [firstPiece_of_lead _ (by omega) (by omega) hlead]
  dsimp only
  rw [continueFrom_cons (by omega) (by omega) (by omega), continueFrom]
  rw [show n / 64 * 64 + n % 64 = n by omega]

/-- The lead byte of three restricts the second byte where a shorter form or a surrogate would
begin; a character that needs three bytes is within that range. -/
theorem exists_lead_three {n : Nat} (hlow : 0x800 ≤ n) (hhigh : n < 0x10000)
    (hscalar : n < 0xD800 ∨ 0xDFFF < n) :
    ∃ low high, Pending.ofLead (0xE0 + n / 4096) = some ⟨2, low, high, n / 4096⟩ ∧
      low ≤ 0x80 + n / 64 % 64 ∧ 0x80 + n / 64 % 64 ≤ high := by
  unfold Pending.ofLead
  by_cases hfirst : n / 4096 = 0
  · exact ⟨0xA0, 0xBF, by simp [hfirst], by omega, by omega⟩
  by_cases hsurrogate : n / 4096 = 0xD
  · exact ⟨0x80, 0x9F, by simp [hsurrogate], by omega, by omega⟩
  refine ⟨0x80, 0xBF, ?_, by omega, by omega⟩
  rw [if_neg (by omega), if_neg (by omega), if_neg (by omega), if_pos (by omega),
    Nat.add_sub_cancel_left]

theorem firstPiece_three {n : Nat} (rest : List UInt8) (hlow : 0x800 ≤ n) (hhigh : n < 0x10000)
    (hscalar : n < 0xD800 ∨ 0xDFFF < n) :
    firstPiece (.ofNat (0xE0 + n / 4096))
      (.ofNat (0x80 + n / 64 % 64) :: .ofNat (0x80 + n % 64) :: rest) = .char (Char.ofNat n) 3 := by
  obtain ⟨low, high, hlead, hl, hh⟩ := exists_lead_three hlow hhigh hscalar
  rw [firstPiece_of_lead _ (by omega) (by omega) hlead]
  dsimp only
  rw [continueFrom_cons hl hh (by omega), continueFrom_cons (by omega) (by omega) (by omega),
    continueFrom]
  rw [show (n / 4096 * 64 + n / 64 % 64) * 64 + n % 64 = n by omega]

/-- The same for four bytes, whose last lead byte ends at the greatest character. -/
theorem exists_lead_four {n : Nat} (hlow : 0x10000 ≤ n) (hhigh : n < 0x110000) :
    ∃ low high, Pending.ofLead (0xF0 + n / 262144) = some ⟨3, low, high, n / 262144⟩ ∧
      low ≤ 0x80 + n / 4096 % 64 ∧ 0x80 + n / 4096 % 64 ≤ high := by
  unfold Pending.ofLead
  by_cases hfirst : n / 262144 = 0
  · exact ⟨0x90, 0xBF, by simp [hfirst], by omega, by omega⟩
  by_cases hlast : n / 262144 = 4
  · exact ⟨0x80, 0x8F, by simp [hlast], by omega, by omega⟩
  refine ⟨0x80, 0xBF, ?_, by omega, by omega⟩
  rw [if_neg (by omega), if_neg (by omega), if_neg (by omega), if_neg (by omega),
    if_neg (by omega), if_pos (by omega), Nat.add_sub_cancel_left]

theorem firstPiece_four {n : Nat} (rest : List UInt8) (hlow : 0x10000 ≤ n) (hhigh : n < 0x110000) :
    firstPiece (.ofNat (0xF0 + n / 262144))
      (.ofNat (0x80 + n / 4096 % 64) :: .ofNat (0x80 + n / 64 % 64) ::
        .ofNat (0x80 + n % 64) :: rest) = .char (Char.ofNat n) 4 := by
  obtain ⟨low, high, hlead, hl, hh⟩ := exists_lead_four hlow hhigh
  rw [firstPiece_of_lead _ (by omega) (by omega) hlead]
  dsimp only
  rw [continueFrom_cons hl hh (by omega), continueFrom_cons (by omega) (by omega) (by omega),
    continueFrom_cons (by omega) (by omega) (by omega), continueFrom]
  rw [show ((n / 262144 * 64 + n / 4096 % 64) * 64 + n / 64 % 64) * 64 + n % 64 = n by omega]

/-- Reading goes on behind the first part. -/
theorem pieces_cons (b : UInt8) (rest : List UInt8) :
    pieces (b :: rest) =
      firstPiece b rest :: pieces (rest.drop ((firstPiece b rest).width - 1)) := by
  rw [pieces]

/-- A character in front is read first, whatever bytes follow it. -/
theorem pieces_encodeChar_append (c : Char) (rest : List UInt8) :
    pieces (encodeChar c ++ rest) = .char c (width c) :: pieces rest := by
  have bounds := toNat_bounds c
  unfold width encodeChar
  dsimp only
  split_ifs with h₁ h₂ h₃
  · have hpiece : firstPiece (.ofNat c.toNat) rest = .char c 1 := by
      rw [firstPiece, toNat_ofNat_of_lt (by omega), if_pos h₁, Char.ofNat_toNat]
    rw [List.cons_append, pieces_cons, List.nil_append, hpiece]
    rfl
  · simp only [List.cons_append, List.nil_append]
    rw [pieces_cons, firstPiece_two rest (by omega) h₂, Char.ofNat_toNat]
    rfl
  · simp only [List.cons_append, List.nil_append]
    rw [pieces_cons, firstPiece_three rest (by omega) h₃ (by omega), Char.ofNat_toNat]
    rfl
  · simp only [List.cons_append, List.nil_append]
    rw [pieces_cons, firstPiece_four rest (by omega) (by omega), Char.ofNat_toNat]
    rfl

/-- A written text is read character by character. -/
theorem pieces_encode (text : List Char) :
    pieces (encode text) = text.map fun c ↦ .char c (width c) := by
  induction text with
  | nil => rw [encode_nil, pieces, List.map_nil]
  | cons c text ih => rw [encode_cons, pieces_encodeChar_append, ih, List.map_cons]

/-- A written text is read back without marks. -/
theorem decodeReplacing_encode (text : List Char) : decodeReplacing (encode text) = text := by
  rw [decodeReplacing, pieces_encode, List.map_map]
  exact List.map_id text

/-- A written text is read back whole. -/
theorem decodeDropping_encode (text : List Char) : decodeDropping (encode text) = text := by
  rw [decodeDropping, pieces_encode, List.filterMap_map]
  exact List.filterMap_some

/-! ### Newlines -/

/-- Only the newline itself is written with a newline byte. -/
theorem newline_notMem_encodeChar {c : Char} (h : c ≠ '\n') : (0x0A : UInt8) ∉ encodeChar c := by
  have bounds := toNat_bounds c
  have hne : c.toNat ≠ 10 := by
    intro heq
    apply h
    rw [← Char.ofNat_toNat c, heq]
  have hbyte {n : Nat} (hn : n < 256) (hten : n ≠ 10) : (0x0A : UInt8) ≠ .ofNat n := by
    intro heq
    have hval := congrArg UInt8.toNat heq
    rw [toNat_ofNat_of_lt hn] at hval
    exact hten hval.symm
  unfold encodeChar
  dsimp only
  split_ifs <;> simp only [List.mem_cons, List.not_mem_nil, or_false, not_or]
  · exact hbyte (by omega) hne
  · exact ⟨hbyte (by omega) (by omega), hbyte (by omega) (by omega)⟩
  · exact ⟨hbyte (by omega) (by omega), hbyte (by omega) (by omega), hbyte (by omega) (by omega)⟩
  · exact ⟨hbyte (by omega) (by omega), hbyte (by omega) (by omega), hbyte (by omega) (by omega),
      hbyte (by omega) (by omega)⟩

theorem encodeChar_newline : encodeChar '\n' = [0x0A] := rfl

end BracketSpacing.Text.Utf8
