import BracketSpacing.Proofs.Text.Utf8
import Mathlib.Order.Bounds.Basic

/-!
Texts cut at any byte. The bytes of a character after its first start no character, so what is left
of a character whose start is gone is read as one broken part for each byte
(`pieces_append_of_isContinuation`). A character whose end is gone is one broken part, however many
bytes are there (`pieces_take_encodeChar`). So the start of a text up to some byte is read as the
characters that fit into these bytes and at most one broken part behind them
(`decodeReplacing_take_encode`).
-/

set_option autoImplicit false
set_option relaxedAutoImplicit false

namespace BracketSpacing.Text.Utf8

/-! ### A character whose start is gone -/

/-- A byte that goes on with a character and starts none. -/
def IsContinuation (b : UInt8) : Prop := 0x80 ≤ b.toNat ∧ b.toNat < 0xC0

theorem isContinuation_ofNat {n : Nat} (h : n < 64) : IsContinuation (.ofNat (0x80 + n)) := by
  rw [IsContinuation, toNat_ofNat_of_lt (by omega)]
  omega

/-- The bytes of a character after the first only go on with it. -/
theorem isContinuation_of_mem_tail {c : Char} {b : UInt8} (h : b ∈ (encodeChar c).tail) :
    IsContinuation b := by
  unfold encodeChar at h
  dsimp only at h
  split_ifs at h <;> simp only [List.tail_cons, List.mem_cons, List.not_mem_nil, or_false] at h
  · subst h
    exact isContinuation_ofNat (by omega)
  · rcases h with rfl | rfl <;> exact isContinuation_ofNat (by omega)
  · rcases h with rfl | rfl | rfl <;> exact isContinuation_ofNat (by omega)

/-- What is left of a character without its first byte only goes on with it. -/
theorem isContinuation_of_mem_drop {c : Char} {b : UInt8} {k : Nat} (hpos : 0 < k)
    (h : b ∈ (encodeChar c).drop k) : IsContinuation b := by
  have htail := List.drop_subset_drop_left (encodeChar c) hpos h
  rw [List.drop_one] at htail
  exact isContinuation_of_mem_tail htail

/-- A byte that only goes on with a character is a broken part by itself. -/
theorem firstPiece_of_isContinuation {b : UInt8} (h : IsContinuation b) (rest : List UInt8) :
    firstPiece b rest = .broken 1 .invalidStart := by
  obtain ⟨hlow, hhigh⟩ := h
  have hlead : Pending.ofLead b.toNat = none := by
    rw [Pending.ofLead]
    split_ifs <;> first | rfl | omega
  rw [firstPiece, if_neg (by omega), hlead]

/-- Each byte that starts no character is a broken part of its own. -/
theorem pieces_append_of_isContinuation {bytes : List UInt8} (h : ∀ b ∈ bytes, IsContinuation b)
    (rest : List UInt8) :
    pieces (bytes ++ rest) =
      List.replicate bytes.length (.broken 1 .invalidStart) ++ pieces rest := by
  induction bytes with
  | nil => rfl
  | cons b bytes ih =>
    rw [List.forall_mem_cons] at h
    rw [List.cons_append, pieces_cons, firstPiece_of_isContinuation h.1, List.length_cons,
      List.replicate_succ, List.cons_append, ← ih h.2]
    rfl

/-! ### A character whose end is gone -/

/-- Bytes that were enough for a character are not when the last of them are missing. -/
theorem continueFrom_take {owed low high bits taken w k : Nat} {bytes : List UInt8} {c : Char}
    (h : continueFrom owed low high bits taken bytes = .char c w) (hk : taken + k < w) :
    continueFrom owed low high bits taken (bytes.take k) =
      .broken (taken + k) .unexpectedEnd := by
  induction owed generalizing low high bits taken bytes k with
  | zero =>
    rw [continueFrom, Piece.char.injEq] at h
    omega
  | succ owed ih =>
    cases bytes with
    | nil => cases h
    | cons b rest =>
      rw [continueFrom] at h
      split_ifs at h with hrange
      cases k with
      | zero => rfl
      | succ k =>
        rw [List.take_succ_cons, continueFrom, if_pos hrange, ih h (by omega)]
        congr 1
        omega

/-- A character cut short is broken for want of bytes. -/
theorem firstPiece_take {b : UInt8} {rest : List UInt8} {c : Char} {w k : Nat}
    (h : firstPiece b rest = .char c w) (hk : 1 + k < w) :
    firstPiece b (rest.take k) = .broken (1 + k) .unexpectedEnd := by
  rw [firstPiece] at h ⊢
  split_ifs at h ⊢ with hascii
  · rw [Piece.char.injEq] at h
    omega
  · cases hlead : Pending.ofLead b.toNat with
    | none =>
      rw [hlead] at h
      cases h
    | some p =>
      rw [hlead] at h
      exact continueFrom_take h hk

/-- The start of a character is one broken part. -/
theorem pieces_take_encodeChar {c : Char} {k : Nat} (hpos : 0 < k) (hk : k < width c) :
    pieces ((encodeChar c).take k) = [.broken k .unexpectedEnd] := by
  have hwhole := pieces_encodeChar_append c []
  rw [List.append_nil] at hwhole
  cases hbytes : encodeChar c with
  | nil =>
    rw [width, hbytes] at hk
    exact absurd hk (Nat.not_lt_zero k)
  | cons b rest =>
    rw [hbytes, pieces_cons] at hwhole
    obtain ⟨k, rfl⟩ := Nat.exists_eq_add_of_lt hpos
    rw [Nat.zero_add] at hk ⊢
    rw [List.take_succ_cons, pieces_cons,
      firstPiece_take (List.cons.inj hwhole).1 (by omega), Piece.width]
    rw [Nat.add_sub_cancel_left, List.drop_take_self, pieces, Nat.add_comm]

/-! ### The start of a text -/

/-- The characters at the start of a text that fit into a number of bytes as a whole. -/
def fitting : List Char → Nat → List Char
  | [], _ => []
  | c :: rest, bytes => if width c ≤ bytes then c :: fitting rest (bytes - width c) else []

/-- The bytes that are left behind the characters that fit: the start of the next character. -/
def leftOver (text : List Char) (bytes : Nat) : Nat :=
  min bytes (size text) - size (fitting text bytes)

theorem fitting_cons_of_le {c : Char} {bytes : Nat} (h : width c ≤ bytes) (rest : List Char) :
    fitting (c :: rest) bytes = c :: fitting rest (bytes - width c) := by
  rw [fitting, if_pos h]

theorem fitting_cons_of_lt {c : Char} {bytes : Nat} (h : bytes < width c) (rest : List Char) :
    fitting (c :: rest) bytes = [] := by
  rw [fitting, if_neg (Nat.not_le_of_lt h)]

theorem fitting_zero (text : List Char) : fitting text 0 = [] := by
  cases text with
  | nil => rfl
  | cons c rest => exact fitting_cons_of_lt (width_pos c) rest

theorem leftOver_cons_of_le {c : Char} {bytes : Nat} (h : width c ≤ bytes) (rest : List Char) :
    leftOver (c :: rest) bytes = leftOver rest (bytes - width c) := by
  rw [leftOver, leftOver, fitting_cons_of_le h, size_cons, size_cons]
  omega

theorem leftOver_cons_of_lt {c : Char} {bytes : Nat} (h : bytes < width c) (rest : List Char) :
    leftOver (c :: rest) bytes = bytes := by
  rw [leftOver, fitting_cons_of_lt h, size_cons]
  change min bytes (width c + size rest) - 0 = bytes
  omega

/-- The number of the characters that fit is the greatest number of characters whose bytes do. -/
theorem isGreatest_length_fitting (text : List Char) (bytes : Nat) :
    IsGreatest {k | k ≤ text.length ∧ size (text.take k) ≤ bytes} (fitting text bytes).length := by
  induction text generalizing bytes with
  | nil => exact ⟨⟨Nat.le_refl 0, Nat.zero_le bytes⟩, fun k hk ↦ hk.1⟩
  | cons c rest ih =>
    rcases Nat.lt_or_ge bytes (width c) with hlt | hle
    · rw [fitting_cons_of_lt hlt]
      refine ⟨⟨Nat.zero_le _, Nat.zero_le bytes⟩, ?_⟩
      rintro k ⟨-, hsize⟩
      cases k with
      | zero => exact Nat.le_refl 0
      | succ k =>
        rw [List.take_succ_cons, size_cons] at hsize
        omega
    · obtain ⟨⟨hlength, hsize⟩, hgreatest⟩ := ih (bytes - width c)
      rw [fitting_cons_of_le hle, List.length_cons, List.length_cons]
      refine ⟨⟨Nat.succ_le_succ hlength, ?_⟩, ?_⟩
      · rw [List.take_succ_cons, size_cons]
        omega
      · rintro k ⟨hk, hbytes⟩
        cases k with
        | zero => exact Nat.zero_le _
        | succ k =>
          rw [List.take_succ_cons, size_cons] at hbytes
          exact Nat.succ_le_succ (hgreatest ⟨by omega, by omega⟩)

/-- A text cut at a byte is the characters that fit and at most one broken part. -/
theorem pieces_take_encode (text : List Char) (bytes : Nat) :
    pieces ((encode text).take bytes) =
      ((fitting text bytes).map fun c ↦ .char c (width c)) ++
        if leftOver text bytes = 0 then [] else [.broken (leftOver text bytes) .unexpectedEnd] := by
  induction text generalizing bytes with
  | nil =>
    rw [encode_nil, List.take_nil, pieces]
    simp [fitting, leftOver, size]
  | cons c rest ih =>
    rw [encode_cons]
    rcases Nat.lt_or_ge bytes (width c) with hlt | hle
    · rw [List.take_append_of_le_length (Nat.le_of_lt hlt), fitting_cons_of_lt hlt,
        leftOver_cons_of_lt hlt, List.map_nil, List.nil_append]
      rcases Nat.eq_zero_or_pos bytes with rfl | hpos
      · rw [if_pos rfl, List.take_zero, pieces]
      · rw [if_neg (Nat.ne_of_gt hpos), pieces_take_encodeChar hpos hlt]
    · rw [List.take_append, List.take_of_length_le hle, pieces_encodeChar_append,
        fitting_cons_of_le hle, leftOver_cons_of_le hle, List.map_cons, List.cons_append, ← ih]
      rfl

/-- Dropping what is broken leaves the characters that fit. -/
theorem decodeDropping_take_encode (text : List Char) (bytes : Nat) :
    decodeDropping ((encode text).take bytes) = fitting text bytes := by
  rw [decodeDropping, pieces_take_encode, List.filterMap_append, List.filterMap_map]
  split_ifs <;> simp

/-- Marking what is broken leaves the characters that fit and at most one mark. -/
theorem decodeReplacing_take_encode (text : List Char) (bytes : Nat) :
    decodeReplacing ((encode text).take bytes) =
      fitting text bytes ++ if leftOver text bytes = 0 then [] else [replacement] := by
  rw [decodeReplacing, pieces_take_encode, List.map_append, List.map_map]
  split_ifs <;> simp [Function.comp_def]

/-- Each byte that only goes on with a character is one mark. -/
theorem decodeReplacing_append_of_isContinuation {bytes : List UInt8}
    (h : ∀ b ∈ bytes, IsContinuation b) (rest : List UInt8) :
    decodeReplacing (bytes ++ rest) =
      List.replicate bytes.length replacement ++ decodeReplacing rest := by
  rw [decodeReplacing, pieces_append_of_isContinuation h, List.map_append, List.map_replicate]
  rfl

end BracketSpacing.Text.Utf8
