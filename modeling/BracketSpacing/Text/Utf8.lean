/-!
UTF-8 as lists of bytes. `encode` writes characters; `pieces` reads any byte sequence as characters
and broken parts, a broken part being the longest start of a character that the next byte cannot
continue. The three readers differ in what they make of a broken part: `decodeReplacing` puts one
mark for it, `decodeDropping` leaves it out, `decode` reports the first one.
-/

set_option autoImplicit false
set_option relaxedAutoImplicit false

namespace BracketSpacing.Text.Utf8

def encodeChar (c : Char) : List UInt8 :=
  let n := c.toNat
  if n < 0x80 then [.ofNat n]
  else if n < 0x800 then [.ofNat (0xC0 + n / 64), .ofNat (0x80 + n % 64)]
  else if n < 0x10000 then
    [.ofNat (0xE0 + n / 4096), .ofNat (0x80 + n / 64 % 64), .ofNat (0x80 + n % 64)]
  else
    [.ofNat (0xF0 + n / 262144), .ofNat (0x80 + n / 4096 % 64), .ofNat (0x80 + n / 64 % 64),
      .ofNat (0x80 + n % 64)]

def encode (text : List Char) : List UInt8 := text.flatMap encodeChar

/-- The number of bytes of a character. -/
def width (c : Char) : Nat := (encodeChar c).length

/-- The number of bytes of a text. -/
def size (text : List Char) : Nat := (encode text).length

/-- Why a byte sequence is no UTF-8. -/
inductive Fault where
  | invalidStart
  | invalidContinuation
  | unexpectedEnd
  deriving DecidableEq, Repr

/-- A character or a broken part, with the number of bytes it takes. -/
inductive Piece where
  | char (c : Char) (width : Nat)
  | broken (width : Nat) (fault : Fault)
  deriving DecidableEq, Repr

def Piece.width : Piece → Nat
  | .char _ w => w
  | .broken w _ => w

/-- The continuation bytes that are still owed, the range of the next one and the bits so far. -/
structure Pending where
  owed : Nat
  low : Nat
  high : Nat
  bits : Nat

/-- What a first byte above `0x7F` promises. -/
def Pending.ofLead (b : Nat) : Option Pending :=
  if 0xC2 ≤ b ∧ b ≤ 0xDF then some ⟨1, 0x80, 0xBF, b - 0xC0⟩
  else if b = 0xE0 then some ⟨2, 0xA0, 0xBF, 0⟩
  else if b = 0xED then some ⟨2, 0x80, 0x9F, 0xD⟩
  else if 0xE1 ≤ b ∧ b ≤ 0xEF then some ⟨2, 0x80, 0xBF, b - 0xE0⟩
  else if b = 0xF0 then some ⟨3, 0x90, 0xBF, 0⟩
  else if 0xF1 ≤ b ∧ b ≤ 0xF3 then some ⟨3, 0x80, 0xBF, b - 0xF0⟩
  else if b = 0xF4 then some ⟨3, 0x80, 0x8F, 4⟩
  else none

/-- Reads the owed continuation bytes; `taken` counts the bytes of the character so far. -/
def continueFrom : (owed low high bits taken : Nat) → List UInt8 → Piece
  | 0, _, _, bits, taken, _ => .char (Char.ofNat bits) taken
  | _ + 1, _, _, _, taken, [] => .broken taken .unexpectedEnd
  | owed + 1, low, high, bits, taken, b :: rest =>
    if low ≤ b.toNat ∧ b.toNat ≤ high then
      continueFrom owed 0x80 0xBF (bits * 64 + (b.toNat - 0x80)) (taken + 1) rest
    else .broken taken .invalidContinuation

/-- The piece that starts with byte `b`, `rest` being the bytes after it. -/
def firstPiece (b : UInt8) (rest : List UInt8) : Piece :=
  if b.toNat < 0x80 then .char (Char.ofNat b.toNat) 1
  else
    match Pending.ofLead b.toNat with
    | some p => continueFrom p.owed p.low p.high p.bits 1 rest
    | none => .broken 1 .invalidStart

/-- A byte sequence as characters and broken parts. -/
def pieces : List UInt8 → List Piece
  | [] => []
  | b :: rest =>
    let p := firstPiece b rest
    p :: pieces (rest.drop (p.width - 1))
termination_by bytes => bytes.length
decreasing_by simp only [List.length_drop, List.length_cons]; omega

/-- The mark that stands for a broken part. -/
def replacement : Char := '\uFFFD'

def decodeReplacing (bytes : List UInt8) : List Char :=
  (pieces bytes).map fun
    | .char c _ => c
    | .broken _ _ => replacement

def decodeDropping (bytes : List UInt8) : List Char :=
  (pieces bytes).filterMap fun
    | .char c _ => some c
    | .broken _ _ => none

/-- The first broken part of a byte sequence: where it starts, its bytes and its fault. -/
structure DecodeError where
  position : Nat
  bytes : List UInt8
  fault : Fault
  deriving DecidableEq, Repr

/-- Reads pieces whose first byte stands at `position`, `bytes` being all that is left. -/
def decodePieces : (position : Nat) → (bytes : List UInt8) → List Piece →
    Except DecodeError (List Char)
  | _, _, [] => .ok []
  | position, bytes, .char c w :: rest =>
    (decodePieces (position + w) (bytes.drop w) rest).map (c :: ·)
  | position, bytes, .broken w fault :: _ => .error ⟨position, bytes.take w, fault⟩

/-- Reads a byte sequence that must be UTF-8 throughout. -/
def decode (bytes : List UInt8) : Except DecodeError (List Char) :=
  decodePieces 0 bytes (pieces bytes)

def Fault.message : Fault → String
  | .invalidStart => "invalid start byte"
  | .invalidContinuation => "invalid continuation byte"
  | .unexpectedEnd => "unexpected end of data"

/-- Two lower-case hexadecimal digits. -/
def hexByte (b : UInt8) : String :=
  String.ofList [Nat.digitChar (b.toNat / 16), Nat.digitChar (b.toNat % 16)]

def DecodeError.message (e : DecodeError) : String :=
  let place :=
    match e.bytes with
    | [b] => s!"byte 0x{hexByte b} in position {e.position}"
    | bytes => s!"bytes in position {e.position}-{e.position + bytes.length - 1}"
  s!"'utf-8' codec can't decode {place}: {e.fault.message}"

end BracketSpacing.Text.Utf8
