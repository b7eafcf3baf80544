/-!
JSON text of values made of null, booleans, whole numbers, strings, arrays and objects whose
members keep their order. `render` writes one line with `, ` and `: ` between parts and leaves
characters above U+001F as they are; `parse` reads any JSON text of such a value.
-/

set_option autoImplicit false
set_option relaxedAutoImplicit false

namespace BracketSpacing

inductive Json where
  | null
  | bool (b : Bool)
  | int (i : Int)
  | str (s : String)
  | arr (items : List Json)
  | obj (members : List (String × Json))
  deriving Repr, Inhabited

namespace Json

/-! ### Writing -/

/-- The text of a character inside a string. -/
def escapeChar (c : Char) : List Char :=
  if c = '"' then ['\\', '"']
  else if c = '\\' then ['\\', '\\']
  else if c = '\n' then ['\\', 'n']
  else if c = '\r' then ['\\', 'r']
  else if c = '\t' then ['\\', 't']
  else if c.toNat = 8 then ['\\', 'b']
  else if c.toNat = 12 then ['\\', 'f']
  else if c.toNat < 0x20 then
    ['\\', 'u', '0', '0', Nat.digitChar (c.toNat / 16), Nat.digitChar (c.toNat % 16)]
  else [c]

def renderString (s : String) : List Char := '"' :: (s.toList.flatMap escapeChar ++ ['"'])

def renderInt (i : Int) : List Char :=
  if i < 0 then '-' :: Nat.toDigits 10 i.natAbs else Nat.toDigits 10 i.natAbs

mutual

def renderChars : Json → List Char
  | .null => ['n', 'u', 'l', 'l']
  | .bool true => ['t', 'r', 'u', 'e']
  | .bool false => ['f', 'a', 'l', 's', 'e']
  | .int i => renderInt i
  | .str s => renderString s
  | .arr [] => ['[', ']']
  | .arr (item :: items) => '[' :: (renderChars item ++ renderItems items)
  | .obj [] => ['{', '}']
  | .obj ((key, v) :: members) =>
    '{' :: (renderString key ++ ':' :: ' ' :: (renderChars v ++ renderMembers members))

/-- The items after the first one and the closing bracket. -/
def renderItems : List Json → List Char
  | [] => [']']
  | item :: items => ',' :: ' ' :: (renderChars item ++ renderItems items)

/-- The members after the first one and the closing brace. -/
def renderMembers : List (String × Json) → List Char
  | [] => ['}']
  | (key, v) :: members =>
    ',' :: ' ' :: (renderString key ++ ':' :: ' ' :: (renderChars v ++ renderMembers members))

end

def render (j : Json) : String := String.ofList j.renderChars

/-! ### Reading -/

def skipBlank : List Char → List Char
  | c :: rest => if c = ' ' || c = '\n' || c = '\r' || c = '\t' then skipBlank rest else c :: rest
  | [] => []

def hexValue? (c : Char) : Option Nat :=
  if '0' ≤ c ∧ c ≤ '9' then some (c.toNat - 48)
  else if 'a' ≤ c ∧ c ≤ 'f' then some (c.toNat - 87)
  else if 'A' ≤ c ∧ c ≤ 'F' then some (c.toNat - 55)
  else none

def hex4? (a b c d : Char) : Option Nat :=
  match hexValue? a, hexValue? b, hexValue? c, hexValue? d with
  | some a, some b, some c, some d => some (((a * 16 + b) * 16 + c) * 16 + d)
  | _, _, _, _ => none

/-- The character a one-letter escape stands for. -/
def simpleEscape? (c : Char) : Option Char :=
  if c = '"' || c = '\\' || c = '/' then some c
  else if c = 'n' then some '\n'
  else if c = 'r' then some '\r'
  else if c = 't' then some '\t'
  else if c = 'b' then some (Char.ofNat 8)
  else if c = 'f' then some (Char.ofNat 12)
  else none

/-- The high half of a surrogate pair, without its mark. -/
def highSurrogate? (n : Nat) : Option Nat :=
  if 0xD800 ≤ n ∧ n ≤ 0xDBFF then some (n - 0xD800) else none

def lowSurrogate? (n : Nat) : Option Nat :=
  if 0xDC00 ≤ n ∧ n ≤ 0xDFFF then some (n - 0xDC00) else none

/-- The rest of a string after its opening quote: its characters and what follows it. -/
def stringBody : List Char → Option (List Char × List Char)
  | '"' :: rest => some ([], rest)
  | '\\' :: 'u' :: a :: b :: c :: d :: rest =>
    match hex4? a b c d with
    | none => none
    | some n =>
      match highSurrogate? n with
      | none => (stringBody rest).map fun r ↦ (Char.ofNat n :: r.1, r.2)
      | some high =>
        match rest with
        | '\\' :: 'u' :: e :: f :: g :: h :: rest =>
          match (hex4? e f g h).bind lowSurrogate? with
          | none => none
          | some low =>
            (stringBody rest).map fun r ↦ (Char.ofNat (0x10000 + high * 1024 + low) :: r.1, r.2)
        | _ => none
  | '\\' :: c :: rest =>
    match simpleEscape? c with
    | none => none
    | some c => (stringBody rest).map fun r ↦ (c :: r.1, r.2)
  | c :: rest =>
    if c.toNat < 0x20 || c = '\\' then none
    else (stringBody rest).map fun r ↦ (c :: r.1, r.2)
  | [] => none

def digitsValue (ds : List Char) : Nat := ds.foldl (fun n d ↦ n * 10 + (d.toNat - 48)) 0

/-- A whole number: no leading zero, no fraction, no exponent. -/
def natural (cs : List Char) : Option (Nat × List Char) :=
  let ds := cs.takeWhile Char.isDigit
  let rest := cs.dropWhile Char.isDigit
  let more := match rest with
    | c :: _ => c = '.' || c = 'e' || c = 'E'
    | [] => false
  if ds.isEmpty || more then none
  else if ds.head? = some '0' && 1 < ds.length then none
  else some (digitsValue ds, rest)

mutual

/-- A value at the start of the text, and what follows it. -/
def value : (fuel : Nat) → List Char → Option (Json × List Char)
  | 0, _ => none
  | fuel + 1, cs =>
    match skipBlank cs with
    | 'n' :: 'u' :: 'l' :: 'l' :: rest => some (.null, rest)
    | 't' :: 'r' :: 'u' :: 'e' :: rest => some (.bool true, rest)
    | 'f' :: 'a' :: 'l' :: 's' :: 'e' :: rest => some (.bool false, rest)
    | '"' :: rest => (stringBody rest).map fun r ↦ (.str (String.ofList r.1), r.2)
    | '[' :: rest =>
      match skipBlank rest with
      | ']' :: rest => some (.arr [], rest)
      | rest => (items fuel rest).map fun r ↦ (.arr r.1, r.2)
    | '{' :: rest =>
      match skipBlank rest with
      | '}' :: rest => some (.obj [], rest)
      | rest => (members fuel rest).map fun r ↦ (.obj r.1, r.2)
    | '-' :: rest => (natural rest).map fun r ↦ (.int (-(r.1 : Int)), r.2)
    | rest => (natural rest).map fun r ↦ (.int (r.1 : Int), r.2)

/-- One or more array items and the closing bracket. -/
def items : (fuel : Nat) → List Char → Option (List Json × List Char)
  | 0, _ => none
  | fuel + 1, cs =>
    match value fuel cs with
    | none => none
    | some (item, rest) =>
      match skipBlank rest with
      | ',' :: rest => (items fuel rest).map fun r ↦ (item :: r.1, r.2)
      | ']' :: rest => some ([item], rest)
      | _ => none

/-- One or more object members and the closing brace. -/
def members : (fuel : Nat) → List Char → Option (List (String × Json) × List Char)
  | 0, _ => none
  | fuel + 1, cs =>
    match skipBlank cs with
    | '"' :: rest =>
      match stringBody rest with
      | none => none
      | some (key, rest) =>
        match skipBlank rest with
        | ':' :: rest =>
          match value fuel rest with
          | none => none
          | some (v, rest) =>
            match skipBlank rest with
            | ',' :: rest =>
              (members fuel rest).map fun r ↦ ((String.ofList key, v) :: r.1, r.2)
            | '}' :: rest => some ([(String.ofList key, v)], rest)
            | _ => none
        | _ => none
    | _ => none

end

/-- The value of a JSON text, with nothing but blanks after it. -/
def parse (text : List Char) : Option Json :=
  match value (text.length + 1) text with
  | some (j, rest) => if (skipBlank rest).isEmpty then some j else none
  | none => none

/-! ### Access -/

/-- The value of an object's first member of that name. -/
def member? (name : String) : Json → Option Json
  | .obj members => (members.find? (·.1 == name)).map (·.2)
  | _ => none

end Json

end BracketSpacing
