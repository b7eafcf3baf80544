import BracketSpacing.Json
import Mathlib.Data.List.Basic

/-!
Which texts stand for a value in JSON (RFC 8259), with whole numbers as the only numbers and members
in order. `IsText` goes down the value and says of each part how it may be written: any blanks
between parts, any escape of a character, no leading zero in a number. What `render` writes is one
of the texts of its value (`isText_renderChars`), and holds no control character
(`printed_renderChars`).
-/

set_option autoImplicit false
set_option relaxedAutoImplicit false

namespace BracketSpacing.Json

theorem sizeOf_item_lt {item : Json} {items : List Json} (h : item ∈ items) :
    sizeOf item < sizeOf (arr items) := by
  have hitems := List.sizeOf_lt_of_mem h
  rw [arr.sizeOf_spec]
  omega

theorem sizeOf_member_lt {member : String × Json} {members : List (String × Json)}
    (h : member ∈ members) : sizeOf member.2 < sizeOf (obj members) := by
  have hmember : sizeOf member.2 < sizeOf member := by
    obtain ⟨key, v⟩ := member
    change sizeOf v < _
    rw [Prod.mk.sizeOf_spec]
    omega
  have hmembers := List.sizeOf_lt_of_mem h
  rw [obj.sizeOf_spec]
  omega

/-- What passes from all items or all members to the whole holds of every value. -/
@[elab_as_elim, induction_eliminator]
theorem inductionOnParts {motive : Json → Prop} (null : motive .null)
    (bool : ∀ b, motive (.bool b)) (int : ∀ i, motive (.int i)) (str : ∀ s, motive (.str s))
    (arr : ∀ items, (∀ item ∈ items, motive item) → motive (.arr items))
    (obj : ∀ members, (∀ member ∈ members, motive member.2) → motive (.obj members)) :
    ∀ j, motive j
  | .null => null
  | .bool b => bool b
  | .int i => int i
  | .str s => str s
  | .arr items => arr items fun item _ ↦ inductionOnParts null bool int str arr obj item
  | .obj members => obj members fun member _ ↦
      inductionOnParts null bool int str arr obj member.2
termination_by j => sizeOf j
decreasing_by
  · exact sizeOf_item_lt (by assumption)
  · exact sizeOf_member_lt (by assumption)

/-! ### The grammar -/

abbrev Blank (c : Char) : Prop := c = ' ' ∨ c = '\n' ∨ c = '\r' ∨ c = '\t'

def Blanks (cs : List Char) : Prop := ∀ c ∈ cs, Blank c

/-- A text with blanks before and after it. -/
def Padded (text : List Char → Prop) (cs : List Char) : Prop :=
  ∃ before inner after, Blanks before ∧ text inner ∧ Blanks after ∧ cs = before ++ (inner ++ after)

inductive HexDigit : Nat → Char → Prop
  | lower {k : Nat} (h : k < 16) : HexDigit k (Nat.digitChar k)
  | upper {k : Nat} (h : k < 16) : HexDigit k (Nat.digitChar k).toUpper

/-- A number below 65536 as an escape of four digits. -/
inductive UnitText : Nat → List Char → Prop
  | mk {p q r s : Nat} {a b c d : Char} (ha : HexDigit p a) (hb : HexDigit q b) (hc : HexDigit r c)
    (hd : HexDigit s d) :
    UnitText (((p * 16 + q) * 16 + r) * 16 + s) ['\\', 'u', a, b, c, d]

/-- The letters of the short escapes and the characters they stand for. -/
def shortEscapes : List (Char × Char) :=
  [('"', '"'), ('\\', '\\'), ('/', '/'), ('b', Char.ofNat 8), ('f', Char.ofNat 12), ('n', '\n'),
    ('r', '\r'), ('t', '\t')]

/-- The ways to write a character inside a string. -/
inductive CharText : Char → List Char → Prop
  | plain {c : Char} (hcontrol : 0x20 ≤ c.toNat) (hquote : c ≠ '"') (hescape : c ≠ '\\') :
    CharText c [c]
  | short {letter c : Char} (h : (letter, c) ∈ shortEscapes) : CharText c ['\\', letter]
  | unit {c : Char} {text : List Char} (h : UnitText c.toNat text) : CharText c text
  | pair {c : Char} {high low : Nat} {first second : List Char}
    (hfirst : UnitText (0xD800 + high) first) (hsecond : UnitText (0xDC00 + low) second)
    (hhigh : high < 0x400) (hlow : low < 0x400)
    (hc : c.toNat = 0x10000 + high * 0x400 + low) : CharText c (first ++ second)

inductive CharsText : List Char → List Char → Prop
  | nil : CharsText [] []
  | cons {c : Char} {cs text rest : List Char} (hc : CharText c text) (hcs : CharsText cs rest) :
    CharsText (c :: cs) (text ++ rest)

def StringText (s : String) (cs : List Char) : Prop :=
  ∃ body, CharsText s.toList body ∧ cs = '"' :: (body ++ ['"'])

structure NaturalText (n : Nat) (digits : List Char) : Prop where
  nonempty : digits ≠ []
  isDigit : ∀ d ∈ digits, d.isDigit = true
  noLeadingZero : digits.head? = some '0' → digits = ['0']
  value : Nat.ofDigitChars 10 digits 0 = n

inductive IntText : Int → List Char → Prop
  | natural {n : Nat} {digits : List Char} (h : NaturalText n digits) : IntText n digits
  | negative {n : Nat} {digits : List Char} (h : NaturalText n digits) :
    IntText (-n) ('-' :: digits)

/-- Parts with commas between them, or nothing but blanks if there are no parts. -/
def Separated : List (List Char → Prop) → List Char → Prop
  | [], cs => Blanks cs
  | [part], cs => part cs
  | part :: next :: parts, cs =>
    ∃ first rest, part first ∧ Separated (next :: parts) rest ∧ cs = first ++ ',' :: rest

def MemberText (key : String) (text : List Char → Prop) (cs : List Char) : Prop :=
  ∃ name value, Padded (StringText key) name ∧ Padded text value ∧ cs = name ++ ':' :: value

mutual

/-- The texts of a value, without blanks around them. -/
def IsText : Json → List Char → Prop
  | .null, cs => cs = ['n', 'u', 'l', 'l']
  | .bool true, cs => cs = ['t', 'r', 'u', 'e']
  | .bool false, cs => cs = ['f', 'a', 'l', 's', 'e']
  | .int i, cs => IntText i cs
  | .str s, cs => StringText s cs
  | .arr items, cs => ∃ body, Separated (itemTexts items) body ∧ cs = '[' :: (body ++ [']'])
  | .obj members, cs => ∃ body, Separated (memberTexts members) body ∧ cs = '{' :: (body ++ ['}'])

def itemTexts : List Json → List (List Char → Prop)
  | [] => []
  | item :: items => Padded (IsText item) :: itemTexts items

def memberTexts : List (String × Json) → List (List Char → Prop)
  | [] => []
  | (key, v) :: members => MemberText key (IsText v) :: memberTexts members

end

/-- A whole JSON text of a value. -/
def IsDocument (j : Json) : List Char → Prop := Padded j.IsText

/-! ### Writing -/

theorem blanks_nil : Blanks [] := nofun

theorem blanks_space : Blanks [' '] := by simp [Blanks, Blank]

/-- A text is padded by blanks before it. -/
theorem Padded.of_self {text : List Char → Prop} {before cs : List Char} (hbefore : Blanks before)
    (h : text cs) : Padded text (before ++ cs) :=
  ⟨before, cs, [], hbefore, h, blanks_nil, by rw [List.append_nil]⟩

/-- An escaped character is one of the texts of the character. -/
theorem charText_escapeChar (c : Char) : CharText c (escapeChar c) := by
  unfold escapeChar
  split_ifs with hquote hescape hnewline hreturn htab hbackspace hfeed hcontrol
  · exact .short (by simp [shortEscapes, hquote])
  · exact .short (by simp [shortEscapes, hescape])
  · exact .short (by simp [shortEscapes, hnewline])
  · exact .short (by simp [shortEscapes, hreturn])
  · exact .short (by simp [shortEscapes, htab])
  · have hc : c = Char.ofNat 8 := by rw [← hbackspace, Char.ofNat_toNat]
    exact .short (by simp [shortEscapes, hc])
  · have hc : c = Char.ofNat 12 := by rw [← hfeed, Char.ofNat_toNat]
    exact .short (by simp [shortEscapes, hc])
  · have hzero : HexDigit 0 '0' := .lower (by decide)
    have htext := UnitText.mk hzero hzero (.lower (by omega : c.toNat / 16 < 16))
      (.lower (by omega : c.toNat % 16 < 16))
    have hvalue : ((0 * 16 + 0) * 16 + c.toNat / 16) * 16 + c.toNat % 16 = c.toNat := by omega
    rw [hvalue] at htext
    exact .unit htext
  · exact .plain (by omega) hquote hescape

theorem charsText_flatMap_escapeChar (cs : List Char) : CharsText cs (cs.flatMap escapeChar) := by
  induction cs with
  | nil => exact .nil
  | cons c cs ih =>
    rw [List.flatMap_cons]
    exact .cons (charText_escapeChar c) ih

/-- A written string is one of the texts of the string. -/
theorem stringText_renderString (s : String) : StringText s (renderString s) :=
  ⟨_, charsText_flatMap_escapeChar s.toList, rfl⟩

/-- The digits of a positive number do not start with a zero. -/
theorem head?_toDigits_ne_zero {n : Nat} (h : 0 < n) : (Nat.toDigits 10 n).head? ≠ some '0' := by
  induction n using Nat.strongRecOn with
  | _ n ih =>
    by_cases hlt : n < 10
    · rw [Nat.toDigits_of_lt_base hlt]
      simp [Nat.digitChar_eq_zero]
      omega
    · rw [Nat.toDigits_of_base_le (by decide) (by omega),
        List.head?_append_of_ne_nil _ Nat.toDigits_ne_nil]
      exact ih (n / 10) (by omega) (by omega)

/-- The decimal digits of a number are a text of it. -/
theorem naturalText_toDigits (n : Nat) : NaturalText n (Nat.toDigits 10 n) where
  nonempty := Nat.toDigits_ne_nil
  isDigit _ hd := Nat.isDigit_of_mem_toDigits (by decide) (by decide) hd
  noLeadingZero hzero := by
    rcases Nat.eq_zero_or_pos n with rfl | hpos
    · rfl
    · exact absurd hzero (head?_toDigits_ne_zero hpos)
  value := Nat.ofDigitChars_ten_toDigits

/-- A written whole number is one of the texts of the number. -/
theorem intText_renderInt (i : Int) : IntText i (renderInt i) := by
  unfold renderInt
  split_ifs with hneg
  · have htext := IntText.negative (naturalText_toDigits i.natAbs)
    rwa [show -(i.natAbs : Int) = i by omega] at htext
  · have htext := IntText.natural (naturalText_toDigits i.natAbs)
    rwa [show (i.natAbs : Int) = i by omega] at htext

theorem itemTexts_eq_map (items : List Json) :
    itemTexts items = items.map fun item ↦ Padded item.IsText := by
  induction items with
  | nil => rfl
  | cons item items ih => rw [itemTexts, ih, List.map_cons]

theorem memberTexts_eq_map (members : List (String × Json)) :
    memberTexts members = members.map fun m ↦ MemberText m.1 m.2.IsText := by
  induction members with
  | nil => rfl
  | cons m members ih => rw [memberTexts, ih, List.map_cons]

/-- Parts that are written one after the other, a comma and a blank before each but the first and a
closing character at the end. -/
theorem exists_separated {α : Type} {part : α → List Char → Prop} (text : α → List Char)
    (more : List α → List Char) {close : Char} (hnil : more [] = [close])
    (hcons : ∀ x xs, more (x :: xs) = ',' :: ' ' :: (text x ++ more xs)) {x : α} {xs : List α}
    (h : ∀ y ∈ x :: xs, ∀ before, Blanks before → part y (before ++ text y)) {before : List Char}
    (hbefore : Blanks before) :
    ∃ body, Separated ((x :: xs).map part) body ∧
      before ++ (text x ++ more xs) = body ++ [close] := by
  induction xs generalizing x before with
  | nil =>
    refine ⟨before ++ text x, h x List.mem_cons_self before hbefore, ?_⟩
    rw [hnil, List.append_assoc]
  | cons y xs ih =>
    obtain ⟨body, hbody, hrest⟩ := ih (fun z hz ↦ h z (List.mem_cons_of_mem x hz)) blanks_space
    rw [List.singleton_append] at hrest
    refine ⟨before ++ text x ++ ',' :: body,
      ⟨_, _, h x List.mem_cons_self before hbefore, hbody, rfl⟩, ?_⟩
    rw [hcons, hrest, List.append_assoc, List.append_assoc, List.cons_append]

def renderMember (m : String × Json) : List Char :=
  renderString m.1 ++ ':' :: ' ' :: m.2.renderChars

/-- A written member is one of the texts of the member, if its value is. -/
theorem memberText_renderMember {m : String × Json} (h : m.2.IsText m.2.renderChars)
    {before : List Char} (hbefore : Blanks before) :
    MemberText m.1 m.2.IsText (before ++ renderMember m) := by
  refine ⟨before ++ renderString m.1, [' '] ++ m.2.renderChars,
    .of_self hbefore (stringText_renderString m.1), .of_self blanks_space h, ?_⟩
  rw [renderMember, List.append_assoc, List.singleton_append]

theorem renderMembers_cons (m : String × Json) (members : List (String × Json)) :
    renderMembers (m :: members) = ',' :: ' ' :: (renderMember m ++ renderMembers members) := by
  rw [renderMembers, renderMember, List.append_assoc, List.cons_append, List.cons_append]

theorem renderChars_obj_cons (m : String × Json) (members : List (String × Json)) :
    (obj (m :: members)).renderChars = '{' :: (renderMember m ++ renderMembers members) := by
  rw [renderChars, renderMember, List.append_assoc, List.cons_append, List.cons_append]

/-- What is written is a text of the value. -/
theorem isText_renderChars (j : Json) : j.IsText j.renderChars := by
  induction j with
  | null => rfl
  | bool b => cases b <;> rfl
  | int i => exact intText_renderInt i
  | str s => exact stringText_renderString s
  | arr items ih =>
    cases items with
    | nil => exact ⟨[], blanks_nil, rfl⟩
    | cons item items =>
      obtain ⟨body, hbody, heq⟩ := exists_separated renderChars renderItems (by rw [renderItems])
        (fun _ _ ↦ by rw [renderItems]) (fun j hj before hbefore ↦ Padded.of_self hbefore (ih j hj))
        blanks_nil
      rw [← itemTexts_eq_map] at hbody
      exact ⟨body, hbody, congrArg ('[' :: ·) heq⟩
  | obj members ih =>
    cases members with
    | nil => exact ⟨[], blanks_nil, rfl⟩
    | cons m members =>
      obtain ⟨body, hbody, heq⟩ := exists_separated renderMember renderMembers
        (by rw [renderMembers]) renderMembers_cons
        (fun m hm before hbefore ↦ memberText_renderMember (ih m hm) hbefore) blanks_nil
      rw [← memberTexts_eq_map] at hbody
      rw [renderChars_obj_cons]
      exact ⟨body, hbody, congrArg ('{' :: ·) heq⟩

/-! ### Control characters -/

def Printed (cs : List Char) : Prop := ∀ c ∈ cs, 0x20 ≤ c.toNat

@[simp] theorem printed_nil : Printed [] := nofun

@[simp] theorem printed_cons {c : Char} {cs : List Char} :
    Printed (c :: cs) ↔ 0x20 ≤ c.toNat ∧ Printed cs := List.forall_mem_cons

@[simp] theorem printed_append {cs ds : List Char} :
    Printed (cs ++ ds) ↔ Printed cs ∧ Printed ds := List.forall_mem_append

theorem le_toNat_digitChar : ∀ k < 16, 0x20 ≤ (Nat.digitChar k).toNat := by decide

/-- An escape holds no control character, whatever it stands for. -/
theorem printed_escapeChar (c : Char) : Printed (escapeChar c) := by
  unfold escapeChar
  split_ifs with hquote hescape hnewline hreturn htab hbackspace hfeed hcontrol
  iterate 7 · simp
  · have hhigh := le_toNat_digitChar (c.toNat / 16) (by omega)
    have hlow := le_toNat_digitChar (c.toNat % 16) (by omega)
    simpa using ⟨hhigh, hlow⟩
  · simpa using hcontrol

/-- A written string holds no control character. -/
theorem printed_renderString (s : String) : Printed (renderString s) := by
  have hbody : Printed (s.toList.flatMap escapeChar) := by
    intro d hd
    obtain ⟨c, -, hc⟩ := List.mem_flatMap.mp hd
    exact printed_escapeChar c d hc
  simpa [renderString] using hbody

theorem printed_renderInt (i : Int) : Printed (renderInt i) := by
  have hdigits : Printed (Nat.toDigits 10 i.natAbs) := by
    intro d hd
    have hdigit := Nat.isDigit_of_mem_toDigits (by decide) (by decide) hd
    exact Nat.le_trans (by decide) (Char.isDigit_iff_toNat.mp hdigit).1
  unfold renderInt
  split_ifs
  · simpa using hdigits
  · exact hdigits

theorem printed_renderItems {items : List Json} (h : ∀ item ∈ items, Printed item.renderChars) :
    Printed (renderItems items) := by
  induction items with
  | nil => simp [renderItems]
  | cons item items ih =>
    rw [List.forall_mem_cons] at h
    simpa [renderItems] using ⟨h.1, ih h.2⟩

theorem printed_renderMember {m : String × Json} (h : Printed m.2.renderChars) :
    Printed (renderMember m) := by
  simpa [renderMember] using ⟨printed_renderString m.1, h⟩

theorem printed_renderMembers {members : List (String × Json)}
    (h : ∀ m ∈ members, Printed m.2.renderChars) : Printed (renderMembers members) := by
  induction members with
  | nil => simp [renderMembers]
  | cons m members ih =>
    rw [List.forall_mem_cons] at h
    rw [renderMembers_cons]
    simpa using ⟨printed_renderMember h.1, ih h.2⟩

/-- What is written of a value holds no control character. -/
theorem printed_renderChars (j : Json) : Printed j.renderChars := by
  induction j with
  | null => simp [renderChars]
  | bool b => cases b <;> simp [renderChars]
  | int i => exact printed_renderInt i
  | str s => exact printed_renderString s
  | arr items ih =>
    cases items with
    | nil => simp [renderChars]
    | cons item items =>
      rw [List.forall_mem_cons] at ih
      simpa [renderChars] using ⟨ih.1, printed_renderItems ih.2⟩
  | obj members ih =>
    cases members with
    | nil => simp [renderChars]
    | cons m members =>
      rw [List.forall_mem_cons] at ih
      rw [renderChars_obj_cons]
      simpa using ⟨printed_renderMember ih.1, printed_renderMembers ih.2⟩

end BracketSpacing.Json
