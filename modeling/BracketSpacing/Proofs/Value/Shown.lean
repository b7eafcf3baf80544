import BracketSpacing.Proofs.Json.Grammar
import BracketSpacing.Value.Shown

/-!
The texts of configuration values. `ShownAs` says how a value is written in messages and
`RenderedAs` how it is written as an id, a whole number by its decimal digits if they are no more
than 4300. `shown` and `plain` write these texts (`shown_eq_ok_iff`, `plain_eq_ok_iff`), and they
fail exactly on values that hold a longer number (`exists_shownAs_iff`, `exists_renderedAs_iff`).
-/

set_option autoImplicit false
set_option relaxedAutoImplicit false

namespace BracketSpacing

/-- Two steps succeed when the first does and the second after it. -/
theorem bind_eq_ok_iff {ε α β : Type} {x : Except ε α} {f : α → Except ε β} {b : β} :
    (x >>= f) = .ok b ↔ ∃ a, x = .ok a ∧ f a = .ok b := by
  cases x with
  | error e => exact ⟨nofun, nofun⟩
  | ok a => exact ⟨fun h ↦ ⟨a, rfl, h⟩, fun ⟨_, ha, h⟩ ↦ by cases ha; exact h⟩

theorem map_eq_ok_iff {ε α β : Type} {x : Except ε α} {f : α → β} {b : β} :
    x.map f = .ok b ↔ ∃ a, x = .ok a ∧ f a = b := by
  cases x with
  | error e => exact ⟨nofun, nofun⟩
  | ok a => simp [Except.map]

/-! ### Decimal digits -/

namespace Json

/-- A digit is the character of its own value. -/
theorem digitChar_of_isDigit {d : Char} (h : d.isDigit = true) :
    Nat.digitChar (d.toNat - '0'.toNat) = d := by
  have hbounds := Char.isDigit_iff_toNat.mp h
  apply Char.toNat_inj.mp
  rw [Nat.toNat_digitChar_of_lt_ten (by simp only [Char.reduceToNat] at *; omega)]
  simp only [Char.reduceToNat] at *
  omega

/-- Digits after those of a positive number are the digits of the number that they make of it. -/
theorem toDigits_append {digits : List Char} (h : ∀ d ∈ digits, d.isDigit = true) {n : Nat}
    (hn : 0 < n) :
    Nat.toDigits 10 n ++ digits = Nat.toDigits 10 (Nat.ofDigitChars 10 digits n) := by
  induction digits generalizing n with
  | nil => simp
  | cons d rest ih =>
    rw [List.forall_mem_cons] at h
    have hbounds := Char.isDigit_iff_toNat.mp h.1
    have hlt : d.toNat - '0'.toNat < 10 := by simp only [Char.reduceToNat] at *; omega
    have hdigit := Nat.toDigits_append_toDigits (by decide) hn hlt
    rw [Nat.toDigits_of_lt_base hlt, digitChar_of_isDigit h.1] at hdigit
    rw [Nat.ofDigitChars_cons, ← ih h.2 (by omega), ← hdigit, List.append_assoc,
      List.singleton_append]

/-- A natural number has one text. -/
theorem NaturalText.eq_toDigits {n : Nat} {digits : List Char} (h : NaturalText n digits) :
    digits = Nat.toDigits 10 n := by
  cases digits with
  | nil => exact absurd rfl h.nonempty
  | cons d rest =>
    have hdigits := List.forall_mem_cons.mp h.isDigit
    by_cases hzero : d = '0'
    · have hsingle := h.noLeadingZero (congrArg some hzero)
      have hvalue := h.value
      rw [hsingle] at hvalue ⊢
      rw [← hvalue]
      rfl
    · have hbounds := Char.isDigit_iff_toNat.mp hdigits.1
      have hne : d.toNat ≠ '0'.toNat := fun heq ↦ hzero (Char.toNat_inj.mp heq)
      have hlt : d.toNat - '0'.toNat < 10 := by simp only [Char.reduceToNat] at *; omega
      have hpos : 0 < d.toNat - '0'.toNat := by simp only [Char.reduceToNat] at *; omega
      have happend := toDigits_append hdigits.2 hpos
      rw [Nat.toDigits_of_lt_base hlt, digitChar_of_isDigit hdigits.1, List.singleton_append]
        at happend
      rw [happend, ← h.value, Nat.ofDigitChars_cons, Nat.mul_zero, Nat.zero_add]

end Json

namespace Value

/-- The decimal text of a whole number of no more than 4300 digits. -/
inductive DecimalText : Int → String → Prop
  | natural {n : Nat} {digits : List Char} (h : Json.NaturalText n digits)
    (hlength : digits.length ≤ 4300) : DecimalText n (String.ofList digits)
  | negative {n : Nat} {digits : List Char} (h : Json.NaturalText n digits) (hn : 0 < n)
    (hlength : digits.length ≤ 4300) : DecimalText (-n) (String.ofList ('-' :: digits))

theorem toString_natCast (n : Nat) : toString (n : Int) = String.ofList (Nat.toDigits 10 n) :=
  Nat.repr_eq_ofList_toDigits

theorem toString_neg {n : Nat} (hn : 0 < n) :
    toString (-(n : Int)) = String.ofList ('-' :: Nat.toDigits 10 n) := by
  obtain ⟨m, rfl⟩ : ∃ m, n = m + 1 := ⟨n - 1, by omega⟩
  have hrepr : toString (-((m + 1 : Nat) : Int)) = "-" ++ Nat.repr (m + 1) := rfl
  rw [hrepr, Nat.repr_eq_ofList_toDigits]
  exact String.toList_injective (by simp)

/-- A whole number has a text exactly if its digits are within the limit. -/
theorem decimalText_iff {i : Int} {text : String} :
    DecimalText i text ↔
      (Nat.toDigits 10 i.natAbs).length ≤ digitLimit ∧ text = toString i := by
  constructor
  · rintro (⟨h, hlength⟩ | ⟨h, hn, hlength⟩)
    · rw [h.eq_toDigits] at hlength ⊢
      exact ⟨hlength, (toString_natCast _).symm⟩
    · rw [h.eq_toDigits] at hlength ⊢
      rw [Int.natAbs_neg]
      exact ⟨hlength, (toString_neg hn).symm⟩
  · rintro ⟨hlength, rfl⟩
    have htext := Json.naturalText_toDigits i.natAbs
    rcases Int.natAbs_eq i with heq | heq
    · rw [heq, toString_natCast]
      exact .natural htext hlength
    · rcases Nat.eq_zero_or_pos i.natAbs with hzero | hpos
      · rw [Int.natAbs_eq_zero.mp hzero] at htext hlength ⊢
        exact .natural htext hlength
      · rw [heq, toString_neg hpos]
        exact .negative htext hpos hlength

/-- A whole number is written in decimal. -/
theorem decimal_eq_ok_iff {i : Int} {text : String} :
    decimal i = .ok text ↔ DecimalText i text := by
  rw [decimalText_iff, decimal]
  split_ifs with hlt
  · simp [hlt, eq_comm]
  · simp [hlt]

/-! ### Texts -/

theorem sizeOf_entry_lt {entry : Value × Value} {entries : List (Value × Value)}
    (h : entry ∈ entries) : sizeOf entry.1 < sizeOf entries ∧ sizeOf entry.2 < sizeOf entries := by
  have hentry := List.sizeOf_lt_of_mem h
  obtain ⟨key, v⟩ := entry
  rw [Prod.mk.sizeOf_spec] at hentry
  constructor <;> dsimp only <;> omega

/-- What passes from all parts to the whole holds of every value. -/
@[elab_as_elim]
theorem inductionOnParts {motive : Value → Prop} (null : motive .null)
    (bool : ∀ b, motive (.bool b)) (int : ∀ i, motive (.int i)) (float : ∀ x, motive (.float x))
    (str : ∀ s, motive (.str s)) (foreign : ∀ x, motive (.foreign x))
    (list : ∀ items, (∀ item ∈ items, motive item) → motive (.list items))
    (tuple : ∀ items, (∀ item ∈ items, motive item) → motive (.tuple items))
    (map : ∀ entries, (∀ entry ∈ entries, motive entry.1 ∧ motive entry.2) →
      motive (.map entries)) : ∀ v, motive v
  | .null => null
  | .bool b => bool b
  | .int i => int i
  | .float x => float x
  | .str s => str s
  | .foreign x => foreign x
  | .list items => list items fun item _ ↦
      inductionOnParts null bool int float str foreign list tuple map item
  | .tuple items => tuple items fun item _ ↦
      inductionOnParts null bool int float str foreign list tuple map item
  | .map entries => map entries fun entry _ ↦
      ⟨inductionOnParts null bool int float str foreign list tuple map entry.1,
        inductionOnParts null bool int float str foreign list tuple map entry.2⟩
termination_by v => sizeOf v
decreasing_by
  · have hitem := List.sizeOf_lt_of_mem (by assumption)
    rw [Value.list.sizeOf_spec]
    omega
  · have hitem := List.sizeOf_lt_of_mem (by assumption)
    rw [Value.tuple.sizeOf_spec]
    omega
  · have hentry := (sizeOf_entry_lt (by assumption)).1
    rw [Value.map.sizeOf_spec]
    omega
  · have hentry := (sizeOf_entry_lt (by assumption)).2
    rw [Value.map.sizeOf_spec]
    omega

/-- How a value is written in messages. -/
inductive ShownAs : Value → String → Prop
  | null : ShownAs .null "None"
  | bool (b : Bool) : ShownAs (.bool b) (if b then "True" else "False")
  | int {i : Int} {text : String} (h : DecimalText i text) : ShownAs (.int i) text
  | float (x : Binary64) : ShownAs (.float x) x.render
  | str (s : String) : ShownAs (.str s) (Text.Quoted.quote s)
  | list {items : List Value} {text : Value → String}
    (h : ∀ item ∈ items, ShownAs item (text item)) :
    ShownAs (.list items) ("[" ++ ", ".intercalate (items.map text) ++ "]")
  | single {item : Value} {text : String} (h : ShownAs item text) :
    ShownAs (.tuple [item]) ("(" ++ text ++ ",)")
  | tuple {items : List Value} {text : Value → String}
    (h : ∀ item ∈ items, ShownAs item (text item)) (hlength : items.length ≠ 1) :
    ShownAs (.tuple items) ("(" ++ ", ".intercalate (items.map text) ++ ")")
  | map {entries : List (Value × Value)} {text : Value → String}
    (hkeys : ∀ entry ∈ entries, ShownAs entry.1 (text entry.1))
    (hvalues : ∀ entry ∈ entries, ShownAs entry.2 (text entry.2)) :
    ShownAs (.map entries)
      ("\x7b" ++ ", ".intercalate (entries.map fun entry ↦ text entry.1 ++ ": " ++ text entry.2) ++
        "\x7d")
  | foreign (x : Foreign) : ShownAs (.foreign x) x.shown

/-- How a value is written as an id: a string is itself. -/
inductive RenderedAs : Value → String → Prop
  | str (s : String) : RenderedAs (.str s) s
  | foreign (x : Foreign) : RenderedAs (.foreign x) x.plain
  | other {v : Value} {text : String} (h : ShownAs v text) (hstr : ∀ s, v ≠ .str s)
    (hforeign : ∀ x, v ≠ .foreign x) : RenderedAs v text

section Shown

variable {text : Value → String}

theorem shownAll_eq_ok {items : List Value} (h : ∀ item ∈ items, shown item = .ok (text item)) :
    shownAll items = .ok (items.map text) := by
  induction items with
  | nil => rfl
  | cons item rest ih =>
    rw [List.forall_mem_cons] at h
    rw [shownAll, h.1, ih h.2]
    rfl

theorem shownEntries_eq_ok {entries : List (Value × Value)}
    (h : ∀ entry ∈ entries,
      shown entry.1 = .ok (text entry.1) ∧ shown entry.2 = .ok (text entry.2)) :
    shownEntries entries =
      .ok (entries.map fun entry ↦ text entry.1 ++ ": " ++ text entry.2) := by
  induction entries with
  | nil => rfl
  | cons entry rest ih =>
    rw [List.forall_mem_cons] at h
    rw [shownEntries, h.1.1, h.1.2, ih h.2]
    rfl

theorem shown_tuple {items : List Value} (h : items.length ≠ 1) :
    shown (.tuple items) = (shownAll items).map fun texts ↦
      "(" ++ ", ".intercalate texts ++ ")" := by
  cases items with
  | nil => rw [shown]; simp
  | cons item rest =>
    cases rest with
    | nil => exact absurd rfl h
    | cons => rw [shown]; simp

/-- A value is written as the relation says. -/
theorem shown_of_shownAs {v : Value} {text : String} (h : ShownAs v text) : shown v = .ok text := by
  induction h with
  | null => rw [shown]
  | bool b => cases b <;> rw [shown] <;> rfl
  | int h => rw [shown, decimal_eq_ok_iff.mpr h]
  | float | str | foreign => rw [shown]
  | list _ ih => rw [shown, shownAll_eq_ok ih]; rfl
  | single _ ih => rw [shown, ih]; rfl
  | tuple _ hlength ih => rw [shown_tuple hlength, shownAll_eq_ok ih]; rfl
  | map _ _ ihkeys ihvalues =>
    rw [shown, shownEntries_eq_ok fun entry hentry ↦ ⟨ihkeys entry hentry, ihvalues entry hentry⟩]
    rfl

/-- The text of a value, if it has one. -/
def textOf (v : Value) : String := (shown v).toOption.getD ""

theorem shown_eq_textOf {v : Value} {text : String} (h : shown v = .ok text) :
    shown v = .ok (textOf v) := by
  rw [textOf, h]
  rfl

theorem of_shownAll {items : List Value} {texts : List String} (h : shownAll items = .ok texts) :
    texts = items.map textOf ∧ ∀ item ∈ items, shown item = .ok (textOf item) := by
  induction items generalizing texts with
  | nil =>
    cases h
    exact ⟨rfl, nofun⟩
  | cons item rest ih =>
    obtain ⟨text, htext, h⟩ := bind_eq_ok_iff.mp h
    obtain ⟨more, hmore, h⟩ := bind_eq_ok_iff.mp h
    cases h
    obtain ⟨rfl, hrest⟩ := ih hmore
    have hitem := shown_eq_textOf htext
    cases htext.symm.trans hitem
    exact ⟨rfl, List.forall_mem_cons.mpr ⟨hitem, hrest⟩⟩

theorem of_shownEntries {entries : List (Value × Value)} {texts : List String}
    (h : shownEntries entries = .ok texts) :
    texts = entries.map (fun entry ↦ textOf entry.1 ++ ": " ++ textOf entry.2) ∧
      ∀ entry ∈ entries,
        shown entry.1 = .ok (textOf entry.1) ∧ shown entry.2 = .ok (textOf entry.2) := by
  induction entries generalizing texts with
  | nil =>
    cases h
    exact ⟨rfl, nofun⟩
  | cons entry rest ih =>
    obtain ⟨key, htext, h⟩ := bind_eq_ok_iff.mp h
    obtain ⟨value, hvalue, h⟩ := bind_eq_ok_iff.mp h
    obtain ⟨more, hmore, h⟩ := bind_eq_ok_iff.mp h
    cases h
    obtain ⟨rfl, hrest⟩ := ih hmore
    have hkey' := shown_eq_textOf htext
    have hvalue' := shown_eq_textOf hvalue
    cases htext.symm.trans hkey'
    cases hvalue.symm.trans hvalue'
    exact ⟨rfl, List.forall_mem_cons.mpr ⟨⟨hkey', hvalue'⟩, hrest⟩⟩

/-- What is written of a value is what the relation says. -/
theorem shownAs_of_shown {v : Value} {text : String} (h : shown v = .ok text) : ShownAs v text := by
  induction v using inductionOnParts generalizing text with
  | null =>
    rw [shown] at h
    cases h
    exact .null
  | bool b =>
    cases b <;> rw [shown] at h <;> cases h
    · exact .bool false
    · exact .bool true
  | int i =>
    rw [shown] at h
    exact .int (decimal_eq_ok_iff.mp h)
  | float x =>
    rw [shown] at h
    cases h
    exact .float x
  | str s =>
    rw [shown] at h
    cases h
    exact .str s
  | foreign x =>
    rw [shown] at h
    cases h
    exact .foreign x
  | list items ih =>
    rw [shown] at h
    obtain ⟨texts, htexts, rfl⟩ := map_eq_ok_iff.mp h
    obtain ⟨rfl, hitems⟩ := of_shownAll htexts
    exact .list fun item hitem ↦ ih item hitem (hitems item hitem)
  | tuple items ih =>
    by_cases hlength : items.length = 1
    · obtain ⟨item, rfl⟩ := List.length_eq_one_iff.mp hlength
      rw [shown] at h
      obtain ⟨text, htext, rfl⟩ := map_eq_ok_iff.mp h
      exact .single (ih item List.mem_cons_self htext)
    · rw [shown_tuple hlength] at h
      obtain ⟨texts, htexts, rfl⟩ := map_eq_ok_iff.mp h
      obtain ⟨rfl, hitems⟩ := of_shownAll htexts
      exact .tuple (fun item hitem ↦ ih item hitem (hitems item hitem)) hlength
  | map entries ih =>
    rw [shown] at h
    obtain ⟨texts, htexts, rfl⟩ := map_eq_ok_iff.mp h
    obtain ⟨rfl, hentries⟩ := of_shownEntries htexts
    exact .map (fun entry hentry ↦ (ih entry hentry).1 (hentries entry hentry).1)
      fun entry hentry ↦ (ih entry hentry).2 (hentries entry hentry).2

/-- A value is shown by its text. -/
theorem shown_eq_ok_iff {v : Value} {text : String} : shown v = .ok text ↔ ShownAs v text :=
  ⟨shownAs_of_shown, shown_of_shownAs⟩

end Shown

/-! ### Long numbers -/

/-- A whole number stands in a value. -/
inductive Contains : Value → Int → Prop
  | int (i : Int) : Contains (.int i) i
  | list {items : List Value} {item : Value} {i : Int} (hitem : item ∈ items)
    (h : Contains item i) : Contains (.list items) i
  | tuple {items : List Value} {item : Value} {i : Int} (hitem : item ∈ items)
    (h : Contains item i) : Contains (.tuple items) i
  | key {entries : List (Value × Value)} {entry : Value × Value} {i : Int}
    (hentry : entry ∈ entries) (h : Contains entry.1 i) : Contains (.map entries) i
  | value {entries : List (Value × Value)} {entry : Value × Value} {i : Int}
    (hentry : entry ∈ entries) (h : Contains entry.2 i) : Contains (.map entries) i

/-- No whole number in a value has more than 4300 digits. -/
def Writable (v : Value) : Prop := ∀ i, v.Contains i → (Nat.toDigits 10 i.natAbs).length ≤ 4300

/-- No number in a value that has a text is too long. -/
theorem ShownAs.writable {v : Value} {text : String} (h : ShownAs v text) : Writable v := by
  intro i hi
  induction h with
  | null | bool | float | str | foreign => cases hi
  | int h =>
    cases hi
    exact (decimalText_iff.mp h).1
  | list _ ih =>
    cases hi with
    | list hitem hi => exact ih _ hitem hi
  | single _ ih =>
    cases hi with
    | tuple hitem hi =>
      rw [List.mem_singleton.mp hitem] at hi
      exact ih hi
  | tuple _ _ ih =>
    cases hi with
    | tuple hitem hi => exact ih _ hitem hi
  | map _ _ ihkeys ihvalues =>
    cases hi with
    | key hentry hi => exact ihkeys _ hentry hi
    | value hentry hi => exact ihvalues _ hentry hi

theorem Writable.exists_shownAs {v : Value} (h : Writable v) : ∃ text, ShownAs v text := by
  induction v using inductionOnParts with
  | null => exact ⟨_, .null⟩
  | bool b => exact ⟨_, .bool b⟩
  | int i => exact ⟨_, .int (decimalText_iff.mpr ⟨h i (.int i), rfl⟩)⟩
  | float x => exact ⟨_, .float x⟩
  | str s => exact ⟨_, .str s⟩
  | foreign x => exact ⟨_, .foreign x⟩
  | list items ih =>
    choose! text htext using fun item hitem ↦ ih item hitem fun i hi ↦ h i (.list hitem hi)
    exact ⟨_, .list htext⟩
  | tuple items ih =>
    choose! text htext using fun item hitem ↦ ih item hitem fun i hi ↦ h i (.tuple hitem hi)
    by_cases hlength : items.length = 1
    · obtain ⟨item, rfl⟩ := List.length_eq_one_iff.mp hlength
      exact ⟨_, .single (htext item List.mem_cons_self)⟩
    · exact ⟨_, .tuple htext hlength⟩
  | map entries ih =>
    have hparts : ∀ entry ∈ entries,
        (∃ text, ShownAs entry.1 text) ∧ ∃ text, ShownAs entry.2 text := fun entry hentry ↦
      ⟨(ih entry hentry).1 fun i hi ↦ h i (.key hentry hi),
        (ih entry hentry).2 fun i hi ↦ h i (.value hentry hi)⟩
    -- One choice of texts has to serve keys and values.
    have htext {v : Value} (hv : ∃ text, ShownAs v text) : ShownAs v (textOf v) := by
      obtain ⟨text, htext⟩ := hv
      exact shown_eq_ok_iff.mp (shown_eq_textOf (shown_eq_ok_iff.mpr htext))
    exact ⟨_, .map (fun entry hentry ↦ htext (hparts entry hentry).1)
      fun entry hentry ↦ htext (hparts entry hentry).2⟩

/-- A value has a text exactly if no number in it is too long. -/
theorem exists_shownAs_iff {v : Value} : (∃ text, ShownAs v text) ↔ Writable v :=
  ⟨fun ⟨_, h⟩ ↦ h.writable, Writable.exists_shownAs⟩

/-- But for texts, dates and the like, an id is what messages show. -/
theorem plain_eq_shown {v : Value} (hstr : ∀ s, v ≠ .str s) (hforeign : ∀ x, v ≠ .foreign x) :
    plain v = shown v := by
  cases v with
  | str s => exact absurd rfl (hstr s)
  | foreign x => exact absurd rfl (hforeign x)
  | _ => rfl

theorem kind_cases (v : Value) :
    (∃ s, v = .str s) ∨ (∃ x, v = .foreign x) ∨ (∀ s, v ≠ .str s) ∧ ∀ x, v ≠ .foreign x := by
  by_cases hstr : ∃ s, v = .str s
  · exact Or.inl hstr
  by_cases hforeign : ∃ x, v = .foreign x
  · exact Or.inr (Or.inl hforeign)
  exact Or.inr (Or.inr ⟨not_exists.mp hstr, not_exists.mp hforeign⟩)

/-- A value is rendered as an id by its text. -/
theorem plain_eq_ok_iff {v : Value} {text : String} : plain v = .ok text ↔ RenderedAs v text := by
  constructor
  · intro h
    obtain ⟨s, rfl⟩ | ⟨x, rfl⟩ | ⟨hstr, hforeign⟩ := kind_cases v
    · cases h
      exact .str _
    · cases h
      exact .foreign x
    · rw [plain_eq_shown hstr hforeign] at h
      exact .other (shown_eq_ok_iff.mp h) hstr hforeign
  · rintro (_ | _ | ⟨h, hstr, hforeign⟩)
    · rfl
    · rfl
    · rw [plain_eq_shown hstr hforeign]
      exact shown_eq_ok_iff.mpr h

/-- A value can be an id exactly if no number in it is too long. -/
theorem exists_renderedAs_iff {v : Value} : (∃ text, RenderedAs v text) ↔ Writable v := by
  constructor
  · rintro ⟨text, _ | _ | ⟨h, -, -⟩⟩
    · exact nofun
    · exact nofun
    · exact h.writable
  · intro h
    obtain ⟨s, rfl⟩ | ⟨x, rfl⟩ | ⟨hstr, hforeign⟩ := kind_cases v
    · exact ⟨s, .str s⟩
    · exact ⟨x.plain, .foreign x⟩
    · obtain ⟨text, htext⟩ := h.exists_shownAs
      exact ⟨text, .other htext hstr hforeign⟩

/-- A value with a number that is too long is no id. -/
theorem plain_eq_error {v : Value} (h : ¬v.Writable) : plain v = .error .inWhole := by
  cases hplain : plain v with
  | error e => cases e; rfl
  | ok text => exact absurd (exists_renderedAs_iff.mp ⟨text, plain_eq_ok_iff.mp hplain⟩) h

/-- A value with a number that is too long is not shown. -/
theorem shown_eq_error {v : Value} (h : ¬v.Writable) : shown v = .error .inWhole := by
  cases hshown : shown v with
  | error e => cases e; rfl
  | ok text => exact absurd (shown_eq_ok_iff.mp hshown).writable h

end Value

end BracketSpacing
