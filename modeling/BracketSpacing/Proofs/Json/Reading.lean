import BracketSpacing.Proofs.Json.Grammar

/-!
Reading JSON. `parse` reads every text of the grammar as the value it stands for (`reads`,
`parse_of_isDocument`), so a text stands for one value only (`eq_of_isDocument`). What `render`
writes is such a text: it is read back, by `parse` and by any other reader that keeps to the grammar
(`rendered_value_is_read_back`).
-/

set_option autoImplicit false
set_option relaxedAutoImplicit false

namespace BracketSpacing.Json

/-! ### Blanks -/

theorem skipBlank_of_head {c : Char} (h : ¬ Blank c) (rest : List Char) :
    skipBlank (c :: rest) = c :: rest := by
  rw [skipBlank, if_neg (by simpa [or_assoc] using h)]

theorem skipBlank_append {before : List Char} (h : Blanks before) (rest : List Char) :
    skipBlank (before ++ rest) = skipBlank rest := by
  induction before with
  | nil => rfl
  | cons c before ih =>
    obtain ⟨hc, hbefore⟩ := List.forall_mem_cons.mp h
    rw [List.cons_append, skipBlank, if_pos (by simpa [or_assoc] using hc), ih hbefore]

theorem skipBlank_skipBlank (cs : List Char) : skipBlank (skipBlank cs) = skipBlank cs := by
  induction cs with
  | nil => rfl
  | cons c cs ih =>
    by_cases hc : Blank c
    · rw [skipBlank, if_pos (by simpa [or_assoc] using hc), ih]
    · rw [skipBlank_of_head hc, skipBlank_of_head hc]

/-! ### Strings -/

theorem hexValue?_of_hexDigit {k : Nat} {c : Char} (h : HexDigit k c) : hexValue? c = some k := by
  cases h with
  | lower h => revert k; decide
  | upper h => revert k; decide

/-- Four digits are read as the number that they stand for. -/
theorem hex4?_of_unitText {n : Nat} {text : List Char} (h : UnitText n text) :
    ∃ a b c d, text = ['\\', 'u', a, b, c, d] ∧ hex4? a b c d = some n := by
  obtain ⟨ha, hb, hc, hd⟩ := h
  refine ⟨_, _, _, _, rfl, ?_⟩
  rw [hex4?, hexValue?_of_hexDigit ha, hexValue?_of_hexDigit hb, hexValue?_of_hexDigit hc,
    hexValue?_of_hexDigit hd]

theorem simpleEscape?_of_mem :
    ∀ e ∈ shortEscapes, e.1 ≠ 'u' ∧ simpleEscape? e.1 = some e.2 := by
  decide

/-- No character is half of a pair. -/
theorem highSurrogate?_toNat (c : Char) : highSurrogate? c.toNat = none := by
  have hvalid : c.toNat < 0xD800 ∨ 0xDFFF < c.toNat ∧ c.toNat < 0x110000 := c.valid
  rw [highSurrogate?, if_neg (by omega)]

/-- The first half of a pair gives the upper bits. -/
theorem highSurrogate?_add {high : Nat} (h : high < 0x400) :
    highSurrogate? (0xD800 + high) = some high := by
  rw [highSurrogate?, if_pos (by omega), Nat.add_sub_cancel_left]

/-- The second half of a pair gives the lower bits. -/
theorem lowSurrogate?_add {low : Nat} (h : low < 0x400) :
    lowSurrogate? (0xDC00 + low) = some low := by
  rw [lowSurrogate?, if_pos (by omega), Nat.add_sub_cancel_left]

/-- A character is read in whatever way it is written. -/
theorem stringBody_charText {c : Char} {text : List Char} (h : CharText c text) (rest : List Char) :
    stringBody (text ++ rest) = (stringBody rest).map fun r ↦ (c :: r.1, r.2) := by
  cases h with
  | plain hcontrol hquote hescape =>
    rw [List.singleton_append, stringBody]
    · rw [if_neg]
      simp only [hescape, decide_false, Bool.or_false, decide_eq_true_eq]
      omega
    · exact hquote
    · exact fun _ _ _ _ _ hc ↦ absurd hc hescape
    · exact fun _ _ hc ↦ absurd hc hescape
  | @short letter _ h =>
    obtain ⟨hletter, hvalue⟩ : letter ≠ 'u' ∧ simpleEscape? letter = some c :=
      simpleEscape?_of_mem _ h
    rw [List.cons_append, List.singleton_append, stringBody]
    · rw [hvalue]
    · exact fun _ _ _ _ _ hu ↦ absurd hu hletter
  | unit h =>
    obtain ⟨p, q, r, s, rfl, hvalue⟩ := hex4?_of_unitText h
    simp only [List.cons_append, List.nil_append]
    -- A character is no half of a pair, so the escape ends here.
    rw [stringBody, hvalue]
    simp only [highSurrogate?_toNat, Char.ofNat_toNat]
  | pair hfirst hsecond hhigh hlow hc =>
    obtain ⟨p, q, r, s, rfl, hvalue⟩ := hex4?_of_unitText hfirst
    obtain ⟨p', q', r', s', rfl, hvalue'⟩ := hex4?_of_unitText hsecond
    simp only [List.cons_append, List.nil_append]
    rw [stringBody, hvalue]
    simp only [highSurrogate?_add hhigh, hvalue', Option.bind_some, lowSurrogate?_add hlow]
    rw [← hc, Char.ofNat_toNat]

/-- The body of a string is read up to its quote, however its characters are written. -/
theorem stringBody_charsText {cs body : List Char} (h : CharsText cs body) (rest : List Char) :
    stringBody (body ++ '"' :: rest) = some (cs, rest) := by
  induction h with
  | nil => rw [List.nil_append, stringBody]
  | cons hc _ ih => rw [List.append_assoc, stringBody_charText hc, ih, Option.map_some]

/-! ### Numbers -/

/-- What may follow a number without being taken for a part of it. -/
def Ends (rest : List Char) : Prop :=
  ∀ c ∈ rest.head?, c.isDigit = false ∧ c ≠ '.' ∧ c ≠ 'e' ∧ c ≠ 'E'

theorem ends_nil : Ends [] := nofun

/-- A number ends at a character that cannot go on with it. -/
theorem ends_cons {c : Char} (h : c.isDigit = false ∧ c ≠ '.' ∧ c ≠ 'e' ∧ c ≠ 'E')
    (rest : List Char) : Ends (c :: rest) := by
  rintro _ ⟨⟩
  exact h

/-- Blanks end a number. -/
theorem Ends.blanks_append {after : List Char} (h : Blanks after) {rest : List Char}
    (hrest : Ends rest) : Ends (after ++ rest) := by
  cases after with
  | nil => exact hrest
  | cons c after =>
    refine ends_cons ?_ (after ++ rest)
    rcases h c List.mem_cons_self with rfl | rfl | rfl | rfl <;> decide

theorem digitsValue_eq (ds : List Char) : digitsValue ds = Nat.ofDigitChars 10 ds 0 := by
  simp only [digitsValue, Nat.ofDigitChars, Nat.mul_comm 10]
  rfl

/-- Digits are taken up to where a number ends. -/
theorem takeWhile_isDigit_append {ds rest : List Char} (hds : ∀ d ∈ ds, d.isDigit = true)
    (hrest : Ends rest) :
    (ds ++ rest).takeWhile Char.isDigit = ds ∧ (ds ++ rest).dropWhile Char.isDigit = rest := by
  rw [List.takeWhile_append_of_pos hds, List.dropWhile_append_of_pos hds]
  cases rest with
  | nil => simp
  | cons c rest =>
    have hc : c.isDigit = false := (hrest c rfl).1
    simp [hc]

/-- A natural number is read up to where it ends. -/
theorem natural_append {n : Nat} {ds : List Char} (h : NaturalText n ds) {rest : List Char}
    (hrest : Ends rest) : natural (ds ++ rest) = some (n, rest) := by
  obtain ⟨htake, hdrop⟩ := takeWhile_isDigit_append h.isDigit hrest
  have hzero : (ds.head? = some '0' && decide (1 < ds.length)) = false := by
    rw [Bool.and_eq_false_imp, decide_eq_true_eq]
    intro hhead
    rw [h.noLeadingZero hhead]
    rfl
  simp only [natural, htake, hdrop, hzero, digitsValue_eq, h.value]
  cases rest with
  | nil => simp [h.nonempty]
  | cons c rest =>
    obtain ⟨-, hdot, he, hE⟩ := hrest c rfl
    simp [h.nonempty, hdot, he, hE]

/-! ### Values -/

theorem value_skipBlank (fuel : Nat) (cs : List Char) :
    value fuel (skipBlank cs) = value fuel cs := by
  cases fuel with
  | zero => rw [value, value]
  | succ fuel => rw [value, value, skipBlank_skipBlank]

theorem items_skipBlank (fuel : Nat) (cs : List Char) :
    items fuel (skipBlank cs) = items fuel cs := by
  cases fuel with
  | zero => rw [items, items]
  | succ fuel => rw [items, items, value_skipBlank]

theorem members_skipBlank (fuel : Nat) (cs : List Char) :
    members fuel (skipBlank cs) = members fuel cs := by
  cases fuel with
  | zero => rw [members, members]
  | succ fuel => rw [members, members, skipBlank_skipBlank]

theorem value_of_blanks {before : List Char} (h : Blanks before) (fuel : Nat) (cs : List Char) :
    value fuel (before ++ cs) = value fuel cs := by
  rw [← value_skipBlank, skipBlank_append h, value_skipBlank]

theorem not_blank_of_isDigit {d : Char} (h : d.isDigit = true) : ¬ Blank d := by
  rintro (rfl | rfl | rfl | rfl) <;> cases h

/-- A value that starts with a digit is a number. -/
theorem value_of_digit {d : Char} (h : d.isDigit = true) (fuel : Nat) (cs : List Char) :
    value (fuel + 1) (d :: cs) = (natural (d :: cs)).map fun r ↦ (.int r.1, r.2) := by
  rw [value, skipBlank_of_head (not_blank_of_isDigit h)]
  split
  case h_8 => rfl
  all_goals
    rename_i heq
    obtain ⟨rfl, -⟩ := List.cons.inj heq
    cases h

/-- Brackets with nothing but blanks between them are the empty array. -/
theorem value_of_empty_array {cs rest : List Char} (h : skipBlank cs = ']' :: rest) (fuel : Nat) :
    value (fuel + 1) ('[' :: cs) = some (.arr [], rest) := by
  rw [value, skipBlank_of_head (by decide)]
  simp only [h]

/-- Braces with nothing but blanks between them are the empty object. -/
theorem value_of_empty_object {cs rest : List Char} (h : skipBlank cs = '}' :: rest) (fuel : Nat) :
    value (fuel + 1) ('{' :: cs) = some (.obj [], rest) := by
  rw [value, skipBlank_of_head (by decide)]
  simp only [h]

theorem items_of_bracket (fuel : Nat) (cs : List Char) : items fuel (']' :: cs) = none := by
  have hvalue : ∀ fuel, value fuel (']' :: cs) = none := by
    intro fuel
    cases fuel with
    | zero => rw [value]
    | succ fuel =>
      rw [value, skipBlank_of_head (by decide)]
      rfl
  cases fuel with
  | zero => rw [items]
  | succ fuel => rw [items, hvalue]

theorem members_of_brace (fuel : Nat) (cs : List Char) : members fuel ('}' :: cs) = none := by
  cases fuel with
  | zero => rw [members]
  | succ fuel =>
    rw [members, skipBlank_of_head (by decide)]
    rfl

theorem value_of_items {fuel : Nat} {cs rest : List Char} {js : List Json}
    (h : items fuel cs = some (js, rest)) :
    value (fuel + 1) ('[' :: cs) = some (.arr js, rest) := by
  rw [← items_skipBlank] at h
  rw [value, skipBlank_of_head (by decide)]
  simp only
  split
  -- There are items, so the array does not close at once.
  · rename_i heq
    rw [heq, items_of_bracket] at h
    cases h
  · rw [h, Option.map_some]

theorem value_of_members {fuel : Nat} {cs rest : List Char} {ms : List (String × Json)}
    (h : members fuel cs = some (ms, rest)) :
    value (fuel + 1) ('{' :: cs) = some (.obj ms, rest) := by
  rw [← members_skipBlank] at h
  rw [value, skipBlank_of_head (by decide)]
  simp only
  split
  · rename_i heq
    rw [heq, members_of_brace] at h
    cases h
  · rw [h, Option.map_some]

/-! ### Parts -/

/-- A value is read from any of its texts, if there is more fuel than text. -/
def Reads (j : Json) : Prop :=
  ∀ ⦃text rest : List Char⦄ ⦃fuel : Nat⦄, j.IsText text → Ends rest → text.length < fuel →
    value fuel (text ++ rest) = some (j, rest)

/-- A value that is read is read with blanks around it. -/
theorem Reads.padded {j : Json} (h : Reads j) {cs rest : List Char} {fuel : Nat}
    (hcs : Padded j.IsText cs) (hrest : Ends rest) (hfuel : cs.length < fuel) :
    ∃ after, value fuel (cs ++ rest) = some (j, after) ∧ skipBlank after = skipBlank rest := by
  obtain ⟨before, text, after, hbefore, htext, hafter, rfl⟩ := hcs
  rw [List.length_append, List.length_append] at hfuel
  refine ⟨after ++ rest, ?_, skipBlank_append hafter rest⟩
  rw [List.append_assoc, List.append_assoc, value_of_blanks hbefore]
  exact h htext (hrest.blanks_append hafter) (by omega)

/-- What may stand behind an item or a member. -/
theorem not_blank_and_ends_of_mem {c : Char} (h : c ∈ [',', ']', '}']) :
    ¬ Blank c ∧ c.isDigit = false ∧ c ≠ '.' ∧ c ≠ 'e' ∧ c ≠ 'E' := by
  simp only [List.mem_cons, List.not_mem_nil, or_false] at h
  rcases h with rfl | rfl | rfl <;> decide

/-- A value that is read is read before a separator or an end, which is what is left. -/
theorem Reads.before {j : Json} (h : Reads j) {cs : List Char} {fuel : Nat}
    (hcs : Padded j.IsText cs) (hfuel : cs.length < fuel) {c : Char} (hc : c ∈ [',', ']', '}'])
    (rest : List Char) :
    ∃ after, value fuel (cs ++ c :: rest) = some (j, after) ∧ skipBlank after = c :: rest := by
  obtain ⟨hblank, hends⟩ := not_blank_and_ends_of_mem hc
  obtain ⟨after, hvalue, hafter⟩ := h.padded hcs (ends_cons hends rest) hfuel
  exact ⟨after, hvalue, hafter.trans (skipBlank_of_head hblank rest)⟩

/-- One item is read before a comma, and as the last one before the bracket. -/
theorem items_of_padded {item : Json} (h : Reads item) {cs : List Char} {fuel : Nat}
    (hcs : Padded item.IsText cs) (hfuel : cs.length < fuel) (rest : List Char) :
    items (fuel + 1) (cs ++ ',' :: rest) = (items fuel rest).map (fun r ↦ (item :: r.1, r.2)) ∧
      items (fuel + 1) (cs ++ ']' :: rest) = some ([item], rest) := by
  constructor
  · obtain ⟨after, hvalue, hafter⟩ := h.before hcs hfuel (c := ',') (by decide) rest
    simp only [items, hvalue, hafter]
  · obtain ⟨after, hvalue, hafter⟩ := h.before hcs hfuel (c := ']') (by decide) rest
    simp only [items, hvalue, hafter]

/-- The steps by which a member is read. -/
theorem MemberText.steps {key : String} {v : Json} {cs : List Char}
    (hcs : MemberText key v.IsText cs) (h : Reads v) {fuel : Nat} (hfuel : cs.length < fuel)
    {c : Char} (hc : c ∈ [',', ']', '}']) (rest : List Char) :
    ∃ name colon text after, skipBlank (cs ++ c :: rest) = '"' :: name ∧
      stringBody name = some (key.toList, colon) ∧ skipBlank colon = ':' :: text ∧
      value fuel text = some (v, after) ∧ skipBlank after = c :: rest := by
  obtain ⟨-, text, ⟨before, -, blank, hbefore, ⟨body, hbody, rfl⟩, hblank, rfl⟩, htext, rfl⟩ := hcs
  have hlength : text.length < fuel := by
    simp only [List.length_append, List.length_cons] at hfuel
    omega
  obtain ⟨after, hvalue, hafter⟩ := h.before htext hlength hc rest
  refine ⟨_, _, _, after, ?_, stringBody_charsText hbody (blank ++ ':' :: (text ++ c :: rest)), ?_,
    hvalue, hafter⟩
  · simp only [List.append_assoc, List.cons_append, List.nil_append]
    rw [skipBlank_append hbefore, skipBlank_of_head (by decide)]
  · rw [skipBlank_append hblank, skipBlank_of_head (by decide)]

/-- One member is read before a comma, and as the last one before the brace. -/
theorem members_of_memberText {key : String} {v : Json} (h : Reads v) {cs : List Char} {fuel : Nat}
    (hcs : MemberText key v.IsText cs) (hfuel : cs.length < fuel) (rest : List Char) :
    members (fuel + 1) (cs ++ ',' :: rest) =
        (members fuel rest).map (fun r ↦ ((key, v) :: r.1, r.2)) ∧
      members (fuel + 1) (cs ++ '}' :: rest) = some ([(key, v)], rest) := by
  constructor
  · obtain ⟨name, colon, text, after, hname, hkey, hcolon, hvalue, hafter⟩ :=
      hcs.steps h hfuel (c := ',') (by decide) rest
    simp only [members, hname, hkey, hcolon, hvalue, hafter, String.ofList_toList]
  · obtain ⟨name, colon, text, after, hname, hkey, hcolon, hvalue, hafter⟩ :=
      hcs.steps h hfuel (c := '}') (by decide) rest
    simp only [members, hname, hkey, hcolon, hvalue, hafter, String.ofList_toList]

/-- Parts that are read one after the other, up to a closing character. -/
theorem read_separated {α : Type} {part : α → List Char → Prop} {close : Char}
    (read : Nat → List Char → Option (List α × List Char)) {xs : List α}
    (h : ∀ x ∈ xs, ∀ (fuel : Nat) (cs rest : List Char), part x cs → cs.length < fuel →
      read (fuel + 1) (cs ++ ',' :: rest) = (read fuel rest).map (fun r ↦ (x :: r.1, r.2)) ∧
        read (fuel + 1) (cs ++ close :: rest) = some ([x], rest))
    (hxs : xs ≠ []) {body : List Char} (hbody : Separated (xs.map part) body) {fuel : Nat}
    (hfuel : body.length + 1 < fuel) (rest : List Char) :
    read fuel (body ++ close :: rest) = some (xs, rest) := by
  obtain ⟨fuel, rfl⟩ : ∃ f, fuel = f + 1 := ⟨fuel - 1, by omega⟩
  induction xs generalizing body fuel with
  | nil => exact absurd rfl hxs
  | cons x xs ih =>
    obtain ⟨hx, hxs⟩ := List.forall_mem_cons.mp h
    cases xs with
    | nil => exact (hx fuel body rest hbody (by omega)).2
    | cons y ys =>
      obtain ⟨first, more, hfirst, hmore, rfl⟩ := hbody
      rw [List.length_append, List.length_cons] at hfuel
      obtain ⟨fuel, rfl⟩ : ∃ f, fuel = f + 1 := ⟨fuel - 1, by omega⟩
      rw [List.append_assoc, List.cons_append, (hx _ _ _ hfirst (by omega)).1,
        ih hxs (List.cons_ne_nil y ys) hmore fuel (by omega), Option.map_some]

theorem items_of_separated {js : List Json} (h : ∀ j ∈ js, Reads j) (hjs : js ≠ [])
    {body : List Char} (hbody : Separated (itemTexts js) body) {fuel : Nat}
    (hfuel : body.length + 1 < fuel) (rest : List Char) :
    items fuel (body ++ ']' :: rest) = some (js, rest) := by
  rw [itemTexts_eq_map] at hbody
  refine read_separated items ?_ hjs hbody hfuel rest
  exact fun j hj fuel cs rest hcs hlength ↦ items_of_padded (h j hj) hcs hlength rest

theorem members_of_separated {ms : List (String × Json)} (h : ∀ m ∈ ms, Reads m.2) (hms : ms ≠ [])
    {body : List Char} (hbody : Separated (memberTexts ms) body) {fuel : Nat}
    (hfuel : body.length + 1 < fuel) (rest : List Char) :
    members fuel (body ++ '}' :: rest) = some (ms, rest) := by
  rw [memberTexts_eq_map] at hbody
  refine read_separated members ?_ hms hbody hfuel rest
  exact fun m hm fuel cs rest hcs hlength ↦ members_of_memberText (h m hm) hcs hlength rest

/-! ### Whole values -/

theorem reads_of_succ {j : Json}
    (h : ∀ text rest fuel, j.IsText text → Ends rest → text.length ≤ fuel →
      value (fuel + 1) (text ++ rest) = some (j, rest)) : Reads j := by
  intro text rest fuel htext hrest hfuel
  obtain ⟨fuel, rfl⟩ : ∃ f, fuel = f + 1 := ⟨fuel - 1, by omega⟩
  exact h text rest fuel htext hrest (by omega)

theorem reads_null : Reads .null := by
  apply reads_of_succ
  rintro _ rest fuel rfl - -
  rw [value]
  rfl

theorem reads_bool (b : Bool) : Reads (.bool b) := by
  apply reads_of_succ
  cases b
  all_goals
    rintro _ rest fuel rfl - -
    rw [value]
    rfl

/-- A whole number is read from any of its texts. -/
theorem reads_int (i : Int) : Reads (.int i) := by
  apply reads_of_succ
  rintro text rest fuel (⟨h⟩ | ⟨h⟩) hrest -
  · obtain ⟨d, more, rfl⟩ := List.exists_cons_of_ne_nil h.nonempty
    rw [List.cons_append, value_of_digit (h.isDigit d List.mem_cons_self), ← List.cons_append,
      natural_append h hrest, Option.map_some]
  · rw [List.cons_append, value, skipBlank_of_head (by decide)]
    simp only [natural_append h hrest, Option.map_some]

/-- A string is read from any of its texts. -/
theorem reads_str (s : String) : Reads (.str s) := by
  apply reads_of_succ
  rintro _ rest fuel ⟨body, hbody, rfl⟩ - -
  rw [List.cons_append, List.append_assoc, List.singleton_append, value,
    skipBlank_of_head (by decide)]
  simp only [stringBody_charsText hbody, Option.map_some, String.ofList_toList]

/-- An array is read if its items are. -/
theorem reads_arr {js : List Json} (h : ∀ j ∈ js, Reads j) : Reads (.arr js) := by
  apply reads_of_succ
  rintro _ rest fuel ⟨body, hbody, rfl⟩ - hfuel
  simp only [List.length_cons, List.length_append, List.length_nil] at hfuel
  rw [List.cons_append, List.append_assoc, List.singleton_append]
  cases js with
  | nil =>
    refine value_of_empty_array ?_ fuel
    rw [skipBlank_append hbody, skipBlank_of_head (by decide)]
  | cons j js =>
    exact value_of_items (items_of_separated h (List.cons_ne_nil j js) hbody (by omega) rest)

/-- An object is read if the values of its members are. -/
theorem reads_obj {ms : List (String × Json)} (h : ∀ m ∈ ms, Reads m.2) : Reads (.obj ms) := by
  apply reads_of_succ
  rintro _ rest fuel ⟨body, hbody, rfl⟩ - hfuel
  simp only [List.length_cons, List.length_append, List.length_nil] at hfuel
  rw [List.cons_append, List.append_assoc, List.singleton_append]
  cases ms with
  | nil =>
    refine value_of_empty_object ?_ fuel
    rw [skipBlank_append hbody, skipBlank_of_head (by decide)]
  | cons m ms =>
    exact value_of_members (members_of_separated h (List.cons_ne_nil m ms) hbody (by omega) rest)

/-- Every value is read from all its texts. -/
theorem reads (j : Json) : Reads j := by
  induction j with
  | null => exact reads_null
  | bool b => exact reads_bool b
  | int i => exact reads_int i
  | str s => exact reads_str s
  | arr js ih => exact reads_arr ih
  | obj ms ih => exact reads_obj ih

/-- A document is read as the value it stands for. -/
theorem parse_of_isDocument {j : Json} {cs : List Char} (h : IsDocument j cs) :
    parse cs = some j := by
  obtain ⟨rest, hvalue, hrest⟩ := (reads j).padded h ends_nil (Nat.lt_succ_self cs.length)
  rw [List.append_nil] at hvalue
  rw [parse, hvalue]
  simp [hrest, skipBlank]

example : parse "[ -0 ,\t\"\\u0041\\/\\ud83d\\uDE00\" ]\n".toList =
    some (.arr [.int 0, .str "A/😀"]) := by
  cbv

/-- The grammar is unambiguous. -/
theorem eq_of_isDocument {j k : Json} {cs : List Char} (hj : IsDocument j cs)
    (hk : IsDocument k cs) : j = k := by
  have hsome : some j = some k := by rw [← parse_of_isDocument hj, parse_of_isDocument hk]
  exact Option.some.inj hsome

/-- What is written of a value is a document of it. -/
theorem isDocument_render (j : Json) : IsDocument j j.render.toList := by
  rw [render, String.toList_ofList]
  exact Padded.of_self blanks_nil (isText_renderChars j)

/-- A written value holds no control character, and stands for this value and no other. -/
theorem rendered_value_is_read_back (j : Json) :
    (∀ c ∈ j.render.toList, 0x20 ≤ c.toNat) ∧
      (∀ k, IsDocument k j.render.toList ↔ k = j) ∧
      parse j.render.toList = some j ∧
      ∀ k : Json, k.render = j.render → k = j := by
  have hdocument := isDocument_render j
  refine ⟨?_, ?_, parse_of_isDocument hdocument, ?_⟩
  · rw [render, String.toList_ofList]
    exact printed_renderChars j
  · intro k
    constructor
    · exact fun hk ↦ eq_of_isDocument hk hdocument
    · rintro rfl
      exact hdocument
  · intro k hk
    have hsame := isDocument_render k
    rw [hk] at hsame
    exact eq_of_isDocument hsame hdocument

end BracketSpacing.Json
