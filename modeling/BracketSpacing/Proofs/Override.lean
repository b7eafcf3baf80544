import BracketSpacing.Override
import BracketSpacing.Proofs.Assoc
import Mathlib.Data.List.DropRight

/-!
Reading overrides. A spec is refused for one reason only, that it holds no equals sign, and of
several such specs the first one is told (`parse_eq_error`, `exists_first_of_parseFrom`). What is
read is what was written: `Written` is an override with any blanks around its two parts, and reading
the specs of some of them gives each id the option of its last one, the ids in the order in which
they first occur (`overrides_are_read_as_written`).
-/

set_option autoImplicit false
set_option relaxedAutoImplicit false

namespace BracketSpacing

/-! ### Blanks at the ends -/

namespace Text

/-- No blank stands at either end. -/
structure Stripped (text : List Char) : Prop where
  head : ∀ c, text.head? = some c → isBlank c = false
  last : ∀ c, text.getLast? = some c → isBlank c = false

theorem stripEnd_eq_rdropWhile (text : List Char) : stripEnd text = text.rdropWhile isBlank := rfl

/-- What is taken away at the end are blanks. -/
theorem stripEnd_append_rtakeWhile (text : List Char) :
    stripEnd text ++ text.rtakeWhile isBlank = text :=
  List.rdropWhile_append_rtakeWhile

/-- No blank is left at the end. -/
theorem isBlank_of_getLast?_stripEnd {text : List Char} {c : Char}
    (h : (stripEnd text).getLast? = some c) : isBlank c = false := by
  have hne : stripEnd text ≠ [] := by
    intro hnil
    rw [hnil] at h
    cases h
  have hnot := List.rdropWhile_last_not isBlank text hne
  rw [List.getLast?_eq_some_getLast hne, Option.some.injEq] at h
  rw [← h]
  exact Bool.eq_false_iff.mpr hnot

theorem strip_sublist (text : List Char) : (strip text).Sublist text :=
  (List.rdropWhile_prefix isBlank _).sublist.trans (List.dropWhile_sublist isBlank)

/-- A stripped text has no blank at either end. -/
theorem stripped_strip (text : List Char) : Stripped (strip text) where
  head c hc := by
    -- what is left at the front is what the blanks there were followed by
    obtain ⟨after, hafter⟩ := List.rdropWhile_prefix isBlank (text.dropWhile isBlank)
    have hfront : (text.dropWhile isBlank).head? = some c := by
      rw [← hafter, List.head?_append, ← stripEnd_eq_rdropWhile]
      exact Option.or_eq_some_iff.mpr (Or.inl hc)
    have hnot := List.head?_dropWhile_not isBlank text
    rw [hfront] at hnot
    simpa using hnot
  last _ hc := isBlank_of_getLast?_stripEnd hc

/-- A text without a blank in front keeps its front, whatever follows. -/
theorem dropWhile_isBlank_append {text : List Char} (h : Stripped text) (hne : text ≠ [])
    (after : List Char) : (text ++ after).dropWhile isBlank = text ++ after := by
  cases text with
  | nil => exact absurd rfl hne
  | cons c text =>
    have hc : isBlank c = false := h.head c rfl
    rw [List.cons_append, List.dropWhile_cons_of_neg (by simp [hc])]

theorem Stripped.reverse {text : List Char} (h : Stripped text) : Stripped text.reverse where
  head c hc := h.last c (by rwa [List.head?_reverse] at hc)
  last c hc := h.head c (by rwa [List.getLast?_reverse] at hc)

/-- Blanks around a stripped text are all that is taken away. -/
theorem strip_padded {before text after : List Char} (hbefore : ∀ c ∈ before, isBlank c = true)
    (h : Stripped text) (hafter : ∀ c ∈ after, isBlank c = true) :
    strip (before ++ (text ++ after)) = text := by
  rw [strip, List.dropWhile_append_of_pos hbefore]
  by_cases hne : text = []
  · rw [hne, List.nil_append, List.dropWhile_eq_nil_iff.mpr hafter]
    rfl
  · have hafter' : ∀ c ∈ after.reverse, isBlank c = true := fun c hc ↦
      hafter c (List.mem_reverse.mp hc)
    have hne' : text.reverse ≠ [] := mt List.reverse_eq_nil_iff.mp hne
    have hback := dropWhile_isBlank_append h.reverse hne' []
    rw [List.append_nil] at hback
    rw [dropWhile_isBlank_append h hne, stripEnd, List.reverse_append,
      List.dropWhile_append_of_pos hafter', hback, List.reverse_reverse]

end Text

namespace Override

open Text

/-! ### Specs that are refused -/

/-- A spec is not split exactly if it holds no equals sign. -/
theorem splitSpec_eq_none_iff {cs : List Char} : splitSpec cs = none ↔ '=' ∉ cs := by
  induction cs with
  | nil => simp [splitSpec]
  | cons c cs ih =>
    by_cases h : c = '='
    · simp [splitSpec, h]
    · simp [splitSpec, h, ih, Ne.symm h]

theorem exists_parseOne {spec : String} (h : '=' ∈ spec.toList) :
    ∃ override, parseOne spec = .ok override := by
  unfold parseOne
  cases hsplit : splitSpec spec.toList with
  | none => exact absurd h (splitSpec_eq_none_iff.mp hsplit)
  | some parts => exact ⟨_, rfl⟩

/-- A spec without an equals sign is refused by name. -/
theorem parseOne_of_notMem {spec : String} (h : '=' ∉ spec.toList) :
    parseOne spec = .error (.badOverride spec) := by
  rw [parseOne, splitSpec_eq_none_iff.mpr h]

/-- Specs that all hold an equals sign are read. -/
theorem exists_parseFrom {specs : List String} (h : ∀ spec ∈ specs, '=' ∈ spec.toList)
    (overrides : List (String × String)) : ∃ result, parseFrom overrides specs = .ok result := by
  induction specs generalizing overrides with
  | nil => exact ⟨overrides, rfl⟩
  | cons spec rest ih =>
    rw [List.forall_mem_cons] at h
    obtain ⟨override, hone⟩ := exists_parseOne h.1
    rw [parseFrom, hone]
    exact ih h.2 _

theorem exists_parse {specs : List String} (h : ∀ spec ∈ specs, '=' ∈ spec.toList) :
    ∃ overrides, parse specs = .ok overrides := exists_parseFrom h []

/-- The first spec without an equals sign decides, whatever was read before it. -/
theorem parseFrom_eq_error {before after : List String} {spec : String}
    (hbefore : ∀ b ∈ before, '=' ∈ b.toList) (hspec : '=' ∉ spec.toList)
    (overrides : List (String × String)) :
    parseFrom overrides (before ++ spec :: after) = .error (.badOverride spec) := by
  induction before generalizing overrides with
  | nil => rw [List.nil_append, parseFrom, parseOne_of_notMem hspec]
  | cons b before ih =>
    rw [List.forall_mem_cons] at hbefore
    obtain ⟨override, hone⟩ := exists_parseOne hbefore.1
    rw [List.cons_append, parseFrom, hone]
    exact ih hbefore.2 _

/-- The first spec without an equals sign is the one refused. -/
theorem parse_eq_error {before after : List String} {spec : String}
    (hbefore : ∀ b ∈ before, '=' ∈ b.toList) (hspec : '=' ∉ spec.toList) :
    parse (before ++ spec :: after) = .error (.badOverride spec) :=
  parseFrom_eq_error hbefore hspec []

/-- Reading fails at the first spec without an equals sign, and for nothing else. -/
theorem exists_first_of_parseFrom {specs : List String} {overrides : List (String × String)}
    {e : Config.Error} (h : parseFrom overrides specs = .error e) :
    ∃ before spec after, specs = before ++ spec :: after ∧ (∀ b ∈ before, '=' ∈ b.toList) ∧
      '=' ∉ spec.toList ∧ e = .badOverride spec := by
  induction specs generalizing overrides with
  | nil => cases h
  | cons spec rest ih =>
    by_cases hspec : '=' ∈ spec.toList
    · obtain ⟨⟨id, option⟩, hone⟩ := exists_parseOne hspec
      rw [parseFrom, hone] at h
      obtain ⟨before, bad, after, rfl, hbefore, hbad, he⟩ := ih h
      exact ⟨spec :: before, bad, after, rfl, List.forall_mem_cons.mpr ⟨hspec, hbefore⟩, hbad, he⟩
    · rw [parseFrom, parseOne_of_notMem hspec] at h
      cases h
      exact ⟨[], spec, rest, rfl, nofun, hspec, rfl⟩

/-! ### Specs that are read -/

/-- An override is cut at its first equals sign. -/
theorem splitSpec_append {before : List Char} (h : '=' ∉ before) (after : List Char) :
    splitSpec (before ++ '=' :: after) = some (before, after) := by
  induction before with
  | nil => rfl
  | cons c before ih =>
    rw [List.mem_cons, not_or] at h
    rw [List.cons_append, splitSpec, if_neg (Ne.symm h.1), ih h.2]
    rfl

/-- What stands before the cut holds no equals sign. -/
theorem notMem_of_splitSpec {cs before after : List Char}
    (h : splitSpec cs = some (before, after)) : '=' ∉ before := by
  induction cs generalizing before with
  | nil => cases h
  | cons c cs ih =>
    rw [splitSpec] at h
    split_ifs at h with hc
    · cases h
      exact List.not_mem_nil
    · obtain ⟨parts, hparts, heq⟩ := Option.map_eq_some_iff.mp h
      cases heq
      rw [List.mem_cons, not_or]
      exact ⟨Ne.symm hc, ih hparts⟩

/-- An id without equals sign and an option, both without blanks at their ends. -/
structure Clean (override : String × String) : Prop where
  equals : '=' ∉ override.1.toList
  id : Stripped override.1.toList
  option : Stripped override.2.toList

/-- What is read of a spec is clean. -/
theorem clean_of_parseOne {spec : String} {override : String × String}
    (h : parseOne spec = .ok override) : Clean override := by
  unfold parseOne at h
  split at h
  · cases h
  · next id option hsplit =>
    cases h
    refine ⟨?_, ?_, ?_⟩ <;> rw [String.toList_ofList]
    · exact fun hmem ↦ notMem_of_splitSpec hsplit ((strip_sublist id).subset hmem)
    · exact stripped_strip id
    · exact stripped_strip option

/-- Reading specs adds clean overrides only. -/
theorem clean_of_parseFrom {specs : List String} {overrides result : List (String × String)}
    (h : ∀ o ∈ overrides, Clean o) (hparse : parseFrom overrides specs = .ok result) :
    ∀ o ∈ result, Clean o := by
  induction specs generalizing overrides with
  | nil =>
    cases hparse
    exact h
  | cons spec rest ih =>
    rw [parseFrom] at hparse
    split at hparse
    · cases hparse
    · next id option hone =>
      refine ih (fun o ho ↦ ?_) hparse
      rcases Assoc.mem_put ho with rfl | ho
      · exact clean_of_parseOne hone
      · exact h o ho

/-- Specs that are read one by one make the map of their pairs. -/
theorem parseFrom_map {γ : Type} {spec : γ → String} {pair : γ → String × String} {xs : List γ}
    (h : ∀ x ∈ xs, parseOne (spec x) = .ok (pair x)) (overrides : List (String × String)) :
    parseFrom overrides (xs.map spec) =
      .ok ((xs.map pair).foldl (fun entries p ↦ Assoc.put p.1 p.2 entries) overrides) := by
  induction xs generalizing overrides with
  | nil => rfl
  | cons x xs ih =>
    rw [List.forall_mem_cons] at h
    rw [List.map_cons, parseFrom, h.1]
    exact ih h.2 _

/-- An override as it may be written: blanks may stand around its id and around its option. -/
structure Written where
  id : String
  option : String
  beforeId : List Char
  afterId : List Char
  beforeOption : List Char
  afterOption : List Char
  clean : Clean (id, option)
  blank : ∀ c ∈ beforeId ++ afterId ++ beforeOption ++ afterOption, isBlank c = true

namespace Written

def spec (w : Written) : String :=
  String.ofList (w.beforeId ++ (w.id.toList ++ w.afterId) ++
    '=' :: (w.beforeOption ++ (w.option.toList ++ w.afterOption)))

/-- What was written is read. -/
theorem parseOne_spec (w : Written) : parseOne w.spec = .ok (w.id, w.option) := by
  have hblank := w.blank
  simp only [List.forall_mem_append] at hblank
  obtain ⟨⟨⟨hbeforeId, hafterId⟩, hbeforeOption⟩, hafterOption⟩ := hblank
  have hequals : '=' ∉ w.beforeId ++ (w.id.toList ++ w.afterId) := by
    have hnot {pad : List Char} (hpad : ∀ c ∈ pad, isBlank c = true) : '=' ∉ pad := fun hmem ↦
      absurd (hpad '=' hmem) (by decide)
    simp only [List.mem_append, not_or]
    exact ⟨hnot hbeforeId, w.clean.equals, hnot hafterId⟩
  rw [parseOne, spec, String.toList_ofList, splitSpec_append hequals]
  dsimp only
  rw [strip_padded hbeforeId w.clean.id hafterId,
    strip_padded hbeforeOption w.clean.option hafterOption, String.ofList_toList,
    String.ofList_toList]

end Written

/-- Overrides are read as they were written, whatever blanks were put around their parts: each id
has the option of its last override, and the ids stand in the order in which they first occur. Of
any specs at all, the first one without an equals sign is refused and quoted; without such a one all
are read, with no equals sign in an id and no blank at the end of an id or an option. -/
theorem overrides_are_read_as_written (written : List Written) (specs : List String) :
    (∃ overrides, parse (written.map Written.spec) = .ok overrides ∧
      overrides.map (·.1) = (written.map Written.id).eraseDups ∧
      ∀ before w after, written = before ++ w :: after → w.id ∉ after.map Written.id →
        overrides.lookup w.id = some w.option) ∧
    (∀ e, parse specs = .error e ↔ ∃ before spec after, specs = before ++ spec :: after ∧
      (∀ b ∈ before, '=' ∈ b.toList) ∧ '=' ∉ spec.toList ∧ e = .badOverride spec) ∧
    (∀ e, parse specs = .error e → e.isUserError = true ∧ ∃ spec ∈ specs, '=' ∉ spec.toList ∧
      e.message = s!"Invalid rule override '{spec}'. Expected 'rule-id=option'") ∧
    ((∀ spec ∈ specs, '=' ∈ spec.toList) →
      ∃ overrides, parse specs = .ok overrides ∧ ∀ o ∈ overrides, Clean o) := by
  have herror (e : Config.Error) : parse specs = .error e ↔ ∃ before spec after,
      specs = before ++ spec :: after ∧ (∀ b ∈ before, '=' ∈ b.toList) ∧ '=' ∉ spec.toList ∧
        e = .badOverride spec := by
    refine ⟨exists_first_of_parseFrom, ?_⟩
    rintro ⟨before, spec, after, rfl, hbefore, hspec, rfl⟩
    exact parse_eq_error hbefore hspec
  refine ⟨?_, herror, fun e he ↦ ?_, fun hall ↦ ?_⟩
  · refine ⟨Assoc.ofList (written.map fun w ↦ (w.id, w.option)),
      parseFrom_map (fun w _ ↦ w.parseOne_spec) [], ?_, fun before w after heq hlast ↦ ?_⟩
    · rw [Assoc.keys_ofList, List.map_map]
      rfl
    · rw [heq, List.map_append, List.map_cons]
      exact Assoc.lookup_ofList_of_last (by rwa [List.map_map])
  · obtain ⟨before, spec, after, rfl, -, hspec, rfl⟩ := (herror e).mp he
    exact ⟨rfl, spec, List.mem_append_right before List.mem_cons_self, hspec, rfl⟩
  · obtain ⟨overrides, hoverrides⟩ := exists_parse hall
    have hempty : ∀ o ∈ ([] : List (String × String)), Clean o := nofun
    exact ⟨overrides, hoverrides, clean_of_parseFrom hempty hoverrides⟩

/-- A wide blank before the id, and an equals sign in the option. -/
def paddedOverride : Written where
  id := "a"
  option := "x=y"
  beforeId := ['\u3000']
  afterId := [' ']
  beforeOption := []
  afterOption := ['\t']
  clean := by refine ⟨by simp, ⟨?_, ?_⟩, ⟨?_, ?_⟩⟩ <;> simp [isBlank]
  blank := by simp [isBlank]

/-- An override with blanks and a second equals sign is read, and a spec without one is refused by
name. -/
theorem overrides_are_read_as_written_of_paddedOverride :
    '=' ∈ "b=".toList ∧ '=' ∉ "b".toList ∧
      (∃ overrides, parse [paddedOverride.spec] = .ok overrides ∧
        overrides.lookup "a" = some "x=y") ∧
      parse ["b=", "b"] = .error (.badOverride "b") := by
  obtain ⟨⟨overrides, hread, -, hlast⟩, herror, -⟩ :=
    overrides_are_read_as_written [paddedOverride] ["b=", "b"]
  have hgood : '=' ∈ "b=".toList := by decide
  have hbad : '=' ∉ "b".toList := by decide
  refine ⟨hgood, hbad, ⟨overrides, hread, hlast [] paddedOverride [] rfl List.not_mem_nil⟩, ?_⟩
  rw [herror]
  exact ⟨["b="], "b", [], rfl, List.forall_mem_singleton.mpr hgood, hbad, rfl⟩

/-- The option keeps its own equals sign, and the later override holds where the first one stood. -/
example : parse ["a = x=y ", "b=", "\u3000a=z"] = .ok [("a", "z"), ("b", "")] := by cbv

end Override

end BracketSpacing
