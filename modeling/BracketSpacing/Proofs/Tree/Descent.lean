import BracketSpacing.Proofs.Tree.Node

/-!
The way down through parentheses. From a parenthesized expression one goes on to its first named
child that is no comment; `Descends` says which layers are passed on the way to a node. Peeling goes
this way to its end and takes the brackets of the last layer (`exists_descends_of_peel`), and it
fails where a layer on the way lacks a bracket or has nothing inside (`peel_eq_none_iff`). Further
complete layers around a parenthesized expression make no difference (`Wraps.peel_eq`).
-/

set_option autoImplicit false
set_option relaxedAutoImplicit false

namespace BracketSpacing.Tree.Node

/-! ### The first child -/

/-- The child at `i` is the first with a property. -/
structure FirstChildAt (n : Node) (p : Node → Prop) (i : Nat) (c : Node) : Prop where
  at_i : n.children[i]? = some c
  holds : p c
  first : ∀ d ∈ n.children.take i, ¬p d

/-- The first child with a property. -/
def FirstChild (n : Node) (p : Node → Prop) (c : Node) : Prop := ∃ i, n.FirstChildAt p i c

/-- A token of a kind that is in the text. -/
def IsToken (kind : String) (n : Node) : Prop := n.kind = kind ∧ n.missing = false

/-- A construct that is no comment. -/
def IsContent (n : Node) : Prop := n.named = true ∧ n.isComment = false

section FirstChild

variable {n c : Node} {p : Node → Prop} {q : Node → Bool}

theorem FirstChild.mem (h : n.FirstChild p c) : c ∈ n.children := by
  obtain ⟨i, hi⟩ := h
  exact List.mem_of_getElem? hi.at_i

theorem FirstChild.holds (h : n.FirstChild p c) : p c := by
  obtain ⟨i, hi⟩ := h
  exact hi.holds

/-- A search among children finds the first that a property holds of. -/
theorem find?_eq_some_iff (hq : ∀ d, q d = true ↔ p d) :
    n.children.find? q = some c ↔ n.FirstChild p c := by
  rw [List.find?_eq_some_iff_append]
  constructor
  · rintro ⟨hc, left, right, hchildren, hleft⟩
    refine ⟨left.length, ?_, (hq c).mp hc, ?_⟩
    · rw [hchildren, List.getElem?_append_right (Nat.le_refl _), Nat.sub_self,
        List.getElem?_cons_zero]
    · intro d hd hp
      rw [hchildren, List.take_left] at hd
      simpa [(hq d).mpr hp] using hleft d hd
  · rintro ⟨i, hi⟩
    obtain ⟨hlt, heq⟩ := List.getElem?_eq_some_iff.mp hi.at_i
    refine ⟨(hq c).mpr hi.holds, n.children.take i, n.children.drop (i + 1), ?_, ?_⟩
    · rw [← heq, ← List.drop_eq_getElem_cons hlt, List.take_append_drop]
    · intro d hd
      have hnot := mt (hq d).mp (hi.first d hd)
      simpa using hnot

theorem find?_eq_none_iff (hq : ∀ d, q d = true ↔ p d) :
    n.children.find? q = none ↔ ∀ d ∈ n.children, ¬p d := by
  rw [List.find?_eq_none]
  exact forall₂_congr fun d _ ↦ not_congr (hq d)

theorem isToken_iff (kind : String) (d : Node) :
    (d.kind == kind && !d.missing) = true ↔ d.IsToken kind := by
  simp [IsToken]

theorem isContent_iff (d : Node) : (d.named && !d.isComment) = true ↔ d.IsContent := by
  simp [IsContent]

/-- The bracket is the first child that is this token. -/
theorem bracket?_eq_some_iff {kind : String} :
    n.bracket? kind = some c ↔ n.FirstChild (IsToken kind) c :=
  find?_eq_some_iff (isToken_iff kind)

theorem bracket?_eq_none_iff {kind : String} :
    n.bracket? kind = none ↔ ∀ d ∈ n.children, ¬d.IsToken kind :=
  find?_eq_none_iff (isToken_iff kind)

/-- The inner expression is the first child that is content. -/
theorem inner?_eq_some_iff : n.inner? = some c ↔ n.FirstChild IsContent c :=
  find?_eq_some_iff isContent_iff

theorem inner?_eq_none_iff : n.inner? = none ↔ ∀ d ∈ n.children, ¬d.IsContent :=
  find?_eq_none_iff isContent_iff

end FirstChild

/-! ### The descent -/

/-- The way down through parentheses to `e`: `layers` are the parenthesized expressions passed, the
outermost first. -/
inductive Descends : Node → List Node → Node → Prop where
  | here (n : Node) : Descends n [] n
  | layer {n m e : Node} {layers : List Node} (kind : n.kind = "parenthesized_expression")
      (content : n.FirstChild IsContent m) (below : Descends m layers e) :
      Descends n (n :: layers) e

namespace Descends

variable {n e : Node} {layers : List Node}

/-- The way ends in one node that is not parenthesized. -/
theorem unique {e' : Node} {layers' : List Node} (h : n.Descends layers e)
    (h' : n.Descends layers' e') (he : e.kind ≠ "parenthesized_expression")
    (he' : e'.kind ≠ "parenthesized_expression") : e = e' := by
  induction h generalizing layers' with
  | here n =>
    cases h' with
    | here => rfl
    | layer kind => exact absurd kind he
  | layer kind content _ ih =>
    cases h' with
    | here => exact absurd kind he'
    | layer _ content' below' =>
      have hsame := (inner?_eq_some_iff.mpr content).symm.trans (inner?_eq_some_iff.mpr content')
      cases hsame
      exact ih below' he

/-- Below the first layer all are constructs and no comments. -/
theorem eq_or_isContent (h : n.Descends layers e) : e = n ∨ e.IsContent := by
  induction h with
  | here n => exact Or.inl rfl
  | layer _ content _ ih =>
    right
    rcases ih with rfl | hcontent
    · exact content.holds
    · exact hcontent

end Descends

/-! ### Peeling along the way -/

/-- The brackets around the end of the way: the given ones if no layer was passed, else those of the
last layer. -/
structure Surrounds (opening closing : Node) (layers : List Node) (e : Enclosed) : Prop where
  outside : layers = [] → e.opening = opening ∧ e.closing = closing
  inside : ∀ layer, layers.getLast? = some layer →
    layer.FirstChild (IsToken "(") e.opening ∧ layer.FirstChild (IsToken ")") e.closing

/-- Peeling arrives at the end of the way, between the brackets of the last layer. -/
theorem exists_descends_of_peel {opening closing n : Node} {e : Enclosed}
    (h : peel opening closing n = some e) :
    ∃ layers, n.Descends layers e.inner ∧ e.inner.kind ≠ "parenthesized_expression" ∧
      Surrounds opening closing layers e := by
  induction n generalizing opening closing with
  | mk l cs ih =>
    rcases peel_cases h with ⟨hkind, rfl⟩ | ⟨hkind, o, m, c, ho, hm, hc, he⟩
    · exact ⟨[], .here _, hkind, fun _ ↦ ⟨rfl, rfl⟩, fun _ hlast ↦ by cases hlast⟩
    · obtain ⟨layers, hway, hend, hpair⟩ := ih m (mem_children_of_inner? hm) he
      refine ⟨_, .layer hkind (inner?_eq_some_iff.mp hm) hway, hend,
        { outside := fun hnil ↦ absurd hnil (List.cons_ne_nil _ _)
          inside := fun layer hlast ↦ ?_ }⟩
      rw [List.getLast?_cons, Option.some.injEq] at hlast
      cases hlayers : layers.getLast? with
      | none =>
        -- This layer is the last: its brackets were handed on unchanged.
        rw [hlayers, Option.getD_none] at hlast
        obtain ⟨hopening, hclosing⟩ := hpair.outside (List.getLast?_eq_none_iff.mp hlayers)
        rw [← hlast, hopening, hclosing]
        exact ⟨bracket?_eq_some_iff.mp ho, bracket?_eq_some_iff.mp hc⟩
      | some last =>
        rw [hlayers, Option.getD_some] at hlast
        exact hpair.inside layer (hlast ▸ hlayers)

/-- A layer that cannot be peeled off. -/
def Broken (n : Node) : Prop :=
  (∀ c ∈ n.children, ¬c.IsToken "(") ∨ (∀ c ∈ n.children, ¬c.IsToken ")") ∨
    ∀ c ∈ n.children, ¬c.IsContent

/-- A broken layer ends peeling without a result. -/
theorem peel_eq_none_of_broken {opening closing n : Node}
    (hkind : n.kind = "parenthesized_expression") (h : n.Broken) :
    peel opening closing n = none := by
  rw [peel_of_parenthesized hkind]
  rcases h with hopening | hclosing | hcontent
  · rw [bracket?_eq_none_iff.mpr hopening, Option.bind_none]
  · rw [bracket?_eq_none_iff.mpr hclosing]
    simp only [Option.bind_none, Option.bind_fun_none]
  · rw [inner?_eq_none_iff.mpr hcontent]
    simp only [Option.bind_none, Option.bind_fun_none]

/-- Peeling fails when there is a broken layer on the way. -/
theorem peel_eq_none_iff {opening closing n : Node} :
    peel opening closing n = none ↔
      ∃ layers e, n.Descends layers e ∧ e.kind = "parenthesized_expression" ∧ e.Broken := by
  constructor
  · intro h
    induction n generalizing opening closing with
    | mk l cs ih =>
      by_cases hkind : (Node.mk l cs).kind = "parenthesized_expression"
      · cases ho : (Node.mk l cs).bracket? "(" with
        | none => exact ⟨[], _, .here _, hkind, Or.inl (bracket?_eq_none_iff.mp ho)⟩
        | some o =>
          cases hc : (Node.mk l cs).bracket? ")" with
          | none => exact ⟨[], _, .here _, hkind, Or.inr (Or.inl (bracket?_eq_none_iff.mp hc))⟩
          | some c =>
            cases hm : (Node.mk l cs).inner? with
            | none => exact ⟨[], _, .here _, hkind, Or.inr (Or.inr (inner?_eq_none_iff.mp hm))⟩
            | some m =>
              rw [peel_of_parenthesized hkind, ho, hc, hm] at h
              obtain ⟨layers, e, hway, hend⟩ := ih m (mem_children_of_inner? hm) h
              exact ⟨_, e, .layer hkind (inner?_eq_some_iff.mp hm) hway, hend⟩
      · rw [peel_of_not_parenthesized hkind] at h
        cases h
  · rintro ⟨layers, e, hway, hkind, hbroken⟩
    induction hway generalizing opening closing with
    | here n => exact peel_eq_none_of_broken hkind hbroken
    | layer kind content _ ih =>
      rw [peel_of_parenthesized kind, inner?_eq_some_iff.mpr content]
      simp only [Option.bind_some, ih hkind hbroken, Option.bind_fun_none]

/-! ### Further layers -/

/-- `old` inside any number of complete pairs of parentheses. -/
inductive Wraps (old : Node) : Node → Prop where
  | self : Wraps old old
  | layer {n m : Node} (kind : n.kind = "parenthesized_expression")
      (opening : ∃ c ∈ n.children, c.IsToken "(") (closing : ∃ c ∈ n.children, c.IsToken ")")
      (content : n.FirstChild IsContent m) (inside : Wraps old m) : Wraps old n

theorem exists_bracket? {n : Node} {kind : String} (h : ∃ c ∈ n.children, c.IsToken kind) :
    ∃ c, n.bracket? kind = some c := by
  cases hbracket : n.bracket? kind with
  | some c => exact ⟨c, rfl⟩
  | none =>
    obtain ⟨c, hc, htoken⟩ := h
    exact absurd htoken (bracket?_eq_none_iff.mp hbracket c hc)

/-- A parenthesized expression brings its own brackets. -/
theorem peel_of_any_brackets {n : Node} (h : n.kind = "parenthesized_expression")
    (opening closing opening' closing' : Node) :
    peel opening closing n = peel opening' closing' n := by
  rw [peel_of_parenthesized h, peel_of_parenthesized h]

theorem Wraps.kind_eq {old n : Node} (h : Wraps old n)
    (hold : old.kind = "parenthesized_expression") : n.kind = "parenthesized_expression" := by
  cases h with
  | self => exact hold
  | layer kind => exact kind

/-- Peeling does not see further layers around a parenthesized expression. -/
theorem Wraps.peel_eq {old n : Node} (h : Wraps old n)
    (hold : old.kind = "parenthesized_expression") (opening closing : Node) :
    peel opening closing n = peel opening closing old := by
  induction h with
  | self => rfl
  | layer kind hopening hclosing content inside ih =>
    obtain ⟨o, ho⟩ := exists_bracket? hopening
    obtain ⟨c, hc⟩ := exists_bracket? hclosing
    rw [peel_of_parenthesized kind, ho, hc, inner?_eq_some_iff.mpr content, ← ih]
    exact peel_of_any_brackets (inside.kind_eq hold) o c opening closing

/-! ### Replacing a node -/

/-- The tree with another node at an address; an address outside leaves it as it is. -/
def replaceAt : Node → List Nat → Node → Node
  | _, [], new => new
  | n, i :: p, new => .mk n.label (n.children.modify i fun c ↦ c.replaceAt p new)

@[simp] theorem label_replaceAt_cons (n : Node) (i : Nat) (p : List Nat) (new : Node) :
    (n.replaceAt (i :: p) new).label = n.label := rfl

/-- At an address above, the node holds the replacement. -/
theorem descend?_replaceAt {root n : Node} {p : List Nat} (h : root.descend? p = some n)
    (q : List Nat) (new : Node) :
    (root.replaceAt (p ++ q) new).descend? p = some (n.replaceAt q new) := by
  induction p generalizing root with
  | nil =>
    cases h
    rfl
  | cons i p ih =>
    rw [descend?] at h
    cases hc : root.children[i]? with
    | none =>
      rw [hc] at h
      cases h
    | some c =>
      rw [hc] at h
      have hnew : (root.replaceAt (i :: (p ++ q)) new).children[i]? =
          some (c.replaceAt (p ++ q) new) := by
        change (root.children.modify i _)[i]? = _
        rw [List.getElem?_modify_eq, hc]
        rfl
      rw [List.cons_append, descend?, hnew]
      exact ih h

section Replace

variable {n old new : Node} {p : Node → Prop} {i : Nat}

/-- Replacing a child leaves those before and behind it. -/
theorem children_replaceAt (new : Node) (h : n.children[i]? = some old) :
    n.children = n.children.take i ++ old :: n.children.drop (i + 1) ∧
      (n.replaceAt [i] new).children = n.children.take i ++ new :: n.children.drop (i + 1) := by
  obtain ⟨hlt, heq⟩ := List.getElem?_eq_some_iff.mp h
  constructor
  · rw [← heq, ← List.drop_eq_getElem_cons hlt, List.take_append_drop]
  · change n.children.modify i _ = _
    rw [List.modify_eq_take_cons_drop hlt]
    rfl

/-- A search that both nodes fail does not see the replacement. -/
theorem find?_replaceAt {q : Node → Bool} (h : n.children[i]? = some old) (hold : q old = false)
    (hnew : q new = false) :
    (n.replaceAt [i] new).children.find? q = n.children.find? q := by
  obtain ⟨hbefore, hafter⟩ := children_replaceAt new h
  calc (n.replaceAt [i] new).children.find? q
      = (n.children.take i ++ n.children.drop (i + 1)).find? q := by
        rw [hafter, List.find?_append, List.find?_cons, hnew, List.find?_append]
    _ = (n.children.take i ++ old :: n.children.drop (i + 1)).find? q := by
        rw [List.find?_append, List.find?_append, List.find?_cons, hold]
    _ = n.children.find? q := by rw [← hbefore]

/-- Replacing a child that is no bracket by one that is none leaves the brackets. -/
theorem bracket?_replaceAt {kind : String} (hold : n.children[i]? = some old)
    (hkold : old.kind ≠ kind) (hknew : new.kind ≠ kind) :
    (n.replaceAt [i] new).bracket? kind = n.bracket? kind :=
  find?_replaceAt hold (by simp [hkold]) (by simp [hknew])

/-- What takes the place of the first child with a property, and has it too, is the first. -/
theorem FirstChildAt.replaceAt (h : n.FirstChildAt p i old) (hnew : p new) :
    (n.replaceAt [i] new).FirstChildAt p i new := by
  obtain ⟨hlt, -⟩ := List.getElem?_eq_some_iff.mp h.at_i
  have hlength : (n.children.take i).length = i := List.length_take_of_le (Nat.le_of_lt hlt)
  have hafter := (children_replaceAt new h.at_i).2
  refine ⟨?_, hnew, ?_⟩
  · rw [hafter, List.getElem?_append_right (Nat.le_of_eq hlength), hlength, Nat.sub_self,
      List.getElem?_cons_zero]
  · intro d hd
    rw [hafter, List.take_append_of_le_length (Nat.le_of_eq hlength.symm), List.take_take,
      Nat.min_self] at hd
    exact h.first d hd

end Replace

end BracketSpacing.Tree.Node
