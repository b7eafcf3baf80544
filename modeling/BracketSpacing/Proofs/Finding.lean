import BracketSpacing.Lint
import BracketSpacing.Proofs.Tree.Walk

/-!
What is found in a tree. `CandidateAt` says from the tree alone, by the node at an address and the
nodes above it, which nodes are candidates, of which kind and with which owner. The cursor sees the
same (`candidateAt_of_ofCursor?`, `ofCursor?_of_candidateAt`), so going through a tree visits every
node once and gives one finding for each candidate (`findings_eq`), a region or a note that it was
skipped, in the order of the addresses (`one_finding_for_each_candidate`).
-/

set_option autoImplicit false
set_option relaxedAutoImplicit false

namespace BracketSpacing

open BracketSpacing.Tree

/-- The candidates of a tree by their addresses: a member access owns its brackets itself, a
computed key belongs to the property right above it. -/
inductive CandidateAt (root : Node) : List Nat → Candidate → Prop where
  | member {p : List Nat} {n : Node} (at_p : root.descend? p = some n)
      (kind : n.kind = "subscript_expression") :
      CandidateAt root p ⟨.member, n.label, n, n.childByField? "index"⟩
  | pair {p : List Nat} {i : Nat} {parent n : Node} (at_parent : root.descend? p = some parent)
      (at_p : root.descend? (p ++ [i]) = some n) (kind : n.kind = "computed_property_name")
      (parent_kind : parent.kind = "pair" ∨ parent.kind = "pair_pattern") :
      CandidateAt root (p ++ [i]) ⟨.property, parent.label, n, n.inner?⟩
  | method {p : List Nat} {i j : Nat} {object parent n : Node}
      (at_object : root.descend? p = some object)
      (at_parent : root.descend? (p ++ [i]) = some parent)
      (at_p : root.descend? (p ++ [i] ++ [j]) = some n)
      (kind : n.kind = "computed_property_name") (parent_kind : parent.kind = "method_definition")
      (object_kind : object.kind = "object") :
      CandidateAt root (p ++ [i] ++ [j]) ⟨.property, parent.label, n, n.inner?⟩

/-- A candidate's container stands at its address. -/
theorem CandidateAt.descend?_eq {root : Node} {p : List Nat} {k : Candidate}
    (h : CandidateAt root p k) : root.descend? p = some k.container := by
  cases h with
  | member at_p => exact at_p
  | pair _ at_p => exact at_p
  | method _ _ at_p => exact at_p

namespace Candidate

/-- The labels above a key that make the nearest of them its owner. -/
def Owned (parent : Label) (above : List Label) : Prop :=
  (parent.kind = "pair" ∨ parent.kind = "pair_pattern") ∨
    parent.kind = "method_definition" ∧ ∃ grand rest, above = grand :: rest ∧ grand.kind = "object"

/-- The owner of a key is the label right above it, if that label may own a key there. -/
theorem propertyOwner?_eq_some {labels : List Label} {owner : Label} :
    propertyOwner? labels = some owner ↔ ∃ above, labels = owner :: above ∧ Owned owner above := by
  cases labels with
  | nil => simp [propertyOwner?]
  | cons parent above =>
    have hbody : propertyOwner? (parent :: above) = some owner ↔
        parent = owner ∧ Owned parent above := by
      unfold propertyOwner? Owned
      by_cases hpair : parent.kind = "pair" ∨ parent.kind = "pair_pattern"
      · simp [hpair]
      · by_cases hmethod : parent.kind = "method_definition"
        · cases above with
          | nil => simp [hmethod]
          | cons grand rest => by_cases hobject : grand.kind = "object" <;> simp [hmethod, hobject]
        · simp [hpair, hmethod]
    rw [hbody]
    constructor
    · rintro ⟨rfl, howned⟩
      exact ⟨above, rfl, howned⟩
    · rintro ⟨_, heq, howned⟩
      cases heq
      exact ⟨rfl, howned⟩

/-- An access is a candidate wherever it stands. -/
theorem ofCursor?_of_subscript {c : Cursor} (h : c.focus.kind = "subscript_expression") :
    ofCursor? c = some ⟨.member, c.focus.label, c.focus, c.focus.childByField? "index"⟩ := by
  simp [ofCursor?, h]

/-- A computed key is a candidate if it has an owner. -/
theorem ofCursor?_of_key {c : Cursor} (h : c.focus.kind = "computed_property_name") :
    ofCursor? c =
      (propertyOwner? c.ancestors).map fun owner ↦ ⟨.property, owner, c.focus, c.focus.inner?⟩ := by
  simp [ofCursor?, h]

theorem ofCursor?_eq_some_property {c : Cursor} {owner : Label} {above : List Label}
    (h : c.focus.kind = "computed_property_name") (habove : c.ancestors = owner :: above)
    (howned : Owned owner above) :
    ofCursor? c = some ⟨.property, owner, c.focus, c.focus.inner?⟩ := by
  rw [ofCursor?_of_key h, propertyOwner?_eq_some.mpr ⟨above, habove, howned⟩, Option.map_some]

/-- What the cursor takes for a candidate is one by the tree. -/
theorem candidateAt_of_ofCursor? {c : Cursor} {k : Candidate} (h : ofCursor? c = some k) :
    CandidateAt c.whole c.address k := by
  have hfocus := c.descend?_address
  by_cases hmember : c.focus.kind = "subscript_expression"
  · rw [ofCursor?_of_subscript hmember] at h
    cases h
    exact .member hfocus hmember
  by_cases hkey : c.focus.kind = "computed_property_name"
  · rw [ofCursor?_of_key hkey, Option.map_eq_some_iff] at h
    obtain ⟨owner, howner, rfl⟩ := h
    obtain ⟨above, hlabels, howned⟩ := propertyOwner?_eq_some.mp howner
    rcases c.parent_cases with ⟨-, hroot⟩ | ⟨up, i, hup, haddress, habove⟩
    · rw [hroot] at hlabels
      cases hlabels
    · -- The nearest label above is that of the parent's cursor, so the tree can be asked instead.
      have hparent := hup ▸ up.descend?_address
      rw [habove] at hlabels
      cases hlabels
      rw [haddress] at hfocus ⊢
      rcases howned with hpair | ⟨hmethod, grand, rest, hgrand, hobject⟩
      · exact .pair hparent hfocus hkey hpair
      · rcases up.parent_cases with ⟨-, hroot⟩ | ⟨top, j, htop, htopAddress, htopAbove⟩
        · rw [hroot] at hgrand
          cases hgrand
        · rw [htopAbove] at hgrand
          cases hgrand
          rw [htopAddress] at hparent hfocus ⊢
          have htopFocus := (htop.trans hup) ▸ top.descend?_address
          exact .method htopFocus hparent hfocus hkey hmethod hobject
  · simp [ofCursor?, hmember, hkey] at h

/-- A candidate by the tree is one for the cursor that stands on it. -/
theorem ofCursor?_of_candidateAt {c : Cursor} {k : Candidate}
    (h : CandidateAt c.whole c.address k) : ofCursor? c = some k := by
  have hfocus := c.descend?_address
  generalize hp : c.address = p at h hfocus
  cases h with
  | member at_p kind =>
    cases hfocus.symm.trans at_p
    exact ofCursor?_of_subscript kind
  | pair at_parent at_p kind parent_kind =>
    cases hfocus.symm.trans at_p
    obtain ⟨up, hup, habove, -⟩ := c.parent_of_address hp at_parent
    subst hup
    exact ofCursor?_eq_some_property kind habove (Or.inl parent_kind)
  | method at_object at_parent at_p kind parent_kind object_kind =>
    cases hfocus.symm.trans at_p
    obtain ⟨up, hup, habove, hupAddress, hupWhole⟩ := c.parent_of_address hp at_parent
    obtain ⟨top, htop, htopAbove, -⟩ := up.parent_of_address hupAddress (hupWhole ▸ at_object)
    subst hup htop
    exact ofCursor?_eq_some_property kind habove
      (Or.inr ⟨parent_kind, _, _, htopAbove, object_kind⟩)

/-- The candidates of a tree with their addresses, as the walk comes to them. -/
def inOrder (root : Node) : List (List Nat × Candidate) :=
  (Cursor.walk root).filterMap fun c ↦ (ofCursor? c).map fun k ↦ (c.address, k)

theorem map_snd_inOrder (root : Node) :
    (inOrder root).map (·.2) = (Cursor.walk root).filterMap ofCursor? := by
  rw [inOrder, List.map_filterMap]
  congr 1
  funext c
  cases ofCursor? c <;> rfl

/-- The candidates come in the order of their addresses. -/
theorem inOrder_increasing (root : Node) :
    (inOrder root).Pairwise fun a b ↦ a.1 < b.1 := by
  have hwalk : (Cursor.walk root).Pairwise fun a b ↦ a.address < b.address := by
    rw [← List.pairwise_map, Cursor.map_address_walk]
    exact root.addresses_increasing
  refine List.pairwise_filterMap.mpr (hwalk.imp ?_)
  intro a b hab x hx y hy
  obtain ⟨k, -, rfl⟩ := Option.map_eq_some_iff.mp hx
  obtain ⟨k', -, rfl⟩ := Option.map_eq_some_iff.mp hy
  exact hab

/-- The candidates in order are those of the tree, each with its address. -/
theorem mem_inOrder {root : Node} {p : List Nat} {k : Candidate} :
    (p, k) ∈ inOrder root ↔ CandidateAt root p k := by
  rw [inOrder, List.mem_filterMap]
  constructor
  · rintro ⟨c, hc, heq⟩
    obtain ⟨k', hk, hpair⟩ := Option.map_eq_some_iff.mp heq
    cases hpair
    rw [← Cursor.whole_of_mem_walk hc]
    exact candidateAt_of_ofCursor? hk
  · intro h
    have hvisited : p ∈ (Cursor.walk root).map Cursor.address := by
      rw [Cursor.map_address_walk]
      exact Node.mem_addresses.mpr ⟨k.container, h.descend?_eq⟩
    obtain ⟨c, hc, rfl⟩ := List.mem_map.mp hvisited
    refine ⟨c, hc, ?_⟩
    rw [ofCursor?_of_candidateAt (Cursor.whole_of_mem_walk hc ▸ h), Option.map_some]

/-- A region is made from the peeled inner expression, its ends and the brackets around it, none of
the ends missing. -/
theorem region?_eq_some {d : Document} {k : Candidate} {r : Region} :
    k.region? d = some r ↔
      ∃ e, k.enclosed? = some e ∧
        (e.inner.missing = false ∧ e.inner.firstLeaf.missing = false ∧
          e.inner.lastLeaf.missing = false) ∧
        r = { kind := k.kind
              owner := d.nodeStart k.owner
              before := d.token e.opening
              first := d.token e.inner.firstLeaf
              last := d.token e.inner.lastLeaf
              after := d.token e.closing } := by
  unfold region?
  cases k.enclosed? with
  | none => simp
  | some e =>
    dsimp only
    constructor
    · intro h
      split_ifs at h with hmissing
      cases h
      exact ⟨e, rfl, by simpa [and_assoc] using hmissing, rfl⟩
    · rintro ⟨e', heq, ⟨hinner, hfirst, hlast⟩, rfl⟩
      cases heq
      simp [hinner, hfirst, hlast]

/-- The note on a candidate, if it is skipped. -/
def note? (d : Document) (k : Candidate) : Option String :=
  match k.region? d with
  | some _ => none
  | none =>
    let start := k.container.label.start
    some s!"skipping incomplete {k.container.kind} at {start.row + 1}:{start.column + 1}"

end Candidate

namespace Document

variable (d : Document) (root : Node)

/-- There is one finding for each candidate, in order. -/
theorem findings_eq :
    d.findings root = (Candidate.inOrder root).map fun x ↦ Finding.ofCandidate d x.2 := by
  rw [findings, ← Candidate.map_snd_inOrder, List.map_map]
  rfl

/-- The regions are those of the candidates that have one, in order. -/
theorem regions_eq :
    d.regions root = (Candidate.inOrder root).filterMap fun x ↦ x.2.region? d := by
  rw [regions, findings_eq, List.filterMap_map]
  congr 1
  funext x
  simp only [Function.comp_apply, Finding.ofCandidate]
  cases x.2.region? d <;> rfl

/-- The notes are those of the candidates that are skipped, in order. -/
theorem notes_eq :
    (d.findings root).filterMap Finding.note? =
      (Candidate.inOrder root).filterMap fun x ↦ x.2.note? d := by
  rw [findings_eq, List.filterMap_map]
  congr 1
  funext x
  simp only [Function.comp_apply, Finding.ofCandidate, Candidate.note?]
  cases x.2.region? d <;> rfl

end Document

/-- Going through a source visits every node once, in the order of the addresses. Each candidate
gives its region, or else the note that it was skipped; nothing else gives either. -/
theorem Source.one_finding_for_each_candidate (s : Source) :
    ((Cursor.walk s.root).map Cursor.address).Pairwise (· < ·) ∧
    (∀ p, p ∈ (Cursor.walk s.root).map Cursor.address ↔ ∃ n, s.root.descend? p = some n) ∧
    (∀ c ∈ Cursor.walk s.root, s.root.descend? c.address = some c.focus) ∧
    ∃ candidates : List (List Nat × Candidate),
      candidates.Pairwise (fun a b ↦ a.1 < b.1) ∧
      (∀ p k, (p, k) ∈ candidates ↔ CandidateAt s.root p k) ∧
      s.regions = candidates.filterMap (fun x ↦ x.2.region? s.document) ∧
      s.notes = (candidates.filterMap fun x ↦ x.2.note? s.document).map Log.debug ∧
      ∀ p k, (p, k) ∈ candidates →
        (∃ r, k.region? s.document = some r ∧ k.note? s.document = none ∧
          r.kind = k.kind ∧ r.owner = s.document.position k.owner.start) ∨
        let start := k.container.label.start
        k.region? s.document = none ∧ k.note? s.document = some
          s!"skipping incomplete {k.container.kind} at {start.row + 1}:{start.column + 1}" := by
  refine ⟨?_, ?_, ?_, Candidate.inOrder s.root, Candidate.inOrder_increasing s.root,
    fun p k ↦ Candidate.mem_inOrder, s.document.regions_eq s.root, ?_, ?_⟩
  · rw [Cursor.map_address_walk]
    exact s.root.addresses_increasing
  · intro p
    rw [Cursor.map_address_walk]
    exact Node.mem_addresses
  · intro c hc
    rw [← Cursor.whole_of_mem_walk hc]
    exact c.descend?_address
  · rw [Source.notes, Source.findings, Document.notes_eq]
  · intro p k _
    unfold Candidate.note?
    cases hr : k.region? s.document with
    | some r =>
      obtain ⟨e, -, -, rfl⟩ := Candidate.region?_eq_some.mp hr
      exact Or.inl ⟨_, rfl, rfl, rfl, rfl⟩
    | none => exact Or.inr ⟨rfl, rfl⟩

end BracketSpacing
