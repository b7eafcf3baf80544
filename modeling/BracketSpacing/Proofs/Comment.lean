import BracketSpacing.Proofs.Finding
import BracketSpacing.Proofs.Tree.Comment
import BracketSpacing.Proofs.Verdict

/-!
Comments do not count. A candidate without its comments has the region it had with them
(`finding_withoutComments`), since all that a region is made of is found past comments and only
labels are measured. A comment is no candidate and has none below it
(`filterMap_visits_of_isComment`), so going through a tree without its comments finds the same
(`findings_withoutComments`). `comments_do_not_count` says this of regions, of notes and of the
verdict in every mode.
-/

set_option autoImplicit false
set_option relaxedAutoImplicit false

namespace BracketSpacing

open BracketSpacing.Tree

/-- A token is measured by the label alone. -/
theorem Document.token_withoutComments (d : Document) (n : Node) :
    d.token n.withoutComments = d.token n := by
  simp only [Document.token, Node.label_withoutComments]

namespace Candidate

def withoutComments (k : Candidate) : Candidate :=
  { k with
    container := k.container.withoutComments
    inner := k.inner.map Node.withoutComments }

/-- The pair of brackets and what they enclose are found past comments. -/
theorem enclosed?_withoutComments (k : Candidate) :
    k.withoutComments.enclosed? = k.enclosed?.map Node.Enclosed.withoutComments := by
  obtain ⟨kind, owner, container, inner⟩ := k
  simp only [enclosed?, withoutComments, container.bracket?_withoutComments (by decide : "[" ≠ _),
    container.bracket?_withoutComments (by decide : "]" ≠ _)]
  cases container.bracket? "[" with
  | none => rfl
  | some opening =>
    cases container.bracket? "]" with
    | none => rfl
    | some closing =>
      cases inner with
      | none => rfl
      | some n => exact Node.peel_withoutComments opening closing n

/-- The region of a candidate does not change when its comments go. -/
theorem region?_withoutComments (d : Document) (k : Candidate) :
    k.withoutComments.region? d = k.region? d := by
  unfold region?
  rw [enclosed?_withoutComments]
  cases k.enclosed? with
  | none => rfl
  | some e =>
    simp only [Option.map_some, Node.Enclosed.withoutComments, Node.firstLeaf_withoutComments,
      Node.lastLeaf_withoutComments, Node.missing_withoutComments, Document.token_withoutComments]
    rfl

/-- What is found at a candidate does not depend on the comments below it. -/
theorem finding_withoutComments (d : Document) (k : Candidate) :
    Finding.ofCandidate d k.withoutComments = Finding.ofCandidate d k := by
  have hkind : k.withoutComments.container.kind = k.container.kind :=
    k.container.kind_withoutComments
  have hlabel : k.withoutComments.container.label = k.container.label :=
    k.container.label_withoutComments
  rw [Finding.ofCandidate, Finding.ofCandidate, region?_withoutComments, hkind, hlabel]

/-- A cursor on a node without its comments, under the same labels, sees the same candidate. -/
theorem ofCursor?_withoutComments {c bare : Cursor} (hfocus : bare.focus = c.focus.withoutComments)
    (habove : bare.ancestors = c.ancestors) (hcomments : c.focus.PlainComments) :
    ofCursor? bare = (ofCursor? c).map withoutComments := by
  have hkind : bare.focus.kind = c.focus.kind := by rw [hfocus, Node.kind_withoutComments]
  by_cases hmember : c.focus.kind = "subscript_expression"
  · rw [ofCursor?_of_subscript hmember, ofCursor?_of_subscript (hkind.trans hmember), hfocus,
      Node.childByField?_withoutComments hcomments, Node.label_withoutComments]
    rfl
  by_cases hkey : c.focus.kind = "computed_property_name"
  · rw [ofCursor?_of_key hkey, ofCursor?_of_key (hkind.trans hkey), hfocus, habove,
      Node.inner?_withoutComments, Option.map_map]
    rfl
  · simp [ofCursor?, hkind, hmember, hkey]

/-- A comment is no candidate. -/
theorem ofCursor?_of_isComment {c : Cursor} (h : c.focus.isComment = true) :
    ofCursor? c = none := by
  have hkind : c.focus.kind = "comment" := by simpa [Node.isComment] using h
  simp [ofCursor?, hkind]

end Candidate

namespace Finding

/-- What is found at a cursor. -/
def ofCursor? (d : Document) (c : Cursor) : Option Finding :=
  (Candidate.ofCursor? c).map (ofCandidate d)

theorem ofCursor?_withoutComments (d : Document) {c bare : Cursor}
    (hfocus : bare.focus = c.focus.withoutComments) (habove : bare.ancestors = c.ancestors)
    (hcomments : c.focus.PlainComments) : ofCursor? d bare = ofCursor? d c := by
  rw [ofCursor?, Candidate.ofCursor?_withoutComments hfocus habove hcomments, Option.map_map]
  exact congrArg (Option.map · _) (funext (Candidate.finding_withoutComments d))

/-- Visiting a comment finds nothing. -/
theorem filterMap_visits_of_isComment (d : Document) {n : Node} (hcomments : n.PlainComments)
    (hn : n.isComment = true) (frames : List Frame) :
    (Cursor.visits frames n).filterMap (ofCursor? d) = [] := by
  obtain ⟨l, cs⟩ := n
  obtain rfl : cs = [] := (hcomments _ (Node.self_mem_preorder _) hn).1
  have hnone : ofCursor? d ⟨.mk l [], frames⟩ = none := by
    rw [ofCursor?, Candidate.ofCursor?_of_isComment hn, Option.map_none]
  rw [Cursor.visits, Cursor.visitsFrom, List.filterMap_cons_none hnone, List.filterMap_nil]

/-- Two walks that go down under the same labels, one without comments. -/
theorem filterMap_visitsFrom_withoutComments (d : Document) {cs : List Node}
    (hcomments : ∀ c ∈ cs, c.PlainComments)
    (h : ∀ c ∈ cs, ∀ frames bareFrames : List Frame,
      bareFrames.map (·.parent) = frames.map (·.parent) →
      (Cursor.visits bareFrames c.withoutComments).filterMap (ofCursor? d) =
        (Cursor.visits frames c).filterMap (ofCursor? d))
    (parent : Label) (left bareLeft : List Node) {frames bareFrames : List Frame}
    (hframes : bareFrames.map (·.parent) = frames.map (·.parent)) :
    (Cursor.visitsFrom parent bareFrames bareLeft (Node.withoutCommentsAll cs)).filterMap
        (ofCursor? d) =
      (Cursor.visitsFrom parent frames left cs).filterMap (ofCursor? d) := by
  induction cs generalizing left bareLeft with
  | nil => rfl
  | cons c cs ih =>
    rw [List.forall_mem_cons] at hcomments h
    have hrest (bareLeft : List Node) := ih hcomments.2 h.2 (c :: left) bareLeft
    rw [Cursor.visitsFrom, List.filterMap_append]
    cases hc : c.isComment with
    | true =>
      rw [Node.withoutCommentsAll_cons_comment hc, hrest,
        filterMap_visits_of_isComment d hcomments.1 hc, List.nil_append]
    | false =>
      have hchild := h.1 (⟨parent, left, cs⟩ :: frames)
        (⟨parent, bareLeft, Node.withoutCommentsAll cs⟩ :: bareFrames)
        (congrArg (parent :: ·) hframes)
      rw [Node.withoutCommentsAll_cons hc, Cursor.visitsFrom, List.filterMap_append, hrest, hchild]

/-- Under the same ancestors, a tree without its comments has the findings that it had with them. -/
theorem filterMap_visits_withoutComments (d : Document) {n : Node} (hcomments : n.PlainComments)
    {frames bareFrames : List Frame}
    (hframes : bareFrames.map (·.parent) = frames.map (·.parent)) :
    (Cursor.visits bareFrames n.withoutComments).filterMap (ofCursor? d) =
      (Cursor.visits frames n).filterMap (ofCursor? d) := by
  induction n generalizing frames bareFrames with
  | mk l cs ih =>
    have hchildren (c : Node) (hc : c ∈ cs) : c.PlainComments := hcomments.of_child hc
    have hhere : ofCursor? d ⟨(Node.mk l cs).withoutComments, bareFrames⟩ =
        ofCursor? d ⟨.mk l cs, frames⟩ := ofCursor?_withoutComments d rfl hframes hcomments
    have hbelow := filterMap_visitsFrom_withoutComments d hchildren
      (fun c hc frames bareFrames h ↦ ih c hc (hchildren c hc) h) l [] [] hframes
    rw [Node.withoutComments] at hhere ⊢
    rw [Cursor.visits, Cursor.visits, List.filterMap_cons, List.filterMap_cons, hhere, hbelow]

end Finding

namespace Document

variable (d : Document)

theorem findings_eq_filterMap (root : Node) :
    d.findings root = (Cursor.visits [] root).filterMap (Finding.ofCursor? d) := by
  rw [findings, Cursor.walk_eq_visits, List.map_filterMap]
  rfl

/-- Taking the comments out of a tree leaves its findings. -/
theorem findings_withoutComments {root : Node} (hcomments : root.PlainComments) :
    d.findings root.withoutComments = d.findings root := by
  rw [findings_eq_filterMap, findings_eq_filterMap,
    Finding.filterMap_visits_withoutComments d hcomments rfl]

end Document

/-- Taking the comments out of a tree removes their labels and no other, and changes nothing that
is found: neither the regions nor the notes on skipped candidates nor the verdict of any mode. -/
theorem Document.comments_do_not_count (text : List Char) (root : Node)
    (hroot : root.isComment = false) (hcomments : root.PlainComments) :
    let d := Document.ofText text
    let bare := root.withoutComments
    bare.preorder.map Node.label =
      (root.preorder.map Node.label).filter (fun l ↦ l.kind != "comment") ∧
    d.regions bare = d.regions root ∧
    (d.findings bare).filterMap Finding.note? = (d.findings root).filterMap Finding.note? ∧
    ∀ mode, (d.regions bare).map (Spacing.evaluate mode) =
      (d.regions root).map (Spacing.evaluate mode) := by
  intro d bare
  have hfindings : d.findings bare = d.findings root := d.findings_withoutComments hcomments
  have hregions : d.regions bare = d.regions root := by
    rw [Document.regions, Document.regions, hfindings]
  refine ⟨Node.map_label_preorder_withoutComments hcomments hroot, hregions, ?_, fun mode ↦ ?_⟩
  · rw [hfindings]
  · rw [hregions]

def commentedText : List Char :=
  ['x', '[', '/', '*', '*', '/', '(', 'é', '/', '*', '*', '/', ')', ']']

/-- The access `x[/**/(é/**/)]`, with a comment before the parentheses and one inside them. -/
def commentedAccess : Node :=
  .onFirstRow "subscript_expression" true none 0 15
    [.onFirstRow "identifier" true (some "object") 0 1 [],
      .onFirstRow "[" false none 1 2 [],
      .onFirstRow "comment" true none 2 6 [],
      .onFirstRow "parenthesized_expression" true (some "index") 6 14
        [.onFirstRow "(" false none 6 7 [],
          .onFirstRow "identifier" true none 7 9 [],
          .onFirstRow "comment" true none 9 13 [],
          .onFirstRow ")" false none 13 14 []],
      .onFirstRow "]" false none 14 15 []]

/-- The second comment is a gap of four characters, whether or not the tree holds it. -/
def commentedRegion : Region where
  kind := .member
  owner := ⟨1, 0⟩
  before := ⟨"(", 6, 7, 1, 6, 1, 7⟩
  first := ⟨"é", 7, 8, 1, 7, 1, 8⟩
  last := ⟨"é", 7, 8, 1, 7, 1, 8⟩
  after := ⟨")", 12, 13, 1, 12, 1, 13⟩

/-- Two comments of an access are taken out, and its one region stays. -/
theorem Document.comments_do_not_count_in_commentedAccess :
    commentedAccess.isComment = false ∧ commentedAccess.PlainComments ∧
      commentedAccess.size = 10 ∧ commentedAccess.withoutComments.size = 8 ∧
      (Document.ofText commentedText).regions commentedAccess.withoutComments =
        [commentedRegion] := by
  have hroot : commentedAccess.isComment = false := by decide
  have hcomments : commentedAccess.PlainComments := by
    unfold Node.PlainComments
    decide
  have hregions : (Document.ofText commentedText).regions commentedAccess = [commentedRegion] := by
    decide +kernel
  refine ⟨hroot, hcomments, by decide, by decide, ?_⟩
  rw [← hregions]
  exact (Document.comments_do_not_count commentedText commentedAccess hroot hcomments).2.1

end BracketSpacing
