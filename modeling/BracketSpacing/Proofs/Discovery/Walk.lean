import BracketSpacing.Discovery
import BracketSpacing.Proofs.FileTree
import BracketSpacing.Proofs.Sorting
import Mathlib.Data.List.Nodup

/-!
The files below a directory. `Lists` says what a reading of a tree gives: a directory's own files
in increasing order of their names, each with a known extension and not ignored (`IsListed`), then
what its subdirectories give, in increasing order of their names, but for links and for directories
that are skipped or ignored (`IsEntered`). Whether a path is ignored depends on the text that
patterns see of it (`Sees`, `ignores_iff`). `filesBelow` computes such a list (`lists_filesBelow`),
and where names are different there is no other (`Lists.unique`). The walk goes through a list of
directories still to come; what it meets is what the recursion meets below each of them in turn
(`walk_eq_flatMap`), and of that the accepted candidates are the files below (`accepted_walk`).
-/

set_option autoImplicit false
set_option relaxedAutoImplicit false

namespace BracketSpacing

/-! ### Trees -/

namespace FileTree

/-- Whether a text can name an entry of a directory. -/
def IsName (name : String) : Prop :=
  name ≠ "" ∧ name ≠ "." ∧ name ≠ ".." ∧ '/' ∉ name.toList

instance : DecidablePred IsName := fun name ↦
  inferInstanceAs (Decidable (name ≠ "" ∧ name ≠ "." ∧ name ≠ ".." ∧ '/' ∉ name.toList))

/-- In every directory, each entry has a name that can name it and no other entry has. -/
inductive WellNamed : FileTree → Prop
  | file (bytes : List UInt8) : WellNamed (.file bytes)
  | link (target : Path) : WellNamed (.link target)
  | directory {entries : List (String × FileTree)} : (entries.map (·.1)).Nodup →
    (∀ entry ∈ entries, IsName entry.1) → (∀ entry ∈ entries, WellNamed entry.2) →
    WellNamed (.directory entries)

/-- What stands in a tree with different names has different names. -/
theorem WellNamed.at? {t u : FileTree} {names : List String} (hnames : t.WellNamed)
    (h : t.at? names = some u) : u.WellNamed := by
  induction names generalizing t with
  | nil =>
    cases h
    exact hnames
  | cons name rest ih =>
    obtain ⟨entries, v, rfl, hmem, hv⟩ := exists_of_at?_cons h
    obtain _ | _ | ⟨-, -, hentries⟩ := hnames
    exact ih (hentries _ hmem) hv

mutual

/-- The paths of the entries at any depth of a tree that stands at `place`. -/
def pathsBelow (place : Path) : FileTree → List Path
  | .directory entries => pathsOfEntries place entries
  | _ => []

def pathsOfEntries (place : Path) : List (String × FileTree) → List Path
  | [] => []
  | (name, t) :: rest =>
    place.child name :: (pathsBelow (place.child name) t ++ pathsOfEntries place rest)

end

variable {place : Path} {entry : String × FileTree} {entries : List (String × FileTree)}

theorem child_mem_pathsBelow (h : entry ∈ entries) :
    place.child entry.1 ∈ (directory entries).pathsBelow place := by
  rw [pathsBelow]
  induction h with
  | head => exact List.mem_cons_self
  | tail _ _ ih => exact List.mem_cons_of_mem _ (List.mem_append_right _ ih)

theorem pathsBelow_subset (h : entry ∈ entries) :
    entry.2.pathsBelow (place.child entry.1) ⊆ (directory entries).pathsBelow place := by
  rw [pathsBelow]
  intro p hp
  induction h with
  | head => exact List.mem_cons_of_mem _ (List.mem_append_left _ hp)
  | tail _ _ ih => exact List.mem_cons_of_mem _ (List.mem_append_right _ ih)

end FileTree

@[simp] theorem Path.name_child (p : Path) (name : String) : (p.child name).name = name := by
  simp [Path.name, Path.child]

/-- Whether a path is ignored when `mark` stands after it. -/
def Scope.ignores (s : Scope) (fs : FileSystem) (p : Path) (mark : String) : Bool :=
  match fs.resolve p with
  | .ok resolved => s.ignored (s.relativeText p resolved ++ mark)
  | .error _ => false

/-! ### What patterns see -/

namespace Scope

/-- The text that patterns see of a path: what resolves to a place below the root is seen by its
names from there, any other path as it is written. -/
inductive Sees (s : Scope) (fs : FileSystem) (p : Path) : String → Prop
  | below {names : List String} : fs.resolve p = .ok (s.root ++ names) →
    Sees s fs p (Path.mk .relative names).render
  | elsewhere {place : List String} : fs.resolve p = .ok place → ¬s.root <+: place →
    Sees s fs p p.render

variable {s : Scope} {fs : FileSystem} {p : Path}

/-- Something is seen of every path that resolves. -/
theorem exists_sees {place : List String} (h : fs.resolve p = .ok place) :
    ∃ text, s.Sees fs p text := by
  by_cases hroot : s.root <+: place
  · obtain ⟨names, rfl⟩ := hroot
    exact ⟨_, .below h⟩
  · exact ⟨_, .elsewhere h hroot⟩

/-- What is seen of a path decides whether it is ignored. -/
theorem ignores_of_sees {text : String} (h : s.Sees fs p text) (mark : String) :
    s.ignores fs p mark = s.ignored (text ++ mark) := by
  cases h with
  | @below names hresolve =>
    have hroot : s.root.isPrefixOf (s.root ++ names) = true :=
      List.isPrefixOf_iff_prefix.mpr (List.prefix_append _ _)
    rw [ignores, hresolve]
    simp only [relativeText, hroot, if_true, List.drop_left]
  | elsewhere hresolve hroot =>
    rw [ignores, hresolve]
    simp only [relativeText, List.isPrefixOf_iff_prefix, hroot, if_false]

/-- A path is ignored exactly if what is seen of it is. -/
theorem ignores_iff {mark : String} :
    s.ignores fs p mark ↔ ∃ text, s.Sees fs p text ∧ s.ignored (text ++ mark) := by
  constructor
  · intro h
    cases hresolve : fs.resolve p with
    | error e =>
      rw [ignores, hresolve] at h
      cases h
    | ok place =>
      obtain ⟨text, htext⟩ := exists_sees (s := s) hresolve
      exact ⟨text, htext, by rwa [← ignores_of_sees htext]⟩
  · rintro ⟨text, htext, hignored⟩
    rwa [ignores_of_sees htext]

end Scope

namespace Discovery

/-! ### By name -/

section SortedByName

variable {α : Type} {entries : List (String × α)}

/-- Entries may be left out before or after they are put in order. -/
theorem filter_sortedByName (keep : String × α → Bool) (entries : List (String × α)) :
    (sortedByName entries).filter keep = sortedByName (entries.filter keep) :=
  Sorting.filter_mergeSort (Sorting.byName_trans _) (Sorting.byName_total _) keep entries

/-- Putting entries in order neither drops nor repeats one. -/
theorem sortedByName_perm (entries : List (String × α)) : (sortedByName entries).Perm entries :=
  List.mergeSort_perm entries _

/-- Names increase. -/
theorem pairwise_sortedByName (entries : List (String × α)) :
    (sortedByName entries).Pairwise fun a b ↦ a.1 ≤ b.1 := by
  have hsorted := List.pairwise_mergeSort (Sorting.byName_trans _)
    (Sorting.byName_total fun entry : String × α ↦ entry.1) entries
  exact hsorted.imp fun hab ↦ Sorting.notAfter_iff_le.mp hab

theorem mem_sortedByName {entry : String × α} : entry ∈ sortedByName entries ↔ entry ∈ entries :=
  List.mem_mergeSort

theorem sortedByName_of_pairwise (h : entries.Pairwise fun a b ↦ ¬b.1 < a.1) :
    sortedByName entries = entries :=
  List.mergeSort_of_pairwise (h.imp fun hab ↦ by simpa using hab)

/-- Entries of different names have one order in which the names increase. -/
theorem eq_of_perm_of_increasing {first second : List (String × α)}
    (hnodup : (entries.map (·.1)).Nodup) (hfirst : first.Perm entries)
    (hfirst' : first.Pairwise fun a b ↦ a.1 ≤ b.1) (hsecond : second.Perm entries)
    (hsecond' : second.Pairwise fun a b ↦ a.1 ≤ b.1) : first = second := by
  refine (hfirst.trans hsecond.symm).eq_of_pairwise ?_ hfirst' hsecond'
  intro a b ha hb hab hba
  have hname : a.1 = b.1 := le_antisymm hab hba
  exact List.inj_on_of_nodup_map hnodup (hfirst.mem_iff.mp ha) (hsecond.mem_iff.mp hb) hname

end SortedByName

/-! ### The files below -/

section Below

variable (s : Scope) (fs : FileSystem)

/-- The entry of a directory is a directory or a link that leads to one. -/
inductive LeadsToDirectory (directory : Path) : String × FileTree → Prop
  | directory (name : String) (entries : List (String × FileTree)) :
    LeadsToDirectory directory (name, .directory entries)
  | link {name : String} (target : Path) {entries : List (String × FileTree)} :
    fs.locate? (directory.child name) = some (.directory entries) →
    LeadsToDirectory directory (name, .link target)

/-- An entry of a directory that is listed: no directory, with one of the extensions in any letter
case, and not ignored. -/
structure IsListed (directory : Path) (entry : String × FileTree) : Prop where
  plain : ¬LeadsToDirectory fs directory entry
  extension : Language.lower (Path.suffixOf entry.1) ∈ s.extensions
  notIgnored : ¬∃ text, s.Sees fs (directory.child entry.1) text ∧ s.ignored text

/-- An entry of a directory that is gone into: a directory and no link, of a name that is not
skipped, and not ignored with a slash after it. -/
structure IsEntered (directory : Path) (entry : String × FileTree) : Prop where
  isDirectory : entry.2.isDirectory
  notRepository : entry.1 ≠ ".git"
  notModules : entry.1 ≠ "node_modules"
  notIgnored : ¬∃ text, s.Sees fs (directory.child entry.1) text ∧ s.ignored (text ++ "/")

/-- Whether an entry of a directory is listed. -/
def isListed (directory : Path) (entry : String × FileTree) : Bool :=
  let path := directory.child entry.1
  isPlainEntry fs directory entry && s.hasExtension path && !s.ignores fs path ""

/-- Whether an entry of a directory is gone into. -/
def isEntered (directory : Path) (entry : String × FileTree) : Bool :=
  entry.2.isDirectory && !Scope.skippedDirectories.contains entry.1 &&
    !s.ignores fs (directory.child entry.1) "/"

section Tests

variable {s fs} {directory : Path} {entry : String × FileTree}

/-- The entries that are candidates are those that do not lead to a directory. -/
theorem isPlainEntry_iff :
    isPlainEntry fs directory entry ↔ ¬LeadsToDirectory fs directory entry := by
  obtain ⟨name, t⟩ := entry
  cases t with
  | file bytes => exact ⟨fun _ ↦ nofun, fun _ ↦ rfl⟩
  | directory entries => exact ⟨nofun, fun h ↦ absurd (.directory name entries) h⟩
  | link target =>
    have hleads : fs.isDirectory (directory.child name) ↔
        LeadsToDirectory fs directory (name, .link target) := by
      unfold FileSystem.isDirectory
      constructor
      · intro h
        split at h
        next entries hlocate => exact .link target hlocate
        next => cases h
      · rintro ⟨⟩
        next entries hlocate => rw [hlocate]
    rw [← hleads]
    simp [isPlainEntry]

theorem isListed_iff : isListed s fs directory entry ↔ IsListed s fs directory entry := by
  have hignores : s.ignores fs (directory.child entry.1) "" ↔
      ∃ text, s.Sees fs (directory.child entry.1) text ∧ s.ignored text := by
    rw [Scope.ignores_iff]
    simp only [String.append_empty]
  have hextension : s.hasExtension (directory.child entry.1) ↔
      Language.lower (Path.suffixOf entry.1) ∈ s.extensions := by
    rw [Scope.hasExtension, Path.suffix, Path.name_child, List.contains_iff_mem]
  rw [isListed, Bool.and_eq_true, Bool.and_eq_true, isPlainEntry_iff, hextension,
    Bool.not_eq_true', ← Bool.not_eq_true, hignores]
  exact ⟨fun ⟨⟨hplain, hext⟩, hnot⟩ ↦ ⟨hplain, hext, hnot⟩, fun h ↦ ⟨⟨h.1, h.2⟩, h.3⟩⟩

theorem isEntered_iff : isEntered s fs directory entry ↔ IsEntered s fs directory entry := by
  have hskipped : Scope.skippedDirectories.contains entry.1 ↔
      entry.1 = ".git" ∨ entry.1 = "node_modules" := by
    simp [Scope.skippedDirectories]
  rw [isEntered, Bool.and_eq_true, Bool.and_eq_true, Bool.not_eq_true', ← Bool.not_eq_true,
    hskipped, Bool.not_eq_true', ← Bool.not_eq_true, Scope.ignores_iff, not_or]
  exact ⟨fun ⟨⟨hdirectory, hgit, hmodules⟩, hnot⟩ ↦ ⟨hdirectory, hgit, hmodules, hnot⟩,
    fun h ↦ ⟨⟨h.1, h.2, h.3⟩, h.4⟩⟩

instance : DecidablePred (IsListed s fs directory) := fun _ ↦ decidable_of_iff _ isListed_iff

instance : DecidablePred (IsEntered s fs directory) := fun _ ↦ decidable_of_iff _ isEntered_iff

theorem filter_isListed (entries : List (String × FileTree)) :
    entries.filter (isListed s fs directory) = entries.filter (IsListed s fs directory) :=
  List.filter_congr fun _ _ ↦ Bool.eq_iff_iff.mpr (isListed_iff.trans decide_eq_true_iff.symm)

theorem filter_isEntered (entries : List (String × FileTree)) :
    entries.filter (isEntered s fs directory) = entries.filter (IsEntered s fs directory) :=
  List.filter_congr fun _ _ ↦ Bool.eq_iff_iff.mpr (isEntered_iff.trans decide_eq_true_iff.symm)

end Tests

/-- What a reading of the tree at a path lists. Nothing is seen of what is no directory or cannot be
listed. -/
inductive Lists : Path → FileTree → List Path → Prop
  | nothing {p : Path} {t : FileTree} : t.isDirectory = false ∨ fs.canList p = false →
    Lists p t []
  | directory {p : Path} {entries own inner : List (String × FileTree)}
      {found : String × FileTree → List Path} : fs.canList p = true →
    own.Perm (entries.filter (IsListed s fs p)) → own.Pairwise (fun a b ↦ a.1 ≤ b.1) →
    inner.Perm (entries.filter (IsEntered s fs p)) → inner.Pairwise (fun a b ↦ a.1 ≤ b.1) →
    (∀ entry ∈ inner, Lists (p.child entry.1) entry.2 (found entry)) →
    Lists p (.directory entries) (own.map (fun entry ↦ p.child entry.1) ++ inner.flatMap found)

/-- The paths below a directory of the entries that are kept, in the order of a reading of it. -/
def keptBelow (keep : Path → String × FileTree → Bool) (directory : Path) : FileTree → List Path
  | .directory entries =>
    if fs.canList directory then
      ((sortedByName entries).filter (keep directory)).map (fun entry ↦ directory.child entry.1) ++
        ((sortedByName entries).filter (isEntered s fs directory)).attach.flatMap fun ⟨entry, _⟩ ↦
          keptBelow keep (directory.child entry.1) entry.2
    else []
  | _ => []
termination_by t => sizeOf t
decreasing_by
  rename_i hentry
  exact FileTree.sizeOf_entry_lt (mem_sortedByName.mp (List.mem_filter.mp hentry).1)

/-- The files below a directory, in the order of a reading of it. -/
def filesBelow (directory : Path) (t : FileTree) : List Path :=
  keptBelow s fs (isListed s fs) directory t

section KeptBelow

variable {s fs} {keep : Path → String × FileTree → Bool} {directory : Path}

/-- A directory gives the entries that are kept, by name, then what is kept below those that are
gone into. -/
theorem keptBelow_directory (h : fs.canList directory = true)
    (entries : List (String × FileTree)) :
    keptBelow s fs keep directory (.directory entries) =
      ((sortedByName entries).filter (keep directory)).map (fun entry ↦ directory.child entry.1) ++
        ((sortedByName entries).filter (isEntered s fs directory)).flatMap fun entry ↦
          keptBelow s fs keep (directory.child entry.1) entry.2 := by
  rw [keptBelow, if_pos h, List.flatMap_subtype fun _ _ ↦ rfl, List.unattach_attach]

/-- What is no directory or cannot be listed gives nothing. -/
theorem keptBelow_eq_nil {t : FileTree} (h : t.isDirectory = false ∨ fs.canList directory = false) :
    keptBelow s fs keep directory t = [] := by
  cases t with
  | file | link => simp [keptBelow]
  | directory entries =>
    have hclosed : fs.canList directory = false := h.resolve_left (by simp [FileTree.isDirectory])
    rw [keptBelow, if_neg (by simp [hclosed])]

/-- What holds of trees of which nothing is seen, and passes from all entries to a directory that
can be listed, holds of every tree at every path. -/
@[elab_as_elim]
theorem inductionOnSeen (fs : FileSystem) {motive : Path → FileTree → Prop}
    (nothing : ∀ p t, t.isDirectory = false ∨ fs.canList p = false → motive p t)
    (directory : ∀ p entries, fs.canList p = true →
      (∀ entry ∈ entries, motive (p.child entry.1) entry.2) → motive p (.directory entries))
    (p : Path) (t : FileTree) : motive p t := by
  induction t using FileTree.inductionOnEntries generalizing p with
  | file | link => exact nothing p _ (Or.inl rfl)
  | directory entries ih =>
    cases hlist : fs.canList p with
    | true => exact directory p entries hlist fun entry hentry ↦ ih entry hentry _
    | false => exact nothing p _ (Or.inr hlist)

theorem mem_of_mem_filter_sortedByName {entry : String × FileTree}
    {entries : List (String × FileTree)} {keep : String × FileTree → Bool}
    (h : entry ∈ (sortedByName entries).filter keep) : entry ∈ entries :=
  mem_sortedByName.mp (List.mem_filter.mp h).1

/-- Leaving out paths may come before or after. -/
theorem filter_keptBelow (test : Path → Bool) (t : FileTree) :
    (keptBelow s fs keep directory t).filter test =
      keptBelow s fs (fun p entry ↦ keep p entry && test (p.child entry.1)) directory t := by
  induction directory, t using inductionOnSeen fs with
  | nothing p t h => rw [keptBelow_eq_nil h, keptBelow_eq_nil h, List.filter_nil]
  | directory p entries hlist ih =>
    rw [keptBelow_directory hlist, keptBelow_directory hlist, List.filter_append, List.filter_map,
      List.filter_filter, List.filter_flatMap]
    congr 1
    · congr 1
      exact List.filter_congr fun entry _ ↦ Bool.and_comm _ _
    · exact List.flatMap_congr fun entry hentry ↦ ih entry (mem_of_mem_filter_sortedByName hentry)

/-- What is kept is below the directory. -/
theorem mem_pathsBelow_of_mem_keptBelow {p : Path} {t : FileTree}
    (h : p ∈ keptBelow s fs keep directory t) : p ∈ t.pathsBelow directory := by
  induction directory, t using inductionOnSeen fs with
  | nothing q t hnothing =>
    rw [keptBelow_eq_nil hnothing] at h
    cases h
  | directory q entries hlist ih =>
    rw [keptBelow_directory hlist, List.mem_append, List.mem_map, List.mem_flatMap] at h
    obtain ⟨entry, hentry, rfl⟩ | ⟨entry, hentry, hp⟩ := h
    · exact FileTree.child_mem_pathsBelow (mem_of_mem_filter_sortedByName hentry)
    · have hmem := mem_of_mem_filter_sortedByName hentry
      exact FileTree.pathsBelow_subset hmem (ih entry hmem hp)

end KeptBelow

variable {s fs}

/-- The recursion lists what a reading lists. -/
theorem lists_filesBelow (p : Path) (t : FileTree) : Lists s fs p t (filesBelow s fs p t) := by
  unfold filesBelow
  induction p, t using inductionOnSeen fs with
  | nothing p t h =>
    rw [keptBelow_eq_nil h]
    exact .nothing h
  | directory p entries hlist ih =>
    rw [keptBelow_directory hlist]
    have hperm (keep : String × FileTree → Bool) :
        ((sortedByName entries).filter keep).Perm (entries.filter keep) :=
      (sortedByName_perm entries).filter keep
    have hincreasing (keep : String × FileTree → Bool) :
        ((sortedByName entries).filter keep).Pairwise fun a b ↦ a.1 ≤ b.1 :=
      (pairwise_sortedByName entries).filter keep
    refine .directory hlist ?_ (hincreasing _) ?_ (hincreasing _) ?_
    · rw [← filter_isListed]
      exact hperm _
    · rw [← filter_isEntered]
      exact hperm _
    · exact fun entry hentry ↦ ih entry (mem_of_mem_filter_sortedByName hentry)

/-- Where no two entries of a directory have one name, a tree has one listing. -/
theorem Lists.unique {p : Path} {t : FileTree} {files files' : List Path} (hnames : t.WellNamed)
    (h : Lists s fs p t files) (h' : Lists s fs p t files') : files = files' := by
  induction h generalizing files' with
  | nothing hnothing =>
    cases h' with
    | nothing => rfl
    | directory hlist =>
      rcases hnothing with hnothing | hnothing
      · cases hnothing
      · rw [hlist] at hnothing
        cases hnothing
  | @directory p entries own inner found hlist hown hown' hinner hinner' _ ih =>
    obtain _ | _ | ⟨hnodup, -, hentries⟩ := hnames
    cases h' with
    | nothing hnothing =>
      rcases hnothing with hnothing | hnothing
      · cases hnothing
      · rw [hlist] at hnothing
        cases hnothing
    | @directory _ _ own₂ inner₂ found₂ _ hown₂ hown₂' hinner₂ hinner₂' hfound₂ =>
      have hfiltered (keep : String × FileTree → Bool) : ((entries.filter keep).map (·.1)).Nodup :=
        hnodup.sublist ((List.filter_sublist).map _)
      cases eq_of_perm_of_increasing (hfiltered _) hown hown' hown₂ hown₂'
      cases eq_of_perm_of_increasing (hfiltered _) hinner hinner' hinner₂ hinner₂'
      congr 1
      refine List.flatMap_congr fun entry hentry ↦ ?_
      have hmem := (List.mem_filter.mp (hinner.mem_iff.mp hentry)).1
      exact ih entry hentry (hentries entry hmem) (hfound₂ entry hentry)

end Below

/-! ### The walk -/

section Walk

variable {s : Scope} {fs : FileSystem} {directory : Path}

theorem prunes_eq (p : Path) :
    s.prunes fs p = (Scope.skippedDirectories.contains p.name || s.ignores fs p "/") := rfl

/-- A visit sees nothing, or the entries of a directory that can be listed in two parts. -/
theorem visit?_cases (fs : FileSystem) (directory : Path) (t : FileTree) :
    (t.isDirectory = false ∨ fs.canList directory = false) ∧ visit? fs directory t = none ∨
    ∃ entries, t = .directory entries ∧ fs.canList directory = true ∧
      visit? fs directory t = some
        { directories := entries.filter fun entry ↦ !isPlainEntry fs directory entry
          others := entries.filter (isPlainEntry fs directory) } := by
  cases t with
  | file | link => exact Or.inl ⟨Or.inl rfl, rfl⟩
  | directory entries =>
    cases hlist : fs.canList directory with
    | false => exact Or.inl ⟨Or.inr rfl, by simp [visit?, hlist]⟩
    | true => exact Or.inr ⟨entries, rfl, rfl, by simp [visit?, hlist]⟩

/-- Of what is seen of a directory, those directories are visited next that are gone into. -/
theorem entered_kept (entries others : List (String × FileTree)) :
    entered directory (kept s fs directory
        ⟨entries.filter fun entry ↦ !isPlainEntry fs directory entry, others⟩) =
      ((sortedByName entries).filter (isEntered s fs directory)).map
        fun entry ↦ (directory.child entry.1, entry.2) := by
  rw [entered, kept, ← filter_sortedByName, List.filter_filter, List.filter_filter]
  congr 1
  refine List.filter_congr fun entry _ ↦ ?_
  obtain ⟨name, t⟩ := entry
  cases t with
  | file | link => rfl
  | directory =>
    simp [isEntered, isPlainEntry, FileTree.isDirectory, prunes_eq, Path.name_child]

/-- The candidates below a directory, in the order of a reading of it. -/
def candidatesBelow (s : Scope) (fs : FileSystem) (directory : Path) (t : FileTree) :
    List Candidate :=
  (keptBelow s fs (isPlainEntry fs) directory t).map fun p ↦ { path := p, named := false }

/-- A directory has its own candidates, then those below the directories that are gone into. -/
theorem candidatesBelow_directory (h : fs.canList directory = true)
    (entries : List (String × FileTree)) :
    candidatesBelow s fs directory (.directory entries) =
      candidatesOf directory ⟨[], entries.filter (isPlainEntry fs directory)⟩ ++
        (((sortedByName entries).filter (isEntered s fs directory)).map
          fun entry ↦ (directory.child entry.1, entry.2)).flatMap
            fun next ↦ candidatesBelow s fs next.1 next.2 := by
  rw [candidatesBelow, keptBelow_directory h, candidatesOf, ← filter_sortedByName, List.map_append,
    List.map_map, List.map_flatMap, List.flatMap_map]
  rfl

/-- The walk meets what the recursion meets below each of the directories still to come: visiting
one puts its subdirectories in its place. -/
theorem walk_eq_flatMap (pending : List (Path × FileTree)) :
    walk s fs pending = pending.flatMap fun next ↦ candidatesBelow s fs next.1 next.2 := by
  fun_induction walk s fs pending with
  | case1 => rfl
  | case2 directory t pending hvisit ih =>
    obtain ⟨hnothing, -⟩ | ⟨_, -, -, hsome⟩ := visit?_cases fs directory t
    · rw [ih, List.flatMap_cons, candidatesBelow, keptBelow_eq_nil hnothing, List.map_nil,
        List.nil_append]
    · rw [hsome] at hvisit
      cases hvisit
  | case3 directory t pending v hvisit ih =>
    obtain ⟨-, hnone⟩ | ⟨entries, rfl, hlist, hsome⟩ := visit?_cases fs directory t
    · rw [hnone] at hvisit
      cases hvisit
    · cases hsome.symm.trans hvisit
      rw [ih, List.flatMap_append, List.flatMap_cons, entered_kept,
        candidatesBelow_directory hlist, List.append_assoc]
      rfl

/-- Whether a candidate has a known extension and is named outright or not ignored. -/
def accepts (s : Scope) (fs : FileSystem) (c : Candidate) : Bool :=
  s.hasExtension c.path && (c.named || !s.ignores fs c.path "")

/-- The candidates of a walk that are accepted are the files below its start. -/
theorem accepted_walk (p : Path) (t : FileTree) :
    ((walk s fs [(p, t)]).filter (accepts s fs)).map (·.path) = filesBelow s fs p t := by
  have haccepts : (fun (q : Path) (entry : String × FileTree) ↦ isPlainEntry fs q entry &&
      accepts s fs { path := q.child entry.1, named := false }) = isListed s fs := by
    funext q entry
    simp only [accepts, isListed, Bool.false_or, Bool.and_assoc]
  rw [walk_eq_flatMap, List.flatMap_singleton, candidatesBelow, List.filter_map, List.map_map,
    filter_keptBelow, filesBelow, ← haccepts]
  exact List.map_id _

/-- Every candidate of a walk is below its start. -/
theorem path_mem_pathsBelow {t : FileTree} {p : Path} {c : Candidate}
    (h : c ∈ walk s fs [(p, t)]) : c.path ∈ t.pathsBelow p := by
  rw [walk_eq_flatMap, List.flatMap_singleton, candidatesBelow, List.mem_map] at h
  obtain ⟨q, hq, rfl⟩ := h
  exact mem_pathsBelow_of_mem_keptBelow hq

/-- A walk meets no path that cannot be looked up. -/
theorem problem_of_mem_walk {pending : List (Path × FileTree)} {c : Candidate}
    (h : c ∈ walk s fs pending) : c.problem = none := by
  rw [walk_eq_flatMap, List.mem_flatMap] at h
  obtain ⟨next, -, hc⟩ := h
  obtain ⟨q, -, rfl⟩ := List.mem_map.mp hc
  rfl

end Walk

end Discovery

end BracketSpacing
