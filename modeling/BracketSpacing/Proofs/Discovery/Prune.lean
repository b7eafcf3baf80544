import BracketSpacing.Proofs.Discovery.Search
import BracketSpacing.Proofs.Ignore

/-!
Leaving out ignored directories early. When patterns that ignore a directory ignore every file below
it (`ClosedDownwards`), a walk that does not go into ignored directories finds the files that the
walk of everything finds, less the ignored ones, in the same order (`pruning_loses_nothing`). This
is for trees without links: there a path below the root resolves to itself, so the directory and the
files below it are seen under one name (`StandsAt.exists_below`). One directory is
`filesBelow_eq_filter`, by induction on the tree; several directories keep the first of each file
(`run_eq_filter`), as an ignored file is no other name of one that is not.
-/

set_option autoImplicit false
set_option relaxedAutoImplicit false

namespace BracketSpacing

/-! ### Trees without links -/

namespace FileTree

theorem ne_link_of_linkCount {t : FileTree} (h : t.linkCount = 0) (target : Path) :
    t ≠ .link target := by
  rintro rfl
  cases h

theorem linkCount_of_mem {entry : String × FileTree} {entries : List (String × FileTree)}
    (h : (directory entries).linkCount = 0) (hentry : entry ∈ entries) :
    entry.2.linkCount = 0 := by
  rw [linkCount] at h
  induction hentry with
  | head rest =>
    rw [linkCountAll] at h
    omega
  | tail first _ ih =>
    rw [linkCountAll] at h
    exact ih (by omega)

/-- What stands in a well-named tree without links has none either, and is at well-formed names. -/
theorem WellNamed.linkFree_at? {t u : FileTree} {names : List String} (hnames : t.WellNamed)
    (hlinks : t.linkCount = 0) (h : t.at? names = some u) :
    u.linkCount = 0 ∧ ∀ name ∈ names, IsName name := by
  induction names generalizing t with
  | nil =>
    cases h
    exact ⟨hlinks, by simp⟩
  | cons name rest ih =>
    obtain ⟨entries, v, rfl, hmem, hv⟩ := exists_of_at?_cons h
    obtain _ | _ | ⟨-, hproper, hentries⟩ := hnames
    obtain ⟨hulinks, hrest⟩ := ih (hentries _ hmem) (linkCount_of_mem hlinks hmem) hv
    exact ⟨hulinks, List.forall_mem_cons.mpr ⟨hproper _ hmem, hrest⟩⟩

theorem exists_of_mem_pathsBelow {place q : Path} {entries : List (String × FileTree)}
    (h : q ∈ (directory entries).pathsBelow place) :
    ∃ entry ∈ entries, q = place.child entry.1 ∨ q ∈ entry.2.pathsBelow (place.child entry.1) := by
  rw [pathsBelow] at h
  induction entries with
  | nil => cases h
  | cons entry rest ih =>
    obtain ⟨name, t⟩ := entry
    rw [pathsOfEntries, List.mem_cons, List.mem_append] at h
    obtain hq | hq | hq := h
    · exact ⟨_, List.mem_cons_self, Or.inl hq⟩
    · exact ⟨_, List.mem_cons_self, Or.inr hq⟩
    · obtain ⟨entry, hentry, hq⟩ := ih hq
      exact ⟨entry, List.mem_cons_of_mem _ hentry, hq⟩

end FileTree

namespace FileSystem

/-- A path resolves to a place at which a well-named tree without links stands. -/
structure StandsAt (fs : FileSystem) (p : Path) (place : List String) (t : FileTree) : Prop where
  resolves : fs.ResolvesTo p place
  stands : fs.root.at? place = some t
  wellNamed : t.WellNamed
  linkFree : t.linkCount = 0

namespace StandsAt

variable {fs : FileSystem} {p q : Path} {place : List String} {t : FileTree}
  {entries : List (String × FileTree)}

theorem isName (h : fs.StandsAt p place (.directory entries)) {entry : String × FileTree}
    (hentry : entry ∈ entries) : FileTree.IsName entry.1 := by
  obtain _ | _ | ⟨-, hproper, -⟩ := h.wellNamed
  exact hproper entry hentry

/-- An entry of what stands at a place stands below that place. -/
theorem child (h : fs.StandsAt p place (.directory entries)) {entry : String × FileTree}
    (hentry : entry ∈ entries) :
    fs.StandsAt (p.child entry.1) (place ++ [entry.1]) entry.2 := by
  obtain _ | _ | ⟨hnodup, hproper, hentries⟩ := h.wellNamed
  have hlinks := FileTree.linkCount_of_mem h.linkFree hentry
  have hstands : fs.root.at? (place ++ [entry.1]) = some entry.2 := by
    rw [FileTree.at?_append, h.stands, Option.bind_some, FileTree.at?,
      Assoc.lookup_eq_some_of_mem hnodup hentry]
    rfl
  exact
    { resolves := h.resolves.child (hproper entry hentry).2.2.1 hstands
        (FileTree.ne_link_of_linkCount hlinks)
      stands := hstands
      wellNamed := hentries entry hentry
      linkFree := hlinks }

/-- The paths below lead to the places below. -/
theorem exists_below (h : fs.StandsAt p place t) (hq : q ∈ t.pathsBelow p) :
    ∃ names u, names ≠ [] ∧ (∀ name ∈ names, FileTree.IsName name) ∧
      fs.StandsAt q (place ++ names) u := by
  induction t using FileTree.inductionOnEntries generalizing p place with
  | file | link => cases hq
  | directory entries ih =>
    obtain ⟨entry, hentry, rfl | hq⟩ := FileTree.exists_of_mem_pathsBelow hq
    · refine ⟨[entry.1], entry.2, List.cons_ne_nil _ _, ?_, h.child hentry⟩
      exact List.forall_mem_singleton.mpr (h.isName hentry)
    · obtain ⟨names, u, -, hnames, hu⟩ := ih entry hentry (h.child hentry) hq
      refine ⟨entry.1 :: names, u, List.cons_ne_nil _ _, ?_, ?_⟩
      · exact List.forall_mem_cons.mpr ⟨h.isName hentry, hnames⟩
      · rwa [List.append_assoc, List.singleton_append] at hu

end StandsAt

end FileSystem

/-! ### Patterns -/

theorem Path.render_relative {parts : List String} (h : parts ≠ []) :
    (Path.mk .relative parts).render = "/".intercalate parts := by
  cases parts with
  | nil => exact absurd rfl h
  | cons part rest => exact String.empty_append

/-- The text of a path below another is that of both with a slash between them. -/
theorem Path.render_append {above below : List String} (habove : above ≠ []) (hbelow : below ≠ []) :
    (Path.mk .relative (above ++ below)).render =
      (Path.mk .relative above).render ++ "/" ++ (Path.mk .relative below).render := by
  rw [render_relative (List.append_ne_nil_of_left_ne_nil habove below), render_relative habove,
    render_relative hbelow]
  induction above with
  | nil => exact absurd rfl habove
  | cons name rest ih =>
    cases rest with
    | nil =>
      rw [List.singleton_append, String.intercalate_cons_of_ne_nil hbelow]
      rfl
    | cons second rest =>
      rw [List.cons_append, String.intercalate_cons_of_ne_nil (by simp), ih (by simp),
        String.intercalate_cons_cons]
      simp only [String.append_assoc]

/-- Patterns that ignore a directory below the root ignore every file below it. -/
def ClosedDownwards (ignored : String → Bool) : Prop :=
  ∀ above below : List String, above ≠ [] → below ≠ [] →
    (∀ name ∈ above ++ below, FileTree.IsName name) →
    ignored ((Path.mk .relative above).render ++ "/") →
    ignored (Path.mk .relative (above ++ below)).render

/-- Patterns for directories ignore whole directories. -/
theorem closedDownwards_of_isOpen {patterns : Ignore.Spec}
    (hnegated : ∀ p ∈ patterns.patterns, p.negated = false)
    (hopen : ∀ p ∈ patterns.patterns, p.matcher.IsOpen) : ClosedDownwards patterns.ignores := by
  intro above below habove hbelow _ hignored
  rw [Path.render_append habove hbelow]
  exact Ignore.Spec.ignores_below hnegated hopen hignored _

namespace Scope

/-- The same files to find, none of them ignored. -/
def ignoringNothing (s : Scope) : Scope := { s with ignored := fun _ ↦ false }

@[simp] theorem ignores_ignoringNothing (s : Scope) (fs : FileSystem) (p : Path) (mark : String) :
    s.ignoringNothing.ignores fs p mark = false := by
  unfold ignores
  split
  all_goals rfl

/-- Below the root a path is ignored by the names from there. -/
theorem ignores_eq {s : Scope} {fs : FileSystem} {p : Path} {names : List String}
    (h : fs.ResolvesTo p (s.root ++ names)) (mark : String) :
    s.ignores fs p mark = s.ignored ((Path.mk .relative names).render ++ mark) :=
  ignores_of_sees (.below h.resolve_eq) mark

/-- The path leads to a directory below the root that has no links in it. -/
def Reaches (s : Scope) (fs : FileSystem) (p : Path) : Prop :=
  ∃ names t, (∀ name ∈ names, FileTree.IsName name) ∧ fs.locate? p = some t ∧ t.isDirectory ∧
    fs.StandsAt p (s.root ++ names) t

/-- A directory that resolves to a place below the root is reached from it. -/
theorem reaches_of_resolve {s : Scope} {fs : FileSystem} {t : FileTree} {p : Path}
    {below : List String} (ht : fs.root.at? s.root = some t) (hnames : t.WellNamed)
    (hlinks : t.linkCount = 0) (hp : fs.isDirectory p)
    (hresolve : fs.resolve p = .ok (s.root ++ below)) : s.Reaches fs p := by
  unfold FileSystem.isDirectory at hp
  split at hp
  next entries hlocate =>
    obtain ⟨place, hleads, hplace⟩ := FileSystem.exists_leadsTo_of_locate hlocate
    cases Except.ok.inj (hleads.resolvesTo.resolve_eq.symm.trans hresolve)
    have hbelow := hplace
    rw [FileTree.at?_append, ht, Option.bind_some] at hbelow
    obtain ⟨hfree, hproper⟩ := hnames.linkFree_at? hlinks hbelow
    exact ⟨below, .directory entries, hproper, hlocate, rfl, hleads.resolvesTo, hplace,
      hnames.at? hbelow, hfree⟩
  next => cases hp

end Scope

namespace Discovery

variable {s : Scope} {fs : FileSystem}

/-! ### Below one directory -/

section FilesBelow

variable {p f : Path} {t : FileTree}

/-- No file that is listed is ignored. -/
theorem ignores_of_mem_filesBelow (h : f ∈ filesBelow s fs p t) : s.ignores fs f "" = false := by
  unfold filesBelow at h
  induction p, t using inductionOnSeen fs with
  | nothing p t hnothing =>
    rw [keptBelow_eq_nil hnothing] at h
    cases h
  | directory p entries hlist ih =>
    rw [keptBelow_directory hlist, List.mem_append, List.mem_map, List.mem_flatMap] at h
    obtain ⟨entry, hentry, rfl⟩ | ⟨entry, hentry, hf⟩ := h
    · have hlisted := (List.mem_filter.mp hentry).2
      unfold isListed at hlisted
      simpa using (Bool.and_eq_true_iff.mp hlisted).2
    · exact ih entry (mem_of_mem_filter_sortedByName hentry) hf

/-- What is listed is not ignored and would be listed if nothing were. -/
theorem isListed_eq (directory : Path) (entry : String × FileTree) :
    isListed s fs directory entry = (!s.ignores fs (directory.child entry.1) "" &&
      isListed s.ignoringNothing fs directory entry) := by
  have hextension : s.ignoringNothing.hasExtension (directory.child entry.1) =
      s.hasExtension (directory.child entry.1) := rfl
  simp only [isListed, hextension, Scope.ignores_ignoringNothing, Bool.not_false, Bool.and_true]
  exact Bool.and_comm _ _

/-- What is gone into is not ignored and would be gone into if nothing were. -/
theorem isEntered_eq (directory : Path) (entry : String × FileTree) :
    isEntered s fs directory entry = (!s.ignores fs (directory.child entry.1) "/" &&
      isEntered s.ignoringNothing fs directory entry) := by
  simp only [isEntered, Scope.ignores_ignoringNothing, Bool.not_false, Bool.and_true]
  exact Bool.and_comm _ _

theorem flatMap_filter_of_nil {α β : Type} {keep : α → Bool} {f : α → List β} {l : List α}
    (h : ∀ a ∈ l, keep a = false → f a = []) : (l.filter keep).flatMap f = l.flatMap f := by
  induction l with
  | nil => rfl
  | cons a rest ih =>
    have hrest := ih fun b hb ↦ h b (List.mem_cons_of_mem _ hb)
    cases ha : keep a with
    | true => rw [List.filter_cons_of_pos ha, List.flatMap_cons, List.flatMap_cons, hrest]
    | false =>
      rw [List.filter_cons_of_neg (by simp [ha]), List.flatMap_cons,
        h a List.mem_cons_self ha, List.nil_append, hrest]

variable {above : List String} (hclosed : ClosedDownwards s.ignored)
  (habove : ∀ name ∈ above, FileTree.IsName name)

include hclosed habove

/-- Nothing is found below an ignored directory. -/
theorem filesBelow_of_ignores (hne : above ≠ []) (h : fs.StandsAt p (s.root ++ above) t)
    (hignored : s.ignores fs p "/") : filesBelow s fs p t = [] := by
  rw [List.eq_nil_iff_forall_not_mem]
  intro f hf
  obtain ⟨below, u, hbelow, hnames, hu⟩ := h.exists_below (mem_pathsBelow_of_mem_keptBelow hf)
  rw [List.append_assoc] at hu
  have hfile : s.ignores fs f "" := by
    rw [Scope.ignores_eq h.resolves] at hignored
    rw [Scope.ignores_eq hu.resolves, String.append_empty]
    refine hclosed above below hne hbelow ?_ hignored
    exact List.forall_mem_append.mpr ⟨habove, hnames⟩
  rw [ignores_of_mem_filesBelow hf] at hfile
  cases hfile

/-- The files found below a directory are all files below it, less the ignored ones. -/
theorem filesBelow_eq_filter (h : fs.StandsAt p (s.root ++ above) t) :
    filesBelow s fs p t =
      (filesBelow s.ignoringNothing fs p t).filter fun f ↦ !s.ignores fs f "" := by
  unfold filesBelow
  induction p, t using inductionOnSeen fs generalizing above with
  | nothing p t hnothing =>
    rw [keptBelow_eq_nil hnothing, keptBelow_eq_nil hnothing]
    rfl
  | directory p entries hlist ih =>
    have hchild (entry : String × FileTree) (hentry : entry ∈ entries) :
        (∀ name ∈ above ++ [entry.1], FileTree.IsName name) ∧
          fs.StandsAt (p.child entry.1) (s.root ++ (above ++ [entry.1])) entry.2 := by
      rw [← List.append_assoc]
      refine ⟨List.forall_mem_append.mpr ⟨habove, ?_⟩, h.child hentry⟩
      exact List.forall_mem_singleton.mpr (h.isName hentry)
    have hentered : (sortedByName entries).filter (isEntered s fs p) =
        ((sortedByName entries).filter (isEntered s.ignoringNothing fs p)).filter
          fun entry ↦ !s.ignores fs (p.child entry.1) "/" := by
      rw [List.filter_filter]
      exact List.filter_congr fun entry _ ↦ isEntered_eq p entry
    rw [keptBelow_directory hlist, keptBelow_directory hlist, List.filter_append, List.filter_map,
      List.filter_filter, List.filter_flatMap, hentered]
    congr 1
    · congr 1
      exact List.filter_congr fun entry _ ↦ isListed_eq p entry
    · -- A directory that only the walk of everything enters is ignored, and then it holds no file
      -- that is not.
      rw [flatMap_filter_of_nil]
      · refine List.flatMap_congr fun entry hentry ↦ ?_
        have hmem := mem_of_mem_filter_sortedByName hentry
        obtain ⟨hnames, hstands⟩ := hchild entry hmem
        exact ih entry hmem hnames hstands
      · intro entry hentry hignored
        have hmem := mem_of_mem_filter_sortedByName hentry
        obtain ⟨hnames, hstands⟩ := hchild entry hmem
        exact filesBelow_of_ignores hclosed hnames (by simp) hstands (by simpa using hignored)

end FilesBelow

/-! ### Searching directories -/

section Reaches

variable {p : Path} (h : s.Reaches fs p)

include h

theorem isFile_of_reaches : fs.isFile p = .ok false := by
  obtain ⟨_, t, -, hlocate, hdirectory, -⟩ := h
  rw [FileSystem.isFile, FileSystem.asks_of_locate hlocate]
  cases t with
  | file => cases hdirectory
  | link | directory => rfl

/-- Every entry below a directory in the project resolves to a place below the root. -/
theorem exists_resolvesTo_of_mem_entryPaths {q : Path} (hq : q ∈ fs.entryPaths p) :
    ∃ names, fs.ResolvesTo q (s.root ++ names) := by
  obtain ⟨above, t, -, hlocate, -, hstands⟩ := h
  rw [FileSystem.entryPaths, hlocate, Option.map_some, Option.getD_some] at hq
  obtain ⟨below, _, -, -, hbelow⟩ := hstands.exists_below hq
  exact ⟨above ++ below, by rw [← List.append_assoc]; exact hbelow.resolves⟩

/-- Reading a directory without the ignored ones gives what reading all of it gives, less what is
ignored. -/
theorem listing_eq_filter (hclosed : ClosedDownwards s.ignored) :
    listing s fs p = (listing s.ignoringNothing fs p).filter fun f ↦ !s.ignores fs f "" := by
  obtain ⟨_, t, hnames, hlocate, -, hstands⟩ := h
  simp only [listing, hlocate, Option.map_some, Option.getD_some]
  exact filesBelow_eq_filter hclosed hnames hstands

end Reaches

theorem mem_entryPaths_of_mem_listing {p f : Path} (h : f ∈ listing s fs p) :
    f ∈ fs.entryPaths p := by
  unfold listing at h
  unfold FileSystem.entryPaths
  cases hlocate : fs.locate? p with
  | none =>
    rw [hlocate] at h
    cases h
  | some t =>
    rw [hlocate] at h
    exact mem_pathsBelow_of_mem_keptBelow h

/-- Below the root, ways to one file are ignored together. -/
theorem ignores_congr {f g : Path} {names names' : List String}
    (hf : fs.ResolvesTo f (s.root ++ names)) (hg : fs.ResolvesTo g (s.root ++ names'))
    (h : fs.resolve f = fs.resolve g) (mark : String) :
    s.ignores fs f mark = s.ignores fs g mark := by
  rw [hf.resolve_eq, hg.resolve_eq] at h
  cases List.append_cancel_left (Except.ok.inj h)
  rw [Scope.ignores_eq hf, Scope.ignores_eq hg]

section Directories

variable {ps : List Path} (hps : ∀ p ∈ ps, s.Reaches fs p)

include hps

/-- Searching directories of the project keeps the first of each file. -/
theorem run_of_reaches :
    run s fs ps = { files := firstOfEach fs.resolve (ps.flatMap (listing s fs)) } := by
  refine run_of_directories (fun p hp ↦ isFile_of_reaches (hps p hp)) fun p hp q hq ↦ ?_
  obtain ⟨names, hresolves⟩ := exists_resolvesTo_of_mem_entryPaths (hps p hp) hq
  rw [hresolves.resolve_eq]
  rfl

/-- Not going into ignored directories finds the files found by going into all, less the ignored
ones. -/
theorem run_eq_filter (hclosed : ClosedDownwards s.ignored) :
    run s fs ps =
      { files := (run s.ignoringNothing fs ps).files.filter fun f ↦ !s.ignores fs f "" } := by
  have hlisting : ps.flatMap (listing s fs) =
      (ps.flatMap (listing s.ignoringNothing fs)).filter fun f ↦ !s.ignores fs f "" := by
    rw [List.filter_flatMap]
    exact List.flatMap_congr fun p hp ↦ listing_eq_filter (hps p hp) hclosed
  have hresolves : ∀ f ∈ ps.flatMap (listing s.ignoringNothing fs),
      ∃ names, fs.ResolvesTo f (s.root ++ names) := by
    intro f hf
    obtain ⟨p, hp, hf⟩ := List.mem_flatMap.mp hf
    exact exists_resolvesTo_of_mem_entryPaths (hps p hp) (mem_entryPaths_of_mem_listing hf)
  -- The two walks meet different files, but no ignored one is a way to a file that is not ignored.
  have hsame : ∀ f ∈ ps.flatMap (listing s.ignoringNothing fs),
      ∀ g ∈ ps.flatMap (listing s.ignoringNothing fs), fs.resolve f = fs.resolve g →
        (!s.ignores fs f "") = !s.ignores fs g "" := by
    intro f hf g hg heq
    obtain ⟨_, hf⟩ := hresolves f hf
    obtain ⟨_, hg⟩ := hresolves g hg
    rw [ignores_congr hf hg heq]
  have hplain : run s.ignoringNothing fs ps =
      { files := firstOfEach fs.resolve (ps.flatMap (listing s.ignoringNothing fs)) } :=
    run_of_reaches hps
  rw [run_of_reaches hps, hplain, hlisting, ← filter_firstOfEach_of_same fs.resolve hsame]

end Directories

end Discovery

/-- Searching directories of a tree without links, with patterns that ignore every file below an
ignored directory, finds what the search finds that goes into ignored directories too, in the same
order and less the ignored files. -/
theorem FileSystem.pruning_loses_nothing (fs : FileSystem) (root : Path) (place : List String)
    (t : FileTree) (ps : List Path) (hroot : fs.resolve root = .ok place)
    (ht : fs.root.at? place = some t) (hnames : t.WellNamed) (hlinks : t.linkCount = 0)
    (hps : ∀ p ∈ ps, fs.isDirectory p ∧ ∃ below, fs.resolve p = .ok (place ++ below)) :
    (∀ s : Scope, s.root = place → ClosedDownwards s.ignored →
      let everything := Discovery.run s.ignoringNothing fs ps
      everything =
        { files := Discovery.firstOfEach fs.resolve
            (ps.flatMap (Discovery.listing s.ignoringNothing fs)) } ∧
      Discovery.run s fs ps = { files := everything.files.filter fun f ↦ !s.ignores fs f "" }) ∧
    ∀ (extensions : List String) (ignore : Option (String → Bool)),
      ClosedDownwards (fun p ↦ ignore.any (· p)) →
      let s : Scope := ⟨place, extensions, fun p ↦ ignore.any (· p)⟩
      fs.discover root extensions ignore ps =
        { files := (fs.discover root extensions none ps).files.filter
            fun f ↦ !s.ignores fs f "" } := by
  have hreaches (s : Scope) (hs : s.root = place) : ∀ p ∈ ps, s.Reaches fs p := by
    subst hs
    intro p hp
    obtain ⟨hdirectory, below, hresolve⟩ := hps p hp
    exact Scope.reaches_of_resolve ht hnames hlinks hdirectory hresolve
  refine ⟨fun s hs hclosed ↦ ⟨?_, Discovery.run_eq_filter (hreaches s hs) hclosed⟩, ?_⟩
  · exact Discovery.run_of_reaches (hreaches s.ignoringNothing hs)
  · intro extensions ignore hclosed s
    rw [discover_of_resolve hroot, discover_of_resolve hroot]
    exact Discovery.run_eq_filter (hreaches s rfl) hclosed

/-- Sources beside what is built from them, with a directory of that name in the sources too. -/
def builtEntries : List (String × FileTree) :=
  [("a.js", .file []),
    ("dist", .directory [("c.js", .file []), ("lib", .directory [("d.js", .file [])])]),
    ("src", .directory [("b.js", .file []), ("dist", .directory [("e.js", .file [])])])]

def builtProject : FileSystem where
  cwd := ["project"]
  root := .directory [("project", .directory builtEntries)]

theorem builtEntries_wellNamed : (FileTree.directory builtEntries).WellNamed := by
  have hfile (name : String) (hname : FileTree.IsName name) :
      (FileTree.directory [(name, .file [])]).WellNamed :=
    .directory (by simp) (by simpa using hname) (by simpa using .file [])
  refine .directory (by decide) (by decide) ?_
  simp only [builtEntries, List.forall_mem_cons]
  refine ⟨.file [], .directory (by decide) (by decide) ?_,
    .directory (by decide) (by decide) ?_, by simp⟩
  · simpa using ⟨.file [], hfile "d.js" (by decide)⟩
  · simpa using ⟨.file [], hfile "e.js" (by decide)⟩

/-- What the line `dist/` is read as. -/
def builtPatterns : Ignore.Spec :=
  ⟨[⟨false, .pieces (.leadingDirectories :: ("dist".toList.map fun c ↦ .glyph (.literal c)) ++
    [.slash])⟩]⟩

/-- Of the project and its sources, `dist` is left out on both levels before it is gone into. -/
theorem FileSystem.pruning_loses_nothing_in_builtProject :
    let here : Path := ⟨.relative, []⟩
    let src : Path := ⟨.relative, ["src"]⟩
    let s : Scope := ⟨["project"], [".js"], builtPatterns.ignores⟩
    Ignore.Spec.read ["dist/"] = .ok builtPatterns ∧
    s.prunes builtProject (here.child "dist") ∧ s.prunes builtProject (src.child "dist") ∧
    s.prunes builtProject src = false ∧
    builtProject.discover here [".js"] (some builtPatterns.ignores) [here, src] =
      { files := (builtProject.discover here [".js"] none [here, src]).files.filter
          fun f ↦ !s.ignores builtProject f "" } := by
  intro here src s
  have hclosed : ClosedDownwards builtPatterns.ignores :=
    closedDownwards_of_isOpen (by decide) (by decide)
  have hps : ∀ p ∈ [here, src], builtProject.isDirectory p ∧
      ∃ below, builtProject.resolve p = .ok (["project"] ++ below) := by
    intro p hp
    rcases List.mem_pair.mp hp with rfl | rfl
    · exact ⟨rfl, [], by decide +kernel⟩
    · exact ⟨rfl, ["src"], by decide +kernel⟩
  have hsearch := (FileSystem.pruning_loses_nothing builtProject here ["project"]
    (.directory builtEntries) [here, src] (by decide +kernel) rfl builtEntries_wellNamed rfl
    hps).2 [".js"] (some builtPatterns.ignores) hclosed
  exact ⟨by decide +kernel, by decide +kernel, by decide +kernel, by decide +kernel, hsearch⟩

end BracketSpacing
