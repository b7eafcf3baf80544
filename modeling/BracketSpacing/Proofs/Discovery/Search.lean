import BracketSpacing.Proofs.Discovery.Select
import BracketSpacing.Proofs.Discovery.Walk

/-!
What a search finds. `search_finds_files_below`: searching a directory ends, whatever links there
are, and finds the files that a reading of it lists, a file that was listed under another name
before left out; where names are different there is one such listing. `each_file_found_once`:
searching several paths finds no file twice, and what is found depends on their order and on
repetitions only as the laws of `FindsOnce` say.
-/

set_option autoImplicit false
set_option relaxedAutoImplicit false

namespace BracketSpacing

namespace FileSystem

/-- The paths of the entries at any depth below the directory at a path. -/
def entryPaths (fs : FileSystem) (p : Path) : List Path :=
  ((fs.locate? p).map (·.pathsBelow p)).getD []

/-- What is a file is found, so its path resolves. -/
theorem exists_resolve_of_isFile {fs : FileSystem} {p : Path} (h : fs.isFile p = .ok true) :
    ∃ resolved, fs.resolve p = .ok resolved := by
  unfold isFile asks at h
  split at h
  next found hstat =>
    exact ⟨found.place, (exists_leadsTo_of_stat hstat).1.resolvesTo.resolve_eq⟩
  next =>
    split_ifs at h
    cases h

end FileSystem

namespace Discovery

variable {s : Scope} {fs : FileSystem}

/-- The files below the directory at a path. -/
def listing (s : Scope) (fs : FileSystem) (p : Path) : List Path :=
  ((fs.locate? p).map (filesBelow s fs p)).getD []

/-- What a reading of the directory at a path lists; where nothing is, there is nothing. -/
def ListedAt (s : Scope) (fs : FileSystem) (p : Path) (files : List Path) : Prop :=
  match fs.locate? p with
  | some t => Lists s fs p t files
  | none => files = []

/-- There is a listing at every path. -/
theorem listedAt_listing (s : Scope) (fs : FileSystem) (p : Path) :
    ListedAt s fs p (listing s fs p) := by
  unfold ListedAt listing
  cases fs.locate? p with
  | none => rfl
  | some t => exact lists_filesBelow p t

/-- Where names are different there is one listing. -/
theorem ListedAt.eq_listing {p : Path} {files : List Path} (hnames : fs.root.WellNamed)
    (h : ListedAt s fs p files) : files = listing s fs p := by
  unfold ListedAt at h
  unfold listing
  cases hlocate : fs.locate? p with
  | none => rwa [hlocate] at h
  | some t =>
    rw [hlocate] at h
    obtain ⟨place, -, hplace⟩ := FileSystem.exists_leadsTo_of_locate hlocate
    exact h.unique (hnames.at? hplace) (lists_filesBelow p t)

/-! ### Candidates -/

theorem candidates_of_not_isFile {p : Path} (h : fs.isFile p = .ok false) :
    candidates s fs p = walk s fs ((fs.locate? p).toList.map fun t ↦ (p, t)) := by
  rw [candidates, h]

/-- What a path stands for when it is known whether it is a file. -/
theorem of_mem_candidates {p : Path} {c : Candidate} {isFile : Bool}
    (hfile : fs.isFile p = .ok isFile) (h : c ∈ candidates s fs p) :
    c.problem = none ∧ (isFile = true ∧ c.path = p ∨ c.path ∈ fs.entryPaths p) := by
  cases isFile with
  | true =>
    rw [candidates, hfile, List.mem_singleton] at h
    subst h
    exact ⟨rfl, Or.inl ⟨rfl, rfl⟩⟩
  | false =>
    rw [candidates_of_not_isFile hfile] at h
    unfold FileSystem.entryPaths
    cases hlocate : fs.locate? p with
    | none =>
      rw [hlocate, walk_eq_flatMap] at h
      cases h
    | some t =>
      rw [hlocate] at h
      exact ⟨problem_of_mem_walk h, Or.inr (path_mem_pathsBelow h)⟩

/-- A candidate that resolves is taken exactly if it is accepted. -/
theorem takes_of_resolve {c : Candidate} (hproblem : c.problem = none)
    (h : (fs.resolve c.path).isOk) : takes s fs c = .ok (accepts s fs c) := by
  unfold takes accepts Scope.ignores
  cases hresolve : fs.resolve c.path with
  | error e =>
    rw [hresolve] at h
    cases h
  | ok resolved => cases hext : s.hasExtension c.path <;> simp [hproblem]

section Resolve

variable {cs : List Candidate} (h : ∀ c ∈ cs, c.problem = none ∧ (fs.resolve c.path).isOk)

include h

/-- Candidates that resolve have no fault. -/
theorem faultOf_of_resolve : faultOf s fs cs = none :=
  faultOf_eq_none_iff.mpr fun c hc ↦ ⟨_, takes_of_resolve (h c hc).1 (h c hc).2⟩

/-- Of candidates that resolve, the accepted ones are taken. -/
theorem taken_of_resolve : taken s fs cs = (cs.filter (accepts s fs)).map (·.path) := by
  rw [taken_eq_map_filter (faultOf_of_resolve h)]
  congr 1
  refine List.filter_congr fun c hc ↦ ?_
  simp [takes_of_resolve (h c hc).1 (h c hc).2]

end Resolve

/-- A search fails only at a path that cannot be looked up or a link that it meets. -/
theorem resolve_of_mem_candidates {ps : List Path} (hfiles : ∀ p ∈ ps, (fs.isFile p).isOk)
    (hentries : ∀ p ∈ ps, ∀ q ∈ fs.entryPaths p, (fs.resolve q).isOk) :
    ∀ c ∈ ps.flatMap (candidates s fs), c.problem = none ∧ (fs.resolve c.path).isOk := by
  intro c hc
  obtain ⟨p, hp, hc⟩ := List.mem_flatMap.mp hc
  cases hfile : fs.isFile p with
  | error e =>
    have hok := hfiles p hp
    rw [hfile] at hok
    cases hok
  | ok isFile =>
    obtain ⟨hproblem, ⟨rfl, hpath⟩ | hentry⟩ := of_mem_candidates hfile hc
    · obtain ⟨resolved, hresolved⟩ := FileSystem.exists_resolve_of_isFile hfile
      exact ⟨hproblem, by rw [hpath, hresolved]; rfl⟩
    · exact ⟨hproblem, hentries p hp _ hentry⟩

/-- A search whose paths can be looked up and whose entries resolve has no fault. -/
theorem fault_eq_none_of_resolve {ps : List Path} (hfiles : ∀ p ∈ ps, (fs.isFile p).isOk)
    (hentries : ∀ p ∈ ps, ∀ q ∈ fs.entryPaths p, (fs.resolve q).isOk) :
    (run s fs ps).fault = none := by
  rw [run_eq]
  exact faultOf_of_resolve (resolve_of_mem_candidates hfiles hentries)

/-- The accepted candidates of a directory are its listing. -/
theorem accepted_candidates {p : Path} (h : fs.isFile p = .ok false) :
    ((candidates s fs p).filter (accepts s fs)).map (·.path) = listing s fs p := by
  rw [candidates_of_not_isFile h, listing]
  cases fs.locate? p with
  | none =>
    rw [Option.toList_none, List.map_nil, walk_eq_flatMap]
    rfl
  | some t => exact accepted_walk p t

/-- Searching directories finds the first of each file in their listings. -/
theorem run_of_directories {ps : List Path} (hfiles : ∀ p ∈ ps, fs.isFile p = .ok false)
    (hentries : ∀ p ∈ ps, ∀ q ∈ fs.entryPaths p, (fs.resolve q).isOk) :
    run s fs ps = { files := firstOfEach fs.resolve (ps.flatMap (listing s fs)) } := by
  have hresolve := resolve_of_mem_candidates (s := s)
    (fun p hp ↦ by rw [hfiles p hp]; rfl) hentries
  have hlisting : ((ps.flatMap (candidates s fs)).filter (accepts s fs)).map (·.path) =
      ps.flatMap (listing s fs) := by
    rw [List.filter_flatMap, List.map_flatMap]
    exact List.flatMap_congr fun p hp ↦ accepted_candidates (hfiles p hp)
  rw [run_eq, taken_of_resolve hresolve, hlisting, faultOf_of_resolve hresolve]

/-- Searching a directory finds the first of each file in its listing. -/
theorem run_of_not_isFile {p : Path} (hfile : fs.isFile p = .ok false)
    (hentries : ∀ q ∈ fs.entryPaths p, (fs.resolve q).isOk) :
    run s fs [p] = { files := firstOfEach fs.resolve (listing s fs p) } := by
  have hrun := run_of_directories (s := s) (List.forall_mem_singleton.mpr hfile)
    (List.forall_mem_singleton.mpr hentries)
  rwa [List.flatMap_singleton] at hrun

end Discovery

section Discover

variable {fs : FileSystem} {root : Path} {extensions : List String}
  {ignore : Option (String → Bool)} {place : List String}

theorem FileSystem.discover_of_resolve (h : fs.resolve root = .ok place) (ps : List Path) :
    fs.discover root extensions ignore ps =
      Discovery.run ⟨place, extensions, fun p ↦ ignore.any (· p)⟩ fs ps := by
  rw [discover, h]

/-- A root that does not resolve ends a search. -/
theorem FileSystem.discover_of_loop {e : LinkLoop} (h : fs.resolve root = .error e)
    (ps : List Path) : fs.discover root extensions ignore ps = ⟨[], some (.linkLoop e)⟩ := by
  rw [discover, h]

/-- A search under a root that resolves has no fault if its paths can be looked up and its entries
resolve. -/
theorem FileSystem.fault_discover_of_resolve {ps : List Path} (hroot : (fs.resolve root).isOk)
    (hfiles : ∀ p ∈ ps, (fs.isFile p).isOk)
    (hentries : ∀ p ∈ ps, ∀ q ∈ fs.entryPaths p, (fs.resolve q).isOk) :
    (fs.discover root extensions ignore ps).fault = none := by
  cases hplace : fs.resolve root with
  | error e =>
    rw [hplace] at hroot
    cases hroot
  | ok place =>
    rw [discover_of_resolve hplace]
    exact Discovery.fault_eq_none_of_resolve hfiles hentries

end Discover

/-- The laws of a search that finds no file twice: which files are found does not depend on the
order of the paths or on repetitions, searching the same paths again adds nothing, and searching
more paths adds the files not found before. -/
structure Discovery.FindsOnce (fs : FileSystem) (search : List Path → Discovery) : Prop where
  distinct : ∀ ps, (search ps).files.Pairwise fun p q ↦ fs.resolve p ≠ fs.resolve q
  resolved : ∀ ps, ∀ p ∈ (search ps).files, ∃ resolved, fs.resolve p = .ok resolved
  sameMembers : ∀ ps qs, (∀ p, p ∈ ps ↔ p ∈ qs) →
    ((search ps).fault = none ↔ (search qs).fault = none) ∧
    ((search ps).fault = none → ∀ resolved,
      .ok resolved ∈ (search ps).files.map fs.resolve ↔
        .ok resolved ∈ (search qs).files.map fs.resolve)
  again : ∀ ps, search (ps ++ ps) = search ps
  more : ∀ ps qs, search (ps ++ qs) = (search ps).followedBy fs (search qs)

/-- Any search keeps the laws. -/
theorem Discovery.findsOnce_run (s : Scope) (fs : FileSystem) : FindsOnce fs (run s fs) where
  distinct := pairwise_files
  resolved _ _ hp := exists_resolve_of_mem_files hp
  sameMembers _ _ hsame := ⟨fault_eq_none_of_same_members hsame, fun hfault resolved ↦
    mem_map_resolve_of_same_members hsame hfault (.ok resolved)⟩
  again ps := by rw [run_append, followedBy_self]
  more := run_append

/-- Nothing is found by a search that fails before it starts. -/
theorem Discovery.findsOnce_of_fault (fs : FileSystem) (e : FileSystem.Fault) :
    FindsOnce fs fun _ ↦ ⟨[], some e⟩ where
  distinct _ := List.Pairwise.nil
  resolved _ _ hp := nomatch hp
  sameMembers _ _ _ := ⟨Iff.rfl, fun _ _ ↦ Iff.rfl⟩
  again _ := rfl
  more _ _ := rfl

/-- A search under a root keeps the laws. -/
theorem FileSystem.findsOnce_discover (fs : FileSystem) (root : Path) (extensions : List String)
    (ignore : Option (String → Bool)) :
    Discovery.FindsOnce fs (fs.discover root extensions ignore) := by
  cases hroot : fs.resolve root with
  | error e =>
    have hsearch : fs.discover root extensions ignore = fun _ ↦ ⟨[], some (.linkLoop e)⟩ :=
      funext (discover_of_loop hroot)
    rw [hsearch]
    exact Discovery.findsOnce_of_fault fs _
  | ok place =>
    have hsearch : fs.discover root extensions ignore =
        Discovery.run ⟨place, extensions, fun p ↦ ignore.any (· p)⟩ fs :=
      funext (discover_of_resolve hroot)
    rw [hsearch]
    exact Discovery.findsOnce_run _ fs

/-- Sources with a link up and a second name for a file above them, in no order. -/
def linkedSources : List (String × FileTree) :=
  [("up", .link ⟨.relative, [".."]⟩),
    ("b.JS", .file []),
    ("alias.js", .link ⟨.relative, ["..", "a.js"]⟩)]

/-- A file, directories to leave out, and sources under two names. -/
def linkedEntries : List (String × FileTree) :=
  [("src", .directory linkedSources),
    ("a.js", .file []),
    ("dist", .directory [("d.js", .file [])]),
    ("library", .link ⟨.relative, ["src"]⟩),
    ("node_modules", .directory [("c.js", .file [])])]

def linkedProject : FileSystem where
  cwd := ["project"]
  root := .directory [("project", .directory linkedEntries)]

theorem wellNamed_linkedProject : linkedProject.root.WellNamed := by
  have hfile (name : String) (hname : FileTree.IsName name) :
      (FileTree.directory [(name, .file [])]).WellNamed :=
    .directory (by simp) (by simpa using hname) (by simpa using .file [])
  have hsources : (FileTree.directory linkedSources).WellNamed := by
    refine .directory (by decide) (by decide) ?_
    simp only [linkedSources, List.forall_mem_cons]
    exact ⟨.link _, .file _, .link _, by simp⟩
  have hentries : (FileTree.directory linkedEntries).WellNamed := by
    refine .directory (by decide) (by decide) ?_
    simp only [linkedEntries, List.forall_mem_cons]
    exact ⟨hsources, .file _, hfile "d.js" (by decide), .link _, hfile "c.js" (by decide), by simp⟩
  exact .directory (by decide) (by decide) (List.forall_mem_singleton.mpr hentries)

/-- Searching a path that is no file ends, whatever links there are, and finds what a reading of it
lists, the first of each resolved path; where no two entries of a directory have one name, this is
so of every such listing. -/
theorem FileSystem.search_finds_files_below (fs : FileSystem) (p : Path)
    (hfile : fs.isFile p = .ok false) (hentries : ∀ q ∈ fs.entryPaths p, (fs.resolve q).isOk) :
    (∀ s : Scope, ∃ files, Discovery.ListedAt s fs p files ∧
      Discovery.run s fs [p] = { files := Discovery.firstOfEach fs.resolve files }) ∧
    (fs.root.WellNamed → ∀ (s : Scope) (files : List Path), Discovery.ListedAt s fs p files →
      Discovery.run s fs [p] = { files := Discovery.firstOfEach fs.resolve files }) ∧
    ∀ (root : Path) (place extensions : List String) (ignore : Option (String → Bool)),
      fs.resolve root = .ok place →
      let s : Scope := ⟨place, extensions, fun q ↦ ignore.any (· q)⟩
      ∃ files, Discovery.ListedAt s fs p files ∧
        fs.discover root extensions ignore [p] =
          { files := Discovery.firstOfEach fs.resolve files } := by
  have hrun (s : Scope) : Discovery.run s fs [p] =
      { files := Discovery.firstOfEach fs.resolve (Discovery.listing s fs p) } :=
    Discovery.run_of_not_isFile hfile hentries
  refine ⟨fun s ↦ ⟨_, Discovery.listedAt_listing s fs p, hrun s⟩, ?_, ?_⟩
  · intro hnames s files hlisted
    rw [hrun, hlisted.eq_listing hnames]
  · intro root place extensions ignore hroot s
    rw [discover_of_resolve hroot]
    exact ⟨_, Discovery.listedAt_listing s fs p, hrun s⟩

/-- The sources are listed with both names of `a.js` and found with one; what is skipped, ignored or
behind a link to a directory is not listed. -/
theorem FileSystem.search_finds_files_below_linkedProject :
    let s : Scope := ⟨["project"], [".js"], (· = "dist/")⟩
    let here : Path := ⟨.relative, []⟩
    let src : Path := ⟨.relative, ["src"]⟩
    Discovery.ListedAt s linkedProject here
      [here.child "a.js", src.child "alias.js", src.child "b.JS"] ∧
    Discovery.run s linkedProject [here] = { files := [here.child "a.js", src.child "b.JS"] } := by
  intro s here src
  have hsources : Discovery.Lists s linkedProject src (.directory linkedSources)
      [src.child "alias.js", src.child "b.JS"] := by
    have hkept : linkedSources.map (decide <| Discovery.IsListed s linkedProject src ·) =
        [false, true, true] := by decide +kernel
    have hentered : linkedSources.map (decide <| Discovery.IsEntered s linkedProject src ·) =
        [false, false, false] := by decide +kernel
    simp only [linkedSources, List.map_cons, List.cons.injEq] at hkept hentered
    exact @Discovery.Lists.directory _ _ src linkedSources
      [("alias.js", .link ⟨.relative, ["..", "a.js"]⟩), ("b.JS", .file [])] [] (fun _ ↦ [])
      (by decide +kernel) (by simpa [linkedSources, hkept] using .swap _ _ _)
      (by decide) (by simp [linkedSources, hentered]) .nil (by simp)
  have hlisted : Discovery.ListedAt s linkedProject here
      [here.child "a.js", src.child "alias.js", src.child "b.JS"] := by
    have hlocate : linkedProject.locate? here = some (.directory linkedEntries) := rfl
    have hkept : linkedEntries.map (decide <| Discovery.IsListed s linkedProject here ·) =
        [false, true, false, false, false] := by decide +kernel
    have hentered : linkedEntries.map (decide <| Discovery.IsEntered s linkedProject here ·) =
        [true, false, false, false, false] := by decide +kernel
    simp only [linkedEntries, List.map_cons, List.cons.injEq] at hkept hentered
    rw [Discovery.ListedAt, hlocate]
    exact @Discovery.Lists.directory _ _ here linkedEntries [("a.js", .file [])]
      [("src", .directory linkedSources)] (fun _ ↦ [src.child "alias.js", src.child "b.JS"])
      (by decide +kernel) (by simp [linkedEntries, hkept]) (List.pairwise_singleton _ _)
      (by simp [linkedEntries, hentered]) (List.pairwise_singleton _ _)
      (List.forall_mem_singleton.mpr hsources)
  have hfirst : Discovery.firstOfEach linkedProject.resolve
      [here.child "a.js", src.child "alias.js", src.child "b.JS"] =
      [here.child "a.js", src.child "b.JS"] := by decide +kernel
  have hfound := (FileSystem.search_finds_files_below linkedProject here (by decide +kernel)
    (by decide +kernel)).2.1 wellNamed_linkedProject s _ hlisted
  exact ⟨hlisted, by rw [hfound, hfirst]⟩

/-- Searching finds no file twice, by whatever ways it is reached and whatever is ignored. -/
theorem FileSystem.each_file_found_once (fs : FileSystem) :
    (∀ s : Scope, Discovery.FindsOnce fs (Discovery.run s fs)) ∧
    ∀ (root : Path) (extensions : List String) (ignore : Option (String → Bool)),
      Discovery.FindsOnce fs (fs.discover root extensions ignore) :=
  ⟨fun s ↦ Discovery.findsOnce_run s fs, findsOnce_discover fs⟩

/-- Two names of one directory and a file that it has a link to, in two orders and with a
repetition. -/
theorem FileSystem.each_file_found_once_in_linkedProject :
    let search := linkedProject.discover ⟨.relative, []⟩ [".js"] none
    let src : Path := ⟨.relative, ["src"]⟩
    let library : Path := ⟨.relative, ["library"]⟩
    let file : Path := ⟨.relative, ["a.js"]⟩
    linkedProject.resolve (src.child "alias.js") = linkedProject.resolve file ∧
    linkedProject.resolve library = linkedProject.resolve src ∧
    (search [src, library, file]).fault = none ∧
    ∀ resolved, .ok resolved ∈ (search [src, library, file]).files.map linkedProject.resolve ↔
      .ok resolved ∈ (search [file, library, src, file]).files.map linkedProject.resolve := by
  intro search src library file
  have hfault : (search [src, library, file]).fault = none :=
    fault_discover_of_resolve (by decide +kernel) (by decide +kernel) (by decide +kernel)
  have hsame (p : Path) : p ∈ [src, library, file] ↔ p ∈ [file, library, src, file] := by
    simp only [List.mem_cons, List.not_mem_nil, or_false]
    tauto
  have hlaws := (FileSystem.each_file_found_once linkedProject).2 ⟨.relative, []⟩ [".js"] none
  exact ⟨by decide +kernel, by decide +kernel, hfault, (hlaws.sameMembers _ _ hsame).2 hfault⟩

end BracketSpacing
