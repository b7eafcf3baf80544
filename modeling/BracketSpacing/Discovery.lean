import BracketSpacing.FileTree
import BracketSpacing.Language

/-!
Finding the files to check. A path that names a file stands for itself; one that names a directory
stands for the files below it, a directory's own files before its subdirectories and each kind by
name. The directories are visited from a list of those still to come, to which each visit adds the
subdirectories that it keeps. Of several ways to one file the first is taken, files being the same
when their resolved paths are.
-/

set_option autoImplicit false
set_option relaxedAutoImplicit false

namespace BracketSpacing

/-- What files to find. -/
structure Scope where
  /-- The resolved directory that ignored paths are relative to. -/
  root : List String
  extensions : List String
  /-- Whether a path relative to the root is ignored; directories end in a slash. -/
  ignored : String → Bool

namespace Scope

def hasExtension (s : Scope) (p : Path) : Bool := s.extensions.contains (Language.lower p.suffix)

/-- A path as patterns see it: its resolved names below the root, or as written elsewhere. -/
def relativeText (s : Scope) (p : Path) (resolved : List String) : String :=
  if s.root.isPrefixOf resolved then (Path.mk .relative (resolved.drop s.root.length)).render
  else p.render

/-- Directories that are never gone into. -/
def skippedDirectories : List String := [".git", "node_modules"]

/-- Whether a walk leaves out a subdirectory. -/
def prunes (s : Scope) (fs : FileSystem) (p : Path) : Bool :=
  skippedDirectories.contains p.name ||
    match fs.resolve p with
    | .ok resolved => s.ignored (s.relativeText p resolved ++ "/")
    | .error _ => false

end Scope

/-- A path that may be one of the files. -/
structure Discovery.Candidate where
  path : Path
  /-- Whether the path was named outright; then it is not ignored. -/
  named : Bool
  /-- Why it could not be found out what is at the path. -/
  problem : Option FileSystem.PathError := none
  deriving DecidableEq, Repr

namespace Discovery

/-- The entries by name. -/
def sortedByName {α : Type} (entries : List (String × α)) : List (String × α) :=
  entries.mergeSort fun a b ↦ !(b.1 < a.1)

/-! ### Walking -/

/-- What is seen of a directory: the entries that are directories or links to directories, and the
others. -/
structure Visit where
  directories : List (String × FileTree)
  others : List (String × FileTree)

/-- Whether an entry is no directory and no link to one. -/
def isPlainEntry (fs : FileSystem) (directory : Path) (entry : String × FileTree) : Bool :=
  match entry.2 with
  | .file _ => true
  | .link _ => !fs.isDirectory (directory.child entry.1)
  | .directory _ => false

/-- What is seen of the tree at a path, if it is a directory that can be listed. -/
def visit? (fs : FileSystem) (directory : Path) : FileTree → Option Visit
  | .directory entries =>
    if fs.canList directory then
      some
        { directories := entries.filter fun entry ↦ !isPlainEntry fs directory entry
          others := entries.filter (isPlainEntry fs directory) }
    else none
  | _ => none

/-- The directories of a visit that are kept, by name. -/
def kept (s : Scope) (fs : FileSystem) (directory : Path) (v : Visit) : List (String × FileTree) :=
  (sortedByName v.directories).filter fun entry ↦ !s.prunes fs (directory.child entry.1)

/-- The directories to visit next: of those kept, the ones that are no links. -/
def entered (directory : Path) (kept : List (String × FileTree)) : List (Path × FileTree) :=
  (kept.filter fun entry ↦ entry.2.isDirectory).map fun entry ↦ (directory.child entry.1, entry.2)

/-- The other entries of a visit as candidates, by name. -/
def candidatesOf (directory : Path) (v : Visit) : List Candidate :=
  (sortedByName v.others).map fun entry ↦ { path := directory.child entry.1, named := false }

section Size

variable {α β : Type}

/-- The size of some trees taken together. -/
noncomputable def treesSize : List (α × FileTree) → Nat
  | [] => 0
  | (_, t) :: rest => sizeOf t + treesSize rest

theorem treesSize_append (first second : List (α × FileTree)) :
    treesSize (first ++ second) = treesSize first + treesSize second := by
  induction first with
  | nil => exact (Nat.zero_add _).symm
  | cons entry rest ih =>
    rw [List.cons_append, treesSize, treesSize, ih]
    omega

theorem treesSize_map (name : α × FileTree → β) (entries : List (α × FileTree)) :
    treesSize (entries.map fun entry ↦ (name entry, entry.2)) = treesSize entries := by
  induction entries with
  | nil => rfl
  | cons entry rest ih => rw [List.map_cons, treesSize, treesSize, ih]

theorem treesSize_filter_le (keep : α × FileTree → Bool) (entries : List (α × FileTree)) :
    treesSize (entries.filter keep) ≤ treesSize entries := by
  induction entries with
  | nil => exact Nat.le_refl 0
  | cons entry rest ih =>
    rw [treesSize]
    cases h : keep entry with
    | true =>
      rw [List.filter_cons_of_pos h, treesSize]
      omega
    | false =>
      rw [List.filter_cons_of_neg (by simp [h])]
      omega

theorem treesSize_of_perm {first second : List (α × FileTree)} (h : first.Perm second) :
    treesSize first = treesSize second := by
  induction h with
  | nil => rfl
  | cons entry _ ih => rw [treesSize, treesSize, ih]
  | swap a b rest =>
    simp only [treesSize]
    omega
  | trans _ _ first second => exact first.trans second

theorem treesSize_le [SizeOf α] (entries : List (α × FileTree)) :
    treesSize entries ≤ sizeOf entries := by
  induction entries with
  | nil => exact Nat.zero_le _
  | cons entry rest ih =>
    obtain ⟨name, t⟩ := entry
    rw [treesSize, List.cons.sizeOf_spec, Prod.mk.sizeOf_spec]
    omega

/-- The directories to visit next are smaller, taken together, than the one they are in. -/
theorem treesSize_entered_lt {s : Scope} {fs : FileSystem} {directory : Path} {t : FileTree}
    {v : Visit} (h : visit? fs directory t = some v) :
    treesSize (entered directory (kept s fs directory v)) < sizeOf t := by
  unfold visit? at h
  split at h
  next entries =>
    split at h
    next =>
      cases h
      have hentries := treesSize_le entries
      rw [entered, treesSize_map, FileTree.directory.sizeOf_spec]
      refine Nat.lt_of_le_of_lt (treesSize_filter_le _ _) ?_
      refine Nat.lt_of_le_of_lt (treesSize_filter_le _ _) ?_
      rw [sortedByName, treesSize_of_perm (List.mergeSort_perm _ _)]
      refine Nat.lt_of_le_of_lt (treesSize_filter_le _ _) ?_
      omega
    next => cases h
  next => cases h

end Size

/-- The entries that are no directories below the directories still to be visited, the first of
which comes next. -/
def walk (s : Scope) (fs : FileSystem) : (pending : List (Path × FileTree)) → List Candidate
  | [] => []
  | (directory, t) :: pending =>
    match _hvisit : visit? fs directory t with
    | none => walk s fs pending
    | some v =>
      candidatesOf directory v ++ walk s fs (entered directory (kept s fs directory v) ++ pending)
termination_by pending => treesSize pending
decreasing_by
  · have hpositive : 0 < sizeOf t := by
      cases t <;> simp only [FileTree.file.sizeOf_spec, FileTree.link.sizeOf_spec,
        FileTree.directory.sizeOf_spec] <;> omega
    rw [treesSize]
    omega
  · have hless := treesSize_entered_lt (s := s) _hvisit
    rw [treesSize_append, treesSize]
    omega

/-- The candidates that a path stands for. -/
def candidates (s : Scope) (fs : FileSystem) (p : Path) : List Candidate :=
  match fs.isFile p with
  | .error e => [{ path := p, named := true, problem := some e }]
  | .ok true => [{ path := p, named := true }]
  | .ok false => walk s fs ((fs.locate? p).toList.map fun t ↦ (p, t))

end Discovery

/-- The files found, up to a path at which the file system gives no answer. -/
structure Discovery where
  files : List Path
  fault : Option FileSystem.Fault := none
  deriving DecidableEq, Repr

namespace Discovery

/-! ### Selecting -/

/-- Takes the candidates in order, but for those whose resolved path was `seen`. -/
def select (s : Scope) (fs : FileSystem) : (seen : List (List String)) → List Candidate → Discovery
  | _, [] => { files := [] }
  | seen, c :: rest =>
    match c.problem with
    | some e => { files := [], fault := some (.lookup e) }
    | none =>
      if !s.hasExtension c.path then select s fs seen rest
      else
        match fs.resolve c.path with
        | .error e => { files := [], fault := some (.linkLoop e) }
        | .ok resolved =>
          if (!c.named && s.ignored (s.relativeText c.path resolved)) || seen.contains resolved then
            select s fs seen rest
          else
            let more := select s fs (resolved :: seen) rest
            { more with files := c.path :: more.files }

def run (s : Scope) (fs : FileSystem) (paths : List Path) : Discovery :=
  select s fs [] (paths.flatMap (candidates s fs))

end Discovery

/-- The files with one of some extensions that paths lead to, less those that a test ignores. -/
def FileSystem.discover (fs : FileSystem) (root : Path) (extensions : List String)
    (ignore : Option (String → Bool)) (paths : List Path) : Discovery :=
  match fs.resolve root with
  | .error e => { files := [], fault := some (.linkLoop e) }
  | .ok root => Discovery.run ⟨root, extensions, fun p ↦ ignore.any (· p)⟩ fs paths

end BracketSpacing
