import BracketSpacing.Assoc
import BracketSpacing.Path
import BracketSpacing.Text.Quoted
import BracketSpacing.Text.Utf8

/-!
A file system as a tree of directories, files and symbolic links, some of which may not be read or
gone into, and the paths into it. `stat` finds what is at a path, following a limited number of
links. `resolve` follows links as far as they can be seen and keeps what is left of a path, failing
only on a link that leads back to itself. Asking whether something is there (`exists?`, `isFile`)
fails when the answer is kept back: by a directory that may not be gone into, or a name that is too
long to ask for.
-/

set_option autoImplicit false
set_option relaxedAutoImplicit false

namespace BracketSpacing

open Text

inductive FileTree where
  | file (bytes : List UInt8)
  | link (target : Path)
  | directory (entries : List (String × FileTree))
  deriving Inhabited

namespace FileTree

def isDirectory : FileTree → Bool
  | .directory _ => true
  | _ => false

/-- What stands at a list of names, links on the way not followed. -/
def at? : FileTree → List String → Option FileTree
  | t, [] => some t
  | .directory entries, name :: rest =>
    match entries.lookup name with
    | some t => at? t rest
    | none => none
  | _, _ :: _ => none

mutual

def linkCount : FileTree → Nat
  | .file _ => 0
  | .link _ => 1
  | .directory entries => linkCountAll entries

def linkCountAll : List (String × FileTree) → Nat
  | [] => 0
  | (_, t) :: rest => t.linkCount + linkCountAll rest

end

/-- Puts a tree at a list of names, making directories on the way. -/
def insert (new : FileTree) : List String → FileTree → FileTree
  | [], _ => new
  | name :: rest, .directory entries =>
    let old := (entries.lookup name).getD (.directory [])
    .directory (Assoc.put name (insert new rest old) entries)
  | name :: rest, _ => .directory [(name, insert new rest (.directory []))]

/-- Makes a directory unless there is one. -/
def ensureDirectory (names : List String) (t : FileTree) : FileTree :=
  match t.at? names with
  | some (.directory _) => t
  | _ => insert (.directory []) names t

/-- Takes away what stands at a list of names. -/
def erase : List String → FileTree → FileTree
  | [], t => t
  | [name], .directory entries => .directory (Assoc.remove name entries)
  | name :: rest, .directory entries =>
    match entries.lookup name with
    | some t => .directory (Assoc.put name (erase rest t) entries)
    | none => .directory entries
  | _ :: _, t => t

end FileTree

/-- A file system and the directory that relative paths start from. What may not be read or gone
into is given by the places where it stands, links on the way to it followed. The directories above
the one that paths start from can be gone into. -/
structure FileSystem where
  root : FileTree
  cwd : List String
  /-- The files that cannot be opened and the directories whose entries cannot be listed. -/
  unreadable : List (List String) := []
  /-- The directories that cannot be gone into. -/
  closed : List (List String) := []

namespace FileSystem

/-- The names a path goes through from the root. -/
def names (fs : FileSystem) (p : Path) : List String :=
  if p.isAbsolute then p.parts else fs.cwd ++ p.parts

/-- The place from which the target of a link found in `directory` is followed. -/
def targetStart (directory : List String) (target : Path) : List String :=
  if target.isAbsolute then [] else directory

/-! ### Finding -/

/-- The number of links that are followed before a path counts as endless. -/
def linkLimit : Nat := 40

/-- The bytes that a name may have. -/
def nameLimit : Nat := 255

/-- The bytes that a path may have. -/
def pathLimit : Nat := 4095

/-- Why a path leads to nothing. -/
inductive LookupError where
  | missing
  /-- Something that is no directory is gone into. -/
  | notDirectory
  | tooManyLinks
  /-- A directory may not be gone into, or what is there may not be read. -/
  | denied
  | nameTooLong
  deriving DecidableEq, Repr

/-- Whether there is nothing at the path; the other errors leave it open. -/
def LookupError.isAbsence : LookupError → Bool
  | .missing | .notDirectory | .tooManyLinks => true
  | .denied | .nameTooLong => false

/-- What a path leads to, and where that stands. -/
structure Found where
  place : List String
  tree : FileTree

/-- What keeps a name from being looked up in the directory at a place. -/
def obstacle? (fs : FileSystem) (directory : List String) (name : String) : Option LookupError :=
  if fs.closed.contains directory then some .denied
  else if nameLimit < name.utf8ByteSize then some .nameTooLong
  else none

/-- Follows names that must all be there, those before the last being directories. `enter` goes on
through the target of a link, given the directory of the link and the names after it. -/
def locateNames (fs : FileSystem)
    (enter : List String → Path → List String → Except LookupError Found) :
    (done rest : List String) → Except LookupError Found
  | done, [] =>
    match fs.root.at? done with
    | some t => .ok ⟨done, t⟩
    | none => .error .missing
  | done, name :: rest =>
    match fs.root.at? done with
    | none => .error .missing
    | some (.directory _) =>
      match fs.obstacle? done name with
      | some e => .error e
      | none =>
        if name = ".." then locateNames fs enter done.dropLast rest
        else
          match fs.root.at? (done ++ [name]) with
          | none => .error .missing
          | some (.link target) => enter done target rest
          | some _ => locateNames fs enter (done ++ [name]) rest
    | some _ => .error .notDirectory

/-- Follows names and at most `links` links. -/
def locateFrom (fs : FileSystem) :
    (links : Nat) → (done rest : List String) → Except LookupError Found
  | 0 => locateNames fs fun _ _ _ ↦ .error .tooManyLinks
  | links + 1 => locateNames fs fun directory target rest ↦
    locateFrom fs links (targetStart directory target) (target.parts ++ rest)

/-- The file or directory that a path leads to. -/
def stat (fs : FileSystem) (p : Path) : Except LookupError Found :=
  if pathLimit < p.render.utf8ByteSize then .error .nameTooLong
  else locateFrom fs linkLimit [] (fs.names p)

def locate? (fs : FileSystem) (p : Path) : Option FileTree := (fs.stat p).toOption.map (·.tree)

def isDirectory (fs : FileSystem) (p : Path) : Bool :=
  match fs.locate? p with
  | some (.directory _) => true
  | _ => false

/-- A path that cannot be looked up. -/
structure PathError where
  path : Path
  cause : LookupError
  deriving DecidableEq, Repr

def LookupError.message : LookupError → String
  | .missing => "[Errno 2] No such file or directory"
  | .notDirectory => "[Errno 20] Not a directory"
  | .tooManyLinks => "[Errno 40] Too many levels of symbolic links"
  | .denied => "[Errno 13] Permission denied"
  | .nameTooLong => "[Errno 36] File name too long"

def PathError.message (e : PathError) : String :=
  s!"{e.cause.message}: {Quoted.quote e.path.render}"

/-- Whether what a path leads to has a property; what is not there has none. -/
def asks (fs : FileSystem) (p : Path) (property : FileTree → Bool) : Except PathError Bool :=
  match fs.stat p with
  | .ok found => .ok (property found.tree)
  | .error e => if e.isAbsence then .ok false else .error ⟨p, e⟩

def exists? (fs : FileSystem) (p : Path) : Except PathError Bool := fs.asks p fun _ ↦ true

def isFile (fs : FileSystem) (p : Path) : Except PathError Bool :=
  fs.asks p fun
    | .file _ => true
    | _ => false

/-- Whether the entries of the directory at a path can be listed. -/
def canList (fs : FileSystem) (p : Path) : Bool :=
  match fs.stat p with
  | .ok ⟨place, .directory _⟩ => !fs.unreadable.contains place
  | _ => false

/-! ### Resolving -/

/-- A link whose target leads back to it, with the names behind it. -/
structure LinkLoop where
  names : List String
  deriving DecidableEq, Repr

def LinkLoop.message (e : LinkLoop) : String :=
  s!"Symlink loop from {Quoted.quote (Path.render ⟨.single, e.names⟩)}"

/-- Whether names can be looked up one below the other, starting in the directory at `done`. -/
def canReach (fs : FileSystem) : (done rest : List String) → Bool
  | _, [] => true
  | done, name :: rest => (fs.obstacle? done name).isNone && canReach fs (done ++ [name]) rest

/-- The target of the link at a place, if it can be seen that a link is there. -/
def linkAt? (fs : FileSystem) (place : List String) : Option Path :=
  match fs.root.at? place with
  | some (.link target) => if fs.canReach [] place then some target else none
  | _ => none

/-- Follows names from `done`, a place without links; those that are not there stay as they are.
`enter` follows a link, given its directory and place, to a place or else to the names at which a
link came back to itself. -/
def resolveNames (fs : FileSystem)
    (enter : List String → List String → Path → Except (List String) (List String)) :
    (done rest : List String) → Except (List String) (List String)
  | done, [] => .ok done
  | done, name :: rest =>
    if name = ".." then resolveNames fs enter done.dropLast rest
    else
      match fs.linkAt? (done ++ [name]) with
      | some target =>
        match enter done (done ++ [name]) target with
        | .ok place => resolveNames fs enter place rest
        | .error names => .error (names ++ rest)
      | none => resolveNames fs enter (done ++ [name]) rest

/-- Follows names and links; `opened` are the links whose targets are being followed, at most
`depth` more of them inside each other. -/
def resolveFrom (fs : FileSystem) : (depth : Nat) → (opened : List (List String)) →
    (done rest : List String) → Except (List String) (List String)
  | 0, _ => resolveNames fs fun _ place _ ↦ .error place
  | depth + 1, opened => resolveNames fs fun directory place target ↦
    if opened.contains place then .error place
    else resolveFrom fs depth (place :: opened) (targetStart directory target) target.parts

/-- The names with every `..` taken back, whatever is there. -/
def collapse (names : List String) : List String :=
  names.foldl (fun done name ↦ if name = ".." then done.dropLast else done ++ [name]) []

/-- The names of a path with every link followed, a link being opened once at a time. Where a link
comes back to itself the names stay, unless following them finds no end. -/
def resolve (fs : FileSystem) (p : Path) : Except LinkLoop (List String) :=
  match resolveFrom fs fs.root.linkCount [] [] (fs.names p) with
  | .ok names => .ok names
  | .error names =>
    match fs.stat ⟨.single, collapse names⟩ with
    | .error .tooManyLinks => .error ⟨collapse names⟩
    | _ => .ok (collapse names)

/-- Why a file system gives no answer. -/
inductive Fault where
  | linkLoop (e : LinkLoop)
  | lookup (e : PathError)
  deriving DecidableEq, Repr

def Fault.message : Fault → String
  | .linkLoop e => e.message
  | .lookup e => e.message

/-! ### Reading -/

inductive ReadError where
  | lookup (e : PathError)
  | isDirectory (path : Path)
  | decode (e : Utf8.DecodeError)
  deriving DecidableEq, Repr

def ReadError.message : ReadError → String
  | .lookup e => e.message
  | .isDirectory path => s!"[Errno 21] Is a directory: {Quoted.quote path.render}"
  | .decode e => e.message

/-- Every kind of line end becomes a newline. -/
def unifyLineEnds : List Char → List Char
  | [] => []
  | '\r' :: '\n' :: rest => '\n' :: unifyLineEnds rest
  | c :: rest => (if c = '\r' then '\n' else c) :: unifyLineEnds rest

/-- The content of the file that a path leads to. -/
def readBytes (fs : FileSystem) (p : Path) : Except ReadError (List UInt8) :=
  match fs.stat p with
  | .error cause => .error (.lookup ⟨p, cause⟩)
  | .ok found =>
    if fs.unreadable.contains found.place then .error (.lookup ⟨p, .denied⟩)
    else
      match found.tree with
      | .file bytes => .ok bytes
      | _ => .error (.isDirectory p)

def readText (fs : FileSystem) (p : Path) : Except ReadError (List Char) :=
  match fs.readBytes p with
  | .error e => .error e
  | .ok bytes =>
    match Utf8.decode bytes with
    | .ok text => .ok (unifyLineEnds text)
    | .error e => .error (.decode e)

end FileSystem

end BracketSpacing
