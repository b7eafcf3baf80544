import BracketSpacing.Readers.Builtin
import BracketSpacing.Run

/-!
The program. The files that a command line can reach are read into a file tree first; the run itself
is a function of that tree.
-/

set_option autoImplicit false
set_option relaxedAutoImplicit false

namespace BracketSpacing.Main

/-- The names of an absolute path. -/
def namesOf (path : String) : List String := (Path.ofString path).parts

/-- Whether a file's content can matter to a walk. -/
def isReadInWalk (name : String) : Bool :=
  ConfigFile.fileNames.contains name ||
    Language.supportedExtensions.contains (Language.lower (Path.suffixOf name))

/-- Reading files, with the places that could not be read. -/
abbrev Reading := StateT (List (List String)) IO

/-- A file or directory; what cannot be read is noted and taken as empty. -/
def orUnreadable (path : String) (empty : FileTree) (content : Reading FileTree) :
    Reading FileTree := do
  try content
  catch _ =>
    modify (namesOf path :: ·)
    return empty

def readFile (path : String) : Reading FileTree :=
  orUnreadable path (.file []) do
    return .file (← IO.FS.readBinFile path).toList

/-- A link by where it leads. The target of a dangling link gets a name that no file has. -/
def linkTo (path name : String) : IO FileTree := do
  let nowhere := FileTree.link ⟨.relative, [name ++ "\x00"]⟩
  try
    let target ← IO.FS.realPath path
    if ← target.pathExists then return .link ⟨.single, namesOf target.toString⟩ else return nowhere
  catch _ => return nowhere

/-- The directory at a path, but for the directories that a walk never goes into. -/
partial def readDirectory (path : String) : Reading FileTree :=
  orUnreadable path (.directory []) do
    let mut entries : List (String × FileTree) := []
    for entry in ← (← IO.FS.realPath path).readDir do
      let inside := entry.path.toString
      let name := entry.fileName
      match (← entry.path.symlinkMetadata).type with
      | .dir =>
        let tree ←
          if Scope.skippedDirectories.contains name then pure (FileTree.directory [])
          else readDirectory inside
        entries := (name, tree) :: entries
      | .symlink => entries := (name, ← linkTo inside name) :: entries
      | _ =>
        let tree ← if isReadInWalk name then readFile inside else pure (FileTree.file [])
        entries := (name, tree) :: entries
    return .directory entries

/-- Adds what a path leads to, and the way to it. -/
def addPath (fs : FileSystem) (path : String) : IO FileSystem := do
  try
    let target ← IO.FS.realPath path
    if !(← target.pathExists) then return fs
    let names := namesOf target.toString
    let reading : Reading FileTree :=
      do if ← target.isDir then readDirectory target.toString else readFile target.toString
    let (tree, unreadable) ← reading.run fs.unreadable
    let fs := { fs with root := FileTree.insert tree names fs.root, unreadable }
    let written := Path.ofString path
    if (fs.resolve written).toOption == some names then return fs
    else
      return { fs with root := FileTree.insert (.link ⟨.single, names⟩) (fs.names written) fs.root }
  catch _ => return fs

/-- The part of the file system that a command line can reach. -/
def fileSystemFor (args : List String) : IO FileSystem := do
  let here := (← IO.currentDir).toString
  let cwd := namesOf here
  let start : FileSystem := { root := FileTree.insert (.directory []) cwd (.directory []), cwd }
  match CommandLine.parse args with
  | .ok ⟨.check, settings⟩ =>
    let (tree, unreadable) ← (readDirectory here).run []
    let fs := { start with root := FileTree.insert tree cwd start.root, unreadable }
    (settings.config.toList ++ settings.paths).foldlM addPath fs
  | _ => return start

end BracketSpacing.Main

open BracketSpacing in
def main (args : List String) : IO UInt32 := do
  let fs ← Main.fileSystemFor args
  let r := run Catalogue.builtin Readers.builtin fs (← IO.getEnv "SPACELINT_DEBUG") args
  IO.print r.stdout
  IO.eprint r.stderr
  match r.ending with
  | .crashed cause => IO.eprintln cause.message
  | _ => pure ⟨⟩
  return UInt32.ofNat r.exitCode
