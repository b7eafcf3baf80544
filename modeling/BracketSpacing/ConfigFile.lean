import BracketSpacing.Failure
import BracketSpacing.Readers

/-!
The configuration file: found under the project's root or named outright, a YAML mapping whose rule
ids must be registered. Without a file everything is at its default.
-/

set_option autoImplicit false
set_option relaxedAutoImplicit false

namespace BracketSpacing.ConfigFile

/-- The names of the file, in the order in which they are looked for. -/
def fileNames : List String := ["spacelint.yaml", ".spacelint.yaml"]

/-- The first of some names under a root that leads to a file, resolved. -/
def findAmong (fs : FileSystem) (root : Path) :
    List String → Except FileSystem.Fault (Option Path)
  | [] => .ok none
  | name :: rest =>
    match fs.resolve (root.child name) with
    | .error e => .error (.linkLoop e)
    | .ok names =>
      let path : Path := ⟨.single, names⟩
      match fs.isFile path with
      | .error e => .error (.lookup e)
      | .ok true => .ok (some path)
      | .ok false => findAmong fs root rest

def find (fs : FileSystem) (root : Path) : Except FileSystem.Fault (Option Path) :=
  findAmong fs root fileNames

/-- The entries of the mapping that a text at a path holds, as a reader of YAML sees it; a value
that counts as absent has none. -/
def mapping (reader : List Char → Except Yaml.Error Value) (path : Path) (text : List Char) :
    Except Config.Error (List (Value × Value)) :=
  match reader text with
  | .error (.malformed detail) => .error (.invalidYaml path detail)
  | .error (.fault kind detail) => .error (.readerFault kind detail)
  | .ok v =>
    if !v.truthy then .ok []
    else
      match v with
      | .map entries => .ok entries
      | _ => .error (.notMapping path)

/-- Reads the configuration at a path and looks up its rules. -/
def read (c : Catalogue) (readers : Readers) (fs : FileSystem) (path : Path) :
    SessionM Failure Config := do
  Session.record (Log.debug s!"loading config from {path.render}")
  let text ← SessionM.liftExcept .read (fs.readText path)
  let entries ← SessionM.liftExcept .config (mapping readers.yaml path text)
  let config ← SessionM.liftExcept .config (Config.ofMapping entries)
  (Session.definitions c (config.rules.map (·.1))).adapt .registry
  return config

/-- The configuration at an explicit path, or in the file under the root. -/
def load (c : Catalogue) (readers : Readers) (fs : FileSystem) (root : Path)
    (explicit : Option Path) : SessionM Failure Config := do
  match explicit with
  | some path =>
    if ← SessionM.liftExcept (.fileSystem ∘ .lookup) (fs.isFile path) then read c readers fs path
    else throw (.config (.fileNotFound path))
  | none =>
    match ← SessionM.liftExcept .fileSystem (find fs root) with
    | some path => read c readers fs path
    | none =>
      Session.record (Log.debug s!"no config file under {root.render}, using defaults")
      return {}

end BracketSpacing.ConfigFile
