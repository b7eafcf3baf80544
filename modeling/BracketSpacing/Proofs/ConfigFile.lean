import BracketSpacing.ConfigFile
import BracketSpacing.Proofs.Config.Objection
import BracketSpacing.Proofs.Session

/-!
How loading a configuration ends. `Loads`, `Refused` and `Faults` say, from the files and what the
reader of YAML makes of them, when a configuration is there, what the user is told when it is not,
and when loading breaks off for a cause that the user is not told: a path that cannot be looked up,
a link that leads back to itself, a file that may not be read or holds no text, a fault of the
reader, unknown keys that cannot be put in order, or a number that is too long to be written. One of
the three always holds (`loads_or_refused_or_faults`), and loading does what it says
(`Loads.yields`, `Refused.yields`, `Faults.yields`).
-/

set_option autoImplicit false
set_option relaxedAutoImplicit false

namespace BracketSpacing.ConfigFile

/-! ### Where a configuration stands -/

/-- The file that is read: the one that is named, or else the one that is found. -/
inductive ReadFrom (fs : FileSystem) (root : Path) : Option Path → Path → Prop
  | named {path : Path} (isFile : fs.isFile path = .ok true) : ReadFrom fs root (some path) path
  | found {path : Path} (found : find fs root = .ok (some path)) : ReadFrom fs root none path

section

variable (readers : Readers) (fs : FileSystem) (root : Path)

/-- The value that a file holds. -/
structure HoldsValue (path : Path) (v : Value) : Prop where
  content : ∃ text, fs.readText path = .ok text ∧ readers.yaml text = .ok v

/-- The entries in a file: those of its mapping, and none if its value counts as absent. -/
inductive Holds (path : Path) : List (Value × Value) → Prop
  | absent {v : Value} (value : HoldsValue readers fs path v) (absent : v.truthy = false) :
    Holds path []
  | mapping {entries : List (Value × Value)} (value : HoldsValue readers fs path (.map entries)) :
    Holds path entries

/-- The configuration that is loaded. -/
inductive Loads : Option Path → Config → Prop
  | default (missing : find fs root = .ok none) : Loads none {}
  | file {explicit : Option Path} {path : Path} {entries : List (Value × Value)} {config : Config}
      (source : ReadFrom fs root explicit path) (holds : Holds readers fs path entries)
      (accepted : Config.ofMapping entries = .ok config)
      (registered : ∀ id ∈ config.rules.map (·.1), id ∈ Registry.builtin.ids) :
      Loads explicit config

/-- What the user is told instead of a configuration. -/
inductive Refused : Option Path → String → Prop
  | notFile {path : Path} (notFile : fs.isFile path = .ok false) :
      Refused (some path) s!"Config file not found: {path.render}"
  | invalidYaml {explicit : Option Path} {path : Path} {text : List Char} {detail : String}
      (source : ReadFrom fs root explicit path) (content : fs.readText path = .ok text)
      (malformed : readers.yaml text = .error (.malformed detail)) :
      Refused explicit s!"Invalid YAML in {path.render}: {detail}"
  | notMapping {explicit : Option Path} {path : Path} {v : Value}
      (source : ReadFrom fs root explicit path) (value : HoldsValue readers fs path v)
      (present : v.truthy = true) (other : ∀ entries, v ≠ .map entries) :
      Refused explicit s!"YAML must be a mapping: {path.render}"
  | malformed {explicit : Option Path} {path : Path} {entries : List (Value × Value)}
      {text : String} (source : ReadFrom fs root explicit path)
      (holds : Holds readers fs path entries) (told : Config.Told entries text) :
      Refused explicit text
  | unknownRule {explicit : Option Path} {path : Path} {entries : List (Value × Value)}
      {config : Config} {known rest : List String} {id : String}
      (source : ReadFrom fs root explicit path) (holds : Holds readers fs path entries)
      (accepted : Config.ofMapping entries = .ok config)
      (ids : config.rules.map (·.1) = known ++ id :: rest)
      (registered : ∀ k ∈ known, k ∈ Registry.builtin.ids) (unknown : id ∉ Registry.builtin.ids) :
      Refused explicit s!"Unknown rule: {id}"

/-- The causes for which loading breaks off without telling the user. -/
inductive Faults : Option Path → Failure → Prop
  | named {path : Path} {e : FileSystem.PathError} (fails : fs.isFile path = .error e) :
      Faults (some path) (.fileSystem (.lookup e))
  | found {e : FileSystem.Fault} (fails : find fs root = .error e) : Faults none (.fileSystem e)
  | unreadable {explicit : Option Path} {path : Path} {e : FileSystem.ReadError}
      (source : ReadFrom fs root explicit path) (fails : fs.readText path = .error e) :
      Faults explicit (.read e)
  | reader {explicit : Option Path} {path : Path} {text : List Char} {kind detail : String}
      (source : ReadFrom fs root explicit path) (content : fs.readText path = .ok text)
      (fails : readers.yaml text = .error (.fault kind detail)) :
      Faults explicit (.config (.readerFault kind detail))
  | mapping {explicit : Option Path} {path : Path} {entries : List (Value × Value)}
      {e : Config.Error} (source : ReadFrom fs root explicit path)
      (holds : Holds readers fs path entries) (breaks : Config.Breaks entries e) :
      Faults explicit (.config e)

end

variable {readers : Readers} {fs : FileSystem} {root : Path} {explicit : Option Path}

/-- No cause of a fault is told to the user. -/
theorem Faults.isUserError {e : Failure} (h : Faults readers fs root explicit e) :
    e.isUserError = false := by
  cases h with
  | named | found | unreadable | reader => rfl
  | mapping _ _ breaks => exact (Config.ofMapping_of_breaks breaks).2

/-! ### One of the three holds -/

/-- A file that is read holds entries, or else is refused or breaks loading off. -/
theorem ReadFrom.holds_or {path : Path} (h : ReadFrom fs root explicit path) :
    (∃ entries, Holds readers fs path entries) ∨
      (∃ text, Refused readers fs root explicit text) ∨
      ∃ e, Faults readers fs root explicit e := by
  cases hread : fs.readText path with
  | error e => exact Or.inr (Or.inr ⟨_, .unreadable h hread⟩)
  | ok text =>
    cases hyaml : readers.yaml text with
    | error e =>
      cases e with
      | malformed detail => exact Or.inr (Or.inl ⟨_, .invalidYaml h hread hyaml⟩)
      | fault kind detail => exact Or.inr (Or.inr ⟨_, .reader h hread hyaml⟩)
    | ok v =>
      have hvalue : HoldsValue readers fs path v := ⟨text, hread, hyaml⟩
      by_cases hmap : ∃ entries, v = .map entries
      · obtain ⟨entries, rfl⟩ := hmap
        exact Or.inl ⟨entries, .mapping hvalue⟩
      · cases hpresent : v.truthy with
        | false => exact Or.inl ⟨[], .absent hvalue hpresent⟩
        | true => exact Or.inr (Or.inl ⟨_, .notMapping h hvalue hpresent (not_exists.mp hmap)⟩)

theorem loads_or_refused_or_faults_of_readFrom {path : Path}
    (h : ReadFrom fs root explicit path) :
    (∃ config, Loads readers fs root explicit config) ∨
      (∃ text, Refused readers fs root explicit text) ∨
      ∃ e, Faults readers fs root explicit e := by
  rcases h.holds_or with ⟨entries, hentries⟩ | hother
  · rcases Config.ofMapping_cases entries with ⟨config, hmapping⟩ | ⟨text, htold⟩ | ⟨e, hbreaks⟩
    · rcases forall_mem_or_first (· ∈ Registry.builtin.ids) (config.rules.map (·.1)) with
        hall | ⟨known, id, rest, hids, hknown, hid⟩
      · exact Or.inl ⟨config, .file h hentries hmapping hall⟩
      · exact Or.inr (Or.inl ⟨_, .unknownRule h hentries hmapping hids hknown hid⟩)
    · exact Or.inr (Or.inl ⟨text, .malformed h hentries htold⟩)
    · exact Or.inr (Or.inr ⟨_, .mapping h hentries hbreaks⟩)
  · exact Or.inr hother

/-- A configuration is loaded, refused or breaks loading off. -/
theorem loads_or_refused_or_faults (readers : Readers) (fs : FileSystem) (root : Path)
    (explicit : Option Path) :
    (∃ config, Loads readers fs root explicit config) ∨
      (∃ text, Refused readers fs root explicit text) ∨
      ∃ e, Faults readers fs root explicit e := by
  cases explicit with
  | some path =>
    cases hfile : fs.isFile path with
    | error e => exact Or.inr (Or.inr ⟨_, .named hfile⟩)
    | ok isFile =>
      cases isFile with
      | false => exact Or.inr (Or.inl ⟨_, .notFile hfile⟩)
      | true => exact loads_or_refused_or_faults_of_readFrom (.named hfile)
  | none =>
    cases hfind : find fs root with
    | error e => exact Or.inr (Or.inr ⟨_, .found hfind⟩)
    | ok found =>
      cases found with
      | none => exact Or.inl ⟨_, .default hfind⟩
      | some path => exact loads_or_refused_or_faults_of_readFrom (.found hfind)

/-! ### Loading does what they say -/

open SessionM

/-- A file that is named is read if it is there. -/
theorem load_of_named {c : Catalogue} {path : Path} {isFile : Bool}
    (h : fs.isFile path = .ok isFile) :
    load c readers fs root (some path) =
      if isFile then read c readers fs path else throw (.config (.fileNotFound path)) := by
  unfold load
  dsimp only
  rw [h]
  rfl

theorem load_of_found {c : Catalogue} {path : Path} (h : find fs root = .ok (some path)) :
    load c readers fs root none = read c readers fs path := by
  unfold load
  rw [h]
  rfl

/-- Without a file everything is at its default. -/
theorem load_of_missing {c : Catalogue} (h : find fs root = .ok none) :
    load c readers fs root none = (do
      Session.record (Log.debug s!"no config file under {root.render}, using defaults")
      return {}) := by
  unfold load
  rw [h]
  rfl

/-- Loading reads the file that is named or found. -/
theorem load_of_readFrom {c : Catalogue} {path : Path} (h : ReadFrom fs root explicit path) :
    load c readers fs root explicit = read c readers fs path := by
  cases h with
  | named isFile => exact load_of_named isFile
  | found found => exact load_of_found found

/-- Reading a file goes on with its text once the record of it is made. -/
theorem yields_read_of_text {path : Path} {text : List Char} {r : Except Failure Config}
    (htext : fs.readText path = .ok text)
    (h : SessionM.Yields (do
      let entries ← liftExcept .config (mapping readers.yaml path text)
      let config ← liftExcept .config (Config.ofMapping entries)
      (Session.definitions .builtin (config.rules.map (·.1))).adapt .registry
      return config) r) :
    (read .builtin readers fs path).Yields r := by
  unfold read
  rw [htext]
  exact (gives_record_debug _).bind ((gives_pure text).bind h)

/-- The entries that a file holds are its mapping. -/
theorem mapping_of_holds {path : Path} {entries : List (Value × Value)}
    (h : Holds readers fs path entries) :
    ∃ text, fs.readText path = .ok text ∧ mapping readers.yaml path text = .ok entries := by
  cases h with
  | absent value absent =>
    obtain ⟨text, hread, hyaml⟩ := value.content
    exact ⟨text, hread, by simp [mapping, hyaml, absent]⟩
  | mapping value =>
    obtain ⟨text, hread, hyaml⟩ := value.content
    refine ⟨text, hread, ?_⟩
    cases entries <;> simp [ConfigFile.mapping, hyaml, Value.truthy]

theorem mapping_of_other {reader : List Char → Except Yaml.Error Value} {path : Path}
    {text : List Char} {v : Value} (hread : reader text = .ok v) (hpresent : v.truthy = true)
    (hother : ∀ entries, v ≠ .map entries) :
    mapping reader path text = .error (.notMapping path) := by
  unfold mapping
  rw [hread]
  dsimp only
  rw [if_neg (by simp [hpresent])]
  split
  next entries => exact absurd rfl (hother entries)
  next => rfl

/-- Reading a file goes on with the entries that it holds. -/
theorem yields_read_of_holds {path : Path} {entries : List (Value × Value)}
    {r : Except Failure Config} (hholds : Holds readers fs path entries)
    (h : SessionM.Yields (do
      let config ← liftExcept .config (Config.ofMapping entries)
      (Session.definitions .builtin (config.rules.map (·.1))).adapt .registry
      return config) r) :
    (read .builtin readers fs path).Yields r := by
  obtain ⟨text, htext, hmapping⟩ := mapping_of_holds hholds
  refine yields_read_of_text htext ?_
  rw [hmapping]
  exact (gives_pure entries).bind h

/-- What loads is loaded. -/
theorem Loads.yields {config : Config} (h : Loads readers fs root explicit config) :
    (load .builtin readers fs root explicit).Yields (.ok config) := by
  cases h with
  | default missing =>
    rw [load_of_missing missing]
    exact (gives_record_debug _).bind (gives_pure _)
  | file source holds accepted registered =>
    rw [load_of_readFrom source]
    refine yields_read_of_holds holds ?_
    rw [accepted]
    have hids := Session.gives_definitions fun id hid ↦
      Registry.available_of_mem_ids (registered id hid)
    exact (gives_pure config).bind ((hids.adapt Failure.registry).bind (gives_pure config))

/-- What is refused fails with its text, one for the user. -/
theorem Refused.yields {text : String} (h : Refused readers fs root explicit text) :
    ∃ e : Failure, (load .builtin readers fs root explicit).Yields (.error e) ∧
      e.isUserError = true ∧ e.message = text := by
  cases h with
  | @notFile path notFile =>
    refine ⟨.config (.fileNotFound path), ?_, rfl, rfl⟩
    rw [load_of_named notFile]
    exact gives_throw _
  | @invalidYaml _ path _ detail source content malformed =>
    refine ⟨.config (.invalidYaml path detail), ?_, rfl, rfl⟩
    rw [load_of_readFrom source]
    refine yields_read_of_text content ?_
    rw [mapping, malformed]
    exact (gives_throw _).bind_error _
  | @notMapping _ path v source value present other =>
    refine ⟨.config (.notMapping path), ?_, rfl, rfl⟩
    obtain ⟨text, hread, hyaml⟩ := value.content
    rw [load_of_readFrom source]
    refine yields_read_of_text hread ?_
    rw [mapping_of_other hyaml present other]
    exact (gives_throw _).bind_error _
  | malformed source holds told =>
    obtain ⟨e, hrefused, huser, hmessage⟩ := Config.ofMapping_of_told told
    refine ⟨.config e, ?_, huser, hmessage⟩
    rw [load_of_readFrom source]
    refine yields_read_of_holds holds ?_
    rw [hrefused]
    exact (gives_throw _).bind_error _
  | @unknownRule _ _ _ config _ _ id source holds accepted ids registered unknown =>
    refine ⟨.registry (.unknown id), ?_, rfl, rfl⟩
    rw [load_of_readFrom source]
    refine yields_read_of_holds holds ?_
    rw [accepted]
    have hids := Session.gives_definitions_error ids
      (fun k hk ↦ Registry.available_of_mem_ids (registered k hk))
      (Registry.fromScratch_of_notMem_ids unknown)
    exact (gives_pure config).bind ((hids.adapt Failure.registry).bind_error _)

/-- What breaks loading off is its error. -/
theorem Faults.yields {e : Failure} (h : Faults readers fs root explicit e) :
    (load .builtin readers fs root explicit).Yields (.error e) := by
  cases h with
  | named fails =>
    unfold load
    dsimp only
    rw [fails]
    exact (gives_throw _).bind_error _
  | found fails =>
    unfold load
    rw [fails]
    exact (gives_throw _).bind_error _
  | unreadable source fails =>
    rw [load_of_readFrom source]
    unfold read
    rw [fails]
    exact (gives_record_debug _).bind ((gives_throw _).bind_error _)
  | reader source content fails =>
    rw [load_of_readFrom source]
    refine yields_read_of_text content ?_
    rw [ConfigFile.mapping, fails]
    exact (gives_throw _).bind_error _
  | mapping source holds breaks =>
    rw [load_of_readFrom source]
    refine yields_read_of_holds holds ?_
    rw [(Config.ofMapping_of_breaks breaks).1]
    exact (gives_throw _).bind_error _

end BracketSpacing.ConfigFile
