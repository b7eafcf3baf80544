import BracketSpacing.FileTree
import Mathlib.Data.List.Basic
import Mathlib.Data.List.Perm.Subperm

/-!
Where a path leads. `Leads` goes through names one after the other and through the target of each
link, and counts the links. Finding goes through no more links than a limit and resolving opens no
link inside itself; still a path at which something is found resolves to the place of it
(`exists_leadsTo_of_stat`, `LeadsTo.resolvesTo`), since a link inside its own target would need more
links than that target does. Resolving sees the links on the way because every directory that
finding went through can be gone into (`Leads.canReach`). What is found and no link resolves in a
directory to the place below it, whether it can be gone to or not (`ResolvesTo.child`).
-/

set_option autoImplicit false
set_option relaxedAutoImplicit false

namespace BracketSpacing

/-! ### Places in a tree -/

namespace FileTree

theorem sizeOf_entry_lt {entry : String × FileTree} {entries : List (String × FileTree)}
    (h : entry ∈ entries) : sizeOf entry.2 < sizeOf (directory entries) := by
  have hentry : sizeOf entry.2 < sizeOf entry := by
    obtain ⟨name, t⟩ := entry
    change sizeOf t < _
    rw [Prod.mk.sizeOf_spec]
    omega
  have hentries := List.sizeOf_lt_of_mem h
  rw [directory.sizeOf_spec]
  omega

/-- What passes from all entries to their directory holds of every tree. -/
@[elab_as_elim]
theorem inductionOnEntries {motive : FileTree → Prop} (file : ∀ bytes, motive (.file bytes))
    (link : ∀ target, motive (.link target))
    (directory : ∀ entries, (∀ entry ∈ entries, motive entry.2) → motive (.directory entries)) :
    ∀ t, motive t
  | .file bytes => file bytes
  | .link target => link target
  | .directory entries =>
    directory entries fun entry _ ↦ inductionOnEntries file link directory entry.2
termination_by t => sizeOf t
decreasing_by exact sizeOf_entry_lt (by assumption)

/-- A way down a tree may be gone in two parts. -/
theorem at?_append (t : FileTree) (above below : List String) :
    t.at? (above ++ below) = (t.at? above).bind (·.at? below) := by
  induction above generalizing t with
  | nil => simp [at?]
  | cons name rest ih =>
    cases t with
    | file | link => rfl
    | directory entries =>
      rw [List.cons_append, at?, at?]
      cases entries.lookup name with
      | none => rfl
      | some t => exact ih t

/-- What stands at some names stands in the entry that the first of them names. -/
theorem exists_of_at?_cons {t u : FileTree} {name : String} {rest : List String}
    (h : t.at? (name :: rest) = some u) :
    ∃ entries v, t = .directory entries ∧ (name, v) ∈ entries ∧ v.at? rest = some u := by
  cases t with
  | file | link => cases h
  | directory entries =>
    rw [at?] at h
    split at h
    next v hget => exact ⟨entries, v, rfl, Assoc.mem_of_lookup hget, h⟩
    next => cases h

mutual

/-- The places of the links of a tree. -/
def linkPlaces : FileTree → List (List String)
  | .file _ => []
  | .link _ => [[]]
  | .directory entries => linkPlacesAll entries

def linkPlacesAll : List (String × FileTree) → List (List String)
  | [] => []
  | (name, t) :: rest => t.linkPlaces.map (name :: ·) ++ linkPlacesAll rest

end

mutual

theorem length_linkPlaces : ∀ t : FileTree, t.linkPlaces.length = t.linkCount
  | .file _ => rfl
  | .link _ => rfl
  | .directory entries => length_linkPlacesAll entries

theorem length_linkPlacesAll : ∀ entries, (linkPlacesAll entries).length = linkCountAll entries
  | [] => rfl
  | (_, t) :: rest => by
    rw [linkPlacesAll, linkCountAll, List.length_append, List.length_map, length_linkPlaces t,
      length_linkPlacesAll rest]

end

theorem cons_mem_linkPlacesAll {entry : String × FileTree} {place : List String}
    {entries : List (String × FileTree)} (hentry : entry ∈ entries)
    (hplace : place ∈ entry.2.linkPlaces) : entry.1 :: place ∈ linkPlacesAll entries := by
  induction hentry with
  | head => exact List.mem_append_left _ (List.mem_map_of_mem hplace)
  | tail _ _ ih => exact List.mem_append_right _ ih

theorem mem_linkPlaces {t : FileTree} {place : List String} {target : Path}
    (h : t.at? place = some (.link target)) : place ∈ t.linkPlaces := by
  induction place generalizing t with
  | nil =>
    cases h
    exact List.mem_singleton.mpr rfl
  | cons name rest ih =>
    obtain ⟨entries, u, rfl, hmem, hu⟩ := exists_of_at?_cons h
    exact cons_mem_linkPlacesAll hmem (ih hu)

/-- There are no more links than the link count at different places. -/
theorem length_le_linkCount {t : FileTree} {places : List (List String)} (hnodup : places.Nodup)
    (hlinks : ∀ place ∈ places, ∃ target, t.at? place = some (.link target)) :
    places.length ≤ t.linkCount := by
  rw [← length_linkPlaces]
  refine (List.subperm_of_subset hnodup fun place hplace ↦ ?_).length_le
  obtain ⟨target, htarget⟩ := hlinks place hplace
  exact mem_linkPlaces htarget

end FileTree

namespace FileSystem

variable {fs : FileSystem}

/-! ### Directories that can be gone into -/

/-- A name more can be looked up if it can in the directory that was reached. -/
theorem canReach_append (done names : List String) (name : String) :
    fs.canReach done (names ++ [name]) =
      (fs.canReach done names && (fs.obstacle? (done ++ names) name).isNone) := by
  induction names generalizing done with
  | nil => simp [canReach]
  | cons first rest ih => simp [canReach, ih, Bool.and_assoc]

/-- A place below one that can be reached can be reached, if nothing is in the way. -/
theorem canReach_concat {place : List String} {name : String} (h : fs.canReach [] place = true)
    (hname : fs.obstacle? place name = none) : fs.canReach [] (place ++ [name]) = true := by
  rw [canReach_append, h, List.nil_append, hname]
  rfl

/-- The directory of a place that can be reached can be reached. -/
theorem canReach_dropLast {place : List String} (h : fs.canReach [] place = true) :
    fs.canReach [] place.dropLast = true := by
  rcases List.eq_nil_or_concat place with rfl | ⟨names, name, rfl⟩
  · rfl
  · rw [List.concat_eq_append, canReach_append, Bool.and_eq_true] at h
    rw [List.concat_eq_append, List.dropLast_concat]
    exact h.1

/-- Where a link's target starts from can be reached if the link's directory can. -/
theorem canReach_targetStart {place : List String} (h : fs.canReach [] place = true)
    (target : Path) : fs.canReach [] (targetStart place target) = true := by
  unfold targetStart
  split_ifs
  · rfl
  · exact h

/-! ### Ways -/

/-- From `done` the names of `rest` lead to `place`, through a number of links. -/
inductive Leads (fs : FileSystem) : Nat → (done rest place : List String) → Prop
  | here (done : List String) : Leads fs 0 done [] done
  | up {links : Nat} {done rest place : List String} :
    Leads fs links done.dropLast rest place → Leads fs links done (".." :: rest) place
  | into {links : Nat} {done rest place : List String} {name : String} {t : FileTree} :
    name ≠ ".." → fs.obstacle? done name = none → fs.root.at? (done ++ [name]) = some t →
    (∀ target, t ≠ .link target) → Leads fs links (done ++ [name]) rest place →
    Leads fs links done (name :: rest) place
  | through {inside after : Nat} {done rest middle place : List String} {name : String}
      {target : Path} :
    name ≠ ".." → fs.obstacle? done name = none →
    fs.root.at? (done ++ [name]) = some (.link target) →
    Leads fs inside (targetStart done target) target.parts middle →
    Leads fs after middle rest place →
    Leads fs (inside + after + 1) done (name :: rest) place

namespace Leads

variable {links links' : Nat} {done rest place place' : List String}

/-- Names lead to one place, through one number of links. -/
theorem unique (h : Leads fs links done rest place) (h' : Leads fs links' done rest place') :
    links = links' ∧ place = place' := by
  induction h generalizing links' place' with
  | here done =>
    cases h'
    exact ⟨rfl, rfl⟩
  | up _ ih =>
    cases h' with
    | up hrest => exact ih hrest
    | into hname => exact absurd rfl hname
    | through hname => exact absurd rfl hname
  | into hname _ ht hlink _ ih =>
    cases h' with
    | up => exact absurd rfl hname
    | into _ _ _ _ hrest => exact ih hrest
    | through _ _ ht' => exact absurd (Option.some.inj (ht.symm.trans ht')) (hlink _)
  | through hname _ ht _ _ ihinside ihafter =>
    cases h' with
    | up => exact absurd rfl hname
    | into _ _ ht' hlink => exact absurd (Option.some.inj (ht'.symm.trans ht)) (hlink _)
    | through _ _ ht' hinside hafter =>
      cases ht.symm.trans ht'
      obtain ⟨rfl, rfl⟩ := ihinside hinside
      obtain ⟨rfl, rfl⟩ := ihafter hafter
      exact ⟨rfl, rfl⟩

/-- A way through two lists of names stops between them. -/
theorem split {first second : List String} (h : Leads fs links done (first ++ second) place) :
    ∃ before after middle, Leads fs before done first middle ∧
      Leads fs after middle second place := by
  induction first generalizing links done with
  | nil => exact ⟨0, links, done, here done, h⟩
  | cons name rest ih =>
    cases h with
    | up hrest =>
      obtain ⟨before, after, middle, hbefore, hafter⟩ := ih hrest
      exact ⟨before, after, middle, up hbefore, hafter⟩
    | into hname hopen ht hlink hrest =>
      obtain ⟨before, after, middle, hbefore, hafter⟩ := ih hrest
      exact ⟨before, after, middle, into hname hopen ht hlink hbefore, hafter⟩
    | through hname hopen ht hinside hrest =>
      obtain ⟨before, after, middle, hbefore, hafter⟩ := ih hrest
      exact ⟨_, after, middle, through hname hopen ht hinside hbefore, hafter⟩

/-- Every directory on a way can be gone into. -/
theorem canReach (h : Leads fs links done rest place) (hdone : fs.canReach [] done = true) :
    fs.canReach [] place = true := by
  induction h with
  | here => exact hdone
  | up _ ih => exact ih (canReach_dropLast hdone)
  | into _ hopen _ _ _ ih => exact ih (canReach_concat hdone hopen)
  | through _ _ _ _ _ ihinside ihafter => exact ihafter (ihinside (canReach_targetStart hdone _))

end Leads

/-! ### Finding -/

section Locate

/-- What is found from names is where they lead, if this is so of the links on the way. -/
theorem exists_leads_of_locateNames
    {enter : List String → Path → List String → Except LookupError Found}
    (henter : ∀ directory target rest found, enter directory target rest = .ok found →
      ∃ links, Leads fs links (targetStart directory target) (target.parts ++ rest) found.place ∧
        fs.root.at? found.place = some found.tree)
    {done rest : List String} {found : Found} (h : locateNames fs enter done rest = .ok found) :
    ∃ links, Leads fs links done rest found.place ∧
      fs.root.at? found.place = some found.tree := by
  induction rest generalizing done with
  | nil =>
    rw [locateNames] at h
    split at h
    next u hu =>
      cases h
      exact ⟨0, .here done, hu⟩
    next => cases h
  | cons name rest ih =>
    rw [locateNames] at h
    split at h
    next => cases h
    next =>
      split at h
      next => cases h
      next hopen =>
        split_ifs at h with hname
        · subst hname
          obtain ⟨links, hway, hplace⟩ := ih h
          exact ⟨links, .up hway, hplace⟩
        · split at h
          next => cases h
          next target htarget =>
            obtain ⟨links, hway, hplace⟩ := henter _ _ _ _ h
            obtain ⟨inside, after, middle, hinside, hafter⟩ := hway.split
            exact ⟨_, .through hname hopen htarget hinside hafter, hplace⟩
          next u hlink hu =>
            obtain ⟨links, hway, hplace⟩ := ih h
            exact ⟨links, .into hname hopen hu hlink hway, hplace⟩
    next => cases h

/-- What is found within a limit of links is where the names lead. -/
theorem exists_leads_of_locateFrom {limit : Nat} {done rest : List String} {found : Found}
    (h : locateFrom fs limit done rest = .ok found) :
    ∃ links, Leads fs links done rest found.place ∧
      fs.root.at? found.place = some found.tree := by
  induction limit generalizing done rest found with
  | zero =>
    refine exists_leads_of_locateNames ?_ h
    rintro _ _ _ _ ⟨⟩
  | succ limit ih => exact exists_leads_of_locateNames (fun _ _ _ _ hway ↦ ih hway) h

end Locate

/-! ### Resolving -/

section Resolve

/-- A link that can be reached is seen. -/
theorem linkAt?_eq_some {place : List String} {target : Path} (hplace : fs.canReach [] place = true)
    (h : fs.root.at? place = some (.link target)) : fs.linkAt? place = some target := by
  simp [linkAt?, h, hplace]

theorem linkAt?_eq_none {place : List String}
    (h : ∀ target, fs.root.at? place ≠ some (.link target)) : fs.linkAt? place = none := by
  unfold linkAt?
  split
  next target htarget => exact absurd htarget (h target)
  next => rfl

/-- Names after names that resolve are followed from where those lead. -/
theorem resolveNames_append
    {enter : List String → List String → Path → Except (List String) (List String)}
    {done first place : List String} (h : resolveNames fs enter done first = .ok place)
    (second : List String) :
    resolveNames fs enter done (first ++ second) = resolveNames fs enter place second := by
  induction first generalizing done with
  | nil =>
    cases h
    rfl
  | cons name rest ih =>
    rw [List.cons_append, resolveNames]
    rw [resolveNames] at h
    split_ifs at h ⊢
    · exact ih h
    · cases hlink : fs.linkAt? (done ++ [name]) with
      | none =>
        rw [hlink] at h
        exact ih h
      | some target =>
        rw [hlink] at h
        dsimp only at h ⊢
        cases hmiddle : enter done (done ++ [name]) target with
        | error names =>
          rw [hmiddle] at h
          cases h
        | ok middle =>
          rw [hmiddle] at h
          exact ih h

/-- How a link is followed while others are open. -/
def follow (fs : FileSystem) : (depth : Nat) → (opened : List (List String)) →
    List String → List String → Path → Except (List String) (List String)
  | 0, _ => fun _ place _ ↦ .error place
  | depth + 1, opened => fun directory place target ↦
    if opened.contains place then .error place
    else resolveFrom fs depth (place :: opened) (targetStart directory target) target.parts

theorem resolveFrom_eq (depth : Nat) (opened : List (List String)) :
    resolveFrom fs depth opened = resolveNames fs (follow fs depth opened) := by
  cases depth <;> rfl

/-- The link at a place leads on through a number of links of its own. -/
def LinkLeads (fs : FileSystem) (links : Nat) (place : List String) : Prop :=
  ∃ directory name target middle, place = directory ++ [name] ∧
    fs.root.at? place = some (.link target) ∧
    Leads fs links (targetStart directory target) target.parts middle

/-- The links behind a link have one number. -/
theorem LinkLeads.unique {links links' : Nat} {place : List String}
    (h : LinkLeads fs links place) (h' : LinkLeads fs links' place) : links = links' := by
  obtain ⟨directory, name, target, middle, rfl, htarget, hway⟩ := h
  obtain ⟨directory', name', target', middle', heq, htarget', hway'⟩ := h'
  obtain ⟨rfl, -⟩ := List.append_inj' heq rfl
  cases htarget.symm.trans htarget'
  exact (hway.unique hway').1

/-- Links that are open while a way through some links is followed: each is open once and leads on
through at least those links. -/
structure Opened (fs : FileSystem) (links : Nat) (opened : List (List String)) : Prop where
  nodup : opened.Nodup
  leads : ∀ place ∈ opened, ∃ own, links ≤ own ∧ LinkLeads fs own place

namespace Opened

variable {links : Nat} {opened : List (List String)}

/-- Links that are open on a way through some links are so on a way through fewer. -/
theorem mono {fewer : Nat} (h : Opened fs links opened) (hle : fewer ≤ links) :
    Opened fs fewer opened where
  nodup := h.nodup
  leads place hplace := by
    obtain ⟨own, hown, hleads⟩ := h.leads place hplace
    exact ⟨own, Nat.le_trans hle hown, hleads⟩

/-- No more links are open than there are. -/
theorem length_le_linkCount (h : Opened fs links opened) :
    opened.length ≤ fs.root.linkCount := by
  refine FileTree.length_le_linkCount h.nodup fun place hplace ↦ ?_
  obtain ⟨_, -, _, _, target, _, -, htarget, -⟩ := h.leads place hplace
  exact ⟨target, htarget⟩

/-- A link that leads on through fewer links is not open yet. -/
theorem not_mem {own : Nat} {place : List String} (h : Opened fs links opened)
    (hplace : LinkLeads fs own place) (hlt : own < links) : place ∉ opened := by
  intro hmem
  obtain ⟨own', hown', hleads⟩ := h.leads place hmem
  have := hplace.unique hleads
  omega

/-- A link on the way is opened as well while its own way is followed. -/
theorem cons {own : Nat} {place : List String} (h : Opened fs links opened)
    (hplace : LinkLeads fs own place) (hlt : own < links) :
    Opened fs own (place :: opened) where
  nodup := List.nodup_cons.mpr ⟨h.not_mem hplace hlt, h.nodup⟩
  leads q hq := by
    rcases List.mem_cons.mp hq with rfl | hq
    · exact ⟨own, Nat.le_refl own, hplace⟩
    · exact (h.mono (Nat.le_of_lt hlt)).leads q hq

end Opened

/-- A way is followed to its end, whatever links that need more links are open. -/
theorem Leads.resolveFrom_eq_ok {links depth : Nat} {opened : List (List String)}
    {done rest place : List String} (h : Leads fs links done rest place)
    (hdone : fs.canReach [] done = true) (hopened : Opened fs links opened)
    (hdepth : fs.root.linkCount ≤ depth + opened.length) :
    resolveFrom fs depth opened done rest = .ok place := by
  induction h generalizing depth opened with
  | here done => rw [resolveFrom_eq, resolveNames]
  | up _ ih =>
    rw [resolveFrom_eq, resolveNames, if_pos rfl, ← resolveFrom_eq]
    exact ih (canReach_dropLast hdone) hopened hdepth
  | into hname hopen ht hlink _ ih =>
    have hnone := linkAt?_eq_none fun target heq ↦
      hlink target (Option.some.inj (ht.symm.trans heq))
    rw [resolveFrom_eq, resolveNames, if_neg hname, hnone]
    dsimp only
    rw [← resolveFrom_eq]
    exact ih (canReach_concat hdone hopen) hopened hdepth
  | @through inside after done rest middle place name target hname hopen ht hinside _ ihinside
      ihafter =>
    have hlink : LinkLeads fs inside (done ++ [name]) :=
      ⟨done, name, target, middle, rfl, ht, hinside⟩
    have hstart := canReach_targetStart hdone target
    have hmore := hopened.cons hlink (by omega)
    -- The open links and this one are different links of the tree, so there is depth for it.
    have hcount := hmore.length_le_linkCount
    rw [List.length_cons] at hcount
    obtain ⟨depth, rfl⟩ : ∃ less, depth = less + 1 := ⟨depth - 1, by omega⟩
    have hfollow : follow fs (depth + 1) opened done (done ++ [name]) target = .ok middle := by
      have hclosed : opened.contains (done ++ [name]) = false := by
        simpa using hopened.not_mem hlink (by omega)
      simp only [follow, hclosed, Bool.false_eq_true, if_false]
      exact ihinside hstart hmore (by rw [List.length_cons]; omega)
    rw [resolveFrom_eq, resolveNames, if_neg hname,
      linkAt?_eq_some (canReach_concat hdone hopen) ht]
    dsimp only
    rw [hfollow]
    dsimp only
    rw [← resolveFrom_eq]
    exact ihafter (hinside.canReach hstart) (hopened.mono (by omega)) hdepth

end Resolve

/-! ### Paths -/

/-- A path leads to a place when its names do. -/
def LeadsTo (fs : FileSystem) (p : Path) (place : List String) : Prop :=
  ∃ links, Leads fs links [] (fs.names p) place

/-- A path resolves to a place without a link that comes back to itself. -/
def ResolvesTo (fs : FileSystem) (p : Path) (place : List String) : Prop :=
  resolveFrom fs fs.root.linkCount [] [] (fs.names p) = .ok place

variable {p : Path} {place : List String}

/-- What is found at a path is where the path leads. -/
theorem exists_leadsTo_of_stat {found : Found} (h : fs.stat p = .ok found) :
    fs.LeadsTo p found.place ∧ fs.root.at? found.place = some found.tree := by
  unfold stat at h
  split_ifs at h
  obtain ⟨links, hway, hplace⟩ := exists_leads_of_locateFrom h
  exact ⟨⟨links, hway⟩, hplace⟩

/-- What a path locates is where it leads. -/
theorem exists_leadsTo_of_locate {t : FileTree} (h : fs.locate? p = some t) :
    ∃ place, fs.LeadsTo p place ∧ fs.root.at? place = some t := by
  unfold locate? at h
  cases hstat : fs.stat p with
  | error e =>
    rw [hstat] at h
    cases h
  | ok found =>
    rw [hstat] at h
    cases h
    exact ⟨found.place, exists_leadsTo_of_stat hstat⟩

/-- Whatever is asked of a path that locates something is answered by what it locates. -/
theorem asks_of_locate {t : FileTree} (h : fs.locate? p = some t) (property : FileTree → Bool) :
    fs.asks p property = .ok (property t) := by
  unfold locate? at h
  unfold asks
  cases hstat : fs.stat p with
  | error e =>
    rw [hstat] at h
    cases h
  | ok found =>
    rw [hstat] at h
    cases h
    rfl

/-- A path resolves to the place that it leads to. -/
theorem LeadsTo.resolvesTo (h : fs.LeadsTo p place) : fs.ResolvesTo p place := by
  obtain ⟨links, hway⟩ := h
  have hopened : Opened fs links [] := ⟨List.nodup_nil, by simp⟩
  exact hway.resolveFrom_eq_ok rfl hopened (Nat.le_refl _)

theorem ResolvesTo.resolve_eq (h : fs.ResolvesTo p place) : fs.resolve p = .ok place := by
  unfold ResolvesTo at h
  rw [resolve, h]

theorem names_child (fs : FileSystem) (p : Path) (name : String) :
    fs.names (p.child name) = fs.names p ++ [name] := by
  unfold names Path.isAbsolute Path.child
  split_ifs
  · rfl
  · rw [List.append_assoc]

/-- What stands in a directory and is no link resolves to its place there. -/
theorem ResolvesTo.child {name : String} {t : FileTree} (h : fs.ResolvesTo p place)
    (hname : name ≠ "..") (ht : fs.root.at? (place ++ [name]) = some t)
    (hlink : ∀ target, t ≠ .link target) :
    fs.ResolvesTo (p.child name) (place ++ [name]) := by
  have hnone := linkAt?_eq_none fun target heq ↦ hlink target (Option.some.inj (ht.symm.trans heq))
  unfold ResolvesTo at h ⊢
  rw [resolveFrom_eq] at h ⊢
  rw [names_child, resolveNames_append h, resolveNames, if_neg hname, hnone]
  rfl

end FileSystem

end BracketSpacing
