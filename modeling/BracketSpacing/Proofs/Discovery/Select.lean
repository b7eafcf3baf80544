import BracketSpacing.Discovery
import Mathlib.Data.List.Basic

/-!
Which candidates become files. Each candidate is taken, left out or faulty by itself (`takes`); the
paths seen before only decide whether a taken one is new. So the files found are the first of each
resolved path among the candidates taken, up to the first fault (`select_eq`), and searching some
paths after others only adds what the others did not find (`run_append`, `followedBy_self`). Without
a fault, which files are found is decided by which paths are searched, in whatever order
(`mem_map_resolve_of_same_members`).
-/

set_option autoImplicit false
set_option relaxedAutoImplicit false

namespace BracketSpacing

namespace Discovery

/-! ### The first of each -/

section FirstOfEach

variable {α κ : Type} [DecidableEq κ] (key : α → κ)

/-- The elements without those whose key an earlier element has. -/
def firstOfEach (l : List α) : List α := l.eraseDupsBy fun a b ↦ key a = key b

@[simp] theorem firstOfEach_nil : firstOfEach key [] = [] := rfl

theorem firstOfEach_cons (a : α) (l : List α) :
    firstOfEach key (a :: l) = a :: firstOfEach key (l.filter fun b ↦ key b ≠ key a) := by
  rw [firstOfEach, List.eraseDupsBy_cons, firstOfEach]
  simp only [decide_eq_false_iff_not, ne_eq]

/-- What passes from the elements with another key than the first to the whole holds of every
list. -/
@[elab_as_elim]
theorem inductionOnKeys {motive : List α → Prop} (nil : motive [])
    (cons : ∀ a l, motive (l.filter fun b ↦ key b ≠ key a) → motive (a :: l)) :
    ∀ l, motive l
  | [] => nil
  | a :: l => cons a l (inductionOnKeys nil cons _)
termination_by l => l.length
decreasing_by exact Nat.lt_succ_of_le (List.length_filter_le _ l)

theorem firstOfEach_subset (l : List α) : firstOfEach key l ⊆ l := by
  induction l using inductionOnKeys key with
  | nil => exact List.Subset.refl []
  | cons a l ih =>
    rw [firstOfEach_cons]
    exact List.cons_subset_cons a (List.Subset.trans ih (List.filter_subset_self l))

/-- No key is kept twice. -/
theorem pairwise_firstOfEach (l : List α) :
    (firstOfEach key l).Pairwise fun a b ↦ key a ≠ key b := by
  induction l using inductionOnKeys key with
  | nil => exact List.Pairwise.nil
  | cons a l ih =>
    rw [firstOfEach_cons]
    refine List.Pairwise.cons ?_ ih
    intro b hb
    have hne := (List.mem_filter.mp (firstOfEach_subset key _ hb)).2
    exact fun heq ↦ of_decide_eq_true hne heq.symm

theorem mem_map_filter_ne {l : List α} {a : α} {k : κ} (hk : k ≠ key a) :
    k ∈ (l.filter fun b ↦ key b ≠ key a).map key ↔ k ∈ l.map key := by
  simp only [List.mem_map, List.mem_filter, decide_eq_true_eq]
  constructor
  · rintro ⟨b, ⟨hb, -⟩, rfl⟩
    exact ⟨b, hb, rfl⟩
  · rintro ⟨b, hb, rfl⟩
    exact ⟨b, ⟨hb, hk⟩, rfl⟩

/-- No key is lost. -/
theorem mem_map_firstOfEach {l : List α} {k : κ} :
    k ∈ (firstOfEach key l).map key ↔ k ∈ l.map key := by
  induction l using inductionOnKeys key with
  | nil => rfl
  | cons a l ih =>
    rw [firstOfEach_cons, List.map_cons, List.mem_cons, ih, List.map_cons, List.mem_cons]
    by_cases hk : k = key a
    · simp [hk]
    · rw [mem_map_filter_ne key hk]

/-- What is kept by its key may be kept before or after. -/
theorem filter_firstOfEach_of_same {keep : α → Bool} {l : List α}
    (h : ∀ a ∈ l, ∀ b ∈ l, key a = key b → keep a = keep b) :
    (firstOfEach key l).filter keep = firstOfEach key (l.filter keep) := by
  induction l using inductionOnKeys key with
  | nil => rfl
  | cons a l ih =>
    have hrest := ih fun b hb c hc ↦
      h b (List.mem_cons_of_mem _ (List.mem_filter.mp hb).1)
        c (List.mem_cons_of_mem _ (List.mem_filter.mp hc).1)
    rw [firstOfEach_cons]
    by_cases ha : keep a
    · rw [List.filter_cons_of_pos ha, List.filter_cons_of_pos ha, hrest, firstOfEach_cons,
        List.filter_comm]
    · rw [List.filter_cons_of_neg ha, List.filter_cons_of_neg ha, hrest, List.filter_filter]
      -- Elements with the key of `a` are left out by `keep` as well.
      congr 1
      refine List.filter_congr fun b hb ↦ ?_
      by_cases hkey : key b = key a
      · have hsame := h b (List.mem_cons_of_mem _ hb) a List.mem_cons_self hkey
        simp [hsame, ha]
      · simp [hkey]

/-- Leaving out keys may come before or after. -/
theorem filter_firstOfEach (keep : κ → Bool) (l : List α) :
    (firstOfEach key l).filter (keep ∘ key) = firstOfEach key (l.filter (keep ∘ key)) :=
  filter_firstOfEach_of_same key fun _ _ _ _ heq ↦ congrArg keep heq

/-- What comes after adds the keys that were not there. -/
theorem firstOfEach_append (l m : List α) :
    firstOfEach key (l ++ m) =
      firstOfEach key l ++ firstOfEach key (m.filter fun b ↦ key b ∉ l.map key) := by
  induction l using inductionOnKeys key generalizing m with
  | nil => simp
  | cons a l ih =>
    rw [List.cons_append, firstOfEach_cons, firstOfEach_cons, List.filter_append, ih,
      List.cons_append, List.filter_filter]
    congr 3
    refine List.filter_congr fun b _ ↦ ?_
    by_cases hb : key b = key a
    · simp [hb]
    · simp only [mem_map_filter_ne key hb, List.map_cons, List.mem_cons, hb, false_or, ne_eq,
        not_false_eq_true, decide_true, Bool.and_true]

end FirstOfEach

/-! ### Candidates by themselves -/

section Select

variable (s : Scope) (fs : FileSystem)

/-- Whether a candidate is taken, if it could be found out what is there and a link on the way to it
does not lead back to itself. -/
def takes (c : Candidate) : Except FileSystem.Fault Bool :=
  match c.problem with
  | some e => .error (.lookup e)
  | none =>
    if s.hasExtension c.path then
      match fs.resolve c.path with
      | .error e => .error (.linkLoop e)
      | .ok resolved => .ok (c.named || !s.ignored (s.relativeText c.path resolved))
    else .ok false

/-- The paths of the candidates that are taken before the first fault. -/
def taken : List Candidate → List Path
  | [] => []
  | c :: rest =>
    match takes s fs c with
    | .error _ => []
    | .ok true => c.path :: taken rest
    | .ok false => taken rest

/-- The first fault of some candidates. -/
def faultOf : List Candidate → Option FileSystem.Fault
  | [] => none
  | c :: rest =>
    match takes s fs c with
    | .error e => some e
    | .ok _ => faultOf rest

/-- One step of selecting: what the candidate is by itself, and whether its resolved path is new. -/
theorem select_cases (seen : List (List String)) (c : Candidate) (rest : List Candidate) :
    (∃ e, takes s fs c = .error e ∧ select s fs seen (c :: rest) = ⟨[], some e⟩) ∨
    (takes s fs c = .ok false ∧ select s fs seen (c :: rest) = select s fs seen rest) ∨
    ∃ resolved, takes s fs c = .ok true ∧ fs.resolve c.path = .ok resolved ∧
      select s fs seen (c :: rest) =
        if resolved ∈ seen then select s fs seen rest
        else
          let more := select s fs (resolved :: seen) rest
          ⟨c.path :: more.files, more.fault⟩ := by
  rw [select]
  cases hproblem : c.problem with
  | some e => exact Or.inl ⟨.lookup e, by simp [takes, hproblem], rfl⟩
  | none =>
    cases hext : s.hasExtension c.path with
    | false => exact Or.inr (Or.inl ⟨by simp [takes, hproblem, hext], by simp⟩)
    | true =>
      cases hresolve : fs.resolve c.path with
      | error e =>
        exact Or.inl ⟨.linkLoop e, by simp [takes, hproblem, hext, hresolve], by simp⟩
      | ok resolved =>
        have htakes : takes s fs c =
            .ok (!(!c.named && s.ignored (s.relativeText c.path resolved))) := by
          simp [takes, hproblem, hext, hresolve]
        cases hleft : !c.named && s.ignored (s.relativeText c.path resolved) with
        | true => exact Or.inr (Or.inl ⟨by rw [htakes, hleft]; rfl, by simp [hleft]⟩)
        | false =>
          refine Or.inr (Or.inr ⟨resolved, by rw [htakes, hleft]; rfl, rfl, ?_⟩)
          simp [hleft]

/-- The files selected are the first of each resolved path among those taken, but for what was seen
before; faults do not depend on what was seen. -/
theorem select_eq (seen : List (List String)) (cs : List Candidate) :
    select s fs seen cs =
      { files := firstOfEach fs.resolve
          ((taken s fs cs).filter fun p ↦ fs.resolve p ∉ seen.map Except.ok)
        fault := faultOf s fs cs } := by
  induction cs generalizing seen with
  | nil => rfl
  | cons c rest ih =>
    obtain ⟨e, htakes, hselect⟩ | ⟨htakes, hselect⟩ | ⟨resolved, htakes, hresolve, hselect⟩ :=
      select_cases s fs seen c rest
    · simp [hselect, taken, faultOf, htakes]
    · simp [hselect, taken, faultOf, htakes, ih]
    · simp only [hselect, taken, faultOf, htakes, ih]
      -- A path joins the seen ones just when it is the first of its key among those left.
      by_cases hseen : resolved ∈ seen
      · rw [if_pos hseen, List.filter_cons_of_neg (by simpa [hresolve] using hseen)]
      · rw [if_neg hseen, List.filter_cons_of_pos (by simpa [hresolve] using hseen),
          firstOfEach_cons, List.filter_filter]
        simp [hresolve]

variable {s fs}

/-- What is taken has a known extension and resolves. -/
theorem of_takes {c : Candidate} (h : takes s fs c = .ok true) :
    s.hasExtension c.path ∧ ∃ resolved, fs.resolve c.path = .ok resolved := by
  unfold takes at h
  split at h
  next => cases h
  next =>
    split_ifs at h with hext
    · split at h
      next => cases h
      next resolved hresolve => exact ⟨hext, resolved, hresolve⟩
    · cases h

theorem exists_takes_of_mem_taken {cs : List Candidate} {p : Path} (h : p ∈ taken s fs cs) :
    ∃ c, c.path = p ∧ takes s fs c = .ok true := by
  induction cs with
  | nil => cases h
  | cons c rest ih =>
    unfold taken at h
    split at h
    next => cases h
    next htakes =>
      rcases List.mem_cons.mp h with rfl | hrest
      · exact ⟨c, rfl, htakes⟩
      · exact ih hrest
    next => exact ih h

/-- The first fault decides. -/
theorem faultOf_append (cs ds : List Candidate) :
    faultOf s fs (cs ++ ds) = (faultOf s fs cs).or (faultOf s fs ds) := by
  induction cs with
  | nil => rfl
  | cons c rest ih => cases htakes : takes s fs c <;> simp [faultOf, htakes, ih]

/-- What comes after a fault is not taken. -/
theorem taken_append (cs ds : List Candidate) :
    taken s fs (cs ++ ds) =
      taken s fs cs ++ if faultOf s fs cs = none then taken s fs ds else [] := by
  induction cs with
  | nil => rfl
  | cons c rest ih =>
    cases htakes : takes s fs c with
    | error e => simp [taken, faultOf, htakes]
    | ok takesIt => cases takesIt <;> simp [taken, faultOf, htakes, ih]

/-- There is no fault exactly if every candidate is decided. -/
theorem faultOf_eq_none_iff {cs : List Candidate} :
    faultOf s fs cs = none ↔ ∀ c ∈ cs, ∃ takesIt, takes s fs c = .ok takesIt := by
  induction cs with
  | nil => simp [faultOf]
  | cons c rest ih => cases htakes : takes s fs c <;> simp [faultOf, htakes, ih]

/-- Without a fault all candidates are judged. -/
theorem taken_eq_map_filter {cs : List Candidate} (h : faultOf s fs cs = none) :
    taken s fs cs = (cs.filter fun c ↦ takes s fs c = .ok true).map (·.path) := by
  induction cs with
  | nil => rfl
  | cons c rest ih =>
    cases htakes : takes s fs c with
    | error e => simp [faultOf, htakes] at h
    | ok takesIt =>
      simp only [faultOf, htakes] at h
      cases takesIt <;> simp [taken, htakes, ih h]

end Select

/-! ### Searching paths -/

section Run

variable (s : Scope) (fs : FileSystem)

/-- A search keeps the first of each file that is taken, up to the first fault. -/
theorem run_eq (ps : List Path) :
    run s fs ps =
      { files := firstOfEach fs.resolve (taken s fs (ps.flatMap (candidates s fs)))
        fault := faultOf s fs (ps.flatMap (candidates s fs)) } := by
  rw [run, select_eq]
  simp

variable {s fs}

theorem exists_takes_of_mem_files {ps : List Path} {p : Path} (h : p ∈ (run s fs ps).files) :
    ∃ c, c.path = p ∧ takes s fs c = .ok true := by
  rw [run_eq] at h
  exact exists_takes_of_mem_taken (firstOfEach_subset _ _ h)

theorem exists_resolve_of_mem_files {ps : List Path} {p : Path} (h : p ∈ (run s fs ps).files) :
    ∃ resolved, fs.resolve p = .ok resolved := by
  obtain ⟨c, rfl, htakes⟩ := exists_takes_of_mem_files h
  exact (of_takes htakes).2

/-- Every file found has one of the extensions. -/
theorem hasExtension_of_mem_files {ps : List Path} {p : Path} (h : p ∈ (run s fs ps).files) :
    s.hasExtension p := by
  obtain ⟨c, rfl, htakes⟩ := exists_takes_of_mem_files h
  exact (of_takes htakes).1

/-- No file is found twice. -/
theorem pairwise_files (ps : List Path) :
    (run s fs ps).files.Pairwise fun p q ↦ fs.resolve p ≠ fs.resolve q := by
  rw [run_eq]
  exact pairwise_firstOfEach fs.resolve _

/-- One search after another: a fault ends it, and a file that the first found is not found
again. -/
def followedBy (fs : FileSystem) (first second : Discovery) : Discovery :=
  match first.fault with
  | some _ => first
  | none =>
    { files := first.files ++
        second.files.filter fun p ↦ fs.resolve p ∉ first.files.map fs.resolve
      fault := second.fault }

/-- Searching more paths adds what the first did not find. -/
theorem run_append (ps qs : List Path) :
    run s fs (ps ++ qs) = (run s fs ps).followedBy fs (run s fs qs) := by
  simp only [run_eq, List.flatMap_append, faultOf_append, taken_append]
  generalize ps.flatMap (candidates s fs) = cs
  generalize qs.flatMap (candidates s fs) = ds
  unfold followedBy
  cases hfault : faultOf s fs cs with
  | some e => simp
  | none =>
    -- Having been found and having been taken are the same for a resolved path.
    have hnew := filter_firstOfEach fs.resolve
      (fun k ↦ k ∉ (firstOfEach fs.resolve (taken s fs cs)).map fs.resolve) (taken s fs ds)
    simp only [Function.comp_def, mem_map_firstOfEach] at hnew
    simp only [firstOfEach_append, mem_map_firstOfEach, hnew, if_true, Option.none_or]

/-- Searching again finds nothing new. -/
theorem followedBy_self (d : Discovery) : d.followedBy fs d = d := by
  unfold followedBy
  cases hfault : d.fault with
  | some e => rfl
  | none =>
    have hold : (d.files.filter fun p ↦ fs.resolve p ∉ d.files.map fs.resolve) = [] := by
      rw [List.filter_eq_nil_iff]
      intro p hp
      simpa using ⟨p, hp, rfl⟩
    dsimp only
    rw [hold, List.append_nil, ← hfault]

/-- Searches that share no file add up. -/
theorem followedBy_of_disjoint {first second : Discovery} (hfault : first.fault = none)
    (h : ∀ p ∈ first.files, ∀ q ∈ second.files, fs.resolve p ≠ fs.resolve q) :
    first.followedBy fs second = ⟨first.files ++ second.files, second.fault⟩ := by
  have hnew : (second.files.filter fun q ↦ fs.resolve q ∉ first.files.map fs.resolve) =
      second.files := by
    rw [List.filter_eq_self]
    intro q hq
    simpa using fun p hp ↦ h p hp q hq
  unfold followedBy
  rw [hfault, hnew]

/-- A search has no fault exactly if every candidate of its paths is decided. -/
theorem fault_eq_none_iff {ps : List Path} :
    (run s fs ps).fault = none ↔
      ∀ p ∈ ps, ∀ c ∈ candidates s fs p, ∃ takesIt, takes s fs c = .ok takesIt := by
  rw [run_eq, faultOf_eq_none_iff]
  simp only [List.mem_flatMap, forall_exists_index, and_imp]
  exact forall_comm.trans (forall_congr' fun p ↦ forall_comm)

/-- Without a fault, the resolved paths found are those of the candidates taken. -/
theorem mem_map_resolve_files {ps : List Path} (h : (run s fs ps).fault = none)
    {k : Except FileSystem.LinkLoop (List String)} :
    k ∈ (run s fs ps).files.map fs.resolve ↔
      ∃ p ∈ ps, ∃ c ∈ candidates s fs p, takes s fs c = .ok true ∧ fs.resolve c.path = k := by
  rw [run_eq] at h ⊢
  rw [mem_map_firstOfEach, taken_eq_map_filter h]
  simp only [List.mem_map, List.mem_filter, List.mem_flatMap, decide_eq_true_eq]
  constructor
  · rintro ⟨_, ⟨c, ⟨⟨p, hp, hc⟩, htakes⟩, rfl⟩, rfl⟩
    exact ⟨p, hp, c, hc, htakes, rfl⟩
  · rintro ⟨p, hp, c, hc, htakes, rfl⟩
    exact ⟨c.path, ⟨c, ⟨⟨p, hp, hc⟩, htakes⟩, rfl⟩, rfl⟩

section SameMembers

variable {ps qs : List Path} (h : ∀ p, p ∈ ps ↔ p ∈ qs)

include h

/-- Whether there is a fault does not hang on the order of paths. -/
theorem fault_eq_none_of_same_members :
    (run s fs ps).fault = none ↔ (run s fs qs).fault = none := by
  simp only [fault_eq_none_iff, h]

/-- Which files are found does not hang on the order of paths. -/
theorem mem_map_resolve_of_same_members (hfault : (run s fs ps).fault = none)
    (k : Except FileSystem.LinkLoop (List String)) :
    k ∈ (run s fs ps).files.map fs.resolve ↔ k ∈ (run s fs qs).files.map fs.resolve := by
  rw [mem_map_resolve_files hfault,
    mem_map_resolve_files ((fault_eq_none_of_same_members h).mp hfault)]
  simp only [h]

end SameMembers

end Run

end Discovery

end BracketSpacing
