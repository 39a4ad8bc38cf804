import NetProfile.Proofs.PrintedAndWritten

/-!
# Commands that fail on their input

What is left of a run that cannot read the definition it is asked for. Such a run ends with
status one, and all entries of the tree are what they were. New ones are there only where
directories are made before the input is read, which is so when a definition of a document
is written to its file, and then they are directories.

## Main definitions

- `FileTree.Grows` — only directories are new
- `Job.earlyRoot?`, `FileTree.prepared` — what is made before the input is read

## Main results

- `FileTree.grows_makeDirectories`, `FileTree.makeDirectories_eq_self_iff` — the directories
- `Command.failed_leaves_prepared` — the tree after a failure
-/

namespace NetProfile

namespace FileTree

/-- Whether a tree has all entries of another one, and nothing else but directories. -/
structure Grows (t t' : FileTree) : Prop where
  current_eq : t'.current = t.current
  get?_cases : ∀ place, t'.get? place = t.get? place ∨
    t.get? place = none ∧ t'.get? place = some .directory

namespace Grows

variable {t t' t'' : FileTree}

theorem refl (t : FileTree) : Grows t t := ⟨rfl, fun _ => Or.inl rfl⟩

theorem trans (h : Grows t t') (h' : Grows t' t'') : Grows t t'' := by
  refine ⟨h'.current_eq.trans h.current_eq, fun place => ?_⟩
  obtain hsame' | ⟨hvacant', hmade'⟩ := h'.get?_cases place
  · rw [hsame']
    exact h.get?_cases place
  · obtain hsame | ⟨hvacant, -⟩ := h.get?_cases place
    · exact Or.inr ⟨hsame ▸ hvacant', hmade'⟩
    · exact Or.inr ⟨hvacant, hmade'⟩

theorem put_directory {place : Place} (h : t.get? place = none) :
    Grows t (t.put place .directory) := by
  refine ⟨rfl, fun other => ?_⟩
  rw [get?_put]
  by_cases hplace : place = other
  · rw [if_pos hplace]
    exact Or.inr ⟨hplace ▸ h, rfl⟩
  · rw [if_neg hplace]
    exact Or.inl rfl

/-- No entry is lost, so a place that is vacant in the end was vacant from the start. -/
theorem get?_eq_none (h : Grows t t') {place : Place} (hplace : t'.get? place = none) :
    t.get? place = none := by
  obtain hsame | ⟨hvacant, -⟩ := h.get?_cases place
  · exact hsame ▸ hplace
  · exact hvacant

end Grows

section Directories

variable {t t' : FileTree} {path : String}

theorem exists_of_makeDirectory (h : t.makeDirectory path = .ok t') :
    ∃ place, t.get? place = none ∧ t' = t.put place .directory := by
  have hmakeAt : ∀ here name, t.makeAt here name = .ok t' →
      ∃ place, t.get? place = none ∧ t' = t.put place .directory := by
    intro here name h
    rw [makeAt] at h
    split at h
    · cases h
    · split at h
      · cases h
      · split at h
        · cases h
        · next hvacant =>
          cases h
          exact ⟨_, hvacant, rfl⟩
  rw [makeDirectory] at h
  cases hcheck : checkPath path with
  | error e =>
    rw [hcheck] at h
    cases h
  | ok u =>
    rw [hcheck] at h
    dsimp only [bind, Except.bind] at h
    split at h
    · cases h
    · split at h
      · cases h
      · split at h
        · exact hmakeAt _ _ h
        · cases h

theorem grows_makeDirectory (h : t.makeDirectory path = .ok t') : Grows t t' := by
  obtain ⟨place, hvacant, rfl⟩ := exists_of_makeDirectory h
  exact .put_directory hvacant

/-- A directory that is made in a grown tree is in no tree that it grew from. -/
theorem Grows.makeDirectory_ne {before : FileTree} (hgrows : Grows before t)
    (h : t.makeDirectory path = .ok t') : t' ≠ before := by
  obtain ⟨place, hvacant, rfl⟩ := exists_of_makeDirectory h
  rintro rfl
  have hmade : (t.put place .directory).get? place = none := hgrows.get?_eq_none hvacant
  rw [get?_put, if_pos rfl] at hmade
  cases hmade

/-- What there is to say of an attempt at a directory: only directories are new, and an
attempt that succeeds without any has found the directory there. -/
structure Attempted (t : FileTree) (path : String) (out : FileTree × Except FileError Unit) :
    Prop where
  grows : Grows t out.1
  isDirectory_of_eq : out.2 = .ok () → path ≠ "" → out.1 = t → t.isDirectory path = true

theorem attempted_of_there (hgrows : Grows t t') (h : t'.isDirectory path = true) :
    t.Attempted path (t', .ok ()) :=
  ⟨hgrows, fun _ _ hsame => hsame ▸ h⟩

theorem attempted_of_error (hgrows : Grows t t') (path : String) (e : FileError) :
    t.Attempted path (t', .error e) :=
  ⟨hgrows, fun hok => nomatch hok⟩

theorem attempted_of_made {before : FileTree} (hgrows : Grows t before)
    (h : before.makeDirectory path = .ok t') : t.Attempted path (t', .ok ()) :=
  ⟨hgrows.trans (grows_makeDirectory h), fun _ _ hsame => absurd hsame (hgrows.makeDirectory_ne h)⟩

/-- The directories around are attempted first, each with one name less. -/
theorem attempted_makeDirectoriesUpTo (n : Nat) (t : FileTree) (path : String) :
    t.Attempted path (makeDirectoriesUpTo n t path) := by
  fun_induction makeDirectoriesUpTo n t path with
  | case1 => exact ⟨.refl _, fun _ hne => absurd rfl hne⟩
  | case2 n t path _ made hmake => exact attempted_of_made (.refl t) hmake
  | case3 t path => exact attempted_of_error (.refl t) path _
  | case4 t path _ n _ parent _ around e hout ih =>
    have hgrows := ih.grows
    rw [hout] at hgrows
    exact attempted_of_error hgrows path e
  | case5 t path _ n _ parent _ around hout made hmake ih =>
    have hgrows := ih.grows
    rw [hout] at hgrows
    exact attempted_of_made hgrows hmake
  | case6 t path _ n _ parent _ around hout e _ hthere ih =>
    have hgrows := ih.grows
    rw [hout] at hgrows
    exact attempted_of_there hgrows hthere
  | case7 t path _ n _ parent _ around hout e _ _ ih =>
    have hgrows := ih.grows
    rw [hout] at hgrows
    exact attempted_of_error hgrows path e
  | case8 n t path _ e _ hthere => exact attempted_of_there (.refl t) hthere
  | case9 n t path _ e => exact attempted_of_error (.refl t) path e

theorem grows_makeDirectories (t : FileTree) (path : String) :
    Grows t (t.makeDirectories path).1 :=
  (attempted_makeDirectoriesUpTo path.length t path).grows

/-- Making directories leaves a tree as it is if the directory is there, and only then. -/
theorem makeDirectories_eq_self_iff {last : String} (hlast : FilePath.EndsIn path last)
    (hok : (t.makeDirectories path).2 = .ok ()) :
    (t.makeDirectories path).1 = t ↔ t.isDirectory path = true := by
  have hne : path ≠ "" := by
    rintro rfl
    obtain ⟨around, hnames⟩ := hlast.names_eq
    exact absurd hnames (by simp [FilePath.names, FilePath.pieces])
  constructor
  · exact (attempted_makeDirectoriesUpTo path.length t path).isDirectory_of_eq hok hne
  · intro hdirectory
    rw [makeDirectories_of_isDirectory hlast hdirectory]

end Directories

end FileTree

/-! ### Commands -/

/-- The root below which the directory of documents is made before the input is read. -/
def Job.earlyRoot? : Job → Target → Option String
  | .serialize .., .below root => some root
  | _, _ => none

/-- The tree in which a job reads its input, and whether it comes to that. -/
def FileTree.prepared (t : FileTree) (job : Job) (target : Target) :
    FileTree × Except FileError Unit :=
  match job.earlyRoot? target with
  | some root => t.makeDirectories (Definition.directoryPath root)
  | none => (t, .ok ())

namespace Task

variable {t : FileTree} {job : Job} {target : Target} {root : String}

/-- A job that cannot read its input ends in failure, in the tree in which it tried. -/
theorem run_of_selected?_eq_none (hready : (t.prepared job target).2 = .ok ())
    (hinput : (t.prepared job target).1.selected? job = none) :
    ∃ r, r.status = 1 ∧
      ((job.task target).run : StateM FileTree _).run t = (r, (t.prepared job target).1) := by
  cases job with
  | importProfile path id? =>
    have himport := @run_runImport t path id? target
    rw [show t.selected? (.importProfile path id?) = none from hinput] at himport
    exact himport
  | serialize path id =>
    cases target with
    | standardOutput => exact fails_print hinput
    | below root => exact run_serialize_of_none hready hinput

end Task

namespace Command

/-- A command whose input is missing, cannot be read or understood, lacks what it has to
have or does not have the definition asked for ends with status one. It leaves all entries
of the tree as they were, and nothing new but directories. There are none if it imports a
profile or prints a document; if it writes a definition of a document to its file, there are
none exactly if the directory of documents was there before. -/
theorem failed_leaves_prepared (t : FileTree) (job : Job) (target : Target)
    {args : List String} {v : Nat}
    (hrequest : Request.ofArguments args = .ok ⟨job.task target, v⟩)
    (hready : (t.prepared job target).2 = .ok ())
    (hinput : (t.prepared job target).1.selected? job = none) :
    let failed := (run args : StateM FileTree Response).run t
    failed.1.status = 1 ∧ failed.2 = (t.prepared job target).1 ∧ t.Grows failed.2 ∧
      (failed.2 = t ↔ ∀ root, job.earlyRoot? target = some root →
        t.isDirectory (Definition.directoryPath root) = true) := by
  intro failed
  obtain ⟨r, hstatus, hrun⟩ := Task.run_of_selected?_eq_none hready hinput
  have hfailed := run_of_request hrequest hrun
  simp only [failed, hfailed]
  refine ⟨hstatus, trivial, ?_⟩
  rw [FileTree.prepared] at hready ⊢
  cases hroot : job.earlyRoot? target with
  | none => exact ⟨.refl t, iff_of_true rfl (fun root h => nomatch h)⟩
  | some root =>
    rw [hroot] at hready
    have hkept := FileTree.makeDirectories_eq_self_iff (Definition.endsIn_directoryPath root) hready
    refine ⟨FileTree.grows_makeDirectories t _, hkept.trans ?_⟩
    simp

/-- A tree with the directory of documents and a document in it. -/
def documentTree : FileTree :=
  { entries := OrderedMap.ofList
      [(["etc"], .directory), (["etc", "netplan"], .directory),
        (["etc", "netplan", "a.yaml"], .file "network: {ethernets: {eth0: {}}}\n".toUTF8)] }

theorem failed_leaves_prepared_documentTree :
    let failed := (run ["serialize", "etc/netplan/a.yaml", "--id", "eth1", "--root-dir", "."] :
      StateM FileTree Response).run documentTree
    failed.1.status = 1 ∧ failed.2 = documentTree := by
  have hdirectory : documentTree.isDirectory (Definition.directoryPath ".") = true := by
    decide +kernel
  have hprepared : documentTree.prepared (.serialize "etc/netplan/a.yaml" "eth1") (.below ".") =
      (documentTree, .ok ()) :=
    FileTree.makeDirectories_of_isDirectory (Definition.endsIn_directoryPath ".") hdirectory
  have hinput : (documentTree.prepared (.serialize "etc/netplan/a.yaml" "eth1")
      (.below ".")).1.selected? (.serialize "etc/netplan/a.yaml" "eth1") = none := by
    rw [hprepared]
    decide +kernel
  obtain ⟨hstatus, -, -, hsame⟩ := @failed_leaves_prepared documentTree
    (.serialize "etc/netplan/a.yaml" "eth1") (.below ".")
    ["serialize", "etc/netplan/a.yaml", "--id", "eth1", "--root-dir", "."] 0
    (by decide +kernel) (by rw [hprepared]) hinput
  refine ⟨hstatus, hsame.2 fun root hroot => ?_⟩
  cases hroot
  exact hdirectory

/-- The document is read behind the directories, which stay when it has no such definition. -/
theorem failed_makes_directories :
    let failed := (run ["serialize", "etc/netplan/a.yaml", "--id", "eth1", "--root-dir", "new"] :
      StateM FileTree Response).run documentTree
    documentTree.selected? (.serialize "etc/netplan/a.yaml" "eth1") = none ∧
      failed.1.status = 1 ∧
      failed.1.errors = "Error: no network definition with id 'eth1'\n" ∧
      (documentTree.get? ["new", "etc", "netplan"]).isSome = false ∧
      (failed.2.get? ["new", "etc", "netplan"]).isSome = true := by
  refine ⟨?_, ?_, ?_, ?_, ?_⟩ <;> decide +kernel

end Command

end NetProfile
