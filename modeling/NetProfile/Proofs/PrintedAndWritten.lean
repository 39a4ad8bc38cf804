import NetProfile.Command.Run
import NetProfile.Proofs.DocumentTree
import NetProfile.Proofs.FileWalks

/-!
# Documents printed and written

A document can be printed or written to its file, and the two ways are programs of their
own. They read the same definition and fail on the same inputs, and what one prints the
other one writes.

## Main definitions

- `Job` — what is brought to a target
- `FileTree.selected?` — the definition that is read for a job

## Main results

- `Task.run_print`, `Task.run_write` — the two ways
- `Command.printed_iff_written` — what they have in common
-/

namespace NetProfile

/-- What a command brings to its target. -/
inductive Job where
  /-- The definition of this id in a document. -/
  | serialize (path id : String)
  /-- The definition that a profile is imported as. -/
  | importProfile (path : String) (id? : Option String)
  deriving DecidableEq, Repr

namespace Job

/-- The job with a target. -/
def task : Job → Target → Task
  | serialize path id, target => .serialize path id target
  | importProfile path id?, target => .importProfile path id? target

end Job

namespace FileTree

/-- The text of the file at a path. -/
def text (t : FileTree) (path : String) : Except FileError String :=
  (t.readBytes path).bind Files.decode

/-- The definition that is read for a job; none when something on the way to it fails. -/
def selected? (t : FileTree) : Job → Option Definition
  | .serialize path id => do
    let text ← (t.text path).toOption
    let reading := Reading.ofText text
    if reading.failure.isSome then none else (Registry.enter {} reading.definitions).find? id
  | .importProfile path id? => do
    if t.isFile path then
      let text ← (t.text path).toOption
      let kf ← (Keyfile.parse text).toOption
      let i ← (kf.toDefinition id?).toOption
      return i.definition
    else none

section Operations

variable (t : FileTree) (path : String)

theorem run_bind {α β : Type} (act : StateM FileTree α) (next : α → StateM FileTree β) :
    (act >>= next).run t = (next (act.run t).1).run (act.run t).2 := rfl

theorem run_readText : (Files.readText path : StateM FileTree _).run t = (t.text path, t) := rfl

theorem run_isFile : (Files.isFile path : StateM FileTree _).run t = (t.isFile path, t) := rfl

theorem run_makeDirectories :
    (Files.makeDirectories path : StateM FileTree _).run t =
      ((t.makeDirectories path).2, (t.makeDirectories path).1) := rfl

theorem run_replace {α : Type} (fill : Sink → Sink × α) :
    (Files.replace path fill : StateM FileTree _).run t =
      ((t.replace path fill).2, (t.replace path fill).1) := rfl

end Operations

end FileTree

namespace Transfer

variable {t : FileTree} {path id root : String} {d : Definition} {place : Place}

/-- What is read of the document at a path. -/
def readingOf (t : FileTree) (path : String) : Reading × Option TransferError :=
  match t.text path with
  | .error e => ({}, some (.file path e))
  | .ok text => (Reading.ofText text, (Reading.ofText text).failure.map (.document path))

theorem run_load : (load path : StateM FileTree _).run t = (readingOf t path, t) := by
  rw [load, FileTree.run_bind, FileTree.run_readText, readingOf]
  cases t.text path with
  | error e => rfl
  | ok text => rfl

/-- The definition of an id is found when the whole document can be read. -/
theorem selected?_serialize :
    t.selected? (.serialize path id) =
      match (readingOf t path).2 with
      | some _ => none
      | none => (Registry.enter {} (readingOf t path).1.definitions).find? id := by
  rw [FileTree.selected?, readingOf]
  cases t.text path with
  | error e => rfl
  | ok text =>
    cases hfailure : (Reading.ofText text).failure with
    | some e => simp [Except.toOption, hfailure]
    | none => simp [Except.toOption, hfailure]

/-- A definition is written whole where its file can be made or replaced. -/
theorem run_save (h : t.TakesFile (d.outputPath root) place) :
    ∃ logs, (save d root : StateM FileTree _).run t =
      (⟨logs, .ok ⟨d.outputPath root, d.warnings⟩⟩, t.put place (.file d.tree.print.toUTF8)) := by
  have hfill : fill d {} =
      (({} : Sink).extend d.tree.print,
        { writer := { sink := ({} : Sink).extend d.tree.print, layout := ⟨[], true⟩ }
          warnings := d.warnings
          result := .ok () }) := by
    rw [fill, d.writeTo_default]
  rw [save, FileTree.run_bind, FileTree.run_replace, h.replace_eq, hfill,
    Definition.bytes_extend_default]
  exact ⟨_, rfl⟩

theorem run_saveFrom_of_none (root : String) (h : t.selected? (.serialize path id) = none) :
    ∃ logs e, (saveFrom id path root : StateM FileTree _).run t = (⟨logs, .error e⟩, t) := by
  rw [selected?_serialize] at h
  rw [saveFrom, FileTree.run_bind, run_load]
  generalize readingOf t path = r at h
  obtain ⟨reading, failure⟩ := r
  cases failure with
  | some e => exact ⟨_, e, rfl⟩
  | none =>
    have hfind : (Registry.enter {} reading.definitions).find? id = none := h
    refine ⟨reading.logs, .unknownId id, ?_⟩
    dsimp only
    rw [hfind]
    rfl

theorem run_saveFrom_of_some (root : String) (h : t.selected? (.serialize path id) = some d) :
    ∃ logs, (saveFrom id path root : StateM FileTree _).run t =
      let (saved, left) := (save d root : StateM FileTree _).run t
      ({ saved with logs := logs ++ saved.logs }, left) := by
  rw [selected?_serialize] at h
  rw [saveFrom, FileTree.run_bind, run_load]
  generalize readingOf t path = r at h
  obtain ⟨reading, failure⟩ := r
  cases failure with
  | some e => cases h
  | none =>
    have hfind : (Registry.enter {} reading.definitions).find? id = some d := h
    refine ⟨reading.logs, ?_⟩
    dsimp only
    rw [hfind]
    rfl

end Transfer

namespace FilePath

/-- A path below a base ends as it did. -/
theorem exists_toList_join (base path : String) :
    ∃ front, (join base path).toList = front ++ path.toList := by
  rw [join]
  split
  · exact ⟨[], rfl⟩
  · split
    · exact ⟨_, String.toList_append⟩
    · exact ⟨_, String.toList_append⟩

end FilePath

theorem Definition.endsIn_directoryPath (root : String) :
    FilePath.EndsIn (directoryPath root) "netplan" := by
  obtain ⟨front, hfront⟩ := FilePath.exists_toList_join root directory
  have hdirectory : directory.toList = "etc".toList ++ '/' :: "netplan".toList := by decide
  rw [hdirectory, ← List.append_assoc] at hfront
  exact FilePath.endsIn_of_toList hfront (by decide) (by decide)

namespace Response

/-- The answer with the document of a definition. -/
theorem ofRendering_eq (logs : List LogRecord) (d : Definition) :
    ofRendering logs d =
      { output := d.tree.print
        errors := warningLines d.warnings
        logs := logs ++ d.warnings.map Warning.log } := by
  rw [ofRendering, d.render_eq]

end Response

namespace Task

variable {t : FileTree} {job : Job} {path id root : String} {id? : Option String}
  {d : Definition} {place : Place} {logs : List LogRecord}

/-! ### Reading -/

theorem run_runPrint_of_none (h : t.selected? (.serialize path id) = none) :
    ∃ r, r.status = 1 ∧ (runPrint path id : StateM FileTree _).run t = (r, t) := by
  rw [Transfer.selected?_serialize] at h
  rw [runPrint, FileTree.run_bind, Transfer.run_load]
  generalize Transfer.readingOf t path = r at h
  obtain ⟨reading, failure⟩ := r
  cases failure with
  | some e => exact ⟨_, rfl, rfl⟩
  | none =>
    have hfind : (Registry.enter {} reading.definitions).find? id = none := h
    dsimp only
    rw [hfind]
    exact ⟨_, rfl, rfl⟩

theorem run_runPrint_of_some (h : t.selected? (.serialize path id) = some d) :
    ∃ logs, (runPrint path id : StateM FileTree _).run t = (.ofRendering logs d, t) := by
  rw [Transfer.selected?_serialize] at h
  rw [runPrint, FileTree.run_bind, Transfer.run_load]
  generalize Transfer.readingOf t path = r at h
  obtain ⟨reading, failure⟩ := r
  cases failure with
  | some e => cases h
  | none =>
    have hfind : (Registry.enter {} reading.definitions).find? id = some d := h
    dsimp only
    rw [hfind]
    exact ⟨_, rfl⟩

theorem run_runImport (target : Target) :
    match t.selected? (.importProfile path id?) with
    | none => ∃ r, r.status = 1 ∧ (runImport path id? target : StateM FileTree _).run t = (r, t)
    | some d => ∃ logs, (runImport path id? target : StateM FileTree _).run t =
        (deliver logs d target : StateM FileTree _).run t := by
  rw [runImport, FileTree.run_bind, FileTree.run_isFile, FileTree.selected?]
  cases hfile : t.isFile path with
  | false => exact ⟨_, rfl, rfl⟩
  | true =>
    simp only [if_true]
    rw [FileTree.run_bind, FileTree.run_readText]
    cases t.text path with
    | error e => exact ⟨_, rfl, rfl⟩
    | ok text =>
      dsimp only
      rw [importText]
      cases hparse : Keyfile.parse text with
      | error e =>
        simp only [Except.toOption, Option.bind_eq_bind, Option.bind_some, hparse, Option.bind_none]
        exact ⟨_, rfl, rfl⟩
      | ok kf =>
        cases himport : kf.toDefinition id? with
        | error e =>
          simp only [Except.toOption, Option.bind_eq_bind, Option.bind_some, hparse, himport,
            Option.bind_none]
          exact ⟨_, rfl, rfl⟩
        | ok i =>
          simp only [Except.toOption, Option.bind_eq_bind, Option.bind_some, hparse, himport]
          exact ⟨_, rfl⟩

/-! ### The two ways -/

theorem run_inDirectory_of_ok (logs : List LogRecord) (next : StateM FileTree Response)
    (hmake : (t.makeDirectories (Definition.directoryPath root)).2 = .ok ()) :
    (inDirectory logs root next).run t =
      next.run (t.makeDirectories (Definition.directoryPath root)).1 := by
  rw [inDirectory, FileTree.run_bind, FileTree.run_makeDirectories, hmake]

theorem run_inDirectory (logs : List LogRecord) (next : StateM FileTree Response)
    (hdirectory : t.isDirectory (Definition.directoryPath root) = true) :
    (inDirectory logs root next).run t = next.run t := by
  have hmake := FileTree.makeDirectories_of_isDirectory (Definition.endsIn_directoryPath root)
    hdirectory
  rw [run_inDirectory_of_ok logs next (by rw [hmake]), hmake]

/-- The document is read behind the directories that are made for its definition. -/
theorem run_serialize_of_none
    (hmake : (t.makeDirectories (Definition.directoryPath root)).2 = .ok ())
    (h : (t.makeDirectories (Definition.directoryPath root)).1.selected?
      (.serialize path id) = none) :
    ∃ r, r.status = 1 ∧
      (((Job.serialize path id).task (.below root)).run : StateM FileTree _).run t =
        (r, (t.makeDirectories (Definition.directoryPath root)).1) := by
  obtain ⟨logs, e, hsaved⟩ := Transfer.run_saveFrom_of_none root h
  have hrun := run_inDirectory_of_ok [] (do return .ofReport [] (← Transfer.saveFrom id path root))
    hmake
  rw [FileTree.run_bind, hsaved] at hrun
  exact ⟨_, rfl, hrun⟩

/-- Whether a task ends in failure with the files as they were. -/
def Fails (t : FileTree) (task : Task) : Prop :=
  ∃ r, r.status = 1 ∧ (task.run : StateM FileTree _).run t = (r, t)

theorem fails_print (h : t.selected? job = none) : Fails t (job.task .standardOutput) := by
  cases job with
  | serialize path id => exact run_runPrint_of_none h
  | importProfile path id? =>
    have himport := @run_runImport t path id? .standardOutput
    rw [h] at himport
    exact himport

theorem run_print (h : t.selected? job = some d) :
    ∃ logs, ((job.task .standardOutput).run : StateM FileTree _).run t =
      ({ output := d.tree.print, errors := Response.warningLines d.warnings, logs }, t) := by
  cases job with
  | serialize path id =>
    obtain ⟨logs, hrun⟩ := run_runPrint_of_some h
    rw [Response.ofRendering_eq] at hrun
    exact ⟨_, hrun⟩
  | importProfile path id? =>
    have himport := @run_runImport t path id? .standardOutput
    rw [h] at himport
    obtain ⟨logs, hrun⟩ := himport
    have hdeliver : (deliver logs d .standardOutput : StateM FileTree _).run t =
        (.ofRendering logs d, t) := rfl
    rw [hdeliver, Response.ofRendering_eq] at hrun
    exact ⟨_, hrun⟩

theorem fails_write (hdirectory : t.isDirectory (Definition.directoryPath root) = true)
    (h : t.selected? job = none) : Fails t (job.task (.below root)) := by
  cases job with
  | serialize path id =>
    have hmake := FileTree.makeDirectories_of_isDirectory (Definition.endsIn_directoryPath root)
      hdirectory
    have hfailed := @run_serialize_of_none t path id root
    rw [hmake] at hfailed
    exact hfailed rfl h
  | importProfile path id? =>
    have himport := @run_runImport t path id? (.below root)
    rw [h] at himport
    exact himport

theorem run_write (hdirectory : t.isDirectory (Definition.directoryPath root) = true)
    (h : t.selected? job = some d) (hplace : t.TakesFile (d.outputPath root) place) :
    ∃ logs, ((job.task (.below root)).run : StateM FileTree _).run t =
      ({ errors := Response.warningLines d.warnings ++ "Wrote " ++ d.outputPath root ++ "\n", logs },
        t.put place (.file d.tree.print.toUTF8)) := by
  obtain ⟨saving, hsave⟩ := Transfer.run_save hplace
  cases job with
  | serialize path id =>
    obtain ⟨reading, hsaved⟩ := Transfer.run_saveFrom_of_some root h
    have hrun := run_inDirectory [] (do return .ofReport [] (← Transfer.saveFrom id path root))
      hdirectory
    rw [FileTree.run_bind, hsaved, hsave] at hrun
    exact ⟨_, hrun⟩
  | importProfile path id? =>
    have himport := @run_runImport t path id? (.below root)
    rw [h] at himport
    obtain ⟨logs, hrun⟩ := himport
    have hdeliver := run_inDirectory logs (do return .ofReport logs (← Transfer.save d root))
      hdirectory
    rw [FileTree.run_bind, hsave] at hdeliver
    exact ⟨_, hrun.trans hdeliver⟩

end Task

namespace Command

variable {t : FileTree} {args : List String}

theorem run_of_request {request : Request} {r : Response} {left : FileTree}
    (hrequest : Request.ofArguments args = .ok request)
    (hrun : (request.task.run : StateM FileTree _).run t = (r, left)) :
    (run args : StateM FileTree _).run t =
      ({ r with logs := r.logs.filter (isReported request.verbosity) }, left) := by
  rw [run, hrequest]
  dsimp only
  rw [FileTree.run_bind, hrun]
  rfl

/-- Printing a document and writing it to its file agree. Both succeed exactly when the
definition can be read, with the same warnings, and what is printed is what the file then
holds. Printing changes nothing, and writing changes the one file, from whatever it held
before; it may be the file that was read. The directory of documents has to be there, and
the path of the document has to lead to a file or to where one can be made. -/
theorem printed_iff_written (t : FileTree) (job : Job) (root : String)
    {print write : List String} {v w : Nat}
    (hprint : Request.ofArguments print = .ok ⟨job.task .standardOutput, v⟩)
    (hwrite : Request.ofArguments write = .ok ⟨job.task (.below root), w⟩)
    (hdirectory : t.isDirectory (Definition.directoryPath root) = true)
    (hplace : ∀ d, t.selected? job = some d → ∃ place, t.TakesFile (d.outputPath root) place) :
    let printed := (run print : StateM FileTree Response).run t
    let written := (run write : StateM FileTree Response).run t
    (printed.1.status = 0 ↔ written.1.status = 0) ∧
    (printed.1.status = 0 ↔ (t.selected? job).isSome = true) ∧
    printed.2 = t ∧
    (written.1.status ≠ 0 → written.2 = t) ∧
    ∀ d, t.selected? job = some d →
      ∃ place warnings, t.TakesFile (d.outputPath root) place ∧
        written.2 = t.put place (.file printed.1.output.toUTF8) ∧
        written.2.readBytes (d.outputPath root) = .ok printed.1.output.toUTF8 ∧
        d.render = .ok ⟨printed.1.output, warnings⟩ ∧
        printed.1.errors = Response.warningLines warnings ∧
        written.1.errors =
          Response.warningLines warnings ++ "Wrote " ++ d.outputPath root ++ "\n" := by
  intro printed written
  cases hd : t.selected? job with
  | none =>
    obtain ⟨r, hr, hrun⟩ := Task.fails_print hd
    obtain ⟨r', hr', hrun'⟩ := Task.fails_write hdirectory hd
    have hprinted := run_of_request hprint hrun
    have hwritten := run_of_request hwrite hrun'
    simp only [printed, written, hprinted, hwritten, hr, hr']
    simp
  | some d =>
    obtain ⟨place, htakes⟩ := hplace d hd
    obtain ⟨logs, hrun⟩ := Task.run_print hd
    obtain ⟨logs', hrun'⟩ := Task.run_write hdirectory hd htakes
    have hprinted := run_of_request hprint hrun
    have hwritten := run_of_request hwrite hrun'
    simp only [printed, written, hprinted, hwritten]
    refine ⟨by simp, by simp, trivial, by simp, ?_⟩
    intro e he
    obtain rfl := Option.some.inj he
    exact ⟨place, d.warnings, htakes, rfl, htakes.readBytes_put _, d.render_eq, rfl, rfl⟩

/-- A tree in which a profile stands at the path that its own document goes to, behind a
link. -/
def linkedTree : FileTree :=
  { entries := OrderedMap.ofList
      [(["etc"], .directory), (["etc", "netplan"], .directory),
        (["etc", "netplan", "90-NM-7.yaml"],
          .file "[connection]\nuuid=7\ntype=wifi\n[wifi]\nssid=net\nmode=mesh\n".toUTF8),
        (["profile"], .link "etc/netplan/90-NM-7.yaml")] }

theorem printed_iff_written_linkedTree :
    let printed := (run ["import", "keyfile", "profile", "--stdout"] :
      StateM FileTree Response).run linkedTree
    let written := (run ["import", "keyfile", "--root-dir=.", "profile"] :
      StateM FileTree Response).run linkedTree
    printed.1.status = 0 ∧ written.1.status = 0 ∧ printed.2 = linkedTree ∧
      written.2 = linkedTree.put ["etc", "netplan", "90-NM-7.yaml"]
        (.file printed.1.output.toUTF8) := by
  have hselected : (linkedTree.selected? (.importProfile "profile" none)).map
      (fun d => d.outputPath ".") = some "./etc/netplan/90-NM-7.yaml" := by
    decide +kernel
  obtain ⟨d, hd, hpath⟩ := Option.map_eq_some_iff.1 hselected
  have htakes : linkedTree.TakesFile (d.outputPath ".") ["etc", "netplan", "90-NM-7.yaml"] := by
    rw [hpath, FileTree.takesFile_iff]
    decide +kernel
  have hplace : ∀ e, linkedTree.selected? (.importProfile "profile" none) = some e →
      ∃ place, linkedTree.TakesFile (e.outputPath ".") place := by
    intro e he
    obtain rfl := Option.some.inj (hd.symm.trans he)
    exact ⟨_, htakes⟩
  obtain ⟨hboth, hok, hsame, -, hwritten⟩ :=
    @printed_iff_written linkedTree (.importProfile "profile" none) "."
      ["import", "keyfile", "profile", "--stdout"] ["import", "keyfile", "--root-dir=.", "profile"] 0 0
      (by decide +kernel) (by decide +kernel) (by decide +kernel) hplace
  have hprinted := hok.2 (by rw [hd]; rfl)
  obtain ⟨place, -, htakes', hput, -⟩ := hwritten d hd
  obtain rfl : place = ["etc", "netplan", "90-NM-7.yaml"] :=
    Option.some.inj ((FileTree.takesFile_iff.1 htakes').symm.trans (FileTree.takesFile_iff.1 htakes))
  exact ⟨hprinted, hboth.1 hprinted, hsame, hput⟩

end Command

end NetProfile
