import NetProfile.Document
import NetProfile.Files
import NetProfile.Import
import NetProfile.Registry

/-!
# Transfers

Brings definitions from files into registries and from registries and profiles
into files.

## Main definitions

- `Definition.outputPath` — the file of a definition
- `Transfer.load` — reads a document from a file
- `Transfer.save`, `Transfer.saveProfile`, `Transfer.saveFrom` — write one definition
- `TransferError`

## Design notes

Each transfer answers what it has to report with its result, whether or not it
succeeds.
-/

namespace NetProfile

namespace Definition

/-- The directory of documents below the root. -/
def directory : String := "etc/netplan"

/-- The path of the directory of documents below `root`. -/
def directoryPath (root : String) : String := FilePath.join root directory

/-- The path of the definition's document below `root`. -/
def outputPath (d : Definition) (root : String) : String :=
  FilePath.join (directoryPath root) d.fileName

end Definition

/-- Why a transfer failed. -/
inductive TransferError where
  /-- A file cannot be read or written. -/
  | file (path : String) (e : FileError)
  /-- A definition has no document. -/
  | layout (path : String) (fault : Yaml.LayoutFault)
  /-- A profile cannot be imported. -/
  | keyfile (e : KeyfileError)
  /-- A file holds no document that can be read. -/
  | document (path : String) (e : DocumentError)
  /-- A document lacks the definition asked for. -/
  | unknownId (id : String)
  deriving Repr

namespace TransferError

/-- The failure in words. -/
def message : TransferError → String
  | file path e => "I/O error on " ++ path ++ ": " ++ e.message
  | layout path fault => "cannot encode " ++ path ++ ": " ++ fault.message
  | keyfile e => "keyfile: " ++ e.message
  | document path e => "cannot parse " ++ path ++ ": " ++ e.message
  | unknownId id => "no network definition with id '" ++ id ++ "'"

/-- What lies behind the failure, in words. -/
def cause? : TransferError → Option String
  | file _ e => some e.message
  | layout .. => none
  | keyfile e => some e.message
  | document _ e => some e.message
  | unknownId _ => none

/-- A failure to write to the file at `path`. -/
def ofWriteError (path : String) : Yaml.WriteError → TransferError
  | .io cause => .file path (.other cause)
  | .layout fault => .layout path fault

end TransferError

/-- What a successful transfer has written. -/
structure Report where
  /-- The file that was written. -/
  path : String
  /-- Values that were replaced by a fallback. -/
  warnings : List Warning
  deriving DecidableEq, Repr

/-- An answer and what is worth reporting beside it. -/
structure Logged (α : Type) where
  logs : List LogRecord
  answer : Except TransferError α

namespace Transfer

variable {m : Type → Type} [Monad m] [Files m]

/-- Reads the document in a file. -/
def load (path : String) : m (Reading × Option TransferError) := do
  match ← Files.readText path with
  | .error e => return ({}, some (.file path e))
  | .ok text =>
    let reading := Reading.ofText text
    return (reading, reading.failure.map (.document path))

/-- Writes a definition into a sink; answers the sink afterwards and the outcome. -/
def fill (d : Definition) (sink : Sink) : Sink × Script.Outcome :=
  let out := d.writeTo sink
  (out.writer.sink, out)

/-- Writes the document of a definition to its file below `root`. The directory
of documents has to be there. -/
def save (d : Definition) (root : String) : m (Logged Report) := do
  let path := d.outputPath root
  let start := LogRecord.debugging ("rendering '" ++ d.id ++ "' to " ++ path)
  match ← Files.replace path (fill d) with
  | .error e => return ⟨[start], .error (.file path e)⟩
  | .ok out =>
    let logs := start :: out.warnings.map Warning.log
    match out.result with
    | .ok () => return ⟨logs, .ok ⟨path, out.warnings⟩⟩
    | .error e => return ⟨logs, .error (.ofWriteError path e)⟩

/-- Imports a profile and writes its definition below `root`. -/
def saveProfile (kf : Keyfile) (id? : Option String) (root : String) : m (Logged Report) := do
  match kf.toDefinition id? with
  | .error e => return ⟨[.warning ("netplan: Keyfile: " ++ e.message)], .error (.keyfile e)⟩
  | .ok i =>
    let saved ← save i.definition root
    return { saved with logs := i.logs ++ saved.logs }

/-- Writes one definition of the document at `path` below `root`, on its own. -/
def saveFrom (id path root : String) : m (Logged Report) := do
  let (reading, failure) ← load path
  match failure with
  | some e => return ⟨reading.logs, .error e⟩
  | none =>
    match (Registry.enter {} reading.definitions).find? id with
    | none => return ⟨reading.logs, .error (.unknownId id)⟩
    | some d =>
      let saved ← save d root
      return { saved with logs := reading.logs ++ saved.logs }

end Transfer

end NetProfile
