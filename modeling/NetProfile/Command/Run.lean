import NetProfile.Command.Arguments
import NetProfile.ProfilePath
import NetProfile.Transfer

/-!
# Running commands

Does what a command line asks for.

## Main definitions

- `Response` — what a command answers
- `Task.run` — does one thing
- `Command.run` — reads a command line and does what it asks for

## Design notes

All input is read and understood before anything is written, with one exception:
`serialize` makes the directory of its document first.
-/

namespace NetProfile

/-- What a command answers. -/
structure Response where
  /-- Zero on success. -/
  status : Nat := 0
  /-- What goes to the standard output. -/
  output : String := ""
  /-- What goes to the standard error output. -/
  errors : String := ""
  /-- What is worth reporting, in order. -/
  logs : List LogRecord := []
  deriving DecidableEq, Repr

/-- Why a task failed. -/
structure Failure where
  message : String
  /-- What lies behind it, in words. -/
  cause : Option String := none
  deriving DecidableEq, Repr

namespace Failure

/-- The failure as it is shown. -/
def text (f : Failure) : String :=
  "Error: " ++ f.message ++ "\n"
    ++ (match f.cause with
        | some cause => "\nCaused by:\n    " ++ cause ++ "\n"
        | none => "")

/-- A failed transfer. -/
def ofTransferError (e : TransferError) : Failure := { message := e.message, cause := e.cause? }

end Failure

namespace Response

/-- The answer to a task that failed. -/
def failed (logs : List LogRecord) (f : Failure) : Response :=
  { status := 1, errors := f.text, logs }

/-- The line for a warning. -/
def warningLine (w : Warning) : String := "Warning: " ++ w.message ++ "\n"

/-- The lines for warnings. -/
def warningLines (ws : List Warning) : String := String.join (ws.map warningLine)

/-- The answer with a document on the standard output. -/
def ofRendering (logs : List LogRecord) (d : Definition) : Response :=
  match d.render with
  | .ok r =>
    { output := r.text
      errors := warningLines r.warnings
      logs := logs ++ r.warnings.map Warning.log }
  | .error e => failed logs { message := "Failed to render netplan YAML", cause := some e.message }

/-- The answer to a transfer. -/
def ofReport (logs : List LogRecord) (saved : Logged Report) : Response :=
  match saved.answer with
  | .ok report =>
    { errors := warningLines report.warnings ++ "Wrote " ++ report.path ++ "\n"
      logs := logs ++ saved.logs }
  | .error e => failed (logs ++ saved.logs) (.ofTransferError e)

end Response

namespace Task

variable {m : Type → Type} [Monad m] [Files m]

/-- Makes the directory of documents below `root` and goes on with `next`. -/
def inDirectory (logs : List LogRecord) (root : String) (next : m Response) : m Response := do
  let directory := Definition.directoryPath root
  match ← Files.makeDirectories directory with
  | .error e =>
    return .failed logs
      { message := "Failed to create directory: " ++ directory, cause := some e.message }
  | .ok () => next

/-- Brings a definition to its target. -/
def deliver (logs : List LogRecord) (d : Definition) : Target → m Response
  | .standardOutput => return .ofRendering logs d
  | .below root =>
    inDirectory logs root (do return .ofReport logs (← Transfer.save d root))

/-- The record of an import. -/
def importLog (path : String) (d : Definition) : LogRecord :=
  ⟨.info, "Imported " ++ path ++ " as '" ++ d.id ++ "' (" ++ d.kind.keyword ++ ")"⟩

/-- Imports the text of a profile. -/
def importText (path : String) (id? : Option String) (target : Target) (text : String) :
    m Response :=
  match Keyfile.parse text with
  | .error e =>
    return .failed []
      { message := "Failed to parse keyfile: " ++ path, cause := some e.message }
  | .ok kf =>
    match kf.toDefinition id? with
    | .error e =>
      return .failed []
        { message := "Failed to import keyfile: " ++ path, cause := some e.message }
    | .ok i => deliver (i.logs ++ [importLog path i.definition]) i.definition target

/-- Imports the profile in a file. -/
def runImport (path : String) (id? : Option String) (target : Target) : m Response := do
  if ← Files.isFile path then
    match ← Files.readText path with
    | .error e =>
      return .failed []
        { message := "Failed to read keyfile: " ++ path, cause := some e.message }
    | .ok text => importText path id? target text
  else return .failed [] { message := "Keyfile does not exist: " ++ path }

/-- Writes one definition of a document to the standard output. -/
def runPrint (path id : String) : m Response := do
  let (reading, failure) ← Transfer.load path
  match failure with
  | some e => return .failed reading.logs (.ofTransferError e)
  | none =>
    match (Registry.enter {} reading.definitions).find? id with
    | some d => return .ofRendering reading.logs d
    | none =>
      return .failed reading.logs { message := "No definition '" ++ id ++ "' in " ++ path }

/-- Names the definition that a generated profile comes from. -/
def runRecoverId (path : String) (ssid : Option String) : Response :=
  match ProfilePath.definitionId? path ssid with
  | some id => { output := id ++ "\n" }
  | none => .failed [] { message := "Not a netplan generated profile: " ++ path }

/-- Does one thing. -/
def run : Task → m Response
  | .importProfile path id? target => runImport path id? target
  | .serialize path id .standardOutput => runPrint path id
  | .serialize path id (.below root) =>
    inDirectory [] root (do return .ofReport [] (← Transfer.saveFrom id path root))
  | .recoverId path ssid => return runRecoverId path ssid

end Task

namespace Command

/-- The status for a command line that asks for nothing. -/
def usageStatus : Nat := 2

/-- The answer to a command line that asks for nothing. -/
def refused (e : UsageError) : Response :=
  { status := usageStatus, errors := "error: " ++ e.message ++ "\n" }

/-- The least important level that is reported. -/
def threshold : Nat → LogLevel
  | 0 => .warn
  | 1 => .debug
  | _ => .trace

/-- Whether a record is reported. -/
def isReported (verbosity : Nat) (r : LogRecord) : Bool :=
  r.level.rank ≤ (threshold verbosity).rank

/-- Reads a command line and does what it asks for. -/
def run {m : Type → Type} [Monad m] [Files m] (args : List String) : m Response := do
  match Request.ofArguments args with
  | .ok request =>
    let response ← request.task.run
    return { response with logs := response.logs.filter (isReported request.verbosity) }
  | .error e => return refused e

end Command

end NetProfile
