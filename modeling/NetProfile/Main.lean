import NetProfile.Command.Run

/-!
# The command line program

Runs a command on the file system and shows its answer.
-/

namespace NetProfile

namespace Main

/-- The cause behind an error of the system. -/
def fileError : IO.Error → FileError
  | .noFileOrDirectory .. => .notFound
  | .alreadyExists .. => .alreadyThere
  | .inappropriateType _ 20 _ => .notDirectory
  | .inappropriateType _ 21 _ => .isDirectory
  | .invalidArgument _ 36 _ => .nameTooLong
  | .invalidArgument _ 40 _ => .tooManyLinks
  | .resourceExhausted _ 28 _ => .noSpace
  | e => .other (toString e)

/-- Turns errors of the system into answers. -/
def answering {α : Type} (act : IO α) : IO (Except FileError α) := do
  try
    return .ok (← act)
  catch e => return .error (fileError e)

/-- Whether bytes can be read from what a path leads to. It stands for the question whether
that is a regular file, and differs from it: a device or a named pipe counts as one, and a
file that may not be read does not. -/
def isReadable (path : String) : IO Bool := do
  let first ← answering do
    let file ← IO.FS.Handle.mk path .read
    file.read 1
  return first.isOk

/-- Empties or creates the file at a path and fills it. -/
def replaceFile {α : Type} (path : String) (fill : Sink → Sink × α) : IO α := do
  let file ← IO.FS.Handle.mk path .write
  let (sink, answer) := fill {}
  file.write sink.bytes
  file.flush
  return answer

instance : Files IO where
  readBytes path := answering (IO.FS.readBinFile path)
  isFile path := isReadable path
  makeDirectories path := answering (IO.FS.createDirAll path)
  replace path fill := answering (replaceFile path fill)

/-- The line for a record. -/
def logLine (r : LogRecord) : String := r.level.name ++ " " ++ r.message

/-- Shows an answer and gives its status. -/
def present (response : Response) : IO UInt32 := do
  for record in response.logs do
    IO.eprintln (logLine record)
  IO.eprint response.errors
  IO.print response.output
  return response.status.toUInt32

end Main

end NetProfile

/-- Runs the command that the arguments name. -/
def main (args : List String) : IO UInt32 := do
  NetProfile.Main.present (← NetProfile.Command.run args)
