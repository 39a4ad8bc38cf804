import NetProfile.Files.Path
import NetProfile.Sink

/-!
# Files

What the library asks of the place that holds its files.

## Main definitions

- `FileError` — why something cannot be done with a file
- `Files` — the operations on files that are needed
- `Files.readText` — a file as text

## Design notes

The operations are a class, so that one and the same program runs on a file
system and on a value of type `FileTree`, about which theorems can be stated.
-/

namespace NetProfile

/-- Why something cannot be done with a file. -/
inductive FileError where
  | notFound
  | alreadyThere
  | notDirectory
  | isDirectory
  | noSpace
  | nameTooLong
  | tooManyLinks
  /-- The path holds a character that no file name can hold. -/
  | nulInName
  /-- The bytes of the file are no text. -/
  | notText
  /-- Any other cause, in words. -/
  | other (cause : String)
  deriving DecidableEq, Repr

namespace FileError

/-- The cause in words. -/
def message : FileError → String
  | notFound => "No such file or directory (os error 2)"
  | alreadyThere => "File exists (os error 17)"
  | notDirectory => "Not a directory (os error 20)"
  | isDirectory => "Is a directory (os error 21)"
  | noSpace => "No space left on device (os error 28)"
  | nameTooLong => "File name too long (os error 36)"
  | tooManyLinks => "Too many levels of symbolic links (os error 40)"
  | nulInName => "file name contained an unexpected NUL byte"
  | notText => "stream did not contain valid UTF-8"
  | other cause => cause

end FileError

/-- A place that holds files. -/
class Files (m : Type → Type) where
  /-- The bytes of the file at a path. -/
  readBytes : String → m (Except FileError ByteArray)
  /-- Whether a path leads to a regular file. -/
  isFile : String → m Bool
  /-- Makes the directory at a path and the missing ones around it. -/
  makeDirectories : String → m (Except FileError Unit)
  /-- Empties or creates the file at a path and fills it with what the function
  writes into the sink. -/
  replace {α : Type} : String → (Sink → Sink × α) → m (Except FileError α)

namespace Files

variable {m : Type → Type}

/-- Bytes as text. -/
def decode (bytes : ByteArray) : Except FileError String :=
  match String.fromUTF8? bytes with
  | some text => .ok text
  | none => .error .notText

/-- The text of the file at a path. -/
def readText [Monad m] [Files m] (path : String) : m (Except FileError String) := do
  let bytes ← Files.readBytes path
  return bytes.bind decode

end Files

end NetProfile
