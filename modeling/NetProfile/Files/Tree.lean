import NetProfile.Files
import NetProfile.OrderedMap

/-!
# File trees

Directories, files and symbolic links as a value, with the rules by which paths
are followed.

## Main definitions

- `FileTree` — entries under their places, and the current directory
- `Purpose` — what names are followed for
- `FileTree.walk` — where names lead
- `FileTree.locate` — where a path leads
- `FileTree.readBytes`, `FileTree.isFile`, `FileTree.makeDirectories`,
  `FileTree.replace` — the operations of `Files`

## Design notes

Links are followed wherever they stand, at the end of a path too, so a file that
is replaced through a link changes at the place that the link leads to. Only so
many links are followed, which ends the walk through links in a circle.

A path that ends in a slash means a directory. No file is ever made under such a
path, so a walk that may make one gives up in front of the last name, whatever
stands there.
-/

namespace NetProfile

/-- The names that lead from the top to an entry. -/
abbrev Place := List String

/-- A special file. -/
inductive Device where
  /-- Never has room for what is written. -/
  | full
  /-- Drops what is written. -/
  | null
  deriving DecidableEq, Repr

/-- What names are followed for. -/
inductive Purpose where
  /-- To use what stands at their end. -/
  | use
  /-- To make a file at their end if none stands there. -/
  | create
  deriving DecidableEq, Repr

/-- What may stand at a place. -/
inductive Entry where
  | directory
  | file (bytes : ByteArray)
  /-- A symbolic link to a path. -/
  | link (target : String)
  | device (d : Device)

/-- A tree of files. -/
structure FileTree where
  /-- All entries but the top itself, which is a directory. -/
  entries : OrderedMap Place Entry := ∅
  /-- Where relative paths start. -/
  current : Place := []

namespace FileTree

/-- The most bytes in a name. -/
def maxName : Nat := 255

/-- The most bytes in a path. -/
def maxPath : Nat := 4095

/-- The most links that are followed for one path. -/
def maxLinks : Nat := 40

/-- How many bytes are held back before a device has to take them. -/
def bufferSize : Nat := 8192

/-- The entry at a place. -/
def get? (t : FileTree) (place : Place) : Option Entry := t.entries.find? place

/-- Puts an entry in its place. -/
def put (t : FileTree) (place : Place) (e : Entry) : FileTree :=
  { t with entries := t.entries.insert place e }

/-- Putting an entry changes its own place only. -/
theorem get?_put (t : FileTree) (place other : Place) (e : Entry) :
    (t.put place e).get? other = if place = other then some e else t.get? other :=
  OrderedMap.find?_insert t.entries place other e

/-- Where names lead. -/
inductive Destination where
  /-- To an entry that is no link. -/
  | entry (place : Place) (e : Entry)
  /-- To a directory that has no such entry yet. -/
  | vacant (place : Place)

/-- The place where a path starts. -/
def start (path : String) (here : Place) : Place :=
  if FilePath.isAbsolute path then [] else here

/-- Follows names from the directory `here`. At a link, `follow` goes on with the
names of its target and those left. -/
def walkNames (t : FileTree) (purpose : Purpose)
    (follow : Place → List String → Except FileError Destination) :
    Place → List String → Except FileError Destination
  | here, [] => .ok (.entry here .directory)
  | here, name :: rest =>
    if name = "" ∨ name = "." then walkNames t purpose follow here rest
    else if name = ".." then walkNames t purpose follow here.dropLast rest
    else if purpose = .create ∧ rest = [""] then .error .isDirectory
    else if maxName < name.utf8ByteSize then .error .nameTooLong
    else
      let place := here ++ [name]
      match t.get? place with
      | some .directory => walkNames t purpose follow place rest
      | some (.link target) => follow (start target here) (FilePath.names target ++ rest)
      | some e => if rest.isEmpty then .ok (.entry place e) else .error .notDirectory
      | none => if rest.isEmpty then .ok (.vacant place) else .error .notFound

/-- Follows names from the directory `here`, and at most so many links. -/
def walk (t : FileTree) (purpose : Purpose) :
    Nat → Place → List String → Except FileError Destination
  | 0, here, names => t.walkNames purpose (fun _ _ => .error .tooManyLinks) here names
  | n + 1, here, names => t.walkNames purpose (t.walk purpose n) here names

/-- Refuses paths that lead nowhere in any tree. -/
def checkPath (path : String) : Except FileError Unit :=
  if path.toList.contains '\x00' then .error .nulInName
  else if path = "" then .error .notFound
  else if maxPath < path.utf8ByteSize then .error .nameTooLong
  else .ok ()

/-- Where a path leads. -/
def locate (t : FileTree) (purpose : Purpose) (path : String) :
    Except FileError Destination := do
  checkPath path
  t.walk purpose maxLinks (start path t.current) (FilePath.names path)

/-- The bytes that an entry is read as. Devices have none. -/
def bytesOf : Entry → Except FileError ByteArray
  | .file bytes => .ok bytes
  | .device _ => .ok .empty
  | .directory | .link _ => .error .isDirectory

/-- The bytes of the file at a path. -/
def readBytes (t : FileTree) (path : String) : Except FileError ByteArray := do
  match ← t.locate .use path with
  | .entry _ e => bytesOf e
  | .vacant _ => .error .notFound

/-- Whether a path leads to a regular file. -/
def isFile (t : FileTree) (path : String) : Bool :=
  match t.locate .use path with
  | .ok (.entry _ (.file _)) => true
  | _ => false

/-- Whether a path leads to a directory. -/
def isDirectory (t : FileTree) (path : String) : Bool :=
  match t.locate .use path with
  | .ok (.entry _ .directory) => true
  | _ => false

/-- Makes the directory `name` in the directory `here`. -/
def makeAt (t : FileTree) (here : Place) (name : String) : Except FileError FileTree :=
  if name = "." ∨ name = ".." then .error .alreadyThere
  else if maxName < name.utf8ByteSize then .error .nameTooLong
  else
    match t.get? (here ++ [name]) with
    | some _ => .error .alreadyThere
    | none => .ok (t.put (here ++ [name]) .directory)

/-- Makes the directory at a path; the directory around it has to be there. -/
def makeDirectory (t : FileTree) (path : String) : Except FileError FileTree := do
  checkPath path
  let names := FilePath.names (String.ofList (FilePath.trimSlashes path.toList))
  match names.getLast? with
  | none => .error .alreadyThere
  | some name =>
    match ← t.walk .use maxLinks (start path t.current) (names.dropLast ++ [""]) with
    | .entry here _ => t.makeAt here name
    | .vacant _ => .error .notFound

/-- Makes the directory at a path and the missing ones around it; `n` bounds the
number of names in the path. A directory that is there already is fine. -/
def makeDirectoriesUpTo : Nat → FileTree → String → FileTree × Except FileError Unit
  | n, t, path =>
    if path = "" then (t, .ok ())
    else
      match t.makeDirectory path, n with
      | .ok t, _ => (t, .ok ())
      | .error .notFound, n + 1 =>
        match FilePath.parent? path with
        | none => (t, .error .notFound)
        | some parent =>
          match makeDirectoriesUpTo n t parent with
          | (t, .error e) => (t, .error e)
          | (t, .ok ()) =>
            match t.makeDirectory path with
            | .ok t => (t, .ok ())
            | .error e => if t.isDirectory path then (t, .ok ()) else (t, .error e)
      | .error e, _ => if t.isDirectory path then (t, .ok ()) else (t, .error e)

/-- Makes the directory at a path and the missing ones around it. -/
def makeDirectories (t : FileTree) (path : String) : FileTree × Except FileError Unit :=
  makeDirectoriesUpTo path.length t path

/-- The sink of a device. -/
def deviceSink : Device → Sink
  | .full =>
    { limit := some bufferSize
      fullCause := FileError.noSpace.message
      flushCause := some FileError.noSpace.message }
  | .null => {}

/-- Empties or creates the file at a path and fills it. -/
def replace {α : Type} (t : FileTree) (path : String) (fill : Sink → Sink × α) :
    FileTree × Except FileError α :=
  let fillAt (place : Place) : FileTree × Except FileError α :=
    let (sink, answer) := fill {}
    (t.put place (.file sink.bytes), .ok answer)
  match t.locate .create path with
  | .ok (.vacant place) => fillAt place
  | .ok (.entry place (.file _)) => fillAt place
  | .ok (.entry _ (.device d)) => (t, .ok (fill (deviceSink d)).2)
  | .ok (.entry _ .directory) | .ok (.entry _ (.link _)) => (t, .error .isDirectory)
  | .error e => (t, .error e)

instance : Files (StateM FileTree) where
  readBytes path := do return (← get).readBytes path
  isFile path := do return (← get).isFile path
  makeDirectories path := modifyGet (fun t => let (t, answer) := t.makeDirectories path; (answer, t))
  replace path fill := modifyGet (fun t => let (t, answer) := t.replace path fill; (answer, t))

end FileTree

end NetProfile
