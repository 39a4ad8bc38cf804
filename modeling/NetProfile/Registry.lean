import NetProfile.Configuration
import NetProfile.Draft.OfValue

/-!
# Registries

The definitions read from documents, each under its id.

## Main definitions

- `Reading` — what a text adds to a registry, and how reading it ended
- `Reading.ofConfiguration`, `Reading.ofText`
- `Registry.enter`, `Registry.read`

## Design notes

What a text adds does not depend on the registry. A section that cannot be read
ends the reading; the sections before it stay.
-/

namespace NetProfile

open Yaml (ReadError Value)

/-- Why a text was not read to its end. -/
inductive DocumentError where
  /-- The text as a whole cannot be read. -/
  | unreadable (e : ReadError)
  /-- A section holds a value that does not fit. -/
  | shape (e : ShapeError)
  deriving DecidableEq, Repr

namespace DocumentError

/-- The error in words. -/
def message : DocumentError → String
  | unreadable e => e.message
  | shape e => e.message

end DocumentError

/-- The outcome of reading a text. -/
structure Reading where
  /-- The definitions read, in order. -/
  definitions : List Definition := []
  /-- What is worth reporting, in order. -/
  logs : List LogRecord := []
  /-- Why the reading ended early, if it did. -/
  failure : Option DocumentError := none
  deriving Inhabited

namespace Reading

/-- The reading of one thing after another. -/
def andThen (first second : Reading) : Reading :=
  match first.failure with
  | some _ => first
  | none =>
    { definitions := first.definitions ++ second.definitions
      logs := first.logs ++ second.logs
      failure := second.failure }

/-- Reads a section. A kind that is not known is passed over. -/
def ofSection (fallback : Option Backend) (keyword : String) (value : Value) : Reading :=
  match Kind.ofKeyword? keyword with
  | none => { logs := [.debugging ("ignoring netplan section '" ++ keyword ++ "'")] }
  | some kind =>
    match Draft.sectionOfValue value with
    | .error e => { failure := some (.shape e) }
    | .ok drafts =>
      { definitions := drafts.map (fun entry => entry.2.toDefinition entry.1 kind fallback)
        logs := drafts.flatMap (fun entry => entry.2.logs entry.1) }

/-- Reads sections until one does not fit. -/
def ofSections (fallback : Option Backend) : List (String × Value) → Reading
  | [] => {}
  | (keyword, value) :: rest =>
    (ofSection fallback keyword value).andThen (ofSections fallback rest)

/-- Reads a configuration. -/
def ofConfiguration (c : Configuration) : Reading :=
  let fallback := c.renderer.bind Backend.ofName?
  { logs := unknownBackendLogs c.renderer : Reading }.andThen
    (ofSections fallback c.sections.toList)

/-- Reads a text. -/
def ofText (text : String) : Reading :=
  match Configuration.ofText? text with
  | .ok configuration => ofConfiguration configuration
  | .error e => { failure := some (.unreadable e) }

end Reading

/-- Definitions under their ids. -/
structure Registry where
  definitions : OrderedMap String Definition := ∅
  deriving Inhabited

namespace Registry

/-- Enters a definition; an earlier one with its id is replaced. -/
def insert (r : Registry) (d : Definition) : Registry := ⟨r.definitions.insert d.id d⟩

/-- Enters definitions one after the other. -/
def enter (r : Registry) (ds : List Definition) : Registry := ds.foldl insert r

/-- The definition of this id. -/
def find? (r : Registry) (id : String) : Option Definition := r.definitions.find? id

/-- A definition is found under its own id and hides no other. -/
theorem find?_insert (r : Registry) (d : Definition) (id : String) :
    (r.insert d).find? id = if d.id = id then some d else r.find? id :=
  OrderedMap.find?_insert r.definitions d.id id d

/-- Enters what a text holds. -/
def read (r : Registry) (text : String) : Registry := r.enter (Reading.ofText text).definitions

end Registry

end NetProfile
