import NetProfile.OrderedMap
import NetProfile.Yaml.Node.OfTokens
import NetProfile.Yaml.Value.OfNode

/-!
# Network configurations

What a document says about the network, before its sections are looked into.

## Main definitions

- `Configuration` — the default backend and the sections
- `Configuration.ofDocument`, `Configuration.ofText?`

## Design notes

All of the document outside of `network` is passed over. A section is any entry
of `network` but `version` and `renderer`, whether or not its keyword is known.
-/

namespace NetProfile

open Yaml (Document Node ReadError Resolve Strictness Value)

/-- What stands under `network`. -/
structure Configuration where
  /-- The name of the backend of definitions that name none. -/
  renderer : Option String := none
  /-- The sections under their keywords. One that comes again has replaced the
  earlier one at its place. -/
  sections : OrderedMap String Value := ∅
  deriving DecidableEq, Inhabited

namespace Configuration

/-- The depth that values of sections have left. -/
def sectionDepth : Nat := Yaml.depthLimit - 2

/-- How sections are read. Repeated keys are looked for afterwards. -/
def sectionStrictness : Strictness := { localTags := false, distinctKeys := false }

/-- How the version is read. -/
def versionStrictness : Strictness := { localTags := true, distinctKeys := true }

/-- What has been read so far of the entries of `network`. -/
structure Progress where
  /-- Whether there was a version. -/
  versioned : Bool := false
  /-- Whether there was a default backend, and its name unless it is absent. -/
  renderer : Option (Option String) := none
  /-- The sections so far, repeated ones included. -/
  sections : List (String × Value) := []

/-- The text of a node, unless it is absent. -/
def optionalText (doc : Document) (node : Node) : Resolve (Option String) := do
  match ← doc.present? node with
  | some node => return some (← doc.text node)
  | none => return none

/-- Checks the version, whose value does not matter. -/
def checkVersion (doc : Document) (node : Node) : Resolve Unit := do
  match ← doc.present? node with
  | some node => do
    let _ ← doc.value versionStrictness sectionDepth node
  | none => return ()

/-- Reads one entry of `network`. -/
def readEntry (doc : Document) (p : Progress) (entry : Node × Node) : Resolve Progress := do
  let key ← doc.text entry.1
  if key = "version" then
    if p.versioned then throw (.misplaced "repeated version")
    else
      checkVersion doc entry.2
      return { p with versioned := true }
  else if key = "renderer" then
    if p.renderer.isSome then throw (.misplaced "repeated renderer")
    else return { p with renderer := some (← optionalText doc entry.2) }
  else
    let value ← doc.value sectionStrictness sectionDepth entry.2
    return { p with sections := p.sections ++ [(key, value)] }

/-- Reads what stands under `network`. -/
def readNetwork (doc : Document) (node : Node) : Resolve Configuration := do
  match ← doc.present? node with
  | none => return {}
  | some node => do
    let p ← (← doc.entries node).foldlM (readEntry doc) {}
    if p.sections.any (fun entry => entry.2.hasRepeatedKey) then throw (.misplaced "repeated key")
    else return { renderer := p.renderer.join, sections := OrderedMap.ofList p.sections }

/-- Reads one entry of the document; `network` may occur only once. -/
def readRootEntry (doc : Document) (found : Option Configuration) (entry : Node × Node) :
    Resolve (Option Configuration) := do
  let key ← doc.text entry.1
  if key = "network" then
    if found.isSome then throw (.misplaced "repeated network")
    else return some (← readNetwork doc entry.2)
  else return found

/-- The configuration in a document. -/
def ofDocument (doc : Document) : Except ReadError Configuration := do
  let read : Resolve (Option Configuration) := do
    (← doc.entries doc.root).foldlM (readRootEntry doc) none
  let (found, _) ← read.run 0
  return found.getD {}

/-- The configuration in a text of one document. A text without documents
configures nothing. Of two errors the one that is met first counts, and the
document is read up to where its text breaks off before that is an error. -/
def ofText? (text : String) : Except ReadError Configuration :=
  let first := Yaml.readFirst text
  do
    let configuration ←
      match first.document with
      | some doc => ofDocument doc
      | none => pure {}
    match first.failure with
    | some e => .error (.malformed e)
    | none => if first.hasMore then .error .severalDocuments else return configuration

/-- Whether reading gives just this can be decided. -/
instance {ε α : Type} [DecidableEq α] (read : Except ε α) (a : α) : Decidable (read = .ok a) :=
  match read with
  | .error _ => isFalse nofun
  | .ok b => decidable_of_iff (b = a) (by rw [Except.ok.injEq])

end Configuration

end NetProfile
