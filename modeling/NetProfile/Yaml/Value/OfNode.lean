import NetProfile.Yaml.Node
import NetProfile.Yaml.ReadError
import NetProfile.Yaml.Schema
import NetProfile.Yaml.Value

/-!
# From nodes to values

Gives scalars their types and follows aliases.

## Main definitions

- `Resolve` — reading with a count of the aliases followed
- `Document.follow` — the node that is meant
- `Document.value` — the value of a node
- `Document.present?`, `Document.text` — nodes that may be absent, and texts

## Design notes

An alias may stand for a node that it is itself a part of. Collections are read
down to a limited depth only, which ends the reading of such a node, and `depth`
counts the levels left.
-/

namespace NetProfile

namespace Yaml

/-- Reading with a count of the aliases followed so far. -/
abbrev Resolve (α : Type) := StateT Nat (Except ReadError) α

/-- How the parts of a value are checked while it is read. -/
structure Strictness where
  /-- Whether tags that only the application knows are values. -/
  localTags : Bool
  /-- Whether a key that is already there ends the reading of a mapping. -/
  distinctKeys : Bool
  deriving DecidableEq, Repr

/-- How deep collections may stand in each other. -/
def depthLimit : Nat := 128

namespace Schema

/-- The value of an integer, if it is one. -/
def integerValue (n : Int) : Except ReadError Value :=
  if fitsWord n then .ok (.number (.int n)) else .error (.misplaced "integer out of range")

/-- The value of a plain scalar without a tag. -/
def plainValue (text : String) : Except ReadError Value :=
  match resolve text.toList with
  | .null => .ok .null
  | .bool b => .ok (.bool b)
  | .integer n => integerValue n
  | .float x => .ok (.number (.float x))
  | .text => .ok (.string text)

/-- The value of a scalar. A tag of the schema decides on the type, a local tag
says nothing about it, and any other tag makes the scalar a text. -/
def scalarValue (tag : Option Tag) (text : String) (plain : Bool) : Except ReadError Value :=
  let s := text.toList
  match tag with
  | none => if plain then plainValue text else .ok (.string text)
  | some tag =>
    if tag = .schema "bool" then
      match bool? s with
      | some b => .ok (.bool b)
      | none => .error (.misplaced "expected a boolean")
    else if tag = .schema "int" then
      match integer? s with
      | some n => integerValue n
      | none => .error (.misplaced "expected an integer")
    else if tag = .schema "float" then
      match float? s with
      | some x => .ok (.number (.float x))
      | none => .error (.misplaced "expected a float")
    else if tag = .schema "null" then
      if isNull s ∧ s ≠ [] then .ok .null else .error (.misplaced "expected null")
    else if tag.isLocal && plain then plainValue text
    else .ok (.string text)

end Schema

namespace Marks

/-- The name of a tag that only the application knows. -/
def localTag? (marks : Marks) : Option String := marks.tag.bind Tag.localName?

/-- What a tag that only the application knows makes of a value. -/
def wrap (marks : Marks) (strictness : Strictness) : Except ReadError (Value → Value) :=
  match marks.localTag? with
  | none => .ok id
  | some name =>
    if strictness.localTags then .ok (.tagged name) else .error (.misplaced "unexpected tag")

/-- The tag of a scalar, unless it gives a name to the application. -/
def schemaTag (marks : Marks) : Option Tag :=
  if marks.localTag?.isSome then none else marks.tag

end Marks

/-- Reads entries with `read`; `seen` are the keys before them. -/
def readEntries (read : Node → Resolve Value) (distinct : Bool) :
    List Value → List (Node × Node) → Resolve (List (Value × Value))
  | _, [] => pure []
  | seen, (k, v) :: rest => do
    let key ← read k
    if distinct && seen.any key.same then throw (.misplaced "repeated key")
    else
      let value ← read v
      let entries ← readEntries read distinct (key :: seen) rest
      return (key, value) :: entries

namespace Document

/-- The node that is meant: the node itself, or the one that the alias stands for.
Where the text could not be read, nothing is meant. -/
def follow (doc : Document) : Node → Resolve Node
  | .alias n => do
    let count := (← get) + 1
    set count
    if doc.aliasLimit < count then throw .repetition
    else
      match doc.find? n with
      | some node => return node
      | none => throw (.misplaced "unknown anchor")
  | .broken e => throw (.malformed e)
  | node => return node

/-- The value of a node that no alias stands for any more. What is inside of it is
read with `inner`, unless that would be too deep. -/
def valueWith (strictness : Strictness) (inner : Option (Node → Resolve Value)) :
    Node → Resolve Value
  | .scalar marks text plain => do
    let wrap ← marks.wrap strictness
    return wrap (← Schema.scalarValue marks.schemaTag text plain)
  | .sequence marks items =>
    match inner with
    | none => throw (.misplaced "recursion limit exceeded")
    | some read => do
      let wrap ← marks.wrap strictness
      return wrap (.sequence (← items.mapM read))
  | .mapping marks entries =>
    match inner with
    | none => throw (.misplaced "recursion limit exceeded")
    | some read => do
      let wrap ← marks.wrap strictness
      return wrap (.mapping (← readEntries read strictness.distinctKeys [] entries))
  | .alias _ | .broken _ => throw (.misplaced "recursion limit exceeded")

/-- The value of a node that has `depth` levels left. -/
def value (doc : Document) (strictness : Strictness) : Nat → Node → Resolve Value
  | 0, node => do valueWith strictness none (← doc.follow node)
  | depth + 1, node => do
    valueWith strictness (some (doc.value strictness depth)) (← doc.follow node)

/-- The node that is meant, unless it is spelled as absent. -/
def present? (doc : Document) (node : Node) : Resolve (Option Node) := do
  let node ← doc.follow node
  match node with
  | .scalar marks text true =>
    let absent := Schema.isNull text.toList
    match marks.tag with
    | none => return if absent then none else some node
    | some tag =>
      if tag = .schema "null" then
        if absent && text != "" then return none else throw (.misplaced "expected null")
      else return some node
  | _ => return some node

/-- The text of a scalar, whatever it stands for. -/
def text (doc : Document) (node : Node) : Resolve String := do
  match ← doc.follow node with
  | .scalar _ text _ => return text
  | _ => throw (.misplaced "expected a string")

/-- The entries of a mapping; an empty scalar has none. -/
def entries (doc : Document) (node : Node) : Resolve (List (Node × Node)) := do
  match ← doc.follow node with
  | .mapping _ entries => return entries
  | .scalar _ "" true => return []
  | _ => throw (.misplaced "expected a mapping")

end Document

end Yaml

end NetProfile
