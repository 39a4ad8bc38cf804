/-!
# Tags

What a tag says about the type of its node. Tags are bytes, because escapes in
them may spell bytes that are no text; such a tag names nothing.

## Main definitions

- `Tag` — the bytes of a tag
- `Tag.ofString`, `Tag.append` — tags from their parts
- `Tag.schema` — the tags of the core schema
- `Tag.localName?` — the name that a tag gives to the application
-/

namespace NetProfile

namespace Yaml

/-- A tag, or the beginning or the end of one. -/
structure Tag where
  bytes : List UInt8
  deriving DecidableEq, Repr, Inhabited

namespace Tag

/-- The tag without bytes. -/
def empty : Tag := ⟨[]⟩

/-- The tag with the given text. -/
def ofString (text : String) : Tag := ⟨text.toUTF8.toList⟩

/-- A tag from its beginning and its end. -/
def append (lead suffix : Tag) : Tag := ⟨lead.bytes ++ suffix.bytes⟩

instance : Append Tag := ⟨append⟩

/-- The tag that spells the given bytes. A zero byte ends it. -/
def spelling (bytes : List UInt8) : Tag := ⟨bytes.takeWhile (· != 0)⟩

/-- The text of the tag, if its bytes are one. -/
def text? (t : Tag) : Option String := String.fromUTF8? ⟨t.bytes.toArray⟩

/-- The tag of one mark, which is all that there is to it. -/
def mark : Tag := ofString "!"

/-- What the tags of the core schema begin with. -/
def schemaLead : Tag := ofString "tag:yaml.org,2002:"

/-- A tag of the core schema. -/
def schema (name : String) : Tag := schemaLead ++ ofString name

/-- Whether the tag begins with a mark and so is one that the schema does not know. -/
def isLocal (t : Tag) : Bool := t.bytes.head? == '!'.toNat.toUInt8

/-- The name without a leading mark that more follows. -/
def withoutMark : List Char → List Char
  | '!' :: c :: rest => c :: rest
  | s => s

/-- The name that the tag gives to the application: what stands behind its mark,
or the mark itself where nothing does. -/
def localName? (t : Tag) : Option String :=
  if t = mark then some "!"
  else if t.isLocal then
    (text? ⟨t.bytes.drop 1⟩).map (fun name => String.ofList (withoutMark name.toList))
  else none

end Tag

end Yaml

end NetProfile
