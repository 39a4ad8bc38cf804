import NetProfile.Yaml.Tag

/-!
# Tokens of documents

A document read as a sequence of marks and scalars. Indentation has become
explicit: a block collection starts and ends with a token of its own.
-/

namespace NetProfile

namespace Yaml

/-- The smallest parts of a document. -/
inductive Token where
  /-- The end of the text. -/
  | streamEnd
  /-- The version of the language that a document asks for. -/
  | versionDirective (major minor : Nat)
  /-- A short name for the beginning of tags. -/
  | tagDirective (handle : String) (lead : Tag)
  | documentStart
  | documentEnd
  | blockSequenceStart
  | blockMappingStart
  /-- The end of a block collection. -/
  | blockEnd
  | flowSequenceStart
  | flowSequenceEnd
  | flowMappingStart
  | flowMappingEnd
  /-- A dash before an item. -/
  | blockEntry
  /-- A comma between items. -/
  | flowEntry
  | key
  | value
  | alias (name : String)
  | anchor (name : String)
  /-- A tag; the handle is empty when the tag is written in full. -/
  | tag (handle : String) (suffix : Tag)
  /-- A scalar; `plain` when it is written without quotes on its own line. -/
  | scalar (text : String) (plain : Bool)
  deriving DecidableEq, Repr, Inhabited

end Yaml

end NetProfile
