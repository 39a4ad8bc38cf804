import NetProfile.Yaml.Position

/-!
# Failures of reading

Why a text cannot be read as a document.
-/

namespace NetProfile

namespace Yaml

/-- Why reading failed. -/
inductive ReadError where
  /-- The text is no document, or holds what is not allowed at its place. -/
  | malformed (e : SyntaxError)
  /-- Aliases would have to be followed too often. -/
  | repetition
  /-- More than one document follow each other. -/
  | severalDocuments
  deriving DecidableEq, Repr

namespace ReadError

/-- A part of a document that is not allowed at its place. -/
def misplaced (problem : String) : ReadError := .malformed ⟨problem, none⟩

/-- The failure in words. -/
def message : ReadError → String
  | malformed e => e.message
  | repetition => "repetition limit exceeded"
  | severalDocuments => "deserializing from YAML containing more than one document is not supported"

end ReadError

end Yaml

end NetProfile
