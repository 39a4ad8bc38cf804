import NetProfile.Yaml.Token
import NetProfile.Yaml.Token.BlockScalar
import NetProfile.Yaml.Token.Tag

/-!
# Directives

Reads a line that starts with a percent sign and says something about the
document below: the version of the language, or a short name for tags.
-/

namespace NetProfile

namespace Yaml

/-- Reads a number of at most nine digits. -/
def scanVersionNumber (p : Position) (s : List Char) : Except SyntaxError (Piece Nat) :=
  let digits := takeRun Char.isDigit p s
  if digits.value.isEmpty then failAt p "did not find expected version number"
  else if 9 < digits.value.length then failAt p "found extremely long version number"
  else .ok { digits with value := digits.value.foldl (fun n c => 10 * n + (c.toNat - '0'.toNat)) 0 }

/-- Reads the two numbers of a version. -/
def scanVersion (p : Position) (s : List Char) : Except SyntaxError (Piece Token) := do
  let blanks := takeRun isSpace p s
  let major ← scanVersionNumber blanks.position blanks.rest
  match major.rest with
  | '.' :: rest =>
    let minor ← scanVersionNumber (major.position.right 1) rest
    return { minor with value := .versionDirective major.value minor.value }
  | _ => failAt major.position "did not find expected digit or '.' character"

/-- Reads a handle and what it is short for. -/
def scanTagDirective (p : Position) (s : List Char) : Except SyntaxError (Piece Token) := do
  let blanks := takeRun isSpace p s
  let handle ← scanTagHandle blanks.position blanks.rest
  if !(isClosedHandle handle.value || handle.value == ['!']) then
    failAt handle.position "did not find expected '!'"
  else if !(handle.rest.head?.any isSpace) then
    failAt handle.position "did not find expected whitespace"
  else
    let gap := takeRun isSpace handle.position handle.rest
    let lead ← scanTagText true false gap.position gap.rest
    if endsWord lead.rest then
      return { lead with value := .tagDirective (String.ofList handle.value) lead.value }
    else failAt lead.position "did not find expected whitespace or line break"

/-- Reads a directive behind its percent sign, and the rest of its line. -/
def scanDirective (p : Position) (s : List Char) : Except SyntaxError (Piece Token) := do
  let name := takeRun isNameChar p s
  if name.value.isEmpty then failAt p "could not find expected directive name"
  else if !endsWord name.rest then
    failAt name.position "found unexpected non-alphabetical character"
  else
    let directive ←
      if name.value = ['Y', 'A', 'M', 'L'] then scanVersion name.position name.rest
      else if name.value = ['T', 'A', 'G'] then scanTagDirective name.position name.rest
      else failAt name.position "found unknown directive name"
    let line ← endOfLine directive.position directive.rest
    return { line with value := directive.value }

end Yaml

end NetProfile
