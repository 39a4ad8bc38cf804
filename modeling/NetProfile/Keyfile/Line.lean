import NetProfile.Text.Blank

/-!
# Lines of a profile

A profile is read line by line, each line on its own: blank lines and comments
say nothing, `[name]` opens a group, and `key = value` adds a setting.

## Main definitions

- `Keyfile.Line` — what one line says
- `Keyfile.Line.ofChars` — reads a line
-/

namespace NetProfile

namespace Keyfile

/-- What a line says. -/
inductive Line where
  /-- A blank line or a comment. -/
  | skip
  /-- A group header. -/
  | header (name : String)
  /-- A setting; the key may still be empty. -/
  | entry (key value : String)
  /-- Neither of these. -/
  | unknown (text : String)
  deriving DecidableEq, Repr

namespace Line

/-- Square brackets, which no group name contains. -/
def isBracket (c : Char) : Bool := c == '[' || c == ']'

/-- The name between the brackets of a group header. -/
def headerName? : List Char → Option (List Char)
  | '[' :: rest =>
    let name := rest.takeWhile (fun c => !isBracket c)
    if name ≠ [] ∧ rest.dropWhile (fun c => !isBracket c) = [']'] then some name else none
  | _ => none

/-- The key before and the value after the first `=`, without the blanks around it. -/
def keyValue? (line : List Char) : Option (List Char × List Char) :=
  match line.dropWhile (· != '=') with
  | [] => none
  | _ :: value => some (Text.trimEnd (line.takeWhile (· != '=')), Text.trimStart value)

/-- What a line without leading and trailing blanks says. A header is recognised
first, so `[a=b]` opens a group. -/
def ofTrimmed (line : List Char) : Line :=
  if line.isEmpty || line.head? == some '#' then skip
  else
    match headerName? line with
    | some name => header (String.ofList name)
    | none =>
      match keyValue? line with
      | some (key, value) => entry (String.ofList key) (String.ofList value)
      | none => unknown (String.ofList line)

/-- What a line says; blanks at its ends do not count. -/
def ofChars (line : List Char) : Line := ofTrimmed (Text.trim line)

end Line

end Keyfile

end NetProfile
