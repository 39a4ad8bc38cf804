/-!
# Escapes in profile values

A value may write a space, a newline, a tab, a carriage return and a backslash
as a backslash followed by one character.
-/

namespace NetProfile

namespace Keyfile

/-- The character that a backslash followed by `c` stands for. -/
def escapedChar? (c : Char) : Option Char :=
  match c with
  | 's' => some ' '
  | 'n' => some '\n'
  | 't' => some '\t'
  | 'r' => some '\r'
  | '\\' => some '\\'
  | _ => none

/-- The text that a written value stands for; none when a backslash is followed
by nothing or by a character that no escape has. -/
def unescape : List Char → Option (List Char)
  | [] => some []
  | c :: rest =>
    if c = '\\' then
      match rest with
      | [] => none
      | e :: rest' =>
        match escapedChar? e, unescape rest' with
        | some x, some text => some (x :: text)
        | _, _ => none
    else (unescape rest).map (c :: ·)

end Keyfile

end NetProfile
