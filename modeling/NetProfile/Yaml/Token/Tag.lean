import NetProfile.Text.Hex
import NetProfile.Yaml.Character
import NetProfile.Yaml.Position
import NetProfile.Yaml.Tag

/-!
# Written tags

Reads the tag of a node: `!` alone, a short form `!name`, `!!name` or
`!handle!name`, or the full form `!<...>`. Bytes may be written as a percent sign
and two hexadecimal digits.

## Main definitions

- `Yaml.scanTag` — reads a tag as a handle and the rest
- `Yaml.scanTagHandle`, `Yaml.scanTagText` — its two parts
-/

namespace NetProfile

namespace Yaml

/-- A tag as written. The handle of a full tag is empty. -/
structure WrittenTag where
  handle : List Char
  suffix : Tag
  deriving DecidableEq, Repr

/-- Characters of tags that stand for themselves; `full` admits those that would
end a short tag in a flow collection. -/
def isTagChar (full : Bool) (c : Char) : Bool :=
  isNameChar c || ";/?:@&=+$.!~*'()".toList.contains c || (full && ",[]".toList.contains c)

/-- How many bytes a character has whose first byte is `b`. -/
def byteLength? (b : Nat) : Option Nat :=
  if b < 0x80 then some 1
  else if 0xC0 ≤ b ∧ b < 0xE0 then some 2
  else if 0xE0 ≤ b ∧ b < 0xF0 then some 3
  else if 0xF0 ≤ b ∧ b < 0xF8 then some 4
  else none

/-- Reads the text of a tag into bytes, last byte first. `owed` bytes of a
character that was begun with an escape are still to come. -/
def tagBytesFrom (full : Bool) (owed : Nat) (acc : List UInt8) (p : Position) :
    List Char → Except SyntaxError (Piece (List UInt8))
  | '%' :: h :: l :: rest =>
    match Text.hexDigitValue? h, Text.hexDigitValue? l with
    | some h, some l =>
      let b := 16 * h + l
      match owed with
      | 0 =>
        match byteLength? b with
        | some n => tagBytesFrom full (n - 1) (b.toUInt8 :: acc) (p.right 3) rest
        | none => failAt p "found an incorrect leading UTF-8 octet"
      | n + 1 =>
        if 0x80 ≤ b ∧ b < 0xC0 then tagBytesFrom full n (b.toUInt8 :: acc) (p.right 3) rest
        else failAt p "found an incorrect trailing UTF-8 octet"
    | _, _ => failAt p "did not find URI escaped octet"
  | c :: rest =>
    if c = '%' ∨ 0 < owed then failAt p "did not find URI escaped octet"
    else if isTagChar full c then tagBytesFrom full 0 (c.toNat.toUInt8 :: acc) (p.right 1) rest
    else .ok ⟨acc, c :: rest, p⟩
  | [] => if 0 < owed then failAt p "did not find URI escaped octet" else .ok ⟨acc, [], p⟩

/-- Reads the text of a tag. There has to be one, unless `optional`. -/
def scanTagText (full optional : Bool) (p : Position) (s : List Char) :
    Except SyntaxError (Piece Tag) := do
  let bytes ← tagBytesFrom full 0 [] p s
  if bytes.value.isEmpty && !optional then failAt p "did not find expected tag URI"
  else return { bytes with value := Tag.spelling bytes.value.reverse }

/-- Reads an exclamation mark and the name behind it, with the second mark that
makes it a handle. -/
def scanTagHandle (p : Position) : List Char → Except SyntaxError (Piece (List Char))
  | '!' :: rest =>
    let name := takeRun isNameChar (p.right 1) rest
    match name.rest with
    | '!' :: rest' => .ok ⟨'!' :: (name.value ++ ['!']), rest', name.position.right 1⟩
    | _ => .ok ⟨'!' :: name.value, name.rest, name.position⟩
  | _ => failAt p "did not find expected '!'"

/-- Whether the text is a handle with a mark at both ends. -/
def isClosedHandle (handle : List Char) : Bool :=
  2 ≤ handle.length && handle.getLast? == some '!'

/-- Reads a short tag. The name of an open handle belongs to the rest of the tag,
and a mark with nothing behind it is a tag of its own. -/
def scanShortTag (p : Position) (s : List Char) : Except SyntaxError (Piece WrittenTag) := do
  let handle ← scanTagHandle p s
  if isClosedHandle handle.value then
    let text ← scanTagText false false handle.position handle.rest
    return { text with value := ⟨handle.value, text.value⟩ }
  else
    let text ← scanTagText false true handle.position handle.rest
    let suffix := Tag.ofString (String.ofList (handle.value.drop 1)) ++ text.value
    let tag : WrittenTag := if suffix = .empty then ⟨[], .mark⟩ else ⟨['!'], suffix⟩
    return { text with value := tag }

/-- Reads a tag written in full, behind its opening bracket. -/
def scanFullTag (p : Position) (s : List Char) : Except SyntaxError (Piece WrittenTag) := do
  let text ← scanTagText true false p s
  match text.rest with
  | '>' :: rest => return ⟨⟨[], text.value⟩, rest, text.position.right 1⟩
  | _ => failAt text.position "did not find the expected '>'"

/-- Reads a tag and checks what follows it. -/
def scanTag (inFlow : Bool) (p : Position) (s : List Char) : Except SyntaxError (Piece WrittenTag) := do
  let tag ←
    match s with
    | '!' :: '<' :: rest => scanFullTag (p.right 2) rest
    | _ => scanShortTag p s
  if endsWord tag.rest || (inFlow && tag.rest.head? == some ',') then return tag
  else failAt tag.position "did not find expected whitespace or line break"

end Yaml

end NetProfile
