import NetProfile.Text.Percent

/-!
# Paths of generated profiles

NetworkManager keeps the profiles that were generated from definitions in one
directory, each in a file named after its definition, and after the network too
when the profile is wireless.

## Main definitions

- `ProfilePath.definitionId?` — the id of the definition behind a path
-/

namespace NetProfile

namespace ProfilePath

/-- What every path of a generated profile starts with. -/
def lead : String := "/run/NetworkManager/system-connections/netplan-"

/-- The file name extension of profiles. -/
def extension : String := ".nmconnection"

/-- What follows the id: the escaped name of the network, if there is one, and
the extension. -/
def tail (ssid : Option String) : List Char :=
  match ssid with
  | some name => '-' :: (Text.percentEncode name.toList ++ extension.toList)
  | none => extension.toList

/-- The text after `start`, if `s` starts with it. -/
def afterStart? : List Char → List Char → Option (List Char)
  | [], s => some s
  | c :: start, d :: s => if c = d then afterStart? start s else none
  | _ :: _, [] => none

/-- The text before the last occurrence of `part`. -/
def beforeLast? (part : List Char) : List Char → Option (List Char)
  | [] => if part.isEmpty then some [] else none
  | c :: rest =>
    match beforeLast? part rest with
    | some before => some (c :: before)
    | none => if part.isPrefixOf (c :: rest) then some [] else none

/-- The id of the definition that the profile at `path` was generated from; the
name of its network has to be given for a wireless profile. -/
def definitionId? (path : String) (ssid : Option String) : Option String :=
  match afterStart? lead.toList path.toList with
  | some rest => (beforeLast? (tail ssid) rest).map String.ofList
  | none => none

end ProfilePath

end NetProfile
