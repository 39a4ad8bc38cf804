import NetProfile.OrderedMap
import NetProfile.Text.Blank
import NetProfile.Keyfile.Escape
import NetProfile.Keyfile.Line

/-!
# Connection profiles

A profile holds groups of settings, both in the order of the file. Values are
kept as written; the typed reads resolve what is written.

## Main definitions

- `Keyfile` — groups of settings
- `Keyfile.parse` — reads a profile
- `Keyfile.string?`, `Keyfile.bool?`, `Keyfile.word64?` — typed reads
- `Keyfile.remove`, `Keyfile.clear` — removes a setting that has been dealt with
- `KeyfileError` — why a profile cannot be read or imported
-/

namespace NetProfile

/-- Why a line of a profile is refused. -/
inductive LineFault where
  /-- Neither a group header nor a setting. -/
  | unknown (text : String)
  /-- A setting without a key. -/
  | emptyKey
  /-- A setting before the first group header. -/
  | outsideGroup (key : String)
  deriving DecidableEq, Repr

namespace LineFault

/-- The fault in words. -/
def message : LineFault → String
  | unknown text => "expected group header or key=value, found '" ++ text ++ "'"
  | emptyKey => "empty key name"
  | outsideGroup key => "key '" ++ key ++ "' outside of any group"

end LineFault

/-- Why a profile cannot be read or imported. -/
inductive KeyfileError where
  /-- Line `line`, counted from one, is refused. -/
  | line (line : Nat) (fault : LineFault)
  /-- A setting that every profile needs is absent or unreadable. -/
  | missingKey (group key : String)
  /-- A wireless profile does not name its network. -/
  | missingSsid
  deriving DecidableEq, Repr

namespace KeyfileError

/-- The error in words. -/
def message : KeyfileError → String
  | line n fault => "line " ++ toString n ++ ": " ++ fault.message
  | missingKey group key => "cannot find " ++ group ++ "." ++ key
  | missingSsid => "cannot find SSID for WiFi connection"

end KeyfileError

/-- Groups of settings in file order. A group may have no settings. -/
structure Keyfile where
  groups : OrderedMap String (OrderedMap String String) := ∅
  deriving DecidableEq, Repr, Inhabited

namespace Keyfile

/-- Adds the group `name` unless it is there. -/
def openGroup (kf : Keyfile) (name : String) : Keyfile :=
  if kf.groups.contains name then kf else ⟨kf.groups.insert name ∅⟩

/-- The settings of a group; none for a group that is absent. -/
def settings (kf : Keyfile) (group : String) : OrderedMap String String :=
  (kf.groups.find? group).getD ∅

/-- Stores a written value; a repeated key takes the new value in its old place. -/
def put (kf : Keyfile) (group key value : String) : Keyfile :=
  ⟨kf.groups.insert group ((kf.settings group).insert key value)⟩

/-- The profile read so far and the group that new settings go to. -/
structure Progress where
  keyfile : Keyfile := {}
  current : Option String := none
  deriving DecidableEq, Repr, Inhabited

/-- Reads one more line. A repeated header continues its group. -/
def Progress.add (p : Progress) : Line → Except LineFault Progress
  | .skip => .ok p
  | .header name => .ok ⟨p.keyfile.openGroup name, some name⟩
  | .unknown text => .error (.unknown text)
  | .entry key value =>
    if key = "" then .error .emptyKey
    else
      match p.current with
      | none => .error (.outsideGroup key)
      | some group => .ok { p with keyfile := p.keyfile.put group key value }

/-- Reads the lines from number `n` on and stops at the first that is refused. -/
def parseLines (n : Nat) (p : Progress) : List (List Char) → Except KeyfileError Keyfile
  | [] => .ok p.keyfile
  | line :: rest =>
    match p.add (Line.ofChars line) with
    | .error fault => .error (.line n fault)
    | .ok p' => parseLines (n + 1) p' rest

/-- Reads a profile. -/
def parse (content : String) : Except KeyfileError Keyfile :=
  parseLines 1 {} (Text.lines content.toList)

/-- The group names in file order. -/
def groupNames (kf : Keyfile) : List String := kf.groups.keys

/-- The keys of a group in file order; none for a group that is absent. -/
def keys (kf : Keyfile) (group : String) : List String := (kf.settings group).keys

/-- Whether the group is present, with or without settings. -/
def hasGroup (kf : Keyfile) (group : String) : Bool := kf.groups.contains group

/-- The value as written. -/
def raw? (kf : Keyfile) (group key : String) : Option String :=
  (kf.groups.find? group).bind (·.find? key)

/-- A written value is found under its own group and key and hides no other. -/
theorem raw?_put (kf : Keyfile) (g k v g' k' : String) :
    (kf.put g k v).raw? g' k' = if g = g' ∧ k = k' then some v else kf.raw? g' k' := by
  unfold put raw? settings
  rw [OrderedMap.find?_insert]
  by_cases hg : g = g'
  · subst hg
    cases h : kf.groups.find? g with
    | none =>
      simp [OrderedMap.find?, OrderedMap.lookup?, OrderedMap.lookup?_putEntry]
    | some entries => simp [OrderedMap.find?_insert]
  · simp [hg]

/-- Whether the setting is present, readable or not. -/
def hasKey (kf : Keyfile) (group key : String) : Bool := (kf.raw? group key).isSome

/-- The value with its escapes resolved; none when the setting is absent or holds
an invalid escape. -/
def string? (kf : Keyfile) (group key : String) : Option String :=
  ((kf.raw? group key).bind (fun value => unescape value.toList)).map String.ofList

/-- Reads a truth value: `true` and `1`, `false` and `0`. -/
def boolOfRaw? (value : String) : Option Bool :=
  if value = "true" ∨ value = "1" then some true
  else if value = "false" ∨ value = "0" then some false
  else none

/-- The setting as a truth value. -/
def bool? (kf : Keyfile) (group key : String) : Option Bool :=
  (kf.raw? group key).bind boolOfRaw?

/-- The number that a list of decimal digits stands for. -/
def digitsValue? (digits : List Char) : Option Nat :=
  if digits ≠ [] ∧ digits.all Char.isDigit then
    some (digits.foldl (fun n c => 10 * n + (c.toNat - '0'.toNat)) 0)
  else none

/-- Reads a number below 2^64: decimal digits after an optional plus sign, with
blanks around. -/
def word64OfRaw? (value : String) : Option Nat :=
  let text := Text.trim value.toList
  let digits := if text.head? = some '+' then text.drop 1 else text
  (digitsValue? digits).filter (· < Nat.pow 2 64)

/-- The setting as a number below 2^64. -/
def word64? (kf : Keyfile) (group key : String) : Option Nat :=
  (kf.raw? group key).bind word64OfRaw?

/-- Removes a setting and tells whether it was there. A group left without settings
goes too, even when the setting was not there. -/
def remove (kf : Keyfile) (group key : String) : Bool × Keyfile :=
  match kf.groups.find? group with
  | none => (false, kf)
  | some entries =>
    let rest := entries.erase key
    ((entries.find? key).isSome,
      if rest.isEmpty then ⟨kf.groups.erase group⟩ else ⟨kf.groups.insert group rest⟩)

/-- What is left when a setting is removed. -/
def clear (kf : Keyfile) (group key : String) : Keyfile := (kf.remove group key).2

/-- A removal tells whether the setting was there. -/
theorem fst_remove (kf : Keyfile) (group key : String) :
    (kf.remove group key).1 = kf.hasKey group key := by
  unfold remove hasKey raw?
  cases kf.groups.find? group with
  | none => rfl
  | some entries => rfl

/-- A removed setting is found no more, and all others are found as before. -/
theorem raw?_clear (kf : Keyfile) (g k g' k' : String) :
    (kf.clear g k).raw? g' k' = if g' = g ∧ k' = k then none else kf.raw? g' k' := by
  unfold clear remove raw?
  cases h : kf.groups.find? g with
  | none =>
    by_cases hg : g' = g
    · subst hg
      simp [h]
    · simp [hg]
  | some entries =>
    by_cases hg : g' = g
    · subst hg
      have hfind := entries.find?_erase k k'
      by_cases he : (entries.erase k).isEmpty
      · have hnil : (entries.erase k).toList = [] := List.isEmpty_iff.1 he
        rw [OrderedMap.find?, hnil, OrderedMap.lookup?] at hfind
        simpa [he, h, OrderedMap.find?_erase] using hfind
      · simpa [he, h, OrderedMap.find?_insert] using hfind
    · have hne : ¬g = g' := fun e => hg e.symm
      by_cases he : (entries.erase k).isEmpty
      · simp [he, hg, OrderedMap.find?_erase]
      · simp [he, hg, hne, OrderedMap.find?_insert]

/-- Reads a string and, if that succeeds, removes the setting. -/
def take (kf : Keyfile) (group key : String) : Option String × Keyfile :=
  match kf.string? group key with
  | some value => (some value, kf.clear group key)
  | none => (none, kf)

end Keyfile

end NetProfile
