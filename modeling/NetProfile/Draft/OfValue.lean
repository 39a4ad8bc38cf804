import NetProfile.Draft

/-!
# Reading drafts

Turns the values of a section into drafts.

## Main definitions

- `ShapeError` — a value that does not fit its place
- `readFields` — reads a mapping with fixed fields
- `Draft.ofValue`, `Draft.sectionOfValue`

## Design notes

Fields without a meaning here are passed over. An absent value in a field means
the same as leaving the field out.
-/

namespace NetProfile

open Yaml (Value)

/-- What a place in a section asks for. -/
inductive Expected where
  | mapping
  | text
  | truthValue
  /-- The name of a field. -/
  | field
  /-- A mapping with the fields of the structure called `name`. -/
  | fields (name : String)
  deriving DecidableEq, Repr

namespace Expected

/-- What is asked for, as messages call it. -/
def describe : Expected → String
  | mapping => "a map"
  | text => "a string"
  | truthValue => "a boolean"
  | field => "field identifier"
  | fields name => "struct " ++ name

end Expected

/-- A value that does not fit its place. -/
structure ShapeError where
  found : Value
  expected : Expected
  deriving DecidableEq, Repr

namespace ShapeError

/-- The error in words. -/
def message (e : ShapeError) : String :=
  "invalid type: " ++ e.found.describe ++ ", expected " ++ e.expected.describe

end ShapeError

/-- Reads a value as what a place asks for. -/
abbrev Shape (α : Type) := Value → Except ShapeError α

namespace Shape

/-- Admits the absent value. -/
def optional {α : Type} (read : Shape α) : Shape (Option α)
  | .null => .ok none
  | v => (read v).map some

/-- A truth value. -/
def truthValue : Shape Bool
  | .bool b => .ok b
  | v => .error ⟨v, .truthValue⟩

/-- A text. -/
def text : Shape String
  | .string s => .ok s
  | v => .error ⟨v, .text⟩

/-- The entries of a mapping whose keys are texts, with values read by `read`. -/
def entriesOf {α : Type} (read : Shape α) :
    List (Value × Value) → Except ShapeError (List (String × α))
  | [] => .ok []
  | (k, v) :: rest => do
    let key ← text k
    let value ← read v
    let entries ← entriesOf read rest
    return (key, value) :: entries

/-- A mapping whose keys are texts. -/
def mapping {α : Type} (read : Shape α) : Shape (List (String × α))
  | .mapping entries => entriesOf read entries
  | v => .error ⟨v, .mapping⟩

/-- Reads fields one after the other into `a`. -/
def readFields {α : Type} (set : α → String → Value → Except ShapeError α) :
    α → List (Value × Value) → Except ShapeError α
  | a, [] => .ok a
  | a, (.string name, v) :: rest =>
    match set a name v with
    | .ok a => readFields set a rest
    | .error e => .error e
  | _, (k, _) :: _ => .error ⟨k, .field⟩

/-- A mapping with the fields that `set` knows; `start` has none of them. -/
def fields {α : Type} (name : String) (set : α → String → Value → Except ShapeError α)
    (start : α) : Shape α
  | .mapping entries => readFields set start entries
  | v => .error ⟨v, .fields name⟩

end Shape

namespace Selector

/-- Sets a field of a selector. -/
def setField (s : Selector) (name : String) (v : Value) : Except ShapeError Selector :=
  if name = "name" then .ok { s with name := v.scalarText? } else .ok s

/-- The selector in a value. -/
def ofValue : Shape Selector := Shape.fields "MatchYaml" setField {}

end Selector

namespace DraftSettings

/-- Sets a field of the settings. -/
def setField (s : DraftSettings) (name : String) (v : Value) : Except ShapeError DraftSettings :=
  if name = "uuid" then .ok { s with uuid := v.scalarText? }
  else if name = "name" then .ok { s with name := v.scalarText? }
  else if name = "passthrough" then do
    let entries ← Shape.optional (Shape.mapping .ok) v
    return { s with passthrough := entries.getD [] }
  else .ok s

/-- The settings in a value. -/
def ofValue : Shape DraftSettings := Shape.fields "NetworkManagerYaml" setField {}

end DraftSettings

namespace DraftAccessPoint

/-- Sets a field of an access point. -/
def setField (ap : DraftAccessPoint) (name : String) (v : Value) :
    Except ShapeError DraftAccessPoint :=
  if name = "hidden" then do
    return { ap with hidden := ← Shape.optional Shape.truthValue v }
  else if name = "mode" then do
    return { ap with mode := ← Shape.optional Shape.text v }
  else if name = "networkmanager" then do
    return { ap with settings := ← Shape.optional DraftSettings.ofValue v }
  else .ok ap

/-- The access point in a value; an absent one has no fields. -/
def ofValue : Shape DraftAccessPoint
  | .null => .ok {}
  | v => Shape.fields "AccessPointYaml" setField {} v

end DraftAccessPoint

namespace Draft

/-- Sets a field of a draft. -/
def setField (d : Draft) (name : String) (v : Value) : Except ShapeError Draft :=
  if name = "renderer" then do
    return { d with renderer := ← Shape.optional Shape.text v }
  else if name = "match" then do
    return { d with selector := ← Shape.optional Selector.ofValue v }
  else if name = "wakeonlan" then do
    return { d with wakeOnLan := ← Shape.optional Shape.truthValue v }
  else if name = "auto-config" then do
    return { d with autoConfig := ← Shape.optional Shape.truthValue v }
  else if name = "apn" then .ok { d with apn := v.scalarText? }
  else if name = "device-id" then .ok { d with deviceId := v.scalarText? }
  else if name = "network-id" then .ok { d with networkId := v.scalarText? }
  else if name = "pin" then .ok { d with pin := v.scalarText? }
  else if name = "sim-id" then .ok { d with simId := v.scalarText? }
  else if name = "sim-operator-id" then .ok { d with simOperatorId := v.scalarText? }
  else if name = "access-points" then do
    let entries ← Shape.optional (Shape.mapping DraftAccessPoint.ofValue) v
    return { d with accessPoints := entries.getD [] }
  else if name = "networkmanager" then do
    return { d with settings := ← Shape.optional DraftSettings.ofValue v }
  else .ok d

/-- The draft in a value; an absent one has no fields. -/
def ofValue : Shape Draft
  | .null => .ok {}
  | v => Shape.fields "DefinitionYaml" setField {} v

/-- The drafts of a section under their ids; an absent section has none. -/
def sectionOfValue : Shape (List (String × Draft))
  | .null => .ok []
  | v => Shape.mapping ofValue v

end Draft

end NetProfile
