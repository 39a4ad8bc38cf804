import NetProfile.Definition
import NetProfile.Log
import NetProfile.Yaml.Writer

/-!
# Documents of definitions

Writes one definition as a complete document: the version, the section of the
definition's kind, and in it the definition under its id.

## Main definitions

- `Definition.script` — what is written and warned about, in order
- `Script.play` — plays a script on a writer
- `Definition.writeTo`, `Definition.render` — a whole document

## Design notes

A warning is raised where the script reaches it, so a sink that fails earlier
hides it.
-/

namespace NetProfile

open Yaml (Event Writer WriteError)

/-- A value that was replaced by a fallback while a definition was written. -/
inductive Warning where
  /-- The mode of an access point has no name in documents. -/
  | unsupportedMode (id ssid : String)
  deriving DecidableEq, Repr

namespace Warning

/-- The warning in words. -/
def message : Warning → String
  | unsupportedMode id ssid =>
    id ++ " (SSID " ++ ssid ++ "), unsupported AP mode, falling back to 'infrastructure'"

/-- The record of the warning. -/
def log (w : Warning) : LogRecord := .warning ("netplan: serialize: " ++ w.message)

end Warning

/-- A step of writing a definition. -/
inductive Step where
  /-- Something is written. -/
  | write (e : Event)
  /-- A fallback is about to be written. -/
  | warn (w : Warning)
  deriving DecidableEq, Repr

/-- Steps in the order in which they are taken. -/
abbrev Script := List Step

namespace Script

/-- Opens a mapping. -/
def opening : Script := [.write .openMapping]

/-- Closes a mapping. -/
def closing : Script := [.write .closeMapping]

/-- A scalar without quotes where that is safe. -/
def plain (text : String) : Script := [.write (.plain text)]

/-- A scalar between quotes. -/
def quoted (text : String) : Script := [.write (.quoted text)]

/-- A key with a plain value. -/
def plainPair (key value : String) : Script := plain key ++ plain value

/-- A key with a quoted value. -/
def quotedPair (key value : String) : Script := plain key ++ quoted value

/-- A key with a mapping. -/
def block (key : Script) (body : Script) : Script := key ++ opening ++ body ++ closing

/-- A flag, written only when it is set. -/
def flag (key : String) (value : Bool) : Script := if value then plainPair key "true" else []

/-- A quoted setting, written only when it is set. -/
def setting (key : String) (value : Option String) : Script :=
  match value with
  | some text => quotedPair key text
  | none => []

/-- The outcome of a script. -/
structure Outcome where
  /-- The writer afterwards. -/
  writer : Writer
  /-- The warnings reached. -/
  warnings : List Warning
  /-- The failure that stopped the script, if one did. -/
  result : Except WriteError Unit

/-- Takes the steps in order until one fails. -/
def play (w : Writer) : Script → Outcome
  | [] => ⟨w, [], .ok ()⟩
  | .warn warning :: rest =>
    let out := play w rest
    { out with warnings := warning :: out.warnings }
  | .write e :: rest =>
    match w.step e with
    | (w', .ok ()) => play w' rest
    | (w', .error err) => ⟨w', [], .error err⟩

end Script

open Script

namespace Passthrough

/-- Every pair in order, the value between quotes. -/
def script (p : Passthrough) : Script := p.toList.flatMap (fun entry => quotedPair entry.1 entry.2)

end Passthrough

namespace Settings

/-- The block of settings; nothing when there is none. -/
def script (s : Settings) : Script :=
  if s.isEmpty then []
  else
    block (plain "networkmanager")
      ((match s.uuid with
        | some uuid => plainPair "uuid" uuid
        | none => [])
      ++ setting "name" s.name
      ++ (if s.passthrough.isEmpty then []
          else block (plain "passthrough") (Passthrough.script s.passthrough)))

end Settings

namespace AccessPoint

/-- The mode that stands in for one without a name. -/
def fallbackMode : String := "infrastructure"

/-- The access point under its network name, in the definition `id`. -/
def script (id : String) (ap : AccessPoint) : Script :=
  block (quoted ap.ssid)
    (flag "hidden" ap.hidden
    ++ (match ap.mode.name? with
        | some mode => plainPair "mode" mode
        | none => .warn (.unsupportedMode id ap.ssid) :: plainPair "mode" fallbackMode)
    ++ ap.settings.script)

end AccessPoint

namespace Modem

/-- The parameters that are set. -/
def script (m : Modem) : Script :=
  flag "auto-config" m.autoConfig
  ++ setting "apn" m.apn
  ++ setting "device-id" m.deviceId
  ++ setting "network-id" m.networkId
  ++ setting "pin" m.pin
  ++ setting "sim-id" m.simId
  ++ setting "sim-operator-id" m.simOperatorId

end Modem

namespace Selector

/-- The selector, with or without a name. -/
def script (s : Selector) : Script := block (plain "match") (setting "name" s.name)

end Selector

namespace Definition

/-- The settings that a definition of a modelled kind has. -/
def fieldScript (d : Definition) : Script :=
  (match d.selector with
   | some selector => selector.script
   | none => [])
  ++ flag "wakeonlan" d.wakeOnLan
  ++ d.modem.script
  ++ (if d.kind = .wifi then
        block (plain "access-points") (d.accessPoints.values.flatMap (AccessPoint.script d.id))
      else [])

/-- The version of the document format. -/
def formatVersion : String := "2"

/-- The whole document. A definition of kind `other` has passed-through settings only. -/
def script (d : Definition) : Script :=
  opening
  ++ block (plain "network")
      (plainPair "version" formatVersion
      ++ block (plain d.kind.keyword)
          (block (plain d.id)
            (plainPair "renderer" d.backend.name
            ++ (if d.kind = .other then [] else d.fieldScript)
            ++ d.settings.script)))
  ++ closing

/-- Writes the document into a sink and ends it. -/
def writeTo (d : Definition) (sink : Sink) : Outcome :=
  let out := play { sink } d.script
  match out.result with
  | .error _ => out
  | .ok () => { out with result := out.writer.finish }

/-- The document as text. -/
structure Rendering where
  text : String
  warnings : List Warning
  deriving DecidableEq, Repr

/-- The text in a sink; the empty text when its bytes are not a text. -/
def textOf (bytes : ByteArray) : String := (String.fromUTF8? bytes).getD ""

/-- Renders the document into a text. -/
def render (d : Definition) : Except WriteError Rendering :=
  let out := d.writeTo {}
  out.result.map (fun _ => ⟨textOf out.writer.sink.bytes, out.warnings⟩)

/-- The name of the file that the document goes to. Definitions that come from
NetworkManager sort behind the others and so take precedence. -/
def fileName (d : Definition) : String :=
  match d.settings.uuid with
  | some uuid => "90-NM-" ++ uuid ++ ".yaml"
  | none => "10-netplan-" ++ d.id ++ ".yaml"

end Definition

end NetProfile
