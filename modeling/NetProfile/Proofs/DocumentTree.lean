import NetProfile.Document
import NetProfile.Proofs.WriterAcceptance

/-!
# The document of a definition

What a definition's document is, as a mapping tree, and that the script of a
definition writes that tree wherever a mapping may be opened.

## Main definitions

- `Definition.tree` — the document
- `Definition.warnings` — the fallbacks in the document
- `Script.events`, `Script.warnings` — what a script writes and what it warns about

## Main results

- `Definition.events_script` — the script writes the tree
- `Definition.play_script` — the script on any writer over a sink that never fails
- `Definition.render_eq` — the document as text
-/

namespace NetProfile

open Yaml (Content Event Layout MappingTree Scalar ScalarStyle Writer WriteError)

namespace Yaml

/-- A scalar without quotes where that is safe. -/
def Scalar.bare (text : String) : Scalar := ⟨.plain, text⟩

/-- A scalar between quotes. -/
def Scalar.quoted (text : String) : Scalar := ⟨.quoted, text⟩

namespace MappingTree

/-- An entry with a plain value. -/
def bareEntry (key value : String) : MappingTree := [(.bare key, .scalar (.bare value))]

/-- An entry with a quoted value. -/
def quotedEntry (key value : String) : MappingTree := [(.bare key, .scalar (.quoted value))]

/-- An entry whose value is a mapping. -/
def nested (key : Scalar) (t : MappingTree) : MappingTree := [(key, .mapping t)]

/-- A flag, which is there only when it is set. -/
def flagEntry (key : String) (value : Bool) : MappingTree := if value then bareEntry key "true" else []

/-- A quoted setting, which is there only when it is set. -/
def optionalEntry (key : String) (value : Option String) : MappingTree :=
  match value with
  | some text => quotedEntry key text
  | none => []

/-- A plain setting, which is there only when it is set. -/
def optionalBareEntry (key : String) (value : Option String) : MappingTree :=
  match value with
  | some text => bareEntry key text
  | none => []

end MappingTree

end Yaml

open Yaml.MappingTree (bareEntry quotedEntry nested flagEntry optionalEntry optionalBareEntry
  entryEvents)

/-- Every passed-through pair once, in order. -/
def Passthrough.tree (p : Passthrough) : MappingTree :=
  p.toList.map (fun entry => (.bare entry.1, .scalar (.quoted entry.2)))

/-- The block of settings, which is not there when there is nothing in it. -/
def Settings.tree (s : Settings) : MappingTree :=
  if s.isEmpty then []
  else
    nested (.bare "networkmanager")
      (optionalBareEntry "uuid" s.uuid
      ++ optionalEntry "name" s.name
      ++ (if s.passthrough.isEmpty then []
          else nested (.bare "passthrough") (Passthrough.tree s.passthrough)))

/-- An access point under its network name. -/
def AccessPoint.tree (ap : AccessPoint) : MappingTree :=
  nested (.quoted ap.ssid)
    (flagEntry "hidden" ap.hidden
    ++ bareEntry "mode" (ap.mode.name?.getD AccessPoint.fallbackMode)
    ++ ap.settings.tree)

/-- The modem parameters that are set. -/
def Modem.tree (m : Modem) : MappingTree :=
  flagEntry "auto-config" m.autoConfig
  ++ optionalEntry "apn" m.apn
  ++ optionalEntry "device-id" m.deviceId
  ++ optionalEntry "network-id" m.networkId
  ++ optionalEntry "pin" m.pin
  ++ optionalEntry "sim-id" m.simId
  ++ optionalEntry "sim-operator-id" m.simOperatorId

namespace Definition

/-- The selector, which is there only when it is set. -/
def selectorTree (d : Definition) : MappingTree :=
  match d.selector with
  | some selector => nested (.bare "match") (optionalEntry "name" selector.name)
  | none => []

/-- The settings of a modelled kind. -/
def fieldTree (d : Definition) : MappingTree :=
  d.selectorTree
  ++ flagEntry "wakeonlan" d.wakeOnLan
  ++ d.modem.tree
  ++ (if d.kind = .wifi then
        nested (.bare "access-points") (d.accessPoints.values.flatMap AccessPoint.tree)
      else [])

/-- What stands under the id of the definition. -/
def bodyTree (d : Definition) : MappingTree :=
  bareEntry "renderer" d.backend.name
  ++ (if d.kind = .other then [] else d.fieldTree)
  ++ d.settings.tree

/-- The document. -/
def tree (d : Definition) : MappingTree :=
  nested (.bare "network")
    (bareEntry "version" formatVersion
    ++ nested (.bare d.kind.keyword) (nested (.bare d.id) d.bodyTree))

/-- The fallbacks in the document: a mode for each access point that has one
without a name. -/
def warnings (d : Definition) : List Warning :=
  if d.kind = .wifi then
    (d.accessPoints.values.filter (fun ap => ap.mode.name?.isNone)).map
      (fun ap => .unsupportedMode d.id ap.ssid)
  else []

end Definition

namespace Script

/-- What the script writes. -/
def events (s : Script) : List Event :=
  s.filterMap (fun step =>
    match step with
    | .write e => some e
    | .warn _ => none)

/-- What the script warns about. -/
def warnings (s : Script) : List Warning :=
  s.filterMap (fun step =>
    match step with
    | .write _ => none
    | .warn w => some w)

@[simp]
theorem events_append (s t : Script) : (s ++ t).events = s.events ++ t.events :=
  List.filterMap_append

@[simp]
theorem warnings_append (s t : Script) : (s ++ t).warnings = s.warnings ++ t.warnings :=
  List.filterMap_append

@[simp]
theorem events_nil : events [] = [] := rfl

@[simp]
theorem warnings_nil : warnings [] = [] := rfl

/-- A script whose events are all taken is played to its end. -/
theorem play_of_feed {w w' : Writer} {s : Script} (h : w.feed s.events = (w', .ok ())) :
    play w s = ⟨w', s.warnings, .ok ()⟩ := by
  induction s generalizing w with
  | nil =>
    rw [events_nil, Writer.feed, Prod.mk.injEq] at h
    rw [← h.1]
    rfl
  | cons step rest ih =>
    rcases step with e | warning
    · change w.feed (e :: events rest) = (w', .ok ()) at h
      rw [Writer.feed] at h
      rw [play]
      rcases hstep : w.step e with ⟨w₁, err | ⟨⟨⟩⟩⟩
      · rw [hstep] at h
        exact absurd (congrArg Prod.snd h) (by simp)
      · rw [hstep] at h
        exact ih h
    · rw [play, ih h]
      rfl

theorem play_of_refused {w w' : Writer} {e : Event} {err : WriteError} (s : Script)
    (h : w.step e = (w', .error err)) : play w (.write e :: s) = ⟨w', [], .error err⟩ := by
  rw [play, h]

section Pieces

variable (key value : String)

theorem events_plainPair : (plainPair key value).events = entryEvents (bareEntry key value) := rfl

theorem events_block {body : Script} {t : MappingTree} (k : Scalar)
    (h : body.events = entryEvents t) :
    (Script.block [.write k.event] body).events = entryEvents (nested k t) := by
  simp only [Script.block, events_append, h, nested, Yaml.MappingTree.entryEvents_cons_mapping,
    Yaml.MappingTree.entryEvents_nil]
  simp [opening, closing, events]

theorem warnings_block (k body : Script) :
    (Script.block k body).warnings = k.warnings ++ body.warnings := by
  simp [Script.block, opening, closing, warnings]

theorem events_flag (b : Bool) : (Script.flag key b).events = entryEvents (flagEntry key b) := by
  cases b with
  | false => rfl
  | true => rfl

theorem warnings_flag (b : Bool) : (Script.flag key b).warnings = [] := by
  cases b with
  | false => rfl
  | true => rfl

theorem events_setting (v : Option String) :
    (Script.setting key v).events = entryEvents (optionalEntry key v) := by
  cases v with
  | none => rfl
  | some text => rfl

theorem warnings_setting (v : Option String) : (Script.setting key v).warnings = [] := by
  cases v with
  | none => rfl
  | some text => rfl

end Pieces

end Script

open Script (events_append events_plainPair events_block events_flag events_setting
  warnings_append warnings_block warnings_flag warnings_setting)
open Yaml.MappingTree (entryEvents_append)

theorem Passthrough.events_script (p : Passthrough) :
    (Passthrough.script p).events = entryEvents (Passthrough.tree p) := by
  rw [Passthrough.script, Passthrough.tree]
  induction p.toList with
  | nil => rfl
  | cons entry rest ih =>
    rw [List.flatMap_cons, events_append, ih]
    rfl

theorem Passthrough.warnings_script (p : Passthrough) : (Passthrough.script p).warnings = [] := by
  rw [Passthrough.script]
  induction p.toList with
  | nil => rfl
  | cons entry rest ih =>
    rw [List.flatMap_cons, warnings_append, ih]
    rfl

namespace Settings

/-- The block of settings is written as its tree. -/
theorem events_script (s : Settings) : s.script.events = entryEvents s.tree := by
  rw [script, tree]
  split
  · rfl
  refine events_block (.bare "networkmanager") ?_
  simp only [events_append, entryEvents_append, events_setting]
  congr 1
  · congr 1
    cases s.uuid with
    | none => rfl
    | some uuid => rfl
  · split
    · rfl
    · exact events_block (.bare "passthrough") s.passthrough.events_script

theorem warnings_script (s : Settings) : s.script.warnings = [] := by
  rw [script]
  split
  · rfl
  rw [warnings_block, warnings_append, warnings_append, warnings_setting]
  simp only [List.append_eq_nil_iff]
  refine ⟨rfl, ⟨?_, trivial⟩, ?_⟩
  · cases s.uuid with
    | none => rfl
    | some uuid => rfl
  · split
    · rfl
    · rw [warnings_block, Passthrough.warnings_script]
      rfl

end Settings

namespace AccessPoint

/-- An access point is written as its tree, a mode without a name as the fallback. -/
theorem events_script (id : String) (ap : AccessPoint) :
    (ap.script id).events = entryEvents ap.tree := by
  refine events_block (.quoted ap.ssid) ?_
  simp only [events_append, entryEvents_append, events_flag, ap.settings.events_script]
  congr 2
  cases ap.mode with
  | infrastructure => rfl
  | ap => rfl
  | adhoc => rfl
  | other => rfl

/-- An access point raises a warning exactly when its mode has no name. -/
theorem warnings_script (id : String) (ap : AccessPoint) :
    (ap.script id).warnings =
      if ap.mode.name?.isNone then [.unsupportedMode id ap.ssid] else [] := by
  rw [script, warnings_block, warnings_append, warnings_append, warnings_flag,
    ap.settings.warnings_script, List.append_nil, List.nil_append]
  cases ap.mode with
  | infrastructure => rfl
  | ap => rfl
  | adhoc => rfl
  | other => rfl

end AccessPoint

theorem Modem.events_script (m : Modem) : m.script.events = entryEvents m.tree := by
  simp only [script, tree, events_append, entryEvents_append, events_flag, events_setting]

theorem Modem.warnings_script (m : Modem) : m.script.warnings = [] := by
  simp only [script, warnings_append, warnings_flag, warnings_setting, List.append_nil]

namespace Definition

theorem events_accessPoints (id : String) (aps : List AccessPoint) :
    Script.events (aps.flatMap (AccessPoint.script id)) =
      entryEvents (aps.flatMap AccessPoint.tree) := by
  induction aps with
  | nil => rfl
  | cons ap rest ih =>
    rw [List.flatMap_cons, List.flatMap_cons, events_append, entryEvents_append, ih,
      ap.events_script]

theorem warnings_accessPoints (id : String) (aps : List AccessPoint) :
    Script.warnings (aps.flatMap (AccessPoint.script id)) =
      (aps.filter (fun ap => ap.mode.name?.isNone)).map (fun ap => .unsupportedMode id ap.ssid) := by
  induction aps with
  | nil => rfl
  | cons ap rest ih =>
    rw [List.flatMap_cons, warnings_append, ih, ap.warnings_script, List.filter_cons]
    split
    · rfl
    · rfl

theorem events_fieldScript (d : Definition) : d.fieldScript.events = entryEvents d.fieldTree := by
  simp only [fieldScript, fieldTree, events_append, entryEvents_append, events_flag,
    d.modem.events_script]
  congr 1
  · congr 2
    rw [selectorTree]
    cases d.selector with
    | none => rfl
    | some selector => exact events_block (.bare "match") (events_setting "name" selector.name)
  · split
    · exact events_block (.bare "access-points") (events_accessPoints d.id _)
    · rfl

theorem warnings_fieldScript (d : Definition) : d.fieldScript.warnings = d.warnings := by
  have haccess : Script.warnings (if d.kind = .wifi then
        Script.block (Script.plain "access-points")
          (d.accessPoints.values.flatMap (AccessPoint.script d.id))
      else []) = d.warnings := by
    rw [warnings]
    split
    · rw [warnings_block, warnings_accessPoints]
      rfl
    · rfl
  rw [fieldScript, warnings_append, warnings_append, warnings_append, warnings_flag,
    d.modem.warnings_script, List.append_nil, List.append_nil, haccess]
  cases d.selector with
  | none => rfl
  | some selector =>
    have hwarn : selector.script.warnings = [] :=
      (warnings_block _ _).trans (warnings_setting "name" selector.name)
    simp only [hwarn, List.nil_append]

/-- The script of a definition writes its tree. -/
theorem events_script (d : Definition) : d.script.events = d.tree.events := by
  have hfields : Script.events (if d.kind = .other then [] else d.fieldScript) =
      entryEvents (if d.kind = .other then [] else d.fieldTree) := by
    split
    · rfl
    · exact d.events_fieldScript
  have hbody : (Script.plainPair "renderer" d.backend.name
      ++ (if d.kind = .other then [] else d.fieldScript)
      ++ d.settings.script).events = entryEvents d.bodyTree := by
    rw [events_append, events_append, events_plainPair, hfields, d.settings.events_script,
      bodyTree, entryEvents_append, entryEvents_append]
  have hsections := events_block (.bare d.kind.keyword) (events_block (.bare d.id) hbody)
  have hnetwork : (Script.plainPair "version" formatVersion
      ++ Script.block (Script.plain d.kind.keyword) (Script.block (Script.plain d.id)
          (Script.plainPair "renderer" d.backend.name
          ++ (if d.kind = .other then [] else d.fieldScript)
          ++ d.settings.script))).events =
      entryEvents (bareEntry "version" formatVersion
        ++ nested (.bare d.kind.keyword) (nested (.bare d.id) d.bodyTree)) := by
    rw [events_append, events_plainPair, entryEvents_append]
    exact congrArg _ hsections
  rw [script, events_append, events_append, Yaml.MappingTree.events_eq]
  exact congrArg (fun es => Event.openMapping :: (es ++ [.closeMapping]))
    (events_block (.bare "network") hnetwork)

/-- The script of a definition warns about the fallbacks in its document. -/
theorem warnings_script (d : Definition) : d.script.warnings = d.warnings := by
  have hfields : Script.warnings (if d.kind = .other then [] else d.fieldScript) = d.warnings := by
    split
    · next hkind => rw [warnings, hkind]; rfl
    · exact d.warnings_fieldScript
  simp only [script, warnings_append, warnings_block, hfields, d.settings.warnings_script]
  simp [Script.opening, Script.closing, Script.plain, Script.plainPair, Script.warnings]

/-- The script of a definition, played where a mapping may be opened. -/
theorem play_script_of_admits (d : Definition) {w : Writer} (hs : w.sink.NeverFails)
    (hl : w.layout.AdmitsMapping) :
    Script.play w d.script =
      { writer := { sink := w.sink.extend (w.layout.printed d.tree), layout := w.layout.afterTree }
        warnings := d.warnings
        result := .ok () } := by
  have hfeed := Writer.feed_events (l := w.layout) hs hl d.tree []
  rw [List.append_nil, ← d.events_script] at hfeed
  rw [Script.play_of_feed hfeed, d.warnings_script]

/-- Writing a document succeeds where nothing limits it. -/
theorem writeTo_default (d : Definition) :
    d.writeTo {} =
      { writer := { sink := ({} : Sink).extend d.tree.print, layout := ⟨[], true⟩ }
        warnings := d.warnings
        result := .ok () } := by
  have hplay := d.play_script_of_admits (w := {}) Sink.neverFails_default rfl
  have hfinish := Writer.finish_of_complete (Sink.neverFails_default.extend d.tree.print)
  rw [writeTo, hplay]
  exact congrArg (Script.Outcome.mk _ _) hfinish

theorem bytes_extend_default (text : String) :
    (({} : Sink).extend text).bytes = text.toUTF8 := by
  rw [Sink.bytes_extend]
  exact ByteArray.empty_append

theorem textOf_toUTF8 (text : String) : textOf text.toUTF8 = text := by
  rw [textOf, String.toUTF8_eq_toByteArray, String.fromUTF8?, dif_pos text.isValidUTF8]
  rfl

/-- The document of a definition can always be rendered: it is the text of the
definition's tree. -/
theorem render_eq (d : Definition) : d.render = .ok ⟨d.tree.print, d.warnings⟩ := by
  have htext : textOf (({} : Sink).extend d.tree.print).bytes = d.tree.print := by
    rw [bytes_extend_default, textOf_toUTF8]
  rw [render, writeTo_default]
  exact congrArg (fun text => Except.ok (Rendering.mk text d.warnings)) htext

/-- Wherever a mapping may be opened, all events of a definition's script are taken:
they are those of the definition's tree, and they leave the writer as the tree
would. Anywhere else the first event is refused, and nothing has happened. -/
theorem play_script (d : Definition) (w : Writer) (hs : w.sink.NeverFails) :
    (w.layout.AdmitsMapping →
      d.script.events = d.tree.events ∧
      w.feed d.tree.events = ((Script.play w d.script).writer, .ok ()) ∧
      Script.play w d.script =
        { writer :=
            { sink := w.sink.extend (w.layout.printed d.tree), layout := w.layout.afterTree }
          warnings := d.warnings
          result := .ok () }) ∧
    (¬ w.layout.AdmitsMapping →
      Script.play w d.script = ⟨w, [], .error (.layout w.layout.mappingFault)⟩) := by
  constructor
  · intro hl
    refine ⟨d.events_script, ?_, d.play_script_of_admits hs hl⟩
    have hfeed := Writer.feed_events (l := w.layout) hs hl d.tree []
    rw [List.append_nil] at hfeed
    rw [d.play_script_of_admits hs hl]
    exact hfeed
  · intro hl
    exact Script.play_of_refused _ (Writer.step_open_refused hl)

/-- An access point whose mode has no name, behind a key and after the end of a
document. -/
theorem play_script_mesh :
    let mesh : Definition :=
      { id := "wl0", kind := .wifi, backend := .networkManager
        accessPoints := OrderedMap.ofList [("mesh", { ssid := "mesh", mode := .other })] }
    let behindKey : Writer := { layout := ⟨[⟨3, 1, true, false⟩], false⟩ }
    let finished : Writer := { layout := ⟨[], true⟩ }
    (Script.play behindKey mesh.script).result = .ok () ∧
      (Script.play behindKey mesh.script).warnings = [.unsupportedMode "wl0" "mesh"] ∧
      (Script.play behindKey mesh.script).writer.layout = ⟨[⟨3, 2, false, false⟩], false⟩ ∧
      (Script.play finished mesh.script).result = .error (.layout .alreadyComplete) := by
  intro mesh behindKey finished
  have hopen := ((play_script mesh behindKey Sink.neverFails_default).1 rfl).2.2
  have hrefused := (play_script mesh finished Sink.neverFails_default).2 (by
    simp [Layout.AdmitsMapping, finished])
  rw [hopen, hrefused]
  exact ⟨rfl, by decide, rfl, rfl⟩

end Definition

end NetProfile
