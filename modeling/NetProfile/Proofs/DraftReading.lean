import NetProfile.Draft.OfValue
import NetProfile.Proofs.Clearing
import NetProfile.Proofs.DocumentTree
import NetProfile.Proofs.TreeValues

/-!
# Reading the drafts of definitions

The value of a definition's document is read as a draft, field by field, and the draft
makes the definition again, apart from what documents cannot say and from identities that
are written without quotes and read as something else than a text.

## Main definitions

- `Definition.norm` — the definition without what documents cannot say
- `Definition.reread` — the definition with its identities as they are read
- `Definition.draft` — the draft in the document of a definition
- `Definition.KeepsNames` — the names stand for their own texts

## Main results

- `Definition.ofValue_bodyTree` — the draft is read from the document
- `Definition.toDefinition_draft` — the draft makes the definition
-/

namespace NetProfile

open Yaml (Content MappingTree Scalar Value)
open Yaml.MappingTree (bareEntry quotedEntry nested flagEntry optionalEntry optionalBareEntry)

namespace Yaml

/-- Whether a text is written without quotes and read as itself, like the names of
fields. -/
def isName (text : String) : Bool :=
  isPlainSafe text.toList && decide (Schema.resolve text.toList = .text)
    && text.toList.all (fun c => 0x20 ≤ c.toNat && c.toNat ≤ 0x7E)
    && decide (byteCount text.toList ≤ 1024)

/-- A name stands for its own text. -/
theorem Scalar.isText_of_isName {text : String} (h : isName text = true) :
    (Scalar.bare text).IsText := by
  intro _
  simp only [isName, Bool.and_eq_true, decide_eq_true_eq] at h
  exact h.1.1.2

theorem Scalar.value_of_isName {text : String} (h : isName text = true) :
    (Scalar.bare text).value = .string text :=
  value_of_isText (isText_of_isName h)

theorem Scalar.value_quoted (text : String) : (Scalar.quoted text).value = .string text := rfl

theorem Scalar.value_true : (Scalar.bare "true").value = .bool true := by
  have hbare : (Scalar.bare "true").isBare = true := by decide
  have hresolve : Schema.resolve "true".toList = .bool true := by decide
  have hplain : Schema.plainValue "true" = .ok (.bool true) := by
    rw [Schema.plainValue, hresolve]
  rw [value, if_pos hbare]
  dsimp only [Scalar.bare]
  rw [hplain]

namespace MappingTree

theorem values_append (t u : MappingTree) : values (t ++ u) = values t ++ values u := by
  induction t with
  | nil => rfl
  | cons entry rest ih =>
    rcases entry with ⟨k, c⟩
    rw [List.cons_append, values, values, ih, List.cons_append]

variable {key : String}

theorem values_quotedEntry (hkey : isName key = true) (value : String) :
    values (quotedEntry key value) = [(.string key, .string value)] := by
  rw [quotedEntry, values, Scalar.value_of_isName hkey]
  rfl

theorem values_bareEntry (hkey : isName key = true) (value : String) :
    values (bareEntry key value) = [(.string key, (Scalar.bare value).value)] := by
  rw [bareEntry, values, Scalar.value_of_isName hkey]
  rfl

theorem values_nested {k : Scalar} (hk : k.IsText) (t : MappingTree) :
    values (nested k t) = [(.string k.text, .mapping (values t))] := by
  rw [nested, values, Scalar.value_of_isText hk]
  rfl

end MappingTree

end Yaml

/-- A flag as drafts have it: written flags are set. -/
def Draft.flag (value : Bool) : Option Bool := if value then some true else none

theorem Draft.getD_flag (value : Bool) : (flag value).getD false = value := by
  cases value with
  | false => rfl
  | true => rfl

namespace Shape

/-- What is read in two steps is read by both. -/
theorem exists_of_bind {α β : Type} {x : Except ShapeError α} {f : α → Except ShapeError β}
    {b : β} (h : x.bind f = .ok b) : ∃ a, x = .ok a ∧ f a = .ok b := by
  cases x with
  | error e => cases h
  | ok a => exact ⟨a, rfl, h⟩

variable {α : Type} {set : α → String → Value → Except ShapeError α} {a a' : α}

/-- Fields are read one after the other. -/
theorem readFields_append_eq (xs ys : List (Value × Value)) :
    readFields set a (xs ++ ys) = (readFields set a xs).bind (fun a' => readFields set a' ys) := by
  induction xs generalizing a with
  | nil => rfl
  | cons entry rest ih =>
    rcases entry with ⟨k, v⟩
    cases k with
    | string name =>
      rw [List.cons_append, readFields, readFields]
      cases set a name v with
      | ok b => exact ih
      | error e => rfl
    | _ => rfl

theorem readFields_append {xs ys : List (Value × Value)} (h : readFields set a xs = .ok a') :
    readFields set a (xs ++ ys) = readFields set a' ys := by
  rw [readFields_append_eq, h]
  rfl

theorem readFields_single {name : String} {v : Value} (h : set a name v = .ok a') :
    readFields set a [(.string name, v)] = .ok a' := by
  rw [readFields, h]
  rfl

section Fields

variable {key : String} (hkey : Yaml.isName key = true)
include hkey

/-- A setting is read into the field that `update` sets, and is left out when it is absent. -/
theorem readFields_optionalEntry (update : Option String → α)
    (hset : ∀ text, set (update none) key (.string text) = .ok (update (some text)))
    (value : Option String) :
    readFields set (update none) (MappingTree.values (optionalEntry key value)) =
      .ok (update value) := by
  cases value with
  | none => rfl
  | some text =>
    rw [optionalEntry, Yaml.MappingTree.values_quotedEntry hkey]
    exact readFields_single (hset text)

/-- A flag is read into the field that `update` sets, and is left out when it is not set. -/
theorem readFields_flagEntry (update : Option Bool → α)
    (hset : set (update none) key (.bool true) = .ok (update (some true))) (value : Bool) :
    readFields set (update none) (MappingTree.values (flagEntry key value)) =
      .ok (update (Draft.flag value)) := by
  cases value with
  | false => rfl
  | true =>
    rw [flagEntry, if_pos rfl, bareEntry, MappingTree.values, Scalar.value_of_isName hkey]
    simp only [Content.value, Scalar.value_true]
    exact readFields_single hset

end Fields

theorem entriesOf_append {read : Shape α} {xs ys : List (Value × Value)} {as bs : List (String × α)}
    (hx : entriesOf read xs = .ok as) (hy : entriesOf read ys = .ok bs) :
    entriesOf read (xs ++ ys) = .ok (as ++ bs) := by
  induction xs generalizing as with
  | nil =>
    rw [entriesOf, Except.ok.injEq] at hx
    rw [← hx]
    exact hy
  | cons entry rest ih =>
    rcases entry with ⟨k, v⟩
    rw [entriesOf] at hx
    rw [List.cons_append, entriesOf]
    cases hk : text k with
    | error e => simp [hk, bind, Except.bind] at hx
    | ok name =>
      cases hv : read v with
      | error e => simp [hk, hv, bind, Except.bind] at hx
      | ok b =>
        cases hr : entriesOf read rest with
        | error e => simp [hk, hv, hr, bind, Except.bind] at hx
        | ok more =>
          simp only [hk, hv, hr, bind, Except.bind, pure, Except.pure, Except.ok.injEq] at hx
          simp only [ih hr, bind, Except.bind, pure, Except.pure, ← hx, List.cons_append]

end Shape

/-- What is passed through, as drafts have it. -/
def Passthrough.draft (p : Passthrough) : List (String × Value) :=
  p.toList.map (fun entry => (entry.1, .string entry.2))

namespace Settings

/-- The identity as it is read: a number is written in another way, and nothing is left
of a spelling of the absent value. -/
def readUuid (s : Settings) : Option String :=
  s.uuid.bind (fun uuid => (Scalar.bare uuid).value.scalarText?)

/-- The settings with the identity as it is read. -/
def reread (s : Settings) : Settings := { s with uuid := s.readUuid }

/-- The settings as drafts have them. -/
def draft (s : Settings) : Option DraftSettings :=
  if s.isEmpty then none
  else some { uuid := s.readUuid, name := s.name, passthrough := s.passthrough.draft }

/-- The names of what is passed through stand for their own texts. -/
def KeepsNames (s : Settings) : Prop :=
  ∀ entry ∈ s.passthrough.toList, (Scalar.bare entry.1).IsText

/-- The identity is read as its own text. -/
def KeepsUuid (s : Settings) : Prop := ∀ uuid ∈ s.uuid, (Scalar.bare uuid).KeepsText

theorem reread_eq_iff {s : Settings} : s.reread = s ↔ s.KeepsUuid := by
  rcases s with ⟨uuid, name, passthrough⟩
  cases uuid with
  | none => simp [reread, readUuid, KeepsUuid]
  | some uuid => simp [reread, readUuid, KeepsUuid, Scalar.KeepsText, Scalar.bare]

theorem entriesOf_passthrough {entries : List (String × String)}
    (h : ∀ entry ∈ entries, (Scalar.bare entry.1).IsText) :
    Shape.entriesOf Except.ok (MappingTree.values (entries.map (fun entry =>
      (Scalar.bare entry.1, .scalar (.quoted entry.2))))) =
      .ok (entries.map (fun entry => (entry.1, Value.string entry.2))) := by
  induction entries with
  | nil => rfl
  | cons entry rest ih =>
    have hrest := ih (fun e he => h e (List.mem_cons_of_mem _ he))
    rw [List.map_cons, MappingTree.values, Scalar.value_of_isText (h entry List.mem_cons_self),
      Content.value, Scalar.value_quoted, Shape.entriesOf, hrest]
    rfl

/-- What is passed through is read last. -/
theorem readFields_passthrough {s : Settings} (h : s.KeepsNames) (uuid : Option String) :
    Shape.readFields DraftSettings.setField { uuid, name := s.name }
      (MappingTree.values (if s.passthrough.isEmpty then []
        else nested (.bare "passthrough") (Passthrough.tree s.passthrough))) =
      .ok { uuid, name := s.name, passthrough := s.passthrough.draft } := by
  by_cases hnil : s.passthrough.isEmpty = true
  · have hdraft : s.passthrough.draft = [] := by
      rw [Passthrough.draft, List.isEmpty_iff.1 hnil]
      rfl
    rw [if_pos hnil, hdraft]
    rfl
  · have hentries := entriesOf_passthrough h
    rw [if_neg hnil, Yaml.MappingTree.values_nested (Scalar.isText_of_isName (by decide))]
    refine Shape.readFields_single ?_
    show (do
      let entries ← (Shape.entriesOf Except.ok
        (MappingTree.values (Passthrough.tree s.passthrough))).map some
      return ({ uuid, name := s.name, passthrough := entries.getD [] } : DraftSettings)) = _
    rw [Passthrough.tree, hentries]
    rfl

/-- The block of settings is read as the draft of the settings. -/
theorem readFields_tree {α : Type} {set : α → String → Value → Except ShapeError α} {a a' : α}
    {s : Settings} (h : s.KeepsNames) (hnone : s.draft = none → a' = a)
    (hsome : ∀ entries draft, s.draft = some draft →
      DraftSettings.ofValue (.mapping entries) = .ok draft →
      set a "networkmanager" (.mapping entries) = .ok a') :
    Shape.readFields set a (MappingTree.values s.tree) = .ok a' := by
  by_cases hempty : s.isEmpty = true
  · rw [tree, if_pos hempty, hnone (if_pos hempty)]
    rfl
  · rw [tree, if_neg hempty,
      Yaml.MappingTree.values_nested (Scalar.isText_of_isName (by decide))]
    refine Shape.readFields_single (hsome _ _ (if_neg hempty) ?_)
    rw [DraftSettings.ofValue, Shape.fields, Yaml.MappingTree.values_append,
      Yaml.MappingTree.values_append]
    -- The three fields are read in the order in which they are written.
    have huuid : Shape.readFields DraftSettings.setField {}
        (MappingTree.values (optionalBareEntry "uuid" s.uuid)) = .ok { uuid := s.readUuid } := by
      rw [readUuid]
      cases s.uuid with
      | none => rfl
      | some uuid =>
        rw [optionalBareEntry, Yaml.MappingTree.values_bareEntry (by decide)]
        exact Shape.readFields_single rfl
    have hname : Shape.readFields DraftSettings.setField { uuid := s.readUuid }
        (MappingTree.values (optionalEntry "name" s.name)) =
        .ok { uuid := s.readUuid, name := s.name } :=
      Shape.readFields_optionalEntry (by decide)
        (fun name => ({ uuid := s.readUuid, name } : DraftSettings)) (fun _ => rfl) s.name
    have hpassthrough := readFields_passthrough h s.readUuid
    rw [List.append_assoc]
    exact (Shape.readFields_append huuid).trans
      ((Shape.readFields_append hname).trans hpassthrough)

theorem eq_of_isEmpty {s : Settings} (h : s.isEmpty = true) : s = {} := by
  rw [isEmpty, Bool.and_eq_true, Bool.and_eq_true, Option.isNone_iff_eq_none,
    Option.isNone_iff_eq_none] at h
  obtain ⟨⟨huuid, hname⟩, hpassthrough⟩ := h
  have hnil : s.passthrough = ∅ := OrderedMap.ext (List.isEmpty_iff.1 hpassthrough)
  rcases s with ⟨uuid, name, passthrough⟩
  subst huuid hname hnil
  rfl

/-- A draft of settings makes the settings again, with the identity as it is read. -/
theorem toSettings_draft (s : Settings) : (s.draft.getD {}).toSettings = s.reread := by
  by_cases hempty : s.isEmpty = true
  · rw [draft, if_pos hempty, eq_of_isEmpty hempty]
    rfl
  · have hkept : s.passthrough.draft.filterMap
        (fun entry => entry.2.scalarText?.map (fun text => (entry.1, text))) =
        s.passthrough.toList := by
      rw [Passthrough.draft, List.filterMap_map]
      exact List.filterMap_some
    rw [draft, if_neg hempty, Option.getD_some, DraftSettings.toSettings, hkept,
      OrderedMap.ofList_toList, reread]

end Settings

namespace AccessPoint

/-- The name that the mode has in a document. -/
def modeName (ap : AccessPoint) : String := ap.mode.name?.getD fallbackMode

/-- The access point as drafts have it. -/
def draft (ap : AccessPoint) : DraftAccessPoint :=
  { hidden := Draft.flag ap.hidden, mode := some ap.modeName, settings := ap.settings.draft }

/-- The access point with its identity as it is read. -/
def reread (ap : AccessPoint) : AccessPoint := { ap with settings := ap.settings.reread }

/-- The access point without what documents cannot say: a mode without a name is read
as the fallback. -/
def norm (ap : AccessPoint) : AccessPoint :=
  { ap with mode := if ap.mode = .other then .infrastructure else ap.mode }

theorem isName_modeName (ap : AccessPoint) : Yaml.isName ap.modeName = true := by
  rw [modeName]
  cases ap.mode with
  | infrastructure => decide
  | ap => decide
  | adhoc => decide
  | other => decide

/-- The fields of an access point are read as its draft. -/
theorem ofValue_tree {ap : AccessPoint} (h : ap.settings.KeepsNames) :
    DraftAccessPoint.ofValue (.mapping (MappingTree.values
      (flagEntry "hidden" ap.hidden ++ bareEntry "mode" ap.modeName ++ ap.settings.tree))) =
      .ok ap.draft := by
  have hhidden : Shape.readFields DraftAccessPoint.setField {}
      (MappingTree.values (flagEntry "hidden" ap.hidden)) =
      .ok { hidden := Draft.flag ap.hidden } :=
    Shape.readFields_flagEntry (by decide) (fun hidden => ({ hidden } : DraftAccessPoint)) rfl
      ap.hidden
  have hmode : Shape.readFields DraftAccessPoint.setField { hidden := Draft.flag ap.hidden }
      (MappingTree.values (bareEntry "mode" ap.modeName)) =
      .ok { hidden := Draft.flag ap.hidden, mode := some ap.modeName } := by
    rw [Yaml.MappingTree.values_bareEntry (by decide), Scalar.value_of_isName ap.isName_modeName]
    exact Shape.readFields_single rfl
  have hsettings : Shape.readFields DraftAccessPoint.setField
      { hidden := Draft.flag ap.hidden, mode := some ap.modeName }
      (MappingTree.values ap.settings.tree) = .ok ap.draft := by
    refine Settings.readFields_tree h ?_ ?_
    · intro hnone
      rw [draft, hnone]
    · intro entries settings hsome hvalue
      show (do
        let settings ← (DraftSettings.ofValue (.mapping entries)).map some
        return ({ hidden := Draft.flag ap.hidden, mode := some ap.modeName, settings } :
          DraftAccessPoint)) = _
      rw [hvalue, draft, hsome]
      rfl
  show Shape.readFields DraftAccessPoint.setField {} (MappingTree.values
    (flagEntry "hidden" ap.hidden ++ bareEntry "mode" ap.modeName ++ ap.settings.tree)) = _
  rw [Yaml.MappingTree.values_append, Yaml.MappingTree.values_append, List.append_assoc,
    Shape.readFields_append hhidden, Shape.readFields_append hmode, hsettings]

/-- An access point is read under its network name. -/
theorem entriesOf_tree {ap : AccessPoint} (h : ap.settings.KeepsNames) :
    Shape.entriesOf DraftAccessPoint.ofValue (MappingTree.values ap.tree) =
      .ok [(ap.ssid, ap.draft)] := by
  rw [tree, nested, MappingTree.values, Scalar.value_quoted, Shape.entriesOf]
  show (do
    let ap' ← DraftAccessPoint.ofValue (.mapping (MappingTree.values
      (flagEntry "hidden" ap.hidden ++ bareEntry "mode" ap.modeName ++ ap.settings.tree)))
    let entries ← Shape.entriesOf DraftAccessPoint.ofValue []
    return (ap.ssid, ap') :: entries) = _
  rw [ofValue_tree h]
  rfl

theorem entriesOf_trees {aps : List AccessPoint} (h : ∀ ap ∈ aps, ap.settings.KeepsNames) :
    Shape.entriesOf DraftAccessPoint.ofValue (MappingTree.values (aps.flatMap tree)) =
      .ok (aps.map (fun ap => (ap.ssid, ap.draft))) := by
  induction aps with
  | nil => rfl
  | cons ap rest ih =>
    rw [List.flatMap_cons, Yaml.MappingTree.values_append]
    exact Shape.entriesOf_append (entriesOf_tree (h ap List.mem_cons_self))
      (ih (fun x hx => h x (List.mem_cons_of_mem _ hx)))

/-- The draft of an access point makes the access point. -/
theorem toAccessPoint_draft (ap : AccessPoint) :
    ap.draft.toAccessPoint ap.ssid = ap.reread.norm := by
  have hmode : ap.draft.wifiMode = if ap.mode = .other then .infrastructure else ap.mode := by
    rw [DraftAccessPoint.wifiMode, draft, modeName]
    cases ap.mode with
    | infrastructure => rfl
    | ap => rfl
    | adhoc => rfl
    | other => rfl
  rw [DraftAccessPoint.toAccessPoint, hmode, norm, reread]
  simp only [draft, Draft.getD_flag, ap.settings.toSettings_draft]

end AccessPoint

theorem Selector.ofValue_tree (s : Selector) :
    Selector.ofValue (.mapping (MappingTree.values (optionalEntry "name" s.name))) = .ok s :=
  Shape.readFields_optionalEntry (by decide) Selector.mk (fun _ => rfl) s.name

/-- The modem parameters are read into a draft without any. -/
theorem Modem.readFields_tree (m : Modem) (renderer : Option String) (selector : Option Selector)
    (wakeOnLan : Option Bool) :
    Shape.readFields Draft.setField { renderer, selector, wakeOnLan } (MappingTree.values m.tree) =
      .ok { renderer, selector, wakeOnLan, autoConfig := Draft.flag m.autoConfig, apn := m.apn,
            deviceId := m.deviceId, networkId := m.networkId, pin := m.pin, simId := m.simId,
            simOperatorId := m.simOperatorId } := by
  -- The draft as it stands behind each of the parameters.
  let d₀ : Draft := { renderer, selector, wakeOnLan, autoConfig := Draft.flag m.autoConfig }
  let d₁ : Draft := { d₀ with apn := m.apn }
  let d₂ : Draft := { d₁ with deviceId := m.deviceId }
  let d₃ : Draft := { d₂ with networkId := m.networkId }
  let d₄ : Draft := { d₃ with pin := m.pin }
  let d₅ : Draft := { d₄ with simId := m.simId }
  have hauto := @Shape.readFields_flagEntry Draft Draft.setField "auto-config" (by decide)
    (fun v => { renderer, selector, wakeOnLan, autoConfig := v }) rfl m.autoConfig
  have hapn := @Shape.readFields_optionalEntry Draft Draft.setField "apn" (by decide)
    (fun v => { d₀ with apn := v }) (fun _ => rfl) m.apn
  have hdevice := @Shape.readFields_optionalEntry Draft Draft.setField "device-id" (by decide)
    (fun v => { d₁ with deviceId := v }) (fun _ => rfl) m.deviceId
  have hnetwork := @Shape.readFields_optionalEntry Draft Draft.setField "network-id" (by decide)
    (fun v => { d₂ with networkId := v }) (fun _ => rfl) m.networkId
  have hpin := @Shape.readFields_optionalEntry Draft Draft.setField "pin" (by decide)
    (fun v => { d₃ with pin := v }) (fun _ => rfl) m.pin
  have hsim := @Shape.readFields_optionalEntry Draft Draft.setField "sim-id" (by decide)
    (fun v => { d₄ with simId := v }) (fun _ => rfl) m.simId
  have hoperator := @Shape.readFields_optionalEntry Draft Draft.setField "sim-operator-id"
    (by decide) (fun v => { d₅ with simOperatorId := v }) (fun _ => rfl) m.simOperatorId
  simp only [tree, Yaml.MappingTree.values_append, List.append_assoc]
  refine (Shape.readFields_append hauto).trans ?_
  refine (Shape.readFields_append hapn).trans ?_
  refine (Shape.readFields_append hdevice).trans ?_
  refine (Shape.readFields_append hnetwork).trans ?_
  refine (Shape.readFields_append hpin).trans ?_
  exact (Shape.readFields_append hsim).trans hoperator

namespace Definition

/-- The access points that documents say. -/
def writtenAccessPoints (d : Definition) : List AccessPoint :=
  if d.kind = .wifi then d.accessPoints.values else []

/-- The definition as drafts have it. -/
def draft (d : Definition) : Draft :=
  if d.kind = .other then { renderer := some d.backend.name, settings := d.settings.draft }
  else
    { renderer := some d.backend.name
      selector := d.selector
      wakeOnLan := Draft.flag d.wakeOnLan
      autoConfig := Draft.flag d.modem.autoConfig
      apn := d.modem.apn
      deviceId := d.modem.deviceId
      networkId := d.modem.networkId
      pin := d.modem.pin
      simId := d.modem.simId
      simOperatorId := d.modem.simOperatorId
      accessPoints := d.writtenAccessPoints.map (fun ap => (ap.ssid, ap.draft))
      settings := d.settings.draft }

/-- The id and the names of everything that is passed through stand for their own
texts, as far as documents say them. -/
def KeepsNames (d : Definition) : Prop :=
  (Scalar.bare d.id).IsText ∧ d.settings.KeepsNames ∧
    ∀ ap ∈ d.writtenAccessPoints, ap.settings.KeepsNames

/-- The identities are read as their own texts, as far as documents say them. -/
def KeepsUuids (d : Definition) : Prop :=
  d.settings.KeepsUuid ∧ ∀ ap ∈ d.writtenAccessPoints, ap.settings.KeepsUuid

/-- The definition with its identities as they are read. -/
def reread (d : Definition) : Definition :=
  { d with
    settings := d.settings.reread
    accessPoints := d.accessPoints.mapValues AccessPoint.reread }

theorem readFields_selectorTree (d : Definition) (renderer : Option String) :
    Shape.readFields Draft.setField { renderer } (MappingTree.values d.selectorTree) =
      .ok { renderer, selector := d.selector } := by
  rw [selectorTree]
  cases d.selector with
  | none => rfl
  | some selector =>
    dsimp only
    rw [Yaml.MappingTree.values_nested (Scalar.isText_of_isName (by decide))]
    refine Shape.readFields_single ?_
    show (do
      let selector ← (Selector.ofValue (.mapping (MappingTree.values
        (optionalEntry "name" selector.name)))).map some
      return ({ renderer, selector } : Draft)) = _
    rw [Selector.ofValue_tree]
    rfl

theorem readFields_fieldTree {d : Definition} (h : d.KeepsNames) (hkind : d.kind ≠ .other) :
    Shape.readFields Draft.setField { renderer := some d.backend.name }
      (MappingTree.values d.fieldTree) = .ok { d.draft with settings := none } := by
  have hselector := d.readFields_selectorTree (some d.backend.name)
  have hwake : Shape.readFields Draft.setField
      { renderer := some d.backend.name, selector := d.selector }
      (MappingTree.values (flagEntry "wakeonlan" d.wakeOnLan)) =
      .ok { renderer := some d.backend.name, selector := d.selector,
            wakeOnLan := Draft.flag d.wakeOnLan } :=
    Shape.readFields_flagEntry (by decide) (fun wakeOnLan =>
      ({ renderer := some d.backend.name, selector := d.selector, wakeOnLan } : Draft)) rfl
      d.wakeOnLan
  have hmodem := d.modem.readFields_tree (some d.backend.name) d.selector (Draft.flag d.wakeOnLan)
  have hdraft : { d.draft with settings := none } =
      ({ renderer := some d.backend.name, selector := d.selector,
         wakeOnLan := Draft.flag d.wakeOnLan, autoConfig := Draft.flag d.modem.autoConfig,
         apn := d.modem.apn, deviceId := d.modem.deviceId, networkId := d.modem.networkId,
         pin := d.modem.pin, simId := d.modem.simId, simOperatorId := d.modem.simOperatorId,
         accessPoints := d.writtenAccessPoints.map (fun ap => (ap.ssid, ap.draft)) } : Draft) := by
    rw [draft, if_neg hkind]
  rw [hdraft, fieldTree]
  simp only [Yaml.MappingTree.values_append, List.append_assoc]
  refine (Shape.readFields_append hselector).trans ((Shape.readFields_append hwake).trans
    ((Shape.readFields_append hmodem).trans ?_))
  have hpoints := h.2.2
  rw [writtenAccessPoints] at hpoints ⊢
  by_cases hwifi : d.kind = .wifi
  · rw [if_pos hwifi] at hpoints
    rw [if_pos hwifi, if_pos hwifi,
      Yaml.MappingTree.values_nested (Scalar.isText_of_isName (by decide))]
    refine Shape.readFields_single ?_
    have hentries := AccessPoint.entriesOf_trees hpoints
    show (do
      let entries ← (Shape.entriesOf DraftAccessPoint.ofValue (MappingTree.values
        (d.accessPoints.values.flatMap AccessPoint.tree))).map some
      return _) = _
    rw [hentries]
    rfl
  · rw [if_neg hwifi, if_neg hwifi]
    rfl

theorem isName_backend (backend : Backend) : Yaml.isName backend.name = true := by
  cases backend with
  | networkd => decide
  | networkManager => decide
  | openVSwitch => decide

/-- The document of a definition is read as the definition's draft. -/
theorem ofValue_bodyTree {d : Definition} (h : d.KeepsNames) :
    Draft.ofValue (.mapping (MappingTree.values d.bodyTree)) = .ok d.draft := by
  have hrenderer : Shape.readFields Draft.setField {}
      (MappingTree.values (bareEntry "renderer" d.backend.name)) =
      .ok { renderer := some d.backend.name } := by
    rw [Yaml.MappingTree.values_bareEntry (by decide),
      Scalar.value_of_isName (isName_backend d.backend)]
    exact Shape.readFields_single rfl
  have hfields : Shape.readFields Draft.setField { renderer := some d.backend.name }
      (MappingTree.values (if d.kind = .other then [] else d.fieldTree)) =
      .ok { d.draft with settings := none } := by
    by_cases hkind : d.kind = .other
    · rw [if_pos hkind, draft, if_pos hkind]
      rfl
    · rw [if_neg hkind]
      exact readFields_fieldTree h hkind
  have hdraft : d.draft = { d.draft with settings := d.settings.draft } := by
    rw [draft]
    split <;> rfl
  have hsettings : Shape.readFields Draft.setField { d.draft with settings := none }
      (MappingTree.values d.settings.tree) = .ok d.draft := by
    refine Settings.readFields_tree h.2.1 ?_ ?_
    · intro hnone
      rw [hdraft, hnone]
    · intro entries settings hsome hvalue
      show (do
        let settings ← (DraftSettings.ofValue (.mapping entries)).map some
        return ({ d.draft with settings } : Draft)) = _
      rw [hvalue, hdraft, hsome]
      rfl
  show Shape.readFields Draft.setField {} (MappingTree.values d.bodyTree) = _
  rw [bodyTree, Yaml.MappingTree.values_append, Yaml.MappingTree.values_append, List.append_assoc,
    Shape.readFields_append hrenderer, Shape.readFields_append hfields, hsettings]

/-- The definition without what documents cannot say: a kind without a model has its
settings only, only wireless definitions have access points, and a mode without a name
is read as the fallback. -/
def norm (d : Definition) : Definition :=
  if d.kind = .other then
    { d with selector := none, wakeOnLan := false, modem := {}, accessPoints := ∅ }
  else if d.kind = .wifi then
    { d with accessPoints := d.accessPoints.mapValues AccessPoint.norm }
  else { d with accessPoints := ∅ }

/-- Nothing but the identities is read as something else. -/
theorem norm_reread_eq_iff {d : Definition} : d.reread.norm = d.norm ↔ d.KeepsUuids := by
  have hpoint : ∀ ap : AccessPoint, ap.reread.norm = ap.norm ↔ ap.settings.KeepsUuid := by
    intro ap
    rw [← Settings.reread_eq_iff]
    constructor
    · exact fun h => congrArg AccessPoint.settings h
    · intro h
      rw [AccessPoint.reread, h]
  have hpoints : (d.accessPoints.mapValues AccessPoint.reread).mapValues AccessPoint.norm =
      d.accessPoints.mapValues AccessPoint.norm ↔
      ∀ ap ∈ d.accessPoints.values, ap.settings.KeepsUuid := by
    rw [OrderedMap.mapValues_mapValues, OrderedMap.mapValues_eq_iff]
    exact forall₂_congr (fun ap _ => hpoint ap)
  rw [KeepsUuids, writtenAccessPoints, ← Settings.reread_eq_iff]
  by_cases hother : d.kind = .other
  · simp [norm, reread, hother]
  · by_cases hwifi : d.kind = .wifi
    · simp [norm, reread, hwifi, hpoints]
    · simp [norm, reread, hother, hwifi]

/-- Access points are added under their names. -/
theorem foldl_addAccessPoint (d : Definition) (aps : List AccessPoint) :
    aps.foldl addAccessPoint d =
      { d with accessPoints := d.accessPoints.insertMany (aps.map (fun ap => (ap.ssid, ap))) } := by
  induction aps generalizing d with
  | nil => rfl
  | cons ap rest ih => rw [List.foldl_cons, ih]; rfl

/-- Whether every access point is kept under its own name. -/
def IsKeyed (d : Definition) : Prop := ∀ entry ∈ d.accessPoints.toList, entry.2.ssid = entry.1

instance (d : Definition) : Decidable d.IsKeyed := List.decidableBAll _ d.accessPoints.toList

/-- The access points of a draft are those of the definition, each of them changed by
`f`. -/
theorem ofList_accessPoints {d : Definition} (h : d.IsKeyed) (f : AccessPoint → AccessPoint) :
    OrderedMap.ofList (d.accessPoints.values.map (fun ap => (ap.ssid, f ap))) =
      d.accessPoints.mapValues f := by
  have hentries : d.accessPoints.values.map (fun ap => (ap.ssid, f ap)) =
      (d.accessPoints.mapValues f).toList := by
    rw [OrderedMap.values, List.map_map, OrderedMap.toList_mapValues]
    apply List.map_congr_left
    intro entry hentry
    rw [Function.comp, h entry hentry]
  rw [hentries, OrderedMap.ofList_toList]

theorem ofName?_backend (backend : Backend) : Backend.ofName? backend.name = some backend := by
  cases backend with
  | networkd => decide
  | networkManager => decide
  | openVSwitch => decide

/-- The draft of a definition makes the definition again, with its identities as they are
read and apart from what documents cannot say. -/
theorem toDefinition_draft {d : Definition} (h : d.IsKeyed) :
    d.draft.toDefinition d.id d.kind none = d.reread.norm := by
  have hrenderer : d.draft.renderer = some d.backend.name := by
    rw [draft]
    split <;> rfl
  have hbackend : d.draft.backend none = d.backend := by
    rw [Draft.backend, hrenderer, Option.bind_some, ofName?_backend]
    rfl
  have hsettings : (d.draft.settings.getD {}).toSettings = d.settings.reread := by
    have hdraft : d.draft.settings = d.settings.draft := by
      rw [draft]
      split <;> rfl
    rw [hdraft, d.settings.toSettings_draft]
  rw [Draft.toDefinition, foldl_addAccessPoint, hbackend, hsettings, norm, reread]
  -- The fields of a draft differ between unmodelled, wireless and all other kinds.
  by_cases hother : d.kind = .other
  · rw [if_pos hother, draft, if_pos hother]
    rfl
  · have hmodem : d.draft.modem = d.modem := by
      rw [Draft.modem, draft, if_neg hother]
      simp only [Draft.getD_flag]
    have hwake : d.draft.wakeOnLan.getD false = d.wakeOnLan := by
      rw [draft, if_neg hother]
      exact Draft.getD_flag _
    have hselector : d.draft.selector = d.selector := by rw [draft, if_neg hother]
    rw [if_neg hother, hmodem, hwake, hselector]
    by_cases hwifi : d.kind = .wifi
    · have hpoints : (d.draft.accessPoints.map (fun entry => entry.2.toAccessPoint entry.1)).map
          (fun ap => (ap.ssid, ap)) =
          d.accessPoints.values.map (fun ap => (ap.ssid, ap.reread.norm)) := by
        rw [draft, if_neg hother, writtenAccessPoints, if_pos hwifi]
        simp only [List.map_map]
        apply List.map_congr_left
        intro ap _
        rw [Function.comp, Function.comp, ap.toAccessPoint_draft]
        rfl
      rw [if_pos hwifi, hpoints, OrderedMap.mapValues_mapValues,
        ← ofList_accessPoints h (fun ap => ap.reread.norm)]
      rfl
    · have hpoints : d.draft.accessPoints = [] := by
        rw [draft, if_neg hother, writtenAccessPoints, if_neg hwifi]
        rfl
      rw [if_neg hwifi, hpoints]
      rfl

end Definition

end NetProfile
