import NetProfile.Proofs.DraftReading
import NetProfile.Proofs.ImportRetention

/-!
# Documents of imported definitions

Imports and documents distinguish kinds of definitions each in their own way, and they
agree: an import sets no field that is then left out of the document. Only the mode of an
access point may have no name in documents. It is then passed through as well, so that the
warning about it is also a sign of where its text can be found.

## Main definitions

- `Definition.FitsDocument` — definitions that are written whole
- `Definition.HasOwnAccessPoint` — wireless definitions with a single access point

## Main results

- `Keyfile.mem_leftOver_iff` — what is passed through under a name with a single dot
- `Keyfile.fitsDocument_toDefinition` — imported definitions are written whole
- `Keyfile.render_toDefinition` — the file, the document and the warning of an import
-/

namespace NetProfile

namespace Definition

/-- Whether the definition has no field that its kind has no place for in documents. -/
structure FitsDocument (d : Definition) : Prop where
  selector : d.kind = .other → d.selector = none
  wakeOnLan : d.kind = .other → d.wakeOnLan = false
  modem : d.kind = .other → d.modem = {}
  accessPoints : d.kind ≠ .wifi → d.accessPoints = ∅

/-- Whether everything wireless about the definition is in one access point, which has the
identity of the definition. -/
structure HasOwnAccessPoint (d : Definition) (ap : AccessPoint) : Prop where
  toList_accessPoints : d.accessPoints.toList = [(ap.ssid, ap)]
  uuid : ap.settings.uuid = d.settings.uuid
  name : ap.settings.name = d.settings.name
  passthrough : d.settings.passthrough = ∅

variable {d : Definition}

/-- Documents then say everything about the definition but modes without a name. -/
theorem FitsDocument.norm_eq (h : d.FitsDocument) :
    d.norm = { d with accessPoints := d.accessPoints.mapValues AccessPoint.norm } := by
  have hpoints : d.kind ≠ .wifi → d.accessPoints.mapValues AccessPoint.norm = ∅ := by
    intro hwifi
    rw [h.accessPoints hwifi]
    rfl
  rw [norm]
  by_cases hother : d.kind = .other
  · have hwifi : d.kind ≠ .wifi := by
      rw [hother]
      exact Kind.noConfusion
    rw [if_pos hother, hpoints hwifi, ← h.modem hother, ← h.wakeOnLan hother,
      ← h.selector hother]
  · rw [if_neg hother]
    by_cases hwifi : d.kind = .wifi
    · rw [if_pos hwifi]
    · rw [if_neg hwifi, hpoints hwifi]

theorem HasOwnAccessPoint.values_eq {ap : AccessPoint} (h : d.HasOwnAccessPoint ap) :
    d.accessPoints.values = [ap] := by
  rw [OrderedMap.values, h.toList_accessPoints]
  rfl

theorem warnings_of_ne_wifi (h : d.kind ≠ .wifi) : d.warnings = [] := by
  rw [warnings, if_neg h]

theorem HasOwnAccessPoint.warnings_eq {ap : AccessPoint} (h : d.HasOwnAccessPoint ap)
    (hwifi : d.kind = .wifi) :
    d.warnings = if ap.mode.name?.isNone then [.unsupportedMode d.id ap.ssid] else [] := by
  rw [warnings, if_pos hwifi, h.values_eq, List.filter_cons]
  split
  · rfl
  · rfl

end Definition

namespace Keyfile

variable {kf : Keyfile} {kind : Kind} {group key value : String}

/-- A name with a single dot comes from one group and key only. -/
theorem passthroughKey_inj_of_not_mem {g k : String} (hgroup : '.' ∉ group.toList)
    (hkey : '.' ∉ key.toList) (h : passthroughKey group key = passthroughKey g k) :
    group = g ∧ key = k := by
  have hlist : group.toList ++ '.' :: key.toList = g.toList ++ '.' :: k.toList := by
    have hstring := congrArg String.toList h
    simpa [passthroughKey] using hstring
  obtain ⟨hg, -, hk⟩ := (List.append_cons_inj_of_notMem hgroup hkey).1 hlist
  exact ⟨String.toList_inj.1 hg, String.toList_inj.1 hk⟩

/-- What is passed through under a name with a single dot. -/
theorem mem_leftOver_iff (hgroup : '.' ∉ group.toList) (hkey : '.' ∉ key.toList)
    (hne : key ≠ emptyGroupKey) :
    (passthroughKey group key, value) ∈ kf.groups.toList.flatMap (kf.leftOver kind) ↔
      (group, key) ∉ kf.consumed kind ∧ kf.string? group key = some value := by
  rw [List.mem_flatMap]
  constructor
  · rintro ⟨g, hg, hmem⟩
    rw [leftOver] at hmem
    split at hmem
    · -- The name that stands for an empty group has another key.
      split at hmem
      · exact absurd hmem List.not_mem_nil
      · have hname := (Prod.mk.inj (List.mem_singleton.1 hmem)).1
        exact absurd (passthroughKey_inj_of_not_mem hgroup hkey hname).2 hne
    · obtain ⟨entry, hentry, hvalue⟩ := List.mem_filterMap.1 hmem
      split at hvalue
      · exact absurd hvalue (by simp)
      · next hleft =>
        obtain ⟨text, htext, he⟩ := Option.map_eq_some_iff.1 hvalue
        obtain ⟨hname, rfl⟩ := Prod.mk.inj he
        obtain ⟨rfl, rfl⟩ := passthroughKey_inj_of_not_mem hgroup hkey hname.symm
        exact ⟨hleft, htext⟩
  · rintro ⟨hleft, hvalue⟩
    have hraw : (kf.raw? group key).isSome = true := by
      cases hnone : kf.raw? group key with
      | none =>
        rw [string?, hnone] at hvalue
        cases hvalue
      | some raw => rfl
    obtain ⟨raw, hraw⟩ := Option.isSome_iff_exists.1 hraw
    obtain ⟨entries, hentries, hfind⟩ := Option.bind_eq_some_iff.1 hraw
    have hentry : (key, raw) ∈ entries.toList := OrderedMap.mem_of_lookup? hfind
    have hnonempty : ¬ entries.isEmpty = true := fun hempty =>
      List.ne_nil_of_mem hentry (List.isEmpty_iff.1 hempty)
    refine ⟨(group, entries), OrderedMap.mem_of_lookup? hentries, ?_⟩
    rw [leftOver, if_neg hnonempty]
    refine List.mem_filterMap.2 ⟨(key, raw), hentry, ?_⟩
    rw [if_neg hleft, hvalue, Option.map_some]

theorem mode_mem_consumed_iff :
    ("wifi", "mode") ∈ kf.consumed .wifi ↔
      kf.string? "wifi" "mode" ∈ [some "infrastructure", some "ap", some "adhoc"] := by
  have hcommon : ("wifi", "mode") ∉ kf.consumedIdentity ++ kf.consumedCommon .wifi :=
    not_mem_of_not_names (kf.names_consumedCommon_wifi .wifi)
  have hnamed : ("wifi", "mode") ∈ kf.ifNamedMode ↔
      kf.string? "wifi" "mode" ∈ [some "infrastructure", some "ap", some "adhoc"] := by
    rw [ifNamedMode]
    split
    · next h => exact iff_of_true List.mem_cons_self h
    · next h => exact iff_of_false List.not_mem_nil h
  rw [consumed, if_neg Kind.noConfusion, if_pos rfl, List.mem_append, or_iff_right hcommon,
    consumedWifi, ← hnamed]
  simp

/-- The mode of a wireless profile is passed through when it has no name in documents. -/
theorem mode_mem_leftOver_iff :
    ("wifi.mode", value) ∈ kf.groups.toList.flatMap (kf.leftOver .wifi) ↔
      kf.string? "wifi" "mode" = some value ∧ (WifiMode.ofName value).name? = none := by
  have hname : "wifi.mode" = passthroughKey "wifi" "mode" := by decide
  rw [hname, mem_leftOver_iff (by decide) (by decide) (by decide), mode_mem_consumed_iff,
    and_comm]
  apply and_congr_right
  intro hvalue
  have hsome := WifiMode.isSome_name?_ofName value
  rw [hvalue, ← Option.not_isSome_iff_eq_none, hsome]
  simp

theorem accessPoint_mode_iff {ssid : String} :
    (kf.accessPoint ssid).mode.name?.isNone = true ↔
      ∃ value, kf.string? "wifi" "mode" = some value ∧ (WifiMode.ofName value).name? = none := by
  rw [accessPoint, Option.isNone_iff_eq_none]
  cases kf.string? "wifi" "mode" with
  | none => simp [WifiMode.name?]
  | some value => simp

section Outcomes

variable {id? : Option String} {uuid ssid : String}

theorem fitsDocument_ofRest (rest : Keyfile) :
    (Import.ofRest (kf.interpreted id? uuid kind) rest).definition.FitsDocument := by
  have hkind := kf.kind_interpreted id? uuid kind
  have hidentity : kind = .other → kf.interpreted id? uuid kind = kf.identity id? uuid kind := by
    intro hother
    rw [interpreted, if_pos hother]
  refine ⟨fun h => ?_, fun h => ?_, fun h => ?_, fun _ => kf.accessPoints_interpreted id? uuid kind⟩
  all_goals simp only [Import.ofRest, hidentity (hkind.symm.trans h), identity]

theorem fitsDocument_ofAccessPoint (hwifi : kind = .wifi) (ap : AccessPoint) (rest : Keyfile) :
    (Import.ofAccessPoint (kf.interpreted id? uuid kind) ap rest).definition.FitsDocument := by
  have hkind : (Import.ofAccessPoint (kf.interpreted id? uuid kind) ap rest).definition.kind =
      .wifi := (kf.kind_interpreted id? uuid kind).trans hwifi
  have hother : (Import.ofAccessPoint (kf.interpreted id? uuid kind) ap rest).definition.kind ≠
      .other := by
    rw [hkind]
    exact Kind.noConfusion
  exact ⟨fun h => absurd h hother, fun h => absurd h hother, fun h => absurd h hother,
    fun h => absurd hkind h⟩

theorem hasOwnAccessPoint_ofAccessPoint (ap : AccessPoint) (rest : Keyfile) :
    (Import.ofAccessPoint (kf.interpreted id? uuid kind) ap rest).definition.HasOwnAccessPoint
      { ap with
        settings := { (kf.interpreted id? uuid kind).settings with
          passthrough := rest.passthrough } } where
  toList_accessPoints := by
    simp only [Import.ofAccessPoint, Definition.addAccessPoint, OrderedMap.toList_insert,
      accessPoints_interpreted]
    rfl
  uuid := rfl
  name := rfl
  passthrough := kf.passthrough_interpreted id? uuid kind

end Outcomes

/-- An imported definition has nothing that documents have no place for, apart from a mode
without a name. -/
theorem fitsDocument_toDefinition {id? : Option String} {i : Import}
    (h : kf.toDefinition id? = .ok i) :
    i.definition.FitsDocument ∧
      (i.definition.kind = .wifi → ∃ ap, i.definition.HasOwnAccessPoint ap) := by
  obtain ⟨uuid, kind, -, -, ⟨hwifi, rfl⟩ | ⟨hwifi, ssid, -, rfl⟩⟩ := cases_toDefinition h
  · refine ⟨fitsDocument_ofRest _, fun hkind => ?_⟩
    exact absurd ((kf.kind_interpreted id? uuid kind).symm.trans hkind) hwifi
  · exact ⟨fitsDocument_ofAccessPoint hwifi _ _, fun _ => ⟨_, hasOwnAccessPoint_ofAccessPoint _ _⟩⟩

/-- The only access point of an imported definition passes its mode through when the mode has
no name, and nothing else under that name. -/
theorem mode_accessPoint {id? : Option String} {i : Import} {ap : AccessPoint}
    (h : kf.toDefinition id? = .ok i) (hwifi : i.definition.kind = .wifi)
    (hap : i.definition.HasOwnAccessPoint ap) :
    (ap.mode.name?.isNone = true ↔ "wifi.mode" ∈ ap.settings.passthrough.keys) ∧
      ∀ value, ap.settings.passthrough.find? "wifi.mode" = some value →
        kf.string? "wifi" "mode" = some value := by
  have hd := describes_toDefinition h
  obtain ⟨ssid, settings, -, hvalues⟩ := hd.accessPoint hwifi
  have hsingle : ap = { kf.accessPoint ssid with settings := settings } := by
    rw [hap.values_eq] at hvalues
    exact List.singleton_inj.1 hvalues
  have hpassthrough : ap.settings.passthrough =
      OrderedMap.ofList (kf.groups.toList.flatMap (kf.leftOver .wifi)) := by
    apply OrderedMap.ext
    have hpassed := hd.passedThrough
    rw [Definition.passedThrough, if_pos hwifi, hap.values_eq, List.flatMap_singleton, hwifi]
      at hpassed
    exact hpassed
  rw [hpassthrough]
  constructor
  · have hmode : ap.mode = (kf.accessPoint ssid).mode := by rw [hsingle]
    rw [hmode, accessPoint_mode_iff, OrderedMap.keys_ofList, List.mem_eraseDups, List.mem_map]
    constructor
    · rintro ⟨value, hvalue⟩
      exact ⟨("wifi.mode", value), mode_mem_leftOver_iff.2 hvalue, rfl⟩
    · rintro ⟨⟨_, value⟩, hmem, rfl⟩
      exact ⟨value, mode_mem_leftOver_iff.1 hmem⟩
  · intro value hfind
    have hmem : ("wifi.mode", value) ∈ kf.groups.toList.flatMap (kf.leftOver .wifi) :=
      (OrderedMap.mem_of_mem_insertMany (OrderedMap.mem_of_lookup? hfind)).resolve_left
        List.not_mem_nil
    exact (mode_mem_leftOver_iff.1 hmem).1

/-- Imports and documents agree on what can be said: a definition that was imported has
nothing that is left out of its document, but for the mode of its access point where that
has no name. The document can be rendered, and a warning is raised exactly when such a mode
is passed through, with the text that the profile has for it. -/
theorem render_toDefinition {id? : Option String} {i : Import}
    (h : kf.toDefinition id? = .ok i) :
    i.definition.FitsDocument ∧
    (i.definition.kind = .wifi → ∃ ap, i.definition.HasOwnAccessPoint ap) ∧
    i.definition.norm = { i.definition with
      accessPoints := i.definition.accessPoints.mapValues AccessPoint.norm } ∧
    (∃ uuid, kf.string? "connection" "uuid" = some uuid ∧
      i.definition.settings.uuid = some uuid ∧
      i.definition.fileName = "90-NM-" ++ uuid ++ ".yaml") ∧
    ∃ rendering, i.definition.render = .ok rendering ∧
      rendering.warnings.length ≤ 1 ∧
      (rendering.warnings ≠ [] ↔
        ∃ ap ∈ i.definition.accessPoints.values, "wifi.mode" ∈ ap.settings.passthrough.keys) ∧
      ∀ ap ∈ i.definition.accessPoints.values, ∀ value,
        ap.settings.passthrough.find? "wifi.mode" = some value →
          kf.string? "wifi" "mode" = some value := by
  obtain ⟨hfits, hown⟩ := fitsDocument_toDefinition h
  have hfile : ∃ uuid, kf.string? "connection" "uuid" = some uuid ∧
      i.definition.settings.uuid = some uuid ∧
      i.definition.fileName = "90-NM-" ++ uuid ++ ".yaml" := by
    obtain ⟨uuid, -, huuid, -⟩ := cases_toDefinition h
    have hsettings := (describes_toDefinition h).uuid.trans huuid
    refine ⟨uuid, huuid, hsettings, ?_⟩
    rw [Definition.fileName, hsettings]
  refine ⟨hfits, hown, hfits.norm_eq, hfile, _, i.definition.render_eq, ?_⟩
  by_cases hwifi : i.definition.kind = .wifi
  · obtain ⟨ap, hap⟩ := hown hwifi
    obtain ⟨hmode, hvalue⟩ := mode_accessPoint h hwifi hap
    simp only [hap.warnings_eq hwifi, hap.values_eq, List.mem_singleton, exists_eq_left,
      forall_eq, ← hmode]
    refine ⟨?_, ?_, hvalue⟩
    · split
      · exact Nat.le_refl 1
      · exact Nat.zero_le 1
    · split
      · next hnone => exact iff_of_true (List.cons_ne_nil _ _) hnone
      · next hsome => exact iff_of_false (fun hne => hne rfl) hsome
  · have hpoints : i.definition.accessPoints.values = [] := by
      rw [hfits.accessPoints hwifi]
      rfl
    simp [Definition.warnings_of_ne_wifi hwifi, hpoints]

/-- A mode without a name is written as another, and warned about. -/
theorem render_wirelessProfile :
    ∃ i rendering, wirelessProfile.toDefinition none = .ok i ∧
      i.definition.fileName = "90-NM-7.yaml" ∧ i.definition.render = .ok rendering ∧
      rendering.warnings.length = 1 := by
  cases h : wirelessProfile.toDefinition none with
  | error e =>
    have hok : (wirelessProfile.toDefinition none).isOk = true := by decide +kernel
    rw [h] at hok
    exact absurd hok Bool.false_ne_true
  | ok i =>
    obtain ⟨-, -, -, ⟨uuid, huuid, -, hfile⟩, rendering, hrender, hlength, hwarns, -⟩ :=
      render_toDefinition h
    obtain rfl : "7" = uuid := by
      have hseven : wirelessProfile.string? "connection" "uuid" = some "7" := by decide +kernel
      exact Option.some.inj (hseven.symm.trans huuid)
    have hmode : ((wirelessProfile.toDefinition none).toOption.any fun i =>
        i.definition.accessPoints.values.any fun ap =>
          ap.settings.passthrough.keys.contains "wifi.mode") = true := by
      decide +kernel
    rw [h] at hmode
    obtain ⟨ap, hap, hkey⟩ := List.any_eq_true.1 hmode
    have hne := hwarns.2 ⟨ap, hap, List.contains_iff_mem.1 hkey⟩
    have hpos := List.length_pos_iff.2 hne
    exact ⟨i, rendering, rfl, hfile, hrender, by omega⟩

end Keyfile

end NetProfile
