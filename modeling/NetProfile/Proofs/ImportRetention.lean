import NetProfile.Proofs.ImportAccounting
import NetProfile.Proofs.MapMerging

/-!
# What an import keeps

Every setting of an imported profile is stored in a field of the definition or passed
through under its group and key, and so are groups without settings; there are three
exceptions. A flag whose value is no truth value is dropped, and so is an empty group of
modem parameters where the kind has a model. And since a name that is passed through is a
group and a key joined by a dot, settings of two groups may meet under one name; then the
one further down in the file stays.

## Main definitions

- `Definition.Stores` — a setting is in a field of the definition
- `Definition.passedThrough` — what the definition passes through
- `Keyfile.Survives` — nothing of a profile is lost
- `Keyfile.KeptUnder` — what is kept, unless a later setting takes the name

## Main results

- `Keyfile.cases_toDefinition` — the two ways in which an import ends
- `Keyfile.describes_toDefinition` — an import reads its fields from the profile as it was
- `Keyfile.keptUnder_toDefinition` — what an import keeps
- `Keyfile.not_survives_import` — two profiles with all the exceptions
-/

namespace NetProfile

/-- The texts in an access point, with the settings they come from. -/
def AccessPoint.textFields (ap : AccessPoint) : List ((String × String) × Option String) :=
  [(("wifi", "ssid"), some ap.ssid), (("wifi", "mode"), ap.mode.name?)]

namespace Definition

/-- The texts in a definition, with the settings they come from. -/
def textFields (d : Definition) : List ((String × String) × Option String) :=
  [(("connection", "uuid"), d.settings.uuid),
    (("connection", "id"), d.settings.name),
    (("connection", "interface-name"), d.selector.bind Selector.name),
    (("gsm", "apn"), d.modem.apn),
    (("gsm", "device-id"), d.modem.deviceId),
    (("gsm", "network-id"), d.modem.networkId),
    (("gsm", "pin"), d.modem.pin),
    (("gsm", "sim-id"), d.modem.simId),
    (("gsm", "sim-operator-id"), d.modem.simOperatorId)]
  ++ d.accessPoints.values.flatMap AccessPoint.textFields

/-- The flags in a definition, with the settings they come from. -/
def flagFields (d : Definition) : List ((String × String) × Option Bool) :=
  (if d.kind = .other then [] else [(("gsm", "auto-config"), some d.modem.autoConfig)])
  ++ d.accessPoints.values.map (fun ap => (("wifi", "hidden"), some ap.hidden))

/-- What the definition passes through; a wireless one leaves it to its access points. -/
def passedThrough (d : Definition) : List (String × String) :=
  if d.kind = .wifi then
    d.accessPoints.values.flatMap (fun ap => ap.settings.passthrough.toList)
  else d.settings.passthrough.toList

end Definition

namespace Keyfile

/-- A written value with its escapes resolved. -/
def textOfRaw? (raw : String) : Option String := (unescape raw.toList).map String.ofList

/-- Whether all values can be read. -/
def IsReadable (kf : Keyfile) : Prop :=
  ∀ group ∈ kf.groups.toList, ∀ entry ∈ group.2.toList, (textOfRaw? entry.2).isSome = true

instance (kf : Keyfile) : Decidable kf.IsReadable :=
  inferInstanceAs (Decidable (∀ group ∈ kf.groups.toList, ∀ entry ∈ group.2.toList, _))

end Keyfile

/-- Whether a setting is in a field of the definition: a text as its text, a flag as the
truth value that it has, the connection type as the kind where that says all of it. -/
def Definition.Stores (d : Definition) (group key raw : String) : Prop :=
  ((Keyfile.textOfRaw? raw).isSome = true ∧
      ((group, key), Keyfile.textOfRaw? raw) ∈ d.textFields) ∨
    ((group, key), Keyfile.boolOfRaw? raw) ∈ d.flagFields ∨
    ((group, key) = ("connection", "type") ∧ d.kind.absorbsConnectionType = true ∧
      (Keyfile.textOfRaw? raw).map Kind.ofConnectionType = some d.kind)

instance (d : Definition) (group key raw : String) : Decidable (d.Stores group key raw) :=
  inferInstanceAs (Decidable (_ ∨ _ ∨ _))

namespace Keyfile

/-- Whether nothing of the profile is lost: a group without settings is passed through
under a key that stands for it, and a setting is in a field or passed through with its own
value. -/
def Survives (kf : Keyfile) (d : Definition) : Prop :=
  (∀ group ∈ kf.groups.toList, group.2.isEmpty = true →
      (passthroughKey group.1 emptyGroupKey, "") ∈ d.passedThrough) ∧
    ∀ group ∈ kf.groups.toList, ∀ entry ∈ group.2.toList,
      d.Stores group.1 entry.1 entry.2 ∨
        ∃ value, textOfRaw? entry.2 = some value ∧
          (passthroughKey group.1 entry.1, value) ∈ d.passedThrough

/-- Whether the setting is a flag of the kind without a truth value. -/
def IsVoidFlag (kind : Kind) (group key raw : String) : Prop :=
  boolOfRaw? raw = none ∧
    (((group, key) = ("gsm", "auto-config") ∧ kind ≠ .other) ∨
      ((group, key) = ("wifi", "hidden") ∧ kind = .wifi))

/-- The names under which the settings of a group are passed through, or the group
itself when it has none. -/
def passedNames (group : Group) : List String :=
  if group.2.isEmpty then [passthroughKey group.1 emptyGroupKey]
  else group.2.keys.map (passthroughKey group.1)

/-- Whether something is passed through under `name`, which is `value` unless one of the
groups further down has the name too. -/
def KeptUnder (d : Definition) (later : List Group) (name value : String) : Prop :=
  name ∈ d.passedThrough.map Prod.fst ∧
    (name ∉ later.flatMap passedNames → (name, value) ∈ d.passedThrough)

/-- Whether the definition has its fields from the profile, and passes through what is
left over. -/
structure Describes (kf : Keyfile) (d : Definition) : Prop where
  kind : (kf.string? "connection" "type").map Kind.ofConnectionType = some d.kind
  uuid : d.settings.uuid = kf.string? "connection" "uuid"
  name : d.settings.name = kf.string? "connection" "id"
  modem : d.kind ≠ .other → d.modem = kf.modem
  selector : d.kind.isPhysical = true →
    d.selector = some { name := kf.string? "connection" "interface-name" }
  accessPoint : d.kind = .wifi → ∃ ssid settings, kf.string? "wifi" "ssid" = some ssid ∧
    d.accessPoints.values = [{ kf.accessPoint ssid with settings := settings }]
  passedThrough : d.passedThrough =
    (OrderedMap.ofList (kf.groups.toList.flatMap (kf.leftOver d.kind))).toList

section Interpreted

variable (kf : Keyfile) (id? : Option String) (uuid : String) (kind : Kind)

theorem settings_interpreted :
    (kf.interpreted id? uuid kind).settings =
      { uuid := some uuid, name := kf.string? "connection" "id" } := by
  rw [interpreted]
  split <;> rfl

theorem modem_interpreted {kind : Kind} (h : kind ≠ .other) :
    (kf.interpreted id? uuid kind).modem = kf.modem := by
  rw [interpreted, if_neg h]

theorem selector_interpreted {kind : Kind} (h : kind.isPhysical = true) :
    (kf.interpreted id? uuid kind).selector =
      some { name := kf.string? "connection" "interface-name" } := by
  have hother : kind ≠ .other := by
    rintro rfl
    exact absurd h (by decide)
  rw [interpreted, if_neg hother, if_pos h]

end Interpreted

section Outcomes

variable {kf : Keyfile} {id? : Option String} {uuid : String} {kind : Kind}

theorem describes_ofRest (huuid : kf.string? "connection" "uuid" = some uuid)
    (htype : (kf.string? "connection" "type").map Kind.ofConnectionType = some kind)
    (hwifi : kind ≠ .wifi) :
    kf.Describes
      (Import.ofRest (kf.interpreted id? uuid kind) (kf.clearAll (kf.consumed kind))).definition := by
  have hkind := kf.kind_interpreted id? uuid kind
  have hsettings := kf.settings_interpreted id? uuid kind
  have hleft := passthrough_clearAll_consumed (by rw [huuid]; rfl) (fun e => absurd e hwifi)
  simp only [Import.ofRest, hsettings, hleft]
  exact {
    kind := by rw [htype, hkind]
    uuid := huuid.symm
    name := rfl
    modem := fun hother => kf.modem_interpreted id? uuid (by rwa [hkind] at hother)
    selector := fun hphysical => kf.selector_interpreted id? uuid (by rwa [hkind] at hphysical)
    accessPoint := fun e => absurd (hkind.symm.trans e) hwifi
    passedThrough := by simp only [Definition.passedThrough, hkind, if_neg hwifi] }

theorem describes_ofAccessPoint {ssid : String}
    (huuid : kf.string? "connection" "uuid" = some uuid)
    (htype : (kf.string? "connection" "type").map Kind.ofConnectionType = some kind)
    (hwifi : kind = .wifi) (hssid : kf.string? "wifi" "ssid" = some ssid) :
    kf.Describes
      (Import.ofAccessPoint (kf.interpreted id? uuid kind) (kf.accessPoint ssid)
        (kf.clearAll (kf.consumed kind))).definition := by
  have hkind := kf.kind_interpreted id? uuid kind
  have hsettings := kf.settings_interpreted id? uuid kind
  have hpoints := kf.accessPoints_interpreted id? uuid kind
  have hleft := passthrough_clearAll_consumed (by rw [huuid]; rfl)
    (fun _ : kind = .wifi => by rw [hssid]; rfl)
  simp only [Import.ofAccessPoint, Definition.addAccessPoint, hsettings, hpoints, hleft]
  exact {
    kind := by rw [htype, hkind]
    uuid := huuid.symm
    name := rfl
    modem := fun hother => kf.modem_interpreted id? uuid (by rwa [hkind] at hother)
    selector := fun hphysical => kf.selector_interpreted id? uuid (by rwa [hkind] at hphysical)
    accessPoint := fun _ => ⟨ssid, _, hssid, rfl⟩
    passedThrough := by
      simp only [Definition.passedThrough, hkind, if_pos hwifi]
      exact List.append_nil _ }

end Outcomes

/-- An import ends in one of two ways, with all fields read from the profile as it was. -/
theorem cases_toDefinition {kf : Keyfile} {id? : Option String} {i : Import}
    (h : kf.toDefinition id? = .ok i) :
    ∃ uuid kind, kf.string? "connection" "uuid" = some uuid ∧
      (kf.string? "connection" "type").map Kind.ofConnectionType = some kind ∧
      (kind ≠ .wifi ∧
          i = .ofRest (kf.interpreted id? uuid kind) (kf.clearAll (kf.consumed kind)) ∨
        kind = .wifi ∧ ∃ ssid, kf.string? "wifi" "ssid" = some ssid ∧
          i = .ofAccessPoint (kf.interpreted id? uuid kind) (kf.accessPoint ssid)
            (kf.clearAll (kf.consumed kind))) := by
  obtain ⟨uuid, type, huuid, htype⟩ := exists_of_toDefinition h
  have heq := @toDefinition_eq kf id? uuid type huuid htype
  dsimp only at heq
  rw [h] at heq
  refine ⟨uuid, Kind.ofConnectionType type, huuid, by rw [htype, Option.map_some], ?_⟩
  by_cases hwifi : Kind.ofConnectionType type = .wifi
  · rw [if_pos hwifi] at heq
    cases hssid : kf.string? "wifi" "ssid" with
    | none => simp [hssid] at heq
    | some ssid =>
      rw [hssid] at heq
      exact Or.inr ⟨hwifi, ssid, rfl, Except.ok.inj heq⟩
  · rw [if_neg hwifi] at heq
    exact Or.inl ⟨hwifi, Except.ok.inj heq⟩

theorem describes_toDefinition {kf : Keyfile} {id? : Option String} {i : Import}
    (h : kf.toDefinition id? = .ok i) : kf.Describes i.definition := by
  obtain ⟨uuid, kind, huuid, htype, ⟨hwifi, rfl⟩ | ⟨hwifi, ssid, hssid, rfl⟩⟩ :=
    cases_toDefinition h
  · exact describes_ofRest huuid htype hwifi
  · exact describes_ofAccessPoint huuid htype hwifi hssid

section Stored

variable {kf : Keyfile} {d : Definition} {group key raw : String}

/-- A setting as the typed reads of the profile have it. -/
structure Holds (kf : Keyfile) (group key raw : String) : Prop where
  text : kf.string? group key = textOfRaw? raw
  readable : (textOfRaw? raw).isSome = true
  flag : kf.bool? group key = boolOfRaw? raw

theorem holds_of_mem {g : Group} {entry : String × String} (hg : g ∈ kf.groups.toList)
    (hentry : entry ∈ g.2.toList) (hreadable : kf.IsReadable) : kf.Holds g.1 entry.1 entry.2 := by
  have hraw : kf.raw? g.1 entry.1 = some entry.2 := by
    have hfind : kf.groups.find? g.1 = some g.2 := OrderedMap.find?_of_mem hg
    have hvalue : g.2.find? entry.1 = some entry.2 := OrderedMap.find?_of_mem hentry
    rw [raw?, hfind, Option.bind_some, hvalue]
  exact {
    text := string?_of_mem hg hentry
    readable := hreadable g hg entry hentry
    flag := by rw [bool?, hraw, Option.bind_some] }

theorem Holds.stores_text (h : kf.Holds group key raw)
    (hfield : ((group, key), kf.string? group key) ∈ d.textFields) : d.Stores group key raw :=
  Or.inl ⟨h.readable, h.text ▸ hfield⟩

/-- A flag is stored if it has a truth value. -/
theorem Holds.stores_flag (h : kf.Holds group key raw) {kind : Kind}
    (hfield : ((group, key), some ((kf.bool? group key).getD false)) ∈ d.flagFields)
    (hvoid : ¬ IsVoidFlag kind group key raw)
    (hflag : ((group, key) = ("gsm", "auto-config") ∧ kind ≠ .other) ∨
      ((group, key) = ("wifi", "hidden") ∧ kind = .wifi)) : d.Stores group key raw := by
  rw [h.flag] at hfield
  cases hvalue : boolOfRaw? raw with
  | none => exact absurd ⟨hvalue, hflag⟩ hvoid
  | some b =>
    rw [hvalue] at hfield
    exact Or.inr (Or.inl (hvalue ▸ hfield))

theorem Describes.stores_consumedIdentity (hd : kf.Describes d) (h : kf.Holds group key raw)
    (hmem : (group, key) ∈ kf.consumedIdentity) : d.Stores group key raw := by
  rw [consumedIdentity, List.mem_append, List.mem_singleton, mem_ifReadable] at hmem
  apply h.stores_text
  rcases hmem with huuid | ⟨rfl, rfl, -⟩
  · obtain ⟨rfl, rfl⟩ := Prod.mk.inj huuid
    simp [Definition.textFields, hd.uuid]
  · simp [Definition.textFields, hd.name]

theorem Describes.stores_consumedModem (hd : kf.Describes d) (hother : d.kind ≠ .other)
    (h : kf.Holds group key raw) (hmem : (group, key) ∈ kf.consumedModem)
    (hvoid : ¬ IsVoidFlag d.kind group key raw) : d.Stores group key raw := by
  simp only [consumedModem, List.mem_append, List.mem_singleton, mem_ifReadable, Prod.mk.injEq]
    at hmem
  have hmodem := hd.modem hother
  rcases hmem with
    (((((⟨rfl, rfl⟩ | ⟨rfl, rfl, -⟩) | ⟨rfl, rfl, -⟩) | ⟨rfl, rfl, -⟩) | ⟨rfl, rfl, -⟩)
      | ⟨rfl, rfl, -⟩) | ⟨rfl, rfl, -⟩
  · exact h.stores_flag (by simp [Definition.flagFields, hother, hmodem, Keyfile.modem]) hvoid
      (Or.inl ⟨rfl, hother⟩)
  all_goals
    exact h.stores_text (by simp [Definition.textFields, hmodem, Keyfile.modem])

theorem Describes.stores_consumedCommon (hd : kf.Describes d) (hother : d.kind ≠ .other)
    (h : kf.Holds group key raw) (hmem : (group, key) ∈ kf.consumedCommon d.kind)
    (hvoid : ¬ IsVoidFlag d.kind group key raw) : d.Stores group key raw := by
  rw [consumedCommon, List.mem_append, List.mem_append] at hmem
  rcases hmem with (htype | hname) | hmodem
  · by_cases htunnel : d.kind = .tunnel
    · rw [if_pos htunnel] at htype
      exact absurd htype List.not_mem_nil
    · rw [if_neg htunnel, List.mem_singleton] at htype
      have hkind := hd.kind
      obtain ⟨rfl, rfl⟩ := Prod.mk.inj htype
      rw [h.text] at hkind
      exact Or.inr (Or.inr ⟨rfl, absorbsConnectionType_iff.2 ⟨htunnel, hother⟩, hkind⟩)
  · by_cases hphysical : d.kind ∈ [Kind.ethernet, .wifi, .modem]
    · rw [if_pos hphysical, mem_ifReadable] at hname
      obtain ⟨rfl, rfl, -⟩ := hname
      exact h.stores_text
        (by simp [Definition.textFields, hd.selector (isPhysical_iff.2 hphysical)])
    · rw [if_neg hphysical] at hname
      exact absurd hname List.not_mem_nil
  · exact hd.stores_consumedModem hother h hmodem hvoid

theorem Describes.stores_consumedWifi (hd : kf.Describes d) (hwifi : d.kind = .wifi)
    (h : kf.Holds group key raw) (hmem : (group, key) ∈ kf.consumedWifi)
    (hvoid : ¬ IsVoidFlag d.kind group key raw) : d.Stores group key raw := by
  obtain ⟨ssid, settings, hssid, hpoints⟩ := hd.accessPoint hwifi
  rw [consumedWifi, List.mem_append, List.mem_append, List.mem_singleton, List.mem_singleton]
    at hmem
  rcases hmem with (hkey | hmode) | hhidden
  · obtain ⟨rfl, rfl⟩ := Prod.mk.inj hkey
    apply h.stores_text
    simp [Definition.textFields, hpoints, AccessPoint.textFields, hssid, Keyfile.accessPoint]
  · -- A mode is cleared only where it has a name, which is that of the setting.
    obtain ⟨rfl, rfl⟩ := mem_ifNamedMode hmode
    apply h.stores_text
    have hname : (((kf.string? "wifi" "mode").map WifiMode.ofName).getD .infrastructure).name? =
        kf.string? "wifi" "mode" := by
      rw [ifNamedMode] at hmode
      split at hmode
      · next hnamed =>
        simp only [List.mem_cons, List.not_mem_nil, or_false] at hnamed
        rcases hnamed with hm | hm | hm
        all_goals
          rw [hm]
          rfl
      · exact absurd hmode List.not_mem_nil
    simp [Definition.textFields, hpoints, AccessPoint.textFields, Keyfile.accessPoint, hname]
  · obtain ⟨rfl, rfl⟩ := Prod.mk.inj hhidden
    exact h.stores_flag (by simp [Definition.flagFields, hpoints, Keyfile.accessPoint]) hvoid
      (Or.inr ⟨rfl, hwifi⟩)

/-- A setting that moves into the definition is in a field of it, unless it is a flag
without a truth value. -/
theorem Describes.stores_consumed (hd : kf.Describes d) (h : kf.Holds group key raw)
    (hmem : (group, key) ∈ kf.consumed d.kind) (hvoid : ¬ IsVoidFlag d.kind group key raw) :
    d.Stores group key raw := by
  rw [consumed, List.mem_append, List.mem_append] at hmem
  rcases hmem with (hidentity | hcommon) | hwifi
  · exact hd.stores_consumedIdentity h hidentity
  · by_cases hother : d.kind = .other
    · rw [if_pos hother] at hcommon
      exact absurd hcommon List.not_mem_nil
    · rw [if_neg hother] at hcommon
      exact hd.stores_consumedCommon hother h hcommon hvoid
  · by_cases hkind : d.kind = .wifi
    · rw [if_pos hkind] at hwifi
      exact hd.stores_consumedWifi hkind h hwifi hvoid
    · rw [if_neg hkind] at hwifi
      exact absurd hwifi List.not_mem_nil

end Stored

theorem passthroughKey_injective (group : String) : Function.Injective (passthroughKey group) := by
  intro key key' h
  have hlist := congrArg String.toList h
  simp only [passthroughKey, String.toList_append, List.append_cancel_left_eq] at hlist
  exact String.toList_inj.1 hlist

/-- What is left over of a group is under its names. -/
theorem names_leftOver_subset (kf : Keyfile) (kind : Kind) (group : Group) :
    (kf.leftOver kind group).map Prod.fst ⊆ passedNames group := by
  intro name hname
  obtain ⟨⟨name', value⟩, hmem, rfl⟩ := List.mem_map.1 hname
  rw [leftOver] at hmem
  rw [passedNames]
  by_cases hempty : group.2.isEmpty = true
  · rw [if_pos hempty] at hmem ⊢
    split at hmem
    · exact absurd hmem List.not_mem_nil
    · exact List.mem_map_of_mem hmem
  · rw [if_neg hempty] at hmem ⊢
    obtain ⟨entry, hentry, hvalue⟩ := List.mem_filterMap.1 hmem
    split at hvalue
    · exact absurd hvalue (by simp)
    · obtain ⟨text, -, he⟩ := Option.map_eq_some_iff.1 hvalue
      obtain ⟨rfl, -⟩ := Prod.mk.inj he
      exact List.mem_map_of_mem (List.mem_map_of_mem hentry)

section Kept

variable {kf : Keyfile} {d : Definition} {before later : List Group} {group : Group}

/-- What is left over of a group is kept, unless a group further down has the name. -/
theorem Describes.keptUnder (hd : kf.Describes d)
    (hgroups : kf.groups.toList = before ++ group :: later) {name value : String}
    {xs ys : List (String × String)}
    (hleft : kf.leftOver d.kind group = xs ++ (name, value) :: ys)
    (hother : name ∉ ys.map Prod.fst) : KeptUnder d later name value := by
  have hsplit : kf.groups.toList.flatMap (kf.leftOver d.kind) =
      (before.flatMap (kf.leftOver d.kind) ++ xs) ++
        (name, value) :: (ys ++ later.flatMap (kf.leftOver d.kind)) := by
    rw [hgroups, List.flatMap_append, List.flatMap_cons, hleft]
    simp only [List.append_assoc, List.cons_append]
  rw [KeptUnder, hd.passedThrough, hsplit]
  -- The entry is the last under its name, as neither its own group nor a later one has it.
  refine ⟨?_, fun hlater => OrderedMap.mem_ofList_split _ ?_⟩
  · show name ∈ (OrderedMap.ofList _).keys
    rw [OrderedMap.ofList, OrderedMap.mem_keys_insertMany]
    exact Or.inr (by simp)
  · rw [List.map_append, List.mem_append, not_or]
    refine ⟨hother, fun hmem => hlater ?_⟩
    obtain ⟨entry, hentry, rfl⟩ := List.mem_map.1 hmem
    obtain ⟨g, hg, hleftg⟩ := List.mem_flatMap.1 hentry
    exact List.mem_flatMap.2
      ⟨g, hg, names_leftOver_subset kf d.kind g (List.mem_map_of_mem hleftg)⟩

/-- A group without settings is kept, except for modem parameters of a modelled kind. -/
theorem Describes.keptUnder_empty (hd : kf.Describes d)
    (hgroups : kf.groups.toList = before ++ group :: later) (hempty : group.2.isEmpty = true)
    (hgsm : ¬(group.1 = "gsm" ∧ d.kind ≠ .other)) :
    KeptUnder d later (passthroughKey group.1 emptyGroupKey) "" := by
  have hleft : kf.leftOver d.kind group =
      [] ++ (passthroughKey group.1 emptyGroupKey, "") :: [] := by
    rw [leftOver, if_pos hempty, if_neg hgsm, List.nil_append]
  exact hd.keptUnder hgroups hleft List.not_mem_nil

/-- A setting that does not move into the definition is kept. -/
theorem Describes.keptUnder_setting (hd : kf.Describes d)
    (hgroups : kf.groups.toList = before ++ group :: later) {entry : String × String}
    (hentry : entry ∈ group.2.toList) (hmem : (group.1, entry.1) ∉ kf.consumed d.kind)
    {value : String} (hvalue : kf.string? group.1 entry.1 = some value) :
    KeptUnder d later (passthroughKey group.1 entry.1) value := by
  obtain ⟨es, fs, hsplit⟩ := List.append_of_mem hentry
  let pass : String × String → Option (String × String) := fun entry =>
    if (group.1, entry.1) ∈ kf.consumed d.kind then none
    else (kf.string? group.1 entry.1).map (fun value => (passthroughKey group.1 entry.1, value))
  have hleft : kf.leftOver d.kind group =
      es.filterMap pass ++ (passthroughKey group.1 entry.1, value) :: fs.filterMap pass := by
    have hempty : ¬ group.2.isEmpty = true := by
      rw [OrderedMap.isEmpty, hsplit, List.isEmpty_iff]
      simp
    have hpass : pass entry = some (passthroughKey group.1 entry.1, value) := by
      simp only [pass, if_neg hmem, hvalue, Option.map_some]
    rw [leftOver, if_neg hempty, hsplit, List.filterMap_append, List.filterMap_cons_some hpass]
  refine hd.keptUnder hgroups hleft ?_
  -- The keys of a group differ, and so do the names that they make.
  intro hname
  obtain ⟨passed, hpassed, heq⟩ := List.mem_map.1 hname
  obtain ⟨other, hother, hpass⟩ := List.mem_filterMap.1 hpassed
  have hkey : passthroughKey group.1 other.1 = passthroughKey group.1 entry.1 := by
    simp only [pass] at hpass
    split at hpass
    · exact absurd hpass (by simp)
    · obtain ⟨text, -, he⟩ := Option.map_eq_some_iff.1 hpass
      rw [← he] at heq
      exact heq
  have hnodup := group.2.nodup_keys
  rw [hsplit, List.map_append, List.map_cons] at hnodup
  have hnot := (List.nodup_cons.1 (List.nodup_append.1 hnodup).2.1).1
  rw [← passthroughKey_injective group.1 hkey] at hnot
  exact hnot (List.mem_map_of_mem hother)

end Kept

/-- An import of a profile that can be read keeps every group without settings and every
setting: in a field, or under its group and key with its own value unless a group further
down has a setting of that name. Left out are an empty group of modem parameters of a
modelled kind, and flags without a truth value. -/
theorem keptUnder_toDefinition {kf : Keyfile} {id? : Option String} {i : Import}
    (hreadable : kf.IsReadable) (h : kf.toDefinition id? = .ok i) :
    ∀ before group later, kf.groups.toList = before ++ group :: later →
      (group.2.isEmpty = true → ¬(group.1 = "gsm" ∧ i.definition.kind ≠ .other) →
        KeptUnder i.definition later (passthroughKey group.1 emptyGroupKey) "") ∧
      ∀ entry ∈ group.2.toList, ¬ IsVoidFlag i.definition.kind group.1 entry.1 entry.2 →
        i.definition.Stores group.1 entry.1 entry.2 ∨
          ∃ value, textOfRaw? entry.2 = some value ∧
            KeptUnder i.definition later (passthroughKey group.1 entry.1) value := by
  intro before group later hgroups
  have hd := describes_toDefinition h
  refine ⟨hd.keptUnder_empty hgroups, fun entry hentry hvoid => ?_⟩
  have hgroup : group ∈ kf.groups.toList := by
    rw [hgroups]
    exact List.mem_append_right _ List.mem_cons_self
  have hholds := holds_of_mem hgroup hentry hreadable
  by_cases hmem : (group.1, entry.1) ∈ kf.consumed i.definition.kind
  · exact Or.inl (hd.stores_consumed hholds hmem hvoid)
  · obtain ⟨value, hvalue⟩ := Option.isSome_iff_exists.1 hholds.readable
    exact Or.inr ⟨value, hvalue,
      hd.keptUnder_setting hgroups hentry hmem (hholds.text.trans hvalue)⟩

/-- A wireless profile with an empty group of modem parameters, a flag that is neither true
nor false, and two settings that meet under one name. -/
def dottedProfile : Keyfile :=
  ⟨OrderedMap.ofList
    [("connection", OrderedMap.ofList [("uuid", "1"), ("type", "wifi")]),
      ("wifi", OrderedMap.ofList [("ssid", "net"), ("hidden", "maybe")]), ("gsm", ∅), ("vpn", ∅),
      ("a.b", OrderedMap.ofList [("c", "1")]), ("a", OrderedMap.ofList [("b.c", "2")])]⟩

/-- What the profile is imported as. -/
def dottedImport : Import :=
  { definition :=
      { id := "NM-1"
        kind := .wifi
        backend := .networkManager
        selector := some {}
        settings := { uuid := some "1" }
        accessPoints := OrderedMap.ofList
          [("net",
            { ssid := "net"
              settings :=
                { uuid := some "1"
                  passthrough := OrderedMap.ofList [("vpn._", ""), ("a.b.c", "2")] } })] }
    unreadable := [] }

theorem keptUnder_dottedProfile :
    dottedProfile.IsReadable ∧ dottedProfile.toDefinition none = .ok dottedImport ∧
      KeptUnder dottedImport.definition
        [("a.b", OrderedMap.ofList [("c", "1")]), ("a", OrderedMap.ofList [("b.c", "2")])] "vpn._" "" ∧
      ∃ value, textOfRaw? "2" = some value ∧
        KeptUnder dottedImport.definition [] "a.b.c" value := by
  have hreadable : dottedProfile.IsReadable := by decide +kernel
  have himport : dottedProfile.toDefinition none = .ok dottedImport := by decide +kernel
  have hkept := keptUnder_toDefinition hreadable himport
  have hvpn : dottedProfile.groups.toList = dottedProfile.groups.toList.take 3 ++ ("vpn", ∅) ::
      [("a.b", OrderedMap.ofList [("c", "1")]), ("a", OrderedMap.ofList [("b.c", "2")])] := by
    decide +kernel
  have hlast : dottedProfile.groups.toList = dottedProfile.groups.toList.take 5 ++
      [("a", OrderedMap.ofList [("b.c", "2")])] := by
    decide +kernel
  refine ⟨hreadable, himport, (hkept _ _ _ hvpn).1 rfl (by decide), ?_⟩
  have hvoid : ¬ IsVoidFlag dottedImport.definition.kind "a" "b.c" "2" := fun h =>
    absurd h.2 (by decide)
  have hstored : ¬ dottedImport.definition.Stores "a" "b.c" "2" := by decide +kernel
  exact ((hkept _ _ _ hlast).2 ("b.c", "2") List.mem_cons_self hvoid).resolve_left hstored

/-- A modem profile with a flag that is neither true nor false. -/
def voidFlagProfile : Keyfile :=
  ⟨OrderedMap.ofList
    [("connection", OrderedMap.ofList [("uuid", "1"), ("type", "gsm")]),
      ("gsm", OrderedMap.ofList [("auto-config", "maybe")])]⟩

/-- What the profile is imported as. -/
def voidFlagImport : Import :=
  { definition :=
      { id := "NM-1"
        kind := .modem
        backend := .networkManager
        selector := some {}
        settings := { uuid := some "1" } }
    unreadable := [] }

/-- What is lost of two profiles: the empty group of modem parameters, both flags, which are
neither stored nor passed through, and the first of two settings with one name. -/
theorem not_survives_import :
    (parse ("[connection]\nuuid=1\ntype=wifi\n[wifi]\nssid=net\nhidden=maybe\n[gsm]\n[vpn]\n"
        ++ "[a.b]\nc=1\n[a]\nb.c=2\n") = .ok dottedProfile ∧
      dottedProfile.IsReadable ∧ dottedProfile.toDefinition none = .ok dottedImport ∧
      ("gsm._", "") ∉ dottedImport.definition.passedThrough ∧
      (¬ dottedImport.definition.Stores "wifi" "hidden" "maybe" ∧
        ("wifi.hidden", "maybe") ∉ dottedImport.definition.passedThrough) ∧
      (¬ dottedImport.definition.Stores "a.b" "c" "1" ∧
        ("a.b.c", "1") ∉ dottedImport.definition.passedThrough) ∧
      ¬ dottedProfile.Survives dottedImport.definition) ∧
    parse "[connection]\nuuid=1\ntype=gsm\n[gsm]\nauto-config=maybe\n" = .ok voidFlagProfile ∧
      voidFlagProfile.IsReadable ∧ voidFlagProfile.toDefinition none = .ok voidFlagImport ∧
      (¬ voidFlagImport.definition.Stores "gsm" "auto-config" "maybe" ∧
        ("gsm.auto-config", "maybe") ∉ voidFlagImport.definition.passedThrough) ∧
      ¬ voidFlagProfile.Survives voidFlagImport.definition := by
  constructor
  · have hgsm : ("gsm._", "") ∉ dottedImport.definition.passedThrough := by decide +kernel
    refine ⟨by decide +kernel, by decide +kernel, by decide +kernel, hgsm, by decide +kernel,
      by decide +kernel, fun hsurvives => hgsm ?_⟩
    exact hsurvives.1 ("gsm", ∅) (by decide +kernel) rfl
  · have hnothing : voidFlagImport.definition.passedThrough = [] := rfl
    have hstored : ¬ voidFlagImport.definition.Stores "gsm" "auto-config" "maybe" := by
      decide +kernel
    refine ⟨by decide +kernel, by decide +kernel, by decide +kernel,
      ⟨hstored, by decide +kernel⟩, fun hsurvives => ?_⟩
    rcases hsurvives.2 ("gsm", OrderedMap.ofList [("auto-config", "maybe")]) (by decide +kernel)
      ("auto-config", "maybe") (by decide +kernel) with h | ⟨value, -, hpassed⟩
    · exact hstored h
    · rw [hnothing] at hpassed
      exact absurd hpassed List.not_mem_nil

end Keyfile

end NetProfile
