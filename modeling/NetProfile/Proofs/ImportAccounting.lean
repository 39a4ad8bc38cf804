import NetProfile.Import
import NetProfile.Proofs.Clearing

/-!
# Where the settings of an imported profile go

An import clears settings of the profile one after the other while it reads
others. Each read can be done on the profile as it was, since no setting is read
after it has been cleared; and what is passed through in the end is what the
profile held beside the settings that were moved into the definition.

## Main definitions

- `Keyfile.consumed` — the settings that move into a definition of some kind
- `Keyfile.leftOver` — what is passed through of one group of the profile
- `Keyfile.interpreted` — the definition, read from the profile as it was

## Main results

- `Keyfile.toDefinition_eq` — an import as a function of the profile as it was
- `Keyfile.passthrough_toDefinition` — what is passed through
-/

namespace NetProfile

/-- The names of modes are the three that documents have. -/
theorem WifiMode.isSome_name?_ofName (name : String) :
    (WifiMode.ofName name).name?.isSome = decide (name ∈ ["infrastructure", "ap", "adhoc"]) := by
  rw [WifiMode.ofName]
  by_cases h₁ : name = "infrastructure"
  · simp [h₁, WifiMode.name?]
  · by_cases h₂ : name = "ap"
    · simp [h₂, WifiMode.name?]
    · by_cases h₃ : name = "adhoc"
      · simp [h₃, WifiMode.name?]
      · simp [h₁, h₂, h₃, WifiMode.name?]

namespace Keyfile

/-- The setting, if it is there and can be read as a text. -/
def ifReadable (kf : Keyfile) (group key : String) : List (String × String) :=
  if (kf.string? group key).isSome then [(group, key)] else []

/-- The mode of a wireless network, if it is one that definitions have. -/
def ifNamedMode (kf : Keyfile) : List (String × String) :=
  if kf.string? "wifi" "mode" ∈ [some "infrastructure", some "ap", some "adhoc"] then
    [("wifi", "mode")]
  else []

/-- The modem parameters of a profile. -/
def consumedModem (kf : Keyfile) : List (String × String) :=
  [("gsm", "auto-config")]
  ++ kf.ifReadable "gsm" "apn"
  ++ kf.ifReadable "gsm" "device-id"
  ++ kf.ifReadable "gsm" "network-id"
  ++ kf.ifReadable "gsm" "pin"
  ++ kf.ifReadable "gsm" "sim-id"
  ++ kf.ifReadable "gsm" "sim-operator-id"

/-- The settings of a profile that move into every definition. -/
def consumedIdentity (kf : Keyfile) : List (String × String) :=
  [("connection", "uuid")] ++ kf.ifReadable "connection" "id"

/-- The further settings that move into a definition of a modelled kind. -/
def consumedCommon (kf : Keyfile) (kind : Kind) : List (String × String) :=
  (if kind = .tunnel then [] else [("connection", "type")])
  ++ (if kind ∈ [.ethernet, .wifi, .modem] then kf.ifReadable "connection" "interface-name"
      else [])
  ++ kf.consumedModem

/-- The settings that move into an access point. -/
def consumedWifi (kf : Keyfile) : List (String × String) :=
  [("wifi", "ssid")] ++ kf.ifNamedMode ++ [("wifi", "hidden")]

/-- The settings of a profile that move into a definition of the given kind. -/
def consumed (kf : Keyfile) (kind : Kind) : List (String × String) :=
  kf.consumedIdentity
  ++ (if kind = .other then [] else kf.consumedCommon kind)
  ++ (if kind = .wifi then kf.consumedWifi else [])

/-- What is passed through of one group when a profile is imported as the given kind:
every setting that can be read and does not move into the definition, or a key that
stands for the group when it has no settings. Modelled kinds drop an empty group of
modem parameters. -/
def leftOver (kf : Keyfile) (kind : Kind) (group : Group) : List (String × String) :=
  if group.2.isEmpty then
    if group.1 = "gsm" ∧ kind ≠ .other then [] else [(passthroughKey group.1 emptyGroupKey, "")]
  else
    group.2.toList.filterMap (fun entry =>
      if (group.1, entry.1) ∈ kf.consumed kind then none
      else (kf.string? group.1 entry.1).map (fun value => (passthroughKey group.1 entry.1, value)))

/-- The modem parameters in a profile. -/
def modem (kf : Keyfile) : Modem :=
  { autoConfig := (kf.bool? "gsm" "auto-config").getD false
    apn := kf.string? "gsm" "apn"
    deviceId := kf.string? "gsm" "device-id"
    networkId := kf.string? "gsm" "network-id"
    pin := kf.string? "gsm" "pin"
    simId := kf.string? "gsm" "sim-id"
    simOperatorId := kf.string? "gsm" "sim-operator-id" }

/-- The access point that a profile describes, without what is passed through. -/
def accessPoint (kf : Keyfile) (ssid : String) : AccessPoint :=
  { ssid
    hidden := (kf.bool? "wifi" "hidden").getD false
    mode := ((kf.string? "wifi" "mode").map WifiMode.ofName).getD .infrastructure }

/-- What a profile says about every definition. -/
def identity (kf : Keyfile) (id? : Option String) (uuid : String) (kind : Kind) : Definition :=
  { id := id?.getD ("NM-" ++ uuid)
    kind
    backend := .networkManager
    settings := { uuid := some uuid, name := kf.string? "connection" "id" } }

/-- The definition that a profile describes, without what is passed through and
without access points. -/
def interpreted (kf : Keyfile) (id? : Option String) (uuid : String) (kind : Kind) : Definition :=
  if kind = .other then kf.identity id? uuid kind
  else
    { kf.identity id? uuid kind with
      selector :=
        if kind.isPhysical then some { name := kf.string? "connection" "interface-name" } else none
      modem := kf.modem
      wakeOnLan := kf.wakeOnLan }

section Reads

variable {kf : Keyfile} {ss : List (String × String)} {group key : String}

theorem mem_ifReadable {g k : String} :
    (g, k) ∈ kf.ifReadable group key ↔
      g = group ∧ k = key ∧ (kf.string? group key).isSome = true := by
  rw [ifReadable]
  split
  · next h => simp [h]
  · next h => simp [h]

theorem mem_ifNamedMode {g k : String} (h : (g, k) ∈ kf.ifNamedMode) : g = "wifi" ∧ k = "mode" := by
  rw [ifNamedMode] at h
  split at h
  · simpa using h
  · exact absurd h List.not_mem_nil

theorem string?_clearAll (h : (group, key) ∉ ss) :
    (kf.clearAll ss).string? group key = kf.string? group key := by
  rw [string?, raw?_clearAll, if_neg h, string?]

theorem bool?_clearAll (h : (group, key) ∉ ss) :
    (kf.clearAll ss).bool? group key = kf.bool? group key := by
  rw [bool?, raw?_clearAll, if_neg h, bool?]

theorem clear_clearAll : (kf.clearAll ss).clear group key = kf.clearAll (ss ++ [(group, key)]) := by
  rw [clearAll_append, clearAll_singleton]

/-- Taking a setting clears it where it can be read. -/
theorem take_clearAll (h : (group, key) ∉ ss) :
    (kf.clearAll ss).take group key =
      (kf.string? group key, kf.clearAll (ss ++ kf.ifReadable group key)) := by
  rw [take, string?_clearAll h, ifReadable]
  cases kf.string? group key with
  | none => simp
  | some value => simp only [Option.isSome_some, if_true, clear_clearAll]

theorem not_mem_of_not_names (h : names ss group = false) : (group, key) ∉ ss := by
  intro hmem
  rw [names, List.any_eq_false] at h
  exact h _ hmem (beq_self_eq_true group)

/-- Waking over the network is decided by a group of which nothing is cleared. -/
theorem wakeOnLan_clearAll (h : names ss "ethernet" = false) :
    (kf.clearAll ss).wakeOnLan = kf.wakeOnLan := by
  have hraw : (kf.clearAll ss).raw? "ethernet" "wake-on-lan" = kf.raw? "ethernet" "wake-on-lan" := by
    rw [raw?_clearAll, if_neg (not_mem_of_not_names h)]
  rw [wakeOnLan, wakeOnLan, hasGroup_clearAll_of_not_names kf h, hasKey, hasKey, word64?, word64?,
    hraw]

theorem takeModem_clearAll (h : names ss "gsm" = false) :
    (kf.clearAll ss).takeModem = (kf.modem, kf.clearAll (ss ++ kf.consumedModem)) := by
  have hgsm : ∀ key, ("gsm", key) ∉ ss := fun key => not_mem_of_not_names h
  rw [takeModem, clear_clearAll, bool?_clearAll (hgsm _),
    take_clearAll (by simp [hgsm])]
  dsimp only
  rw [take_clearAll (by simp [hgsm, mem_ifReadable])]
  dsimp only
  rw [take_clearAll (by simp [hgsm, mem_ifReadable])]
  dsimp only
  rw [take_clearAll (by simp [hgsm, mem_ifReadable])]
  dsimp only
  rw [take_clearAll (by simp [hgsm, mem_ifReadable])]
  dsimp only
  rw [take_clearAll (by simp [hgsm, mem_ifReadable])]
  simp only [modem, consumedModem, List.append_assoc]

/-- A mode that definitions have is cleared; any other stays. -/
theorem clear_namedMode :
    (if (kf.string? "wifi" "mode").isSome
          && (((kf.string? "wifi" "mode").map WifiMode.ofName).getD .infrastructure).name?.isSome
      then (kf.clearAll ss).clear "wifi" "mode"
      else kf.clearAll ss) = kf.clearAll (ss ++ kf.ifNamedMode) := by
  rw [ifNamedMode]
  cases kf.string? "wifi" "mode" with
  | none => simp
  | some name =>
    rw [Option.map_some, Option.getD_some, Option.isSome_some, Bool.true_and,
      WifiMode.isSome_name?_ofName]
    by_cases hname : name ∈ ["infrastructure", "ap", "adhoc"]
    · have hsome : some name ∈ [some "infrastructure", some "ap", some "adhoc"] := by
        simpa using hname
      rw [if_pos (decide_eq_true hname), if_pos hsome, clear_clearAll]
    · have hsome : some name ∉ [some "infrastructure", some "ap", some "adhoc"] := by
        simpa using hname
      rw [if_neg (by simpa using hname), if_neg hsome, List.append_nil]

theorem takeAccessPoint_clearAll (h : names ss "wifi" = false) :
    (kf.clearAll ss).takeAccessPoint =
      match kf.string? "wifi" "ssid" with
      | none => .error .missingSsid
      | some ssid => .ok (kf.accessPoint ssid, kf.clearAll (ss ++ kf.consumedWifi)) := by
  have hwifi : ∀ key, ("wifi", key) ∉ ss := fun key => not_mem_of_not_names h
  rw [takeAccessPoint, take_clearAll (hwifi _), ifReadable]
  cases kf.string? "wifi" "ssid" with
  | none => rfl
  | some ssid =>
    dsimp only [Option.isSome_some]
    rw [if_pos rfl, string?_clearAll (by simp [hwifi])]
    have hhidden : ("wifi", "hidden") ∉ ss ++ [("wifi", "ssid")] ++ kf.ifNamedMode := by
      have hmode : ("wifi", "hidden") ∉ kf.ifNamedMode := fun hmem =>
        absurd (mem_ifNamedMode hmem).2 (by decide)
      simp [hwifi, hmode]
    rw [clear_namedMode, bool?_clearAll hhidden, clear_clearAll]
    simp only [accessPoint, consumedWifi, List.append_assoc]

theorem isPhysical_iff {kind : Kind} :
    kind.isPhysical = true ↔ kind ∈ [Kind.ethernet, .wifi, .modem] := by
  cases kind <;> decide

/-- Only tunnels and unmodelled kinds leave the connection type in the profile. -/
theorem absorbsConnectionType_iff {kind : Kind} :
    kind.absorbsConnectionType = true ↔ kind ≠ .tunnel ∧ kind ≠ .other := by
  cases kind <;> decide

theorem names_ifReadable_of_ne {g : String} (h : group ≠ g) :
    names (kf.ifReadable group key) g = false := by
  rw [ifReadable]
  split
  · simpa [names] using h
  · rfl

theorem names_consumedModem_of_ne {g : String} (h : "gsm" ≠ g) :
    names kf.consumedModem g = false := by
  have hauto : names [("gsm", "auto-config")] g = false := by simpa [names] using h
  simp only [consumedModem, names_append, hauto, names_ifReadable_of_ne h, Bool.or_self]

/-- What every modelled kind has in common is that of the profile as it was. -/
theorem takeCommon_clearAll {kind : Kind} {id? : Option String} {uuid : String}
    (hkind : kind ≠ .other) (hname : ("connection", "interface-name") ∉ ss)
    (hgsm : names ss "gsm" = false) (hether : names ss "ethernet" = false) :
    (kf.clearAll ss).takeCommon (kf.identity id? uuid kind) =
      (kf.interpreted id? uuid kind, kf.clearAll (ss ++ kf.consumedCommon kind)) := by
  let typeKey : List (String × String) :=
    if kind = .tunnel then [] else [("connection", "type")]
  have htype : (if kind.absorbsConnectionType then (kf.clearAll ss).clear "connection" "type"
      else kf.clearAll ss) = kf.clearAll (ss ++ typeKey) := by
    rw [clear_clearAll]
    by_cases htunnel : kind = .tunnel
    · have habsorb : ¬ kind.absorbsConnectionType = true := by simp [htunnel, Kind.absorbsConnectionType]
      rw [if_neg habsorb]
      simp [typeKey, htunnel]
    · rw [if_pos (absorbsConnectionType_iff.2 ⟨htunnel, hkind⟩)]
      simp [typeKey, htunnel]
  have hname' : ("connection", "interface-name") ∉ ss ++ typeKey := by
    by_cases htunnel : kind = .tunnel
    · simpa [typeKey, htunnel] using hname
    · simpa [typeKey, htunnel] using hname
  have hnames : ∀ g, g ≠ "connection" → names ss g = false → names (ss ++ typeKey) g = false := by
    intro g hg hss
    have htypeKey : names typeKey g = false := by
      by_cases htunnel : kind = .tunnel
      · simp [typeKey, htunnel, names]
      · simpa [typeKey, htunnel, names] using fun e => hg e.symm
    rw [names_append, hss, htypeKey, Bool.or_self]
  have hgsm' := hnames "gsm" (by decide) hgsm
  have hether' := hnames "ethernet" (by decide) hether
  have hkind' : (kf.identity id? uuid kind).kind = kind := rfl
  -- What is read at each point is not among the settings that were cleared before.
  rw [takeCommon]
  simp only [hkind']
  rw [htype]
  by_cases hphysical : kind.isPhysical = true
  · have hnamed : names (ss ++ typeKey ++ kf.ifReadable "connection" "interface-name") "gsm" = false := by
      rw [names_append, hgsm', names_ifReadable_of_ne (by decide), Bool.or_self]
    have hwake : names (ss ++ typeKey ++ kf.ifReadable "connection" "interface-name"
        ++ kf.consumedModem) "ethernet" = false := by
      rw [names_append, names_append, hether', names_ifReadable_of_ne (by decide),
        names_consumedModem_of_ne (by decide), Bool.or_self, Bool.or_self]
    simp only [hphysical, if_true, take_clearAll hname', takeModem_clearAll hnamed,
      wakeOnLan_clearAll hwake]
    simp only [interpreted, identity, hkind, hphysical, if_true, if_false, consumedCommon,
      isPhysical_iff.1 hphysical, typeKey, List.append_assoc]
  · have hwake : names (ss ++ typeKey ++ kf.consumedModem) "ethernet" = false := by
      rw [names_append, hether', names_consumedModem_of_ne (by decide), Bool.or_self]
    simp only [hphysical, takeModem_clearAll hgsm', wakeOnLan_clearAll hwake, Bool.false_eq_true,
      if_false]
    have hvirtual : kind ∉ [Kind.ethernet, .wifi, .modem] := fun h => hphysical (isPhysical_iff.2 h)
    simp only [interpreted, identity, hkind, hphysical, if_false, consumedCommon, hvirtual, typeKey,
      List.append_assoc, List.nil_append, Bool.false_eq_true]

end Reads

theorem names_singleton {g group key : String} : names [(group, key)] g = true ↔ g = group := by
  rw [names, List.any_cons, List.any_nil, Bool.or_false, beq_iff_eq]
  exact eq_comm

theorem names_consumedIdentity {kf : Keyfile} {g : String} :
    names kf.consumedIdentity g = true ↔ g = "connection" := by
  rw [consumedIdentity, names_append, Bool.or_eq_true]
  constructor
  · rintro (hself | hreadable)
    · exact names_singleton.1 hself
    · by_contra hne
      rw [names_ifReadable_of_ne (fun e => hne e.symm)] at hreadable
      exact absurd hreadable (by decide)
  · exact fun h => Or.inl (names_singleton.2 h)

/-- Modelled kinds take settings from two groups at most. -/
theorem eq_of_names_consumedCommon {kf : Keyfile} {kind : Kind} {g : String}
    (h : names (kf.consumedCommon kind) g = true) : g = "connection" ∨ g = "gsm" := by
  by_contra hne
  rw [not_or] at hne
  have hconnection : ∀ key, names (kf.ifReadable "connection" key) g = false :=
    fun _ => names_ifReadable_of_ne (fun e => hne.1 e.symm)
  have hmodem : names kf.consumedModem g = false :=
    names_consumedModem_of_ne (fun e => hne.2 e.symm)
  have htype : names (if kind = .tunnel then [] else [("connection", "type")]) g = false := by
    split
    · rfl
    · simpa [names] using fun e => hne.1 e.symm
  rw [consumedCommon, names_append, names_append, htype, hmodem, Bool.false_or, Bool.or_false] at h
  split at h
  · rw [hconnection] at h
    exact Bool.false_ne_true h
  · exact Bool.false_ne_true h

theorem names_consumedCommon_gsm (kf : Keyfile) (kind : Kind) :
    names (kf.consumedCommon kind) "gsm" = true := by
  rw [consumedCommon, names_append, Bool.or_eq_true]
  refine Or.inr ?_
  simp only [consumedModem, List.append_assoc]
  rw [names_append, Bool.or_eq_true]
  exact Or.inl rfl

/-- What moves into every modelled kind is from two groups. -/
theorem names_consumedModelled {kf : Keyfile} {kind : Kind} {g : String} :
    names (kf.consumedIdentity ++ kf.consumedCommon kind) g = true ↔
      g = "connection" ∨ g = "gsm" := by
  rw [names_append, Bool.or_eq_true, names_consumedIdentity]
  constructor
  · rintro (h | h)
    · exact Or.inl h
    · exact eq_of_names_consumedCommon h
  · rintro (h | rfl)
    · exact Or.inl h
    · exact Or.inr (kf.names_consumedCommon_gsm kind)

/-- Nothing wireless is among the settings that move into every modelled kind. -/
theorem names_consumedCommon_wifi (kf : Keyfile) (kind : Kind) :
    names (kf.consumedIdentity ++ kf.consumedCommon kind) "wifi" = false := by
  rw [Bool.eq_false_iff]
  intro h
  exact absurd (names_consumedModelled.1 h) (by decide)

/-- The outcome of an import of a profile whose identity and type can be read: the
definition is read from the profile as it was, and what is passed through is what is
left when all that was moved into the definition is cleared. -/
theorem toDefinition_eq {kf : Keyfile} {id? : Option String} {uuid type : String}
    (huuid : kf.string? "connection" "uuid" = some uuid)
    (htype : kf.string? "connection" "type" = some type) :
    let kind := Kind.ofConnectionType type
    let rest := kf.clearAll (kf.consumed kind)
    kf.toDefinition id? =
      if kind = .wifi then
        match kf.string? "wifi" "ssid" with
        | none => .error .missingSsid
        | some ssid =>
          .ok (.ofAccessPoint (kf.interpreted id? uuid kind) (kf.accessPoint ssid) rest)
      else .ok (.ofRest (kf.interpreted id? uuid kind) rest) := by
  intro kind rest
  have hid : (kf.clear "connection" "uuid").take "connection" "id" =
      (kf.string? "connection" "id", kf.clearAll kf.consumedIdentity) :=
    @take_clearAll kf [("connection", "uuid")] "connection" "id" (by decide)
  rw [toDefinition, huuid, htype]
  simp only [hid]
  by_cases hother : kind = .other
  · have hwifi : ¬ kind = .wifi := by simp [hother]
    rw [if_pos hother, if_neg hwifi]
    have hrest : rest = kf.clearAll kf.consumedIdentity := by
      simp only [rest, consumed, hother, if_true, List.append_nil, reduceCtorEq, if_false]
    rw [hrest, interpreted, if_pos hother]
    rfl
  · have hidentityNames : ∀ g, g ≠ "connection" → names kf.consumedIdentity g = false :=
      fun g hg => Bool.eq_false_iff.2 (fun h => hg (names_consumedIdentity.1 h))
    have hcommon := @takeCommon_clearAll kf kf.consumedIdentity kind id? uuid hother
      (by simp [consumedIdentity, mem_ifReadable])
      (hidentityNames "gsm" (by decide)) (hidentityNames "ethernet" (by decide))
    rw [if_neg hother]
    have hidentity : kf.identity id? uuid kind =
        { id := id?.getD ("NM-" ++ uuid)
          kind
          backend := .networkManager
          settings := { uuid := some uuid, name := kf.string? "connection" "id" } } := rfl
    rw [hidentity] at hcommon
    simp only [kind] at hcommon ⊢
    rw [hcommon]
    dsimp only
    by_cases hwifi : kind = .wifi
    · have hap := @takeAccessPoint_clearAll kf _ (names_consumedCommon_wifi kf kind)
      rw [if_pos hwifi, if_pos hwifi, hap]
      cases kf.string? "wifi" "ssid" with
      | none => rfl
      | some ssid =>
        have hrest : rest = kf.clearAll
            (kf.consumedIdentity ++ kf.consumedCommon kind ++ kf.consumedWifi) := by
          simp only [rest, consumed, if_neg hother, if_pos hwifi]
        rw [hrest]
    · have hrest : rest = kf.clearAll (kf.consumedIdentity ++ kf.consumedCommon kind) := by
        simp only [rest, consumed, if_neg hother, if_neg hwifi, List.append_nil]
      rw [if_neg hwifi, if_neg hwifi, hrest]

theorem names_consumedWifi {kf : Keyfile} {g : String} :
    names kf.consumedWifi g = true ↔ g = "wifi" := by
  rw [consumedWifi, names_append, names_append, Bool.or_eq_true, Bool.or_eq_true]
  constructor
  · rintro ((hssid | hmode) | hhidden)
    · exact names_singleton.1 hssid
    · rw [names, List.any_eq_true] at hmode
      obtain ⟨⟨group, key⟩, hmem, heq⟩ := hmode
      rw [← (mem_ifNamedMode hmem).1]
      exact (beq_iff_eq.1 heq).symm
    · exact names_singleton.1 hhidden
  · exact fun h => Or.inl (Or.inl (names_singleton.2 h))

/-- The groups of which something moves into a definition. -/
theorem names_consumed {kf : Keyfile} {kind : Kind} {g : String} :
    names (kf.consumed kind) g = true ↔
      g = "connection" ∨ (g = "gsm" ∧ kind ≠ .other) ∨ (g = "wifi" ∧ kind = .wifi) := by
  have hwifi : names (if kind = .wifi then kf.consumedWifi else []) g = true ↔
      g = "wifi" ∧ kind = .wifi := by
    split
    · next h => simp only [names_consumedWifi, h, and_true]
    · next h => simp [names, h]
  rw [consumed, names_append, Bool.or_eq_true, hwifi]
  by_cases hother : kind = .other
  · rw [if_pos hother, List.append_nil, names_consumedIdentity]
    simp [hother]
  · rw [if_neg hother, names_consumedModelled, or_assoc]
    simp [hother]

theorem string?_of_isEmpty {kf : Keyfile} {group : Group} {key : String}
    (hg : group ∈ kf.groups.toList) (hempty : group.2.isEmpty = true) :
    kf.string? group.1 key = none := by
  have hfind : kf.groups.find? group.1 = some group.2 := OrderedMap.find?_of_mem hg
  have hnil : group.2.toList = [] := List.isEmpty_iff.1 hempty
  have hnone : group.2.find? key = none := by rw [OrderedMap.find?, hnil, OrderedMap.lookup?]
  rw [string?, raw?, hfind, Option.bind_some, hnone]
  rfl

theorem string?_of_mem {kf : Keyfile} {group : Group} {entry : String × String}
    (hg : group ∈ kf.groups.toList) (hentry : entry ∈ group.2.toList) :
    kf.string? group.1 entry.1 = (unescape entry.2.toList).map String.ofList := by
  have hfind : kf.groups.find? group.1 = some group.2 := OrderedMap.find?_of_mem hg
  have hvalue : group.2.find? entry.1 = some entry.2 := OrderedMap.find?_of_mem hentry
  rw [string?, raw?, hfind, Option.bind_some, hvalue, Option.bind_some]

/-- The readable settings among those left, as passed through. -/
def readable (settings : List (String × Option String)) : List (String × String) :=
  settings.filterMap (fun entry => entry.2.map (fun value => (entry.1, value)))

/-- What is left of a group after a clearing is passed through setting by setting. -/
theorem readable_remainingOf {kf : Keyfile} {group : Group} {ss : List (String × String)}
    (hg : group ∈ kf.groups.toList) (hempty : (unnamed ss group).isEmpty = false) :
    readable (remainingOf group.1 (unnamed ss group)) =
      group.2.toList.filterMap (fun entry =>
        if (group.1, entry.1) ∈ ss then none
        else (kf.string? group.1 entry.1).map (fun value => (passthroughKey group.1 entry.1, value))) := by
  rw [remainingOf, hempty, if_neg Bool.false_ne_true, readable, List.filterMap_map, unnamed,
    OrderedMap.toList_keep, List.filterMap_filter]
  apply List.filterMap_congr
  intro entry hentry
  rw [string?_of_mem hg hentry]
  by_cases hmem : (group.1, entry.1) ∈ ss
  · simp [hmem]
  · simp [hmem, Function.comp]

/-- What is left of one group when all that moves into the definition is cleared. -/
theorem readable_survivor {kf : Keyfile} {kind : Kind} {group : Group}
    (huuid : (kf.string? "connection" "uuid").isSome = true)
    (hssid : kind = .wifi → (kf.string? "wifi" "ssid").isSome = true)
    (hg : group ∈ kf.groups.toList) :
    ((survivor? (kf.consumed kind) group).toList.flatMap fun g => readable (remainingOf g.1 g.2)) =
      kf.leftOver kind group := by
  by_cases hempty : group.2.isEmpty = true
  · -- Nothing but modem parameters is cleared from a group without settings, since the
    -- identity and the network name were read from their groups.
    have hnone : ∀ key, kf.string? group.1 key = none := fun _ => string?_of_isEmpty hg hempty
    have hgone : names (kf.consumed kind) group.1 = true ↔ group.1 = "gsm" ∧ kind ≠ .other := by
      rw [names_consumed]
      constructor
      · rintro (hconnection | hgsm | ⟨hwifi, hkind⟩)
        · rw [← hconnection, hnone] at huuid
          exact absurd huuid (by decide)
        · exact hgsm
        · have := hssid hkind
          rw [← hwifi, hnone] at this
          exact absurd this (by decide)
      · exact fun h => Or.inr (Or.inl h)
    have hnil : group.2.toList = [] := List.isEmpty_iff.1 hempty
    have hunnamed : (unnamed (kf.consumed kind) group).isEmpty = true := by
      rw [OrderedMap.isEmpty, unnamed, OrderedMap.toList_keep, hnil]
      rfl
    rw [survivor?, leftOver, if_pos hempty, hunnamed, Bool.and_true]
    by_cases hgsm : group.1 = "gsm" ∧ kind ≠ .other
    · rw [if_pos (hgone.2 hgsm), if_pos hgsm]
      rfl
    · rw [if_neg (fun h => hgsm (hgone.1 h)), if_neg hgsm]
      simp [remainingOf, hunnamed, readable]
  · rw [leftOver, if_neg hempty, survivor?]
    by_cases hunnamed : (unnamed (kf.consumed kind) group).isEmpty = true
    · -- All settings of the group moved into the definition.
      have hall : ∀ entry ∈ group.2.toList, (group.1, entry.1) ∈ kf.consumed kind := by
        rw [OrderedMap.isEmpty, List.isEmpty_iff, unnamed, OrderedMap.toList_keep,
          List.filter_eq_nil_iff] at hunnamed
        intro entry hentry
        simpa using hunnamed entry hentry
      have hnames : names (kf.consumed kind) group.1 = true := by
        by_contra hnot
        apply hempty
        rw [← unnamed_of_not_names (by simpa using hnot)]
        exact hunnamed
      rw [hnames, hunnamed, Bool.and_self, if_pos rfl, Option.toList_none, List.flatMap_nil]
      symm
      rw [List.filterMap_eq_nil_iff]
      intro entry hentry
      rw [if_pos (hall entry hentry)]
    · have hkept : (unnamed (kf.consumed kind) group).isEmpty = false := by simpa using hunnamed
      rw [hkept, Bool.and_false, if_neg Bool.false_ne_true, Option.toList_some,
        List.flatMap_singleton]
      exact readable_remainingOf hg hkept

/-- What is passed through once all that moves into the definition is cleared. -/
theorem passthrough_clearAll_consumed {kf : Keyfile} {kind : Kind}
    (huuid : (kf.string? "connection" "uuid").isSome = true)
    (hssid : kind = .wifi → (kf.string? "wifi" "ssid").isSome = true) :
    (kf.clearAll (kf.consumed kind)).passthrough =
      OrderedMap.ofList (kf.groups.toList.flatMap (kf.leftOver kind)) := by
  have hremaining : readable (kf.clearAll (kf.consumed kind)).remaining =
      kf.groups.toList.flatMap (kf.leftOver kind) := by
    rw [readable, remaining, List.filterMap_flatMap, groups_clearAll,
      List.filterMap_eq_flatMap_toList, List.flatMap_assoc]
    apply List.flatMap_congr
    intro group hg
    exact readable_survivor huuid hssid hg
  rw [passthrough]
  exact congrArg OrderedMap.ofList hremaining

section Interpreted

variable (kf : Keyfile) (id? : Option String) (uuid : String) (kind : Kind)

theorem kind_interpreted : (kf.interpreted id? uuid kind).kind = kind := by
  rw [interpreted]
  split <;> rfl

theorem accessPoints_interpreted : (kf.interpreted id? uuid kind).accessPoints = ∅ := by
  rw [interpreted]
  split <;> rfl

/-- Nothing is passed through before all settings have been moved. -/
theorem passthrough_interpreted : (kf.interpreted id? uuid kind).settings.passthrough = ∅ := by
  rw [interpreted]
  split <;> rfl

end Interpreted

/-- An import has read the identity and the type of the profile. -/
theorem exists_of_toDefinition {kf : Keyfile} {id? : Option String} {i : Import}
    (h : kf.toDefinition id? = .ok i) :
    ∃ uuid type, kf.string? "connection" "uuid" = some uuid ∧
      kf.string? "connection" "type" = some type := by
  rw [toDefinition] at h
  cases huuid : kf.string? "connection" "uuid" with
  | none => simp [huuid] at h
  | some uuid =>
    cases htype : kf.string? "connection" "type" with
    | none => simp [huuid, htype] at h
    | some type => exact ⟨uuid, type, rfl, rfl⟩

/-- What is passed through is what the profile held beside the settings that moved into
the definition, group by group in file order. A wireless definition leaves it to its
only access point. -/
theorem passthrough_toDefinition {kf : Keyfile} {id? : Option String} {i : Import}
    (h : kf.toDefinition id? = .ok i) :
    let kind := i.definition.kind
    let left : Passthrough := OrderedMap.ofList (kf.groups.toList.flatMap (kf.leftOver kind))
    (kf.string? "connection" "type").map Kind.ofConnectionType = some kind ∧
      if kind = .wifi then
        i.definition.settings.passthrough = ∅ ∧
          ∃ ap, i.definition.accessPoints.toList = [(ap.ssid, ap)] ∧ ap.settings.passthrough = left
      else i.definition.settings.passthrough = left := by
  obtain ⟨uuid, type, huuid, htype⟩ := exists_of_toDefinition h
  have huuid' : (kf.string? "connection" "uuid").isSome = true := by rw [huuid]; rfl
  have hkind := kf.kind_interpreted id? uuid (Kind.ofConnectionType type)
  have heq := @toDefinition_eq kf id? uuid type huuid htype
  dsimp only at heq
  rw [h] at heq
  by_cases hwifi : Kind.ofConnectionType type = .wifi
  · rw [if_pos hwifi] at heq
    cases hssid : kf.string? "wifi" "ssid" with
    | none => simp [hssid] at heq
    | some ssid =>
      rw [hssid] at heq
      have hi := Except.ok.inj heq
      have hleft := passthrough_clearAll_consumed huuid'
        (fun _ : Kind.ofConnectionType type = .wifi => by rw [hssid]; rfl)
      let d := kf.interpreted id? uuid (Kind.ofConnectionType type)
      let passthrough := (kf.clearAll (kf.consumed (Kind.ofConnectionType type))).passthrough
      subst hi
      simp only [Import.ofAccessPoint, Definition.addAccessPoint, hkind]
      rw [if_pos hwifi, htype, Option.map_some, accessPoints_interpreted]
      refine ⟨rfl, passthrough_interpreted kf id? uuid _,
        { kf.accessPoint ssid with settings := { d.settings with passthrough } }, ?_, hleft⟩
      rfl
  · rw [if_neg hwifi] at heq
    have hi := Except.ok.inj heq
    have hleft := passthrough_clearAll_consumed huuid' (fun e => absurd e hwifi)
    subst hi
    simp only [Import.ofRest, hkind]
    rw [if_neg hwifi, htype, Option.map_some]
    exact ⟨rfl, hleft⟩

/-- A wireless profile with an empty group of modem parameters, another empty group, a
mode without a name and a value with an invalid escape. -/
def wirelessProfile : Keyfile :=
  ⟨OrderedMap.ofList
    [("connection", OrderedMap.ofList [("uuid", "7"), ("type", "wifi"), ("zone", "a\\sb")]),
      ("gsm", ∅), ("vpn", ∅),
      ("wifi", OrderedMap.ofList [("ssid", "net"), ("mode", "mesh"), ("seen", "\\x")])]⟩

theorem passthrough_wirelessProfile :
    ∃ i, wirelessProfile.toDefinition none = .ok i ∧ i.definition.kind = .wifi ∧
      ∃ ap, i.definition.accessPoints.toList = [(ap.ssid, ap)] ∧
        ap.settings.passthrough.toList =
          [("connection.zone", "a b"), ("vpn._", ""), ("wifi.mode", "mesh")] := by
  cases h : wirelessProfile.toDefinition none with
  | error e =>
    have hok : (wirelessProfile.toDefinition none).isOk = true := by decide +kernel
    rw [h] at hok
    exact absurd hok Bool.false_ne_true
  | ok i =>
    obtain ⟨htype, haccount⟩ := passthrough_toDefinition h
    have hkind : i.definition.kind = .wifi := by
      have hwifi : (wirelessProfile.string? "connection" "type").map Kind.ofConnectionType =
          some .wifi := by decide +kernel
      exact Option.some.inj (htype.symm.trans hwifi)
    rw [if_pos hkind] at haccount
    obtain ⟨-, ap, hap, hleft⟩ := haccount
    refine ⟨i, rfl, hkind, ap, hap, ?_⟩
    rw [hleft, hkind]
    decide +kernel

end Keyfile

end NetProfile
