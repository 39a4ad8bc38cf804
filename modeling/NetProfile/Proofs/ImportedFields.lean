import Mathlib.Data.Nat.Digits.Defs
import NetProfile.Proofs.CanonicalProfiles
import NetProfile.Proofs.ImportedDefinitions

/-!
# The fields of an imported definition

An import reads and removes by turns, so that most of its reads are done on a profile
that is no longer what was in the file. Its errors and the fields that it interprets are
nevertheless read off the profile as it was, each on its own, whatever else the profile
holds and in whatever order.

## Main definitions

- `Keyfile.Lacks` — a setting is absent or cannot be read
- `Keyfile.WakesDevice` — what a profile says about waking the device
- `Keyfile.Interprets` — a definition has the fields that a profile gives it

## Main results

- `Keyfile.toDefinition_eq_error_iff` — the errors of an import
- `Keyfile.interprets_toDefinition` — the fields of what is imported
- `Keyfile.import_outcome` — both, with the condition for success
-/

namespace NetProfile

/-- The definition without what is passed through and without access points. -/
def Definition.bare (d : Definition) : Definition :=
  { d with settings := { d.settings with passthrough := ∅ }, accessPoints := ∅ }

namespace Keyfile

/-- Whether the setting is absent or holds an invalid escape. -/
def Lacks (kf : Keyfile) (group key : String) : Prop :=
  ∀ raw, kf.raw? group key = some raw → unescape raw.toList = none

/-- Whether the flag is set: nothing else stands for yes. -/
def IsSet (kf : Keyfile) (group key : String) : Prop :=
  kf.raw? group key = some "true" ∨ kf.raw? group key = some "1"

/-- Whether the text is a number from 1 to 2^64 - 1 in decimal digits, of which the first
may be zeros, after an optional plus sign. -/
def IsPositiveWord (text : List Char) : Prop :=
  ∃ sign digits : List Char, text = sign ++ digits ∧ (sign = [] ∨ sign = ['+']) ∧
    digits ≠ [] ∧ (∀ c ∈ digits, '0' ≤ c ∧ c ≤ '9') ∧
    let n := Nat.ofDigits 10 (digits.reverse.map (fun c => c.toNat - '0'.toNat))
    0 < n ∧ n < Nat.pow 2 64

/-- Whether the profile asks for the device to be woken: there is an ethernet group that
leaves the setting out or has a positive number there, blanks around it aside. -/
def WakesDevice (kf : Keyfile) : Prop :=
  kf.hasGroup "ethernet" = true ∧
    ∀ raw, kf.raw? "ethernet" "wake-on-lan" = some raw → IsPositiveWord (Text.trim raw.toList)

section Reads

variable {kf : Keyfile} {group key : String}

theorem lacks_iff : kf.Lacks group key ↔ kf.string? group key = none := by
  rw [Lacks, string?, Option.map_eq_none_iff, Option.bind_eq_none_iff]

theorem isSet_iff : kf.IsSet group key ↔ (kf.bool? group key).getD false = true := by
  rw [IsSet, bool?]
  cases kf.raw? group key with
  | none => simp
  | some raw =>
    rw [Option.bind_some, Option.some.injEq, Option.some.injEq, boolOfRaw?]
    by_cases htrue : raw = "true" ∨ raw = "1"
    · simp [htrue]
    · rw [if_neg htrue]
      split
      · simp [htrue]
      · simp [htrue]

theorem isDigit_iff {c : Char} : c.isDigit = true ↔ '0' ≤ c ∧ c ≤ '9' := by
  rw [Char.isDigit, Bool.and_eq_true, decide_eq_true_iff, decide_eq_true_iff]
  rfl

/-- Digits are read from the left, and stand for what they stand for in positional
notation. -/
theorem digitsValue?_eq_some_iff {digits : List Char} {n : Nat} :
    digitsValue? digits = some n ↔
      digits ≠ [] ∧ (∀ c ∈ digits, '0' ≤ c ∧ c ≤ '9') ∧
        Nat.ofDigits 10 (digits.reverse.map (fun c => c.toNat - '0'.toNat)) = n := by
  have hvalue : digits.foldl (fun n c => 10 * n + (c.toNat - '0'.toNat)) 0 =
      Nat.ofDigits 10 (digits.reverse.map (fun c => c.toNat - '0'.toNat)) := by
    rw [Nat.ofDigits_eq_foldr, List.foldr_map, List.foldr_reverse]
    congr 1
    funext n c
    exact Nat.add_comm _ _
  rw [digitsValue?, hvalue]
  simp only [List.all_eq_true, isDigit_iff, Option.ite_none_right_eq_some, Option.some.injEq,
    and_assoc]

/-- A number begins with a digit, so that a plus sign in front is never part of it. -/
theorem exists_sign_iff {text : List Char} {p : List Char → Prop}
    (hdigits : ∀ digits, p digits → digits ≠ [] ∧ ∀ c ∈ digits, '0' ≤ c ∧ c ≤ '9') :
    (∃ sign digits, text = sign ++ digits ∧ (sign = [] ∨ sign = ['+']) ∧ p digits) ↔
      p (if text.head? = some '+' then text.drop 1 else text) := by
  constructor
  · rintro ⟨sign, digits, rfl, rfl | rfl, hp⟩
    · obtain ⟨hne, hall⟩ := hdigits digits hp
      obtain ⟨c, rest, rfl⟩ := List.exists_cons_of_ne_nil hne
      have hc : c ≠ '+' := by
        rintro rfl
        exact absurd (hall '+' List.mem_cons_self).1 (by decide)
      rw [List.nil_append, List.head?_cons, if_neg (by simpa using hc)]
      exact hp
    · exact hp
  · intro hp
    split at hp
    · next hplus =>
      obtain ⟨rest, rfl⟩ := List.head?_eq_some_iff.1 hplus
      exact ⟨['+'], rest, rfl, Or.inr rfl, hp⟩
    · exact ⟨[], text, rfl, Or.inl rfl, hp⟩

theorem isPositiveWord_iff {raw : String} :
    IsPositiveWord (Text.trim raw.toList) ↔ 0 < (word64OfRaw? raw).getD 0 := by
  have hpositive : ∀ word : Option Nat, 0 < word.getD 0 ↔ ∃ n, word = some n ∧ 0 < n := by
    intro word
    cases word with
    | none => simp
    | some n => simp
  rw [IsPositiveWord, exists_sign_iff (fun digits h => ⟨h.1, h.2.1⟩), hpositive, word64OfRaw?]
  simp only [Option.filter_eq_some_iff, digitsValue?_eq_some_iff, decide_eq_true_iff]
  constructor
  · rintro ⟨hne, hall, hpos, hlt⟩
    exact ⟨_, ⟨⟨hne, hall, rfl⟩, hlt⟩, hpos⟩
  · rintro ⟨n, ⟨⟨hne, hall, rfl⟩, hlt⟩, hpos⟩
    exact ⟨hne, hall, hpos, hlt⟩

theorem wakesDevice_iff : kf.WakesDevice ↔ kf.wakeOnLan = true := by
  rw [WakesDevice, wakeOnLan, Bool.and_eq_true, hasKey, word64?]
  apply and_congr_right
  intro _
  cases kf.raw? "ethernet" "wake-on-lan" with
  | none => simp
  | some raw => simp [isPositiveWord_iff]

end Reads

/-! ### Errors -/

/-- Why a profile cannot be imported: the first of the settings that are needed and
lacking. -/
def importError? (kf : Keyfile) : Option KeyfileError :=
  match kf.string? "connection" "uuid", kf.string? "connection" "type" with
  | none, _ => some (.missingKey "connection" "uuid")
  | some _, none => some (.missingKey "connection" "type")
  | some _, some type =>
    if Kind.ofConnectionType type = .wifi ∧ kf.string? "wifi" "ssid" = none then some .missingSsid
    else none

section Errors

variable (kf : Keyfile) (id? : Option String)

/-- The outcome of an import is decided before anything is removed. -/
theorem error_toDefinition :
    (match kf.toDefinition id? with
      | .error e => some e
      | .ok _ => none) = kf.importError? := by
  rw [importError?]
  cases huuid : kf.string? "connection" "uuid" with
  | none => rw [toDefinition, huuid]
  | some uuid =>
    cases htype : kf.string? "connection" "type" with
    | none => rw [toDefinition, huuid, htype]
    | some type =>
      have heq := @toDefinition_eq kf id? uuid type huuid htype
      dsimp only at heq
      rw [heq]
      dsimp only
      by_cases hwifi : Kind.ofConnectionType type = .wifi
      · rw [if_pos hwifi]
        cases hssid : kf.string? "wifi" "ssid" with
        | none => rw [if_pos ⟨hwifi, rfl⟩]
        | some ssid => rw [if_neg (fun h => Option.some_ne_none ssid h.2)]
      · rw [if_neg hwifi, if_neg (fun h => hwifi h.1)]

theorem toDefinition_eq_error_iff {e : KeyfileError} :
    kf.toDefinition id? = .error e ↔ kf.importError? = some e := by
  rw [← kf.error_toDefinition id?]
  cases kf.toDefinition id? with
  | error e' => simp
  | ok i => simp

theorem exists_toDefinition_iff :
    (∃ i, kf.toDefinition id? = .ok i) ↔ kf.importError? = none := by
  rw [← kf.error_toDefinition id?]
  cases kf.toDefinition id? with
  | error e => simp
  | ok i => simp

end Errors

/-! ### Fields -/

/-- Whether the definition has the fields that the profile gives it, each a function of the
settings that the profile holds to begin with. -/
structure Interprets (kf : Keyfile) (id? : Option String) (d : Definition) : Prop where
  identity : ∃ uuid type, kf.string? "connection" "uuid" = some uuid ∧
    kf.string? "connection" "type" = some type ∧ d.settings.uuid = some uuid ∧
    d.id = id?.getD ("NM-" ++ uuid) ∧ d.kind = Kind.ofConnectionType type
  backend : d.backend = .networkManager
  name : d.settings.name = kf.string? "connection" "id"
  selector : d.kind ≠ .other → d.selector =
    if d.kind ∈ [.ethernet, .wifi, .modem] then
      some { name := kf.string? "connection" "interface-name" }
    else none
  autoConfig : d.kind ≠ .other → (d.modem.autoConfig = true ↔ kf.IsSet "gsm" "auto-config")
  parameters : d.kind ≠ .other →
    d.modem.apn = kf.string? "gsm" "apn" ∧
    d.modem.deviceId = kf.string? "gsm" "device-id" ∧
    d.modem.networkId = kf.string? "gsm" "network-id" ∧
    d.modem.pin = kf.string? "gsm" "pin" ∧
    d.modem.simId = kf.string? "gsm" "sim-id" ∧
    d.modem.simOperatorId = kf.string? "gsm" "sim-operator-id"
  wakeOnLan : d.kind ≠ .other → (d.wakeOnLan = true ↔ kf.WakesDevice)
  other : d.kind = .other → d.selector = none ∧ d.modem = {} ∧ d.wakeOnLan = false
  wireless : d.kind = .wifi → ∃ ap, d.accessPoints.toList = [(ap.ssid, ap)] ∧
    kf.string? "wifi" "ssid" = some ap.ssid ∧
    ap.mode = ((kf.string? "wifi" "mode").map WifiMode.ofName).getD .infrastructure ∧
    (ap.hidden = true ↔ kf.IsSet "wifi" "hidden") ∧
    ap.settings.uuid = d.settings.uuid ∧ ap.settings.name = d.settings.name
  wired : d.kind ≠ .wifi → d.accessPoints = ∅

section Fields

variable {kf rest : Keyfile} {id? : Option String} {uuid type : String} {kind : Kind}
  {d : Definition}

theorem bare_ofRest :
    (Import.ofRest (kf.interpreted id? uuid kind) rest).definition.bare =
      kf.interpreted id? uuid kind := by
  rw [interpreted]
  split <;> rfl

theorem bare_ofAccessPoint {ap : AccessPoint} :
    (Import.ofAccessPoint (kf.interpreted id? uuid kind) ap rest).definition.bare =
      kf.interpreted id? uuid kind := by
  rw [interpreted]
  split <;> rfl

theorem id_interpreted (kf : Keyfile) (id? : Option String) (uuid : String) (kind : Kind) :
    (kf.interpreted id? uuid kind).id = id?.getD ("NM-" ++ uuid) := by
  rw [interpreted]
  split <;> rfl

theorem backend_interpreted (kf : Keyfile) (id? : Option String) (uuid : String) (kind : Kind) :
    (kf.interpreted id? uuid kind).backend = .networkManager := by
  rw [interpreted]
  split <;> rfl

theorem interpreted_of_ne (h : kind ≠ .other) :
    kf.interpreted id? uuid kind =
      { kf.identity id? uuid kind with
        selector :=
          if kind ∈ [.ethernet, .wifi, .modem] then
            some { name := kf.string? "connection" "interface-name" }
          else none
        modem := kf.modem
        wakeOnLan := kf.wakeOnLan } := by
  rw [interpreted, if_neg h]
  simp only [isPhysical_iff]

/-- All that an import does to a definition after it has read the fields is to pass
settings through and to add an access point. -/
theorem interprets_of_bare (huuid : kf.string? "connection" "uuid" = some uuid)
    (htype : kf.string? "connection" "type" = some type)
    (hbare : d.bare = kf.interpreted id? uuid (Kind.ofConnectionType type))
    (hwireless : d.kind = .wifi → ∃ ssid settings, kf.string? "wifi" "ssid" = some ssid ∧
      d.HasOwnAccessPoint { kf.accessPoint ssid with settings := settings })
    (hwired : d.kind ≠ .wifi → d.accessPoints = ∅) : kf.Interprets id? d := by
  have hid : d.id = id?.getD ("NM-" ++ uuid) :=
    (congrArg Definition.id hbare).trans (id_interpreted ..)
  have hkind : d.kind = Kind.ofConnectionType type :=
    (congrArg Definition.kind hbare).trans (kf.kind_interpreted id? uuid _)
  have hbackend : d.backend = .networkManager :=
    (congrArg Definition.backend hbare).trans (backend_interpreted ..)
  have hsettings := (congrArg Definition.settings hbare).trans (kf.settings_interpreted id? uuid _)
  rw [← hkind] at hbare
  have hmodelled : d.kind ≠ .other →
      (d.selector = if d.kind ∈ [.ethernet, .wifi, .modem] then
        some { name := kf.string? "connection" "interface-name" } else none) ∧
      d.modem = kf.modem ∧ d.wakeOnLan = kf.wakeOnLan := by
    intro hother
    rw [interpreted_of_ne hother] at hbare
    exact ⟨congrArg Definition.selector hbare, congrArg Definition.modem hbare,
      congrArg Definition.wakeOnLan hbare⟩
  exact {
    identity := ⟨uuid, type, huuid, htype, congrArg Settings.uuid hsettings, hid, hkind⟩
    backend := hbackend
    name := congrArg Settings.name hsettings
    selector := fun h => (hmodelled h).1
    autoConfig := fun h => by rw [(hmodelled h).2.1, isSet_iff]; rfl
    parameters := fun h => by rw [(hmodelled h).2.1]; exact ⟨rfl, rfl, rfl, rfl, rfl, rfl⟩
    wakeOnLan := fun h => by rw [(hmodelled h).2.2, wakesDevice_iff]
    other := fun h => by
      rw [interpreted, if_pos h] at hbare
      exact ⟨congrArg Definition.selector hbare, congrArg Definition.modem hbare,
        congrArg Definition.wakeOnLan hbare⟩
    wireless := fun h => by
      obtain ⟨ssid, settings, hssid, hown⟩ := hwireless h
      exact ⟨_, hown.toList_accessPoints, hssid, rfl, isSet_iff.symm, hown.uuid, hown.name⟩
    wired := hwired }

/-- An import reads every field from the profile as it was. -/
theorem interprets_toDefinition {i : Import} (h : kf.toDefinition id? = .ok i) :
    kf.Interprets id? i.definition := by
  obtain ⟨uuid, kind, huuid, hkind, hend⟩ := cases_toDefinition h
  obtain ⟨type, htype, rfl⟩ := Option.map_eq_some_iff.1 hkind
  have hdefinition := kf.kind_interpreted id? uuid (Kind.ofConnectionType type)
  obtain ⟨hwifi, rfl⟩ | ⟨hwifi, ssid, hssid, rfl⟩ := hend
  · refine interprets_of_bare huuid htype bare_ofRest (fun e => ?_) (fun _ => ?_)
    · exact absurd (hdefinition.symm.trans e) hwifi
    · exact kf.accessPoints_interpreted id? uuid _
  · refine interprets_of_bare huuid htype bare_ofAccessPoint (fun _ => ?_) (fun e => ?_)
    · exact ⟨ssid, _, hssid, hasOwnAccessPoint_ofAccessPoint _ _⟩
    · exact absurd (hdefinition.trans hwifi) e

end Fields

/-- Values that come from a file have no blanks around them. -/
theorem trim_raw {content group key raw : String} {kf : Keyfile} (h : parse content = .ok kf)
    (hraw : kf.raw? group key = some raw) : Text.trim raw.toList = raw.toList := by
  obtain ⟨entries, hentries, hfind⟩ := Option.bind_eq_some_iff.1 hraw
  have hsetting := (wellFormed_parse h).setting (group, entries)
    (OrderedMap.mem_of_lookup? hentries) (key, raw) (OrderedMap.mem_of_lookup? hfind)
  exact hsetting.value_trimmed.trim_eq

/-- An import fails on the first that is lacking of the uuid, the connection type and, for
wireless types, the network name, and on nothing else. Otherwise its definition has the
fields that the profile as it was gives it. Blanks around a number are not met in profiles
that come from a file. -/
theorem import_outcome (kf : Keyfile) (id? : Option String) :
    (kf.toDefinition id? = .error (.missingKey "connection" "uuid") ↔
      kf.Lacks "connection" "uuid") ∧
    (kf.toDefinition id? = .error (.missingKey "connection" "type") ↔
      ¬ kf.Lacks "connection" "uuid" ∧ kf.Lacks "connection" "type") ∧
    (kf.toDefinition id? = .error .missingSsid ↔
      ¬ kf.Lacks "connection" "uuid" ∧
        (∃ type, kf.string? "connection" "type" = some type ∧
          Kind.ofConnectionType type = .wifi) ∧
        kf.Lacks "wifi" "ssid") ∧
    ((∃ i, kf.toDefinition id? = .ok i) ↔
      ¬ kf.Lacks "connection" "uuid" ∧
        ∃ type, kf.string? "connection" "type" = some type ∧
          (Kind.ofConnectionType type = .wifi → ¬ kf.Lacks "wifi" "ssid")) ∧
    (∀ i, kf.toDefinition id? = .ok i → kf.Interprets id? i.definition) ∧
    ∀ content, parse content = .ok kf → ∀ raw, kf.raw? "ethernet" "wake-on-lan" = some raw →
      Text.trim raw.toList = raw.toList := by
  simp only [toDefinition_eq_error_iff, exists_toDefinition_iff, lacks_iff, importError?]
  refine ⟨?_, ?_, ?_, ?_, fun i h => interprets_toDefinition h, fun _ h _ hraw => trim_raw h hraw⟩
  all_goals
    cases kf.string? "connection" "uuid" with
    | none => simp
    | some uuid =>
      cases kf.string? "connection" "type" with
      | none => simp
      | some type =>
        by_cases hwifi : Kind.ofConnectionType type = .wifi ∧ kf.string? "wifi" "ssid" = none
        · simp [hwifi]
        · have hnamed := not_and.1 hwifi
          simp +contextual [hnamed]

/-- A wireless profile that wakes the device and has a parameter with an invalid escape. -/
def wakingProfile : Keyfile :=
  ⟨OrderedMap.ofList
    [("ethernet", OrderedMap.ofList [("wake-on-lan", "+00064")]),
      ("wifi", OrderedMap.ofList [("hidden", "1"), ("ssid", "net"), ("mode", "ap")]),
      ("gsm", OrderedMap.ofList [("pin", "\\x"), ("auto-config", "yes")]),
      ("connection", OrderedMap.ofList [("type", "wifi"), ("uuid", "7")])]⟩

theorem import_outcome_wakingProfile :
    (wakingProfile.clear "wifi" "ssid").toDefinition none = .error .missingSsid ∧
    ∃ i, wakingProfile.toDefinition none = .ok i ∧ i.definition.id = "NM-7" ∧
      i.definition.wakeOnLan = true ∧ i.definition.modem.autoConfig = false ∧
      i.definition.modem.pin = none := by
  obtain ⟨-, -, hssid, -⟩ := (wakingProfile.clear "wifi" "ssid").import_outcome none
  obtain ⟨-, -, -, hok, hfields, -⟩ := wakingProfile.import_outcome none
  have huuid : wakingProfile.string? "connection" "uuid" = some "7" := by decide +kernel
  have htype : wakingProfile.string? "connection" "type" = some "wifi" := by decide +kernel
  simp only [lacks_iff] at hssid hok
  refine ⟨hssid.2 ⟨by decide +kernel, ⟨"wifi", by decide +kernel, by decide⟩, by decide +kernel⟩, ?_⟩
  obtain ⟨i, hi⟩ := hok.2 ⟨by decide +kernel, "wifi", htype, fun _ => by decide +kernel⟩
  have hd := hfields i hi
  obtain ⟨uuid, type, huuid', htype', -, hid, hkind⟩ := hd.identity
  obtain rfl : "7" = uuid := Option.some.inj (huuid.symm.trans huuid')
  obtain rfl : "wifi" = type := Option.some.inj (htype.symm.trans htype')
  have hother : i.definition.kind ≠ .other := by
    rw [hkind]
    decide
  refine ⟨i, hi, hid, (hd.wakeOnLan hother).2 ⟨by decide +kernel, fun raw hraw => ?_⟩, ?_, ?_⟩
  · obtain rfl : "+00064" = raw := by
      have hvalue : wakingProfile.raw? "ethernet" "wake-on-lan" = some "+00064" := by decide +kernel
      exact Option.some.inj (hvalue.symm.trans hraw)
    exact isPositiveWord_iff.2 (by decide +kernel)
  · have hunset : ¬ wakingProfile.IsSet "gsm" "auto-config" := by
      rw [isSet_iff]
      decide +kernel
    exact Bool.eq_false_iff.2 (mt (hd.autoConfig hother).1 hunset)
  · rw [(hd.parameters hother).2.2.2.1]
    decide +kernel

end Keyfile

end NetProfile
