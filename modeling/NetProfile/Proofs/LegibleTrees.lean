import NetProfile.Proofs.DraftReading

/-!
# Legible trees

Trees that come through a document: their keys and their scalars meet conditions, their
mappings have different keys, and they do not stand too deep in each other. The tree of a
definition is put together from pieces, and it is legible if the texts of the definition
meet the conditions. Scanning has conditions of its own, and so has reading the values.

## Main definitions

- `AdmitsNames` — conditions that hold of what stands in every document
- `MappingTree.Legible` — trees that come through a document
- `Definition.texts`, `Definition.plainTexts`, `Definition.keyScalars` — what is written
- `Definition.IsLegible` — definitions whose texts come through a document
- `Definition.IsScannable` — definitions whose texts come through the scanner
- `Definition.HasShortKeys` — definitions whose names come through as keys
- `Definition.Meets` — conditions on the keys and values of a definition

## Main results

- `Definition.Meets.legible_bodyTree` — the tree of a definition that meets conditions
- `Definition.IsScannable.meets` — what scanning asks for
-/

namespace NetProfile

open Yaml (Content MappingTree Scalar Value)
open Yaml.MappingTree (bareEntry quotedEntry nested flagEntry optionalEntry optionalBareEntry)

namespace Yaml

namespace Scalar

/-- The characters of names come through documents. -/
theorem clean_of_ascii {s : Scalar}
    (h : s.text.toList.all (fun c => 0x20 ≤ c.toNat && c.toNat ≤ 0x7E) = true) : s.Clean := by
  have hascii : ∀ c ∈ s.text.toList, 0x20 ≤ c.toNat ∧ c.toNat ≤ 0x7E := by
    intro c hc
    have hall := List.all_eq_true.1 h c hc
    rwa [Bool.and_eq_true, decide_eq_true_eq, decide_eq_true_eq] at hall
  constructor
  · intro c hc
    have hrange := hascii c hc
    simp only [isText, Bool.and_eq_true, bne_iff_ne]
    omega
  · intro _ c hc
    have hrange := hascii c hc
    omega

theorem isKey_of_isName {text : String} (h : isName text = true) : (Scalar.bare text).IsKey := by
  simp only [isName, Bool.and_eq_true, decide_eq_true_eq] at h
  obtain ⟨⟨⟨hsafe, -⟩, hascii⟩, hshort⟩ := h
  have hwritten : (Scalar.bare text).written = text.toList := written_of_isBare hsafe
  refine ⟨clean_of_ascii hascii, ?_⟩
  rw [hwritten]
  exact hshort

theorem clean_quoted {text : String} (h : ∀ c ∈ text.toList, isText c = true) :
    (Scalar.quoted text).Clean :=
  ⟨h, fun hbare => absurd hbare Bool.false_ne_true⟩

theorem isText_quoted (text : String) : (Scalar.quoted text).IsText :=
  fun hbare => absurd hbare Bool.false_ne_true

theorem hasValue_true : (Scalar.bare "true").HasValue := by
  intro _
  have hresolve : Schema.resolve "true".toList = .bool true := by decide
  refine ⟨.bool true, ?_⟩
  show Schema.plainValue "true" = _
  rw [Schema.plainValue, hresolve]

end Scalar

/-- Conditions on keys and on values that hold of what stands in every document: of names,
of flags that are set and of the version. -/
structure AdmitsNames (onKeys onValues : Scalar → Prop) : Prop where
  key : ∀ {text : String}, isName text = true → onKeys (.bare text)
  value : ∀ {text : String}, isName text = true → onValues (.bare text)
  flag : onValues (.bare "true")
  version : onValues (.bare Definition.formatVersion)

/-- What the scanner asks for. -/
theorem admitsNames_isKey : AdmitsNames Scalar.IsKey Scalar.Clean where
  key h := Scalar.isKey_of_isName h
  value h := (Scalar.isKey_of_isName h).1
  flag := Scalar.clean_of_ascii (by decide)
  version := Scalar.clean_of_ascii (by decide)

/-- What reading the values asks for. -/
theorem admitsNames_isText : AdmitsNames Scalar.IsText Scalar.HasValue where
  key h := Scalar.isText_of_isName h
  value h := (Scalar.isText_of_isName h).hasValue
  flag := Scalar.hasValue_true
  version := Configuration.hasValue_two

namespace MappingTree

/-- The texts of the keys. -/
def keys (t : MappingTree) : List String := t.map (fun entry => entry.1.text)

/-- Whether the tree comes through a document, with at most `depth` mappings in each
other. -/
structure Legible (onKeys onValues : Scalar → Prop) (t : MappingTree) (depth : Nat) : Prop where
  every : t.Every onKeys onValues
  distinct : t.Distinct
  height : t.height ≤ depth

namespace Legible

variable {onKeys onValues : Scalar → Prop} {t u : MappingTree} {m n : Nat}

theorem nil : Legible onKeys onValues [] n := ⟨trivial, trivial, Nat.zero_le n⟩

theorem mono (h : t.Legible onKeys onValues m) (hmn : m ≤ n) : t.Legible onKeys onValues n :=
  ⟨h.every, h.distinct, Nat.le_trans h.height hmn⟩

theorem cons {k : Scalar} {c : Content} (hk : onKeys k) (hc : c.Every onKeys onValues)
    (hd : c.Distinct) (hheight : c.height ≤ n) (h : t.Legible onKeys onValues n) :
    Legible onKeys onValues ((k, c) :: t) n :=
  ⟨⟨hk, hc, h.every⟩, ⟨hd, h.distinct⟩, Nat.max_le.2 ⟨hheight, h.height⟩⟩

theorem append (ht : t.Legible onKeys onValues n) (hu : u.Legible onKeys onValues n) :
    Legible onKeys onValues (t ++ u) n := by
  induction t with
  | nil => exact hu
  | cons entry rest ih =>
    rcases entry with ⟨k, c⟩
    obtain ⟨⟨hk, hc, hrest⟩, ⟨hcd, hrestd⟩, hheight⟩ := ht
    have hheights := Nat.max_le.1 hheight
    exact cons hk hc hcd hheights.1 (ih ⟨hrest, hrestd, hheights.2⟩)

theorem flatMap {α : Type} {f : α → MappingTree} {xs : List α}
    (h : ∀ x ∈ xs, (f x).Legible onKeys onValues n) :
    Legible onKeys onValues (xs.flatMap f) n := by
  induction xs with
  | nil => exact nil
  | cons x rest ih =>
    rw [List.flatMap_cons]
    exact append (h x List.mem_cons_self) (ih (fun y hy => h y (List.mem_cons_of_mem x hy)))

theorem scalar {k v : Scalar} (hk : onKeys k) (hv : onValues v) :
    Legible onKeys onValues [(k, .scalar v)] n :=
  cons hk hv trivial (Nat.zero_le n) nil

/-- An entry with a mapping whose keys are different. -/
theorem nested {k : Scalar} (hk : onKeys k) (h : t.Legible onKeys onValues n)
    (hkeys : t.keys.Nodup) : Legible onKeys onValues (MappingTree.nested k t) (n + 1) :=
  cons hk h.every ⟨hkeys, h.distinct⟩ (Nat.succ_le_succ h.height) nil

section Names

variable {key : String} (hnames : AdmitsNames onKeys onValues) (hkey : isName key = true)
include hnames hkey

theorem flagEntry (value : Bool) : Legible onKeys onValues (MappingTree.flagEntry key value) n := by
  rw [MappingTree.flagEntry]
  split
  · exact scalar (hnames.key hkey) hnames.flag
  · exact nil

theorem optionalEntry {value : Option String} (hvalue : ∀ text ∈ value, onValues (.quoted text)) :
    Legible onKeys onValues (MappingTree.optionalEntry key value) n := by
  cases value with
  | none => exact nil
  | some text => exact scalar (hnames.key hkey) (hvalue text rfl)

theorem optionalBareEntry {value : Option String} (hvalue : ∀ text ∈ value, onValues (.bare text)) :
    Legible onKeys onValues (MappingTree.optionalBareEntry key value) n := by
  cases value with
  | none => exact nil
  | some text => exact scalar (hnames.key hkey) (hvalue text rfl)

end Names

end Legible

section Keys

theorem keys_append (t u : MappingTree) : keys (t ++ u) = keys t ++ keys u := List.map_append

theorem keys_flagEntry_sublist (key : String) (value : Bool) :
    (keys (flagEntry key value)).Sublist [key] := by
  cases value with
  | false => exact List.nil_sublist _
  | true => exact List.Sublist.refl _

theorem keys_optionalEntry_sublist (key : String) (value : Option String) :
    (keys (optionalEntry key value)).Sublist [key] := by
  cases value with
  | none => exact List.nil_sublist _
  | some text => exact List.Sublist.refl _

theorem keys_optionalBareEntry_sublist (key : String) (value : Option String) :
    (keys (optionalBareEntry key value)).Sublist [key] := by
  cases value with
  | none => exact List.nil_sublist _
  | some text => exact List.Sublist.refl _

end Keys

end MappingTree

/-- A text that may be written without quotes comes through a document as itself. -/
structure IsLegiblePlain (text : String) : Prop where
  chars : ∀ c ∈ text.toList, isText c = true
  line : isPlainSafe text.toList = true → IsLineText text.toList
  resolve : isPlainSafe text.toList = true → Schema.resolve text.toList = .text

end Yaml

/-- All texts of the settings. -/
def Settings.texts (s : Settings) : List String :=
  s.uuid.toList ++ s.name.toList ++ s.passthrough.toList.flatMap (fun entry => [entry.1, entry.2])

/-- The texts of the settings that may be written without quotes. -/
def Settings.plainTexts (s : Settings) : List String := s.uuid.toList ++ s.passthrough.keys

/-- The texts of the settings that are written as keys. -/
def Settings.keyScalars (s : Settings) : List Scalar := s.passthrough.keys.map Scalar.bare

/-- All texts of the modem parameters. -/
def Modem.texts (m : Modem) : List String :=
  m.apn.toList ++ m.deviceId.toList ++ m.networkId.toList ++ m.pin.toList ++ m.simId.toList
    ++ m.simOperatorId.toList

namespace Definition

/-- All texts of the definition. -/
def texts (d : Definition) : List String :=
  d.id :: (d.selector.toList.flatMap (fun selector => selector.name.toList) ++ d.modem.texts
    ++ d.settings.texts
    ++ d.accessPoints.values.flatMap (fun ap => ap.ssid :: ap.settings.texts))

/-- The texts of the definition that may be written without quotes. -/
def plainTexts (d : Definition) : List String :=
  d.id :: (d.settings.plainTexts ++ d.accessPoints.values.flatMap (fun ap => ap.settings.plainTexts))

/-- The texts of the definition that are written as keys: the id, the network names and
the names of what is passed through. -/
def keyScalars (d : Definition) : List Scalar :=
  Scalar.bare d.id :: (d.settings.keyScalars
    ++ d.accessPoints.values.flatMap (fun ap => Scalar.quoted ap.ssid :: ap.settings.keyScalars))

/-- Whether the texts of a definition come through a document, but for the length of
keys: access points are kept under their own names, no text has a noncharacter of the
basic plane, and the id, identities and names of what is passed through are texts that
need quotes, or texts of one line that stand for themselves. -/
structure IsLegible (d : Definition) : Prop where
  keyed : d.IsKeyed
  chars : ∀ text ∈ d.texts, ∀ c ∈ text.toList, Yaml.isText c = true
  plain : ∀ text ∈ d.plainTexts, Yaml.isPlainSafe text.toList = true →
    Yaml.IsLineText text.toList ∧ Yaml.Schema.resolve text.toList = .text

instance (d : Definition) : Decidable d.IsLegible :=
  decidable_of_iff (d.IsKeyed ∧ d.texts.all (fun text => text.toList.all Yaml.isText) = true ∧
      ∀ text ∈ d.plainTexts, Yaml.isPlainSafe text.toList = true →
        Yaml.IsLineText text.toList ∧ Yaml.Schema.resolve text.toList = .text)
    ⟨fun h => ⟨h.1, fun text ht => List.all_eq_true.1 (List.all_eq_true.1 h.2.1 text ht), h.2.2⟩,
      fun h => ⟨h.keyed, List.all_eq_true.2 (fun text ht => List.all_eq_true.2 (h.chars text ht)),
        h.plain⟩⟩

/-- Whether the texts of a definition come through the scanner, but for the length of
keys: access points are kept under their own names, no text has a noncharacter of the
basic plane, and what may be written without quotes keeps to one line. -/
structure IsScannable (d : Definition) : Prop where
  keyed : d.IsKeyed
  chars : ∀ text ∈ d.texts, ∀ c ∈ text.toList, Yaml.isText c = true
  lines : ∀ text ∈ d.plainTexts, Yaml.isPlainSafe text.toList = true → Yaml.KeepsLine text.toList

instance (d : Definition) : Decidable d.IsScannable :=
  decidable_of_iff (d.IsKeyed ∧ d.texts.all (fun text => text.toList.all Yaml.isText) = true ∧
      ∀ text ∈ d.plainTexts, Yaml.isPlainSafe text.toList = true → Yaml.KeepsLine text.toList)
    ⟨fun h => ⟨h.1, fun text ht => List.all_eq_true.1 (List.all_eq_true.1 h.2.1 text ht), h.2.2⟩,
      fun h => ⟨h.keyed, List.all_eq_true.2 (fun text ht => List.all_eq_true.2 (h.chars text ht)),
        h.lines⟩⟩

theorem IsLegible.isScannable {d : Definition} (h : d.IsLegible) : d.IsScannable :=
  ⟨h.keyed, h.chars, fun text htext hsafe => (h.plain text htext hsafe).1.keepsLine⟩

end Definition

/-- The keys and values of the settings meet conditions. -/
structure Settings.Meets (onKeys onValues : Scalar → Prop) (s : Settings) : Prop where
  uuid : ∀ uuid ∈ s.uuid, onValues (.bare uuid)
  name : ∀ name ∈ s.name, onValues (.quoted name)
  keys : ∀ entry ∈ s.passthrough.toList, onKeys (.bare entry.1)
  values : ∀ entry ∈ s.passthrough.toList, onValues (.quoted entry.2)

namespace Settings

variable {onKeys onValues : Scalar → Prop}

/-- Conditions on all texts of settings let the settings through the scanner. -/
theorem meets_of_texts {s : Settings}
    (hchars : ∀ text ∈ s.texts, ∀ c ∈ text.toList, Yaml.isText c = true)
    (hlines : ∀ text ∈ s.plainTexts, Yaml.isPlainSafe text.toList = true →
      Yaml.KeepsLine text.toList)
    (hshort : ∀ k ∈ s.keyScalars, Yaml.byteCount k.written ≤ 1024) :
    s.Meets Scalar.IsKey Scalar.Clean := by
  constructor
  · intro uuid huuid
    have hmem : uuid ∈ s.uuid.toList := Option.mem_toList.2 huuid
    exact ⟨hchars uuid (by simp [texts, hmem]), hlines uuid (by simp [plainTexts, hmem])⟩
  · intro name hname
    have hmem : name ∈ s.name.toList := Option.mem_toList.2 hname
    exact Scalar.clean_quoted (hchars name (by simp [texts, hmem]))
  · intro entry hentry
    have hkey : entry.1 ∈ s.passthrough.keys := List.mem_map_of_mem hentry
    have htexts : entry.1 ∈ s.texts := by
      rw [texts, List.mem_append, List.mem_flatMap]
      exact Or.inr ⟨entry, hentry, by simp⟩
    exact ⟨⟨hchars entry.1 htexts, hlines entry.1 (by simp [plainTexts, hkey])⟩,
      hshort _ (List.mem_map_of_mem hkey)⟩
  · intro entry hentry
    have htexts : entry.2 ∈ s.texts := by
      rw [texts, List.mem_append, List.mem_flatMap]
      exact Or.inr ⟨entry, hentry, by simp⟩
    exact Scalar.clean_quoted (hchars entry.2 htexts)

theorem legible_passthrough {entries : List (String × String)}
    (hkeys : ∀ entry ∈ entries, onKeys (.bare entry.1))
    (hvalues : ∀ entry ∈ entries, onValues (.quoted entry.2)) :
    MappingTree.Legible onKeys onValues
      (entries.map (fun entry => (Scalar.bare entry.1, .scalar (.quoted entry.2)))) 0 := by
  induction entries with
  | nil => exact .nil
  | cons entry rest ih =>
    refine .cons (hkeys entry List.mem_cons_self) ?_ trivial (Nat.le_refl 0) ?_
    · exact hvalues entry List.mem_cons_self
    · exact ih (fun e he => hkeys e (List.mem_cons_of_mem _ he))
        (fun e he => hvalues e (List.mem_cons_of_mem _ he))

theorem nodup_keys_passthrough (p : Passthrough) : (MappingTree.keys p.tree).Nodup := by
  have hkeys : MappingTree.keys p.tree = p.toList.map Prod.fst := by
    rw [MappingTree.keys, Passthrough.tree, List.map_map]
    rfl
  rw [hkeys]
  exact p.nodup_keys

theorem Meets.legible_tree {s : Settings} (h : s.Meets onKeys onValues)
    (hnames : Yaml.AdmitsNames onKeys onValues) : MappingTree.Legible onKeys onValues s.tree 2 := by
  rw [tree]
  split
  · exact .nil
  · refine .nested (hnames.key (by decide)) (.append (.append ?_ ?_) ?_) ?_
    · exact .optionalBareEntry hnames (by decide) h.uuid
    · exact .optionalEntry hnames (by decide) h.name
    · split
      · exact .nil
      · exact .nested (hnames.key (by decide)) (legible_passthrough h.keys h.values)
          (nodup_keys_passthrough s.passthrough)
    · have hpassthrough : (MappingTree.keys (if s.passthrough.isEmpty then []
          else nested (.bare "passthrough") (Passthrough.tree s.passthrough))).Sublist
          ["passthrough"] := by
        split
        · exact List.nil_sublist _
        · exact List.Sublist.refl _
      have hkeys : ["uuid", "name", "passthrough"].Nodup := by decide
      rw [Yaml.MappingTree.keys_append, Yaml.MappingTree.keys_append]
      exact hkeys.sublist (((Yaml.MappingTree.keys_optionalBareEntry_sublist "uuid" s.uuid).append
        (Yaml.MappingTree.keys_optionalEntry_sublist "name" s.name)).append hpassthrough)

theorem keys_tree_sublist (s : Settings) : (MappingTree.keys s.tree).Sublist ["networkmanager"] := by
  rw [tree]
  split
  · exact List.nil_sublist _
  · exact List.Sublist.refl _

end Settings

section Conditions

variable {onKeys onValues : Scalar → Prop} (hnames : Yaml.AdmitsNames onKeys onValues)
include hnames

/-- An access point whose name and settings meet the conditions is legible. -/
theorem AccessPoint.legible_tree {ap : AccessPoint} (hssid : onKeys (.quoted ap.ssid))
    (h : ap.settings.Meets onKeys onValues) : MappingTree.Legible onKeys onValues ap.tree 3 := by
  refine .nested hssid (.append (.append ?_ ?_) (h.legible_tree hnames)) ?_
  · exact .flagEntry hnames (by decide) ap.hidden
  · exact .scalar (hnames.key (by decide)) (hnames.value ap.isName_modeName)
  · have hkeys : ["hidden", "mode", "networkmanager"].Nodup := by decide
    have hmode : (MappingTree.keys (bareEntry "mode" ap.modeName)).Sublist ["mode"] :=
      List.Sublist.refl _
    show (MappingTree.keys (flagEntry "hidden" ap.hidden ++ bareEntry "mode" ap.modeName
      ++ ap.settings.tree)).Nodup
    rw [Yaml.MappingTree.keys_append, Yaml.MappingTree.keys_append]
    exact hkeys.sublist (((Yaml.MappingTree.keys_flagEntry_sublist "hidden" ap.hidden).append
      hmode).append ap.settings.keys_tree_sublist)

theorem Modem.legible_tree {m : Modem} (h : ∀ text ∈ m.texts, onValues (.quoted text)) {n : Nat} :
    MappingTree.Legible onKeys onValues m.tree n := by
  have hmem : ∀ text, text ∈ m.apn ∨ text ∈ m.deviceId ∨ text ∈ m.networkId ∨ text ∈ m.pin ∨
      text ∈ m.simId ∨ text ∈ m.simOperatorId → onValues (.quoted text) := by
    intro text hany
    apply h
    simp only [texts, List.mem_append, Option.mem_toList]
    tauto
  exact .append (.append (.append (.append (.append (.append
    (.flagEntry hnames (by decide) m.autoConfig)
    (.optionalEntry hnames (by decide) (fun t ht => hmem t (by simp [ht]))))
    (.optionalEntry hnames (by decide) (fun t ht => hmem t (by simp [ht]))))
    (.optionalEntry hnames (by decide) (fun t ht => hmem t (by simp [ht]))))
    (.optionalEntry hnames (by decide) (fun t ht => hmem t (by simp [ht]))))
    (.optionalEntry hnames (by decide) (fun t ht => hmem t (by simp [ht]))))
    (.optionalEntry hnames (by decide) (fun t ht => hmem t (by simp [ht])))

end Conditions

namespace Modem

theorem keys_tree_sublist (m : Modem) :
    (MappingTree.keys m.tree).Sublist ["auto-config", "apn", "device-id", "network-id", "pin",
      "sim-id", "sim-operator-id"] := by
  simp only [tree, Yaml.MappingTree.keys_append]
  exact ((((((Yaml.MappingTree.keys_flagEntry_sublist _ _).append
    (Yaml.MappingTree.keys_optionalEntry_sublist _ _)).append
    (Yaml.MappingTree.keys_optionalEntry_sublist _ _)).append
    (Yaml.MappingTree.keys_optionalEntry_sublist _ _)).append
    (Yaml.MappingTree.keys_optionalEntry_sublist _ _)).append
    (Yaml.MappingTree.keys_optionalEntry_sublist _ _)).append
    (Yaml.MappingTree.keys_optionalEntry_sublist _ _)

end Modem

namespace Definition

/-- Whether the names in a definition take at most 1024 bytes each, as they are
written. -/
def HasShortKeys (d : Definition) : Prop :=
  ∀ k ∈ d.keyScalars, Yaml.byteCount k.written ≤ 1024

instance (d : Definition) : Decidable d.HasShortKeys :=
  List.decidableBAll _ d.keyScalars

/-- The keys and values of a definition meet conditions, as far as documents say them. -/
structure Meets (onKeys onValues : Scalar → Prop) (d : Definition) : Prop where
  id : onKeys (.bare d.id)
  selector : ∀ selector ∈ d.selector, ∀ name ∈ selector.name, onValues (.quoted name)
  modem : ∀ text ∈ d.modem.texts, onValues (.quoted text)
  ssids : ∀ ap ∈ d.writtenAccessPoints, onKeys (.quoted ap.ssid)
  accessPoints : ∀ ap ∈ d.writtenAccessPoints, ap.settings.Meets onKeys onValues
  settings : d.settings.Meets onKeys onValues

theorem mem_of_mem_writtenAccessPoints {d : Definition} {ap : AccessPoint}
    (h : ap ∈ d.writtenAccessPoints) : ap ∈ d.accessPoints.values := by
  rw [writtenAccessPoints] at h
  split at h
  · exact h
  · cases h

theorem IsLegible.keepsNames {d : Definition} (h : d.IsLegible) : d.KeepsNames := by
  refine ⟨fun hbare => (h.plain d.id List.mem_cons_self hbare).2, ?_, ?_⟩
  · intro entry hentry hbare
    have hkey : entry.1 ∈ d.settings.passthrough.keys := List.mem_map_of_mem hentry
    exact (h.plain entry.1 (by simp [plainTexts, Settings.plainTexts, hkey]) hbare).2
  · intro ap hap entry hentry hbare
    have hkey : entry.1 ∈ ap.settings.plainTexts :=
      List.mem_append_right _ (List.mem_map_of_mem hentry)
    have hmem := mem_of_mem_writtenAccessPoints hap
    exact (h.plain entry.1 (List.mem_cons_of_mem _ (List.mem_append_right _
      (List.mem_flatMap.2 ⟨ap, hmem, hkey⟩))) hbare).2

theorem IsLegible.keepsUuids {d : Definition} (h : d.IsLegible) : d.KeepsUuids := by
  constructor
  · intro uuid huuid
    refine Scalar.IsText.keepsText fun hbare => (h.plain uuid ?_ hbare).2
    simp [plainTexts, Settings.plainTexts, Option.mem_def.1 huuid]
  · intro ap hap uuid huuid
    have hmem := mem_of_mem_writtenAccessPoints hap
    have hplain : uuid ∈ ap.settings.plainTexts :=
      List.mem_append_left _ (Option.mem_toList.2 huuid)
    refine Scalar.IsText.keepsText fun hbare => (h.plain uuid ?_ hbare).2
    exact List.mem_cons_of_mem _ (List.mem_append_right _ (List.mem_flatMap.2 ⟨ap, hmem, hplain⟩))

/-- Scannable texts and short keys are all that the scanner asks for. -/
theorem IsScannable.meets {d : Definition} (h : d.IsScannable) (hs : d.HasShortKeys) :
    d.Meets Scalar.IsKey Scalar.Clean := by
  -- What holds of all access points holds of those that are written.
  have hpoints : ∀ ap ∈ d.writtenAccessPoints,
      (∀ text ∈ ap.ssid :: ap.settings.texts, text ∈ d.texts) ∧
      (∀ text ∈ ap.settings.plainTexts, text ∈ d.plainTexts) ∧
      ∀ k ∈ Scalar.quoted ap.ssid :: ap.settings.keyScalars, k ∈ d.keyScalars := by
    intro ap hap
    have hmem := mem_of_mem_writtenAccessPoints hap
    refine ⟨fun text htext => ?_, fun text htext => ?_, fun k hk => ?_⟩
    · exact List.mem_cons_of_mem _ (List.mem_append_right _ (List.mem_flatMap.2 ⟨ap, hmem, htext⟩))
    · exact List.mem_cons_of_mem _ (List.mem_append_right _ (List.mem_flatMap.2 ⟨ap, hmem, htext⟩))
    · exact List.mem_cons_of_mem _ (List.mem_append_right _ (List.mem_flatMap.2 ⟨ap, hmem, hk⟩))
  constructor
  · exact ⟨⟨h.chars d.id List.mem_cons_self, h.lines d.id List.mem_cons_self⟩,
      hs _ List.mem_cons_self⟩
  · intro selector hselector name hname
    refine Scalar.clean_quoted (h.chars name ?_)
    simp [texts, Option.mem_def.1 hselector, Option.mem_def.1 hname]
  · intro text htext
    exact Scalar.clean_quoted (h.chars text (by simp [texts, htext]))
  · intro ap hap
    obtain ⟨htexts, -, hkeys⟩ := hpoints ap hap
    exact ⟨Scalar.clean_quoted (h.chars _ (htexts _ List.mem_cons_self)),
      hs _ (hkeys _ List.mem_cons_self)⟩
  · intro ap hap
    obtain ⟨htexts, hplain, hkeys⟩ := hpoints ap hap
    exact Settings.meets_of_texts
      (fun text htext => h.chars text (htexts text (List.mem_cons_of_mem _ htext)))
      (fun text htext => h.lines text (hplain text htext))
      (fun k hk => hs k (hkeys k (List.mem_cons_of_mem _ hk)))
  · exact Settings.meets_of_texts
      (fun text htext => h.chars text (by simp [texts, htext]))
      (fun text htext => h.lines text (by simp [plainTexts, htext]))
      (fun k hk => hs k (by simp [keyScalars, hk]))

/-- Network names differ, since access points are kept under them. -/
theorem nodup_keys_accessPoints {d : Definition} (h : d.IsKeyed) :
    (MappingTree.keys (d.accessPoints.values.flatMap AccessPoint.tree)).Nodup := by
  have hnames : ∀ aps : List AccessPoint,
      MappingTree.keys (aps.flatMap AccessPoint.tree) = aps.map AccessPoint.ssid := by
    intro aps
    induction aps with
    | nil => rfl
    | cons ap rest ih =>
      rw [List.flatMap_cons, Yaml.MappingTree.keys_append, ih]
      rfl
  have hkeys : d.accessPoints.values.map AccessPoint.ssid = d.accessPoints.keys := by
    rw [OrderedMap.values, OrderedMap.keys, List.map_map]
    exact List.map_congr_left h
  rw [hnames, hkeys]
  exact d.accessPoints.nodup_keys

namespace Meets

variable {onKeys onValues : Scalar → Prop} {d : Definition}

theorem legible_selectorTree (h : d.Meets onKeys onValues)
    (hnames : Yaml.AdmitsNames onKeys onValues) :
    MappingTree.Legible onKeys onValues d.selectorTree 1 := by
  rw [selectorTree]
  cases hs : d.selector with
  | none => exact .nil
  | some selector =>
    have hkeys : ["name"].Nodup := by decide
    exact .nested (hnames.key (by decide))
      (.optionalEntry hnames (by decide) (h.selector selector hs))
      (hkeys.sublist (Yaml.MappingTree.keys_optionalEntry_sublist "name" selector.name))

theorem legible_fieldTree (h : d.Meets onKeys onValues) (hnames : Yaml.AdmitsNames onKeys onValues)
    (hkeyed : d.IsKeyed) : MappingTree.Legible onKeys onValues d.fieldTree 4 := by
  refine .append (.append (.append ?_ ?_) ?_) ?_
  · exact (h.legible_selectorTree hnames).mono (by decide)
  · exact .flagEntry hnames (by decide) d.wakeOnLan
  · exact Modem.legible_tree hnames h.modem
  · have hssids := h.ssids
    have hpoints := h.accessPoints
    rw [writtenAccessPoints] at hssids hpoints
    split
    · next hwifi =>
      rw [if_pos hwifi] at hssids hpoints
      exact .nested (hnames.key (by decide))
        (.flatMap (fun ap hap => AccessPoint.legible_tree hnames (hssids ap hap) (hpoints ap hap)))
        (nodup_keys_accessPoints hkeyed)
    · exact .nil

end Meets

theorem keys_fieldTree_sublist (d : Definition) :
    (MappingTree.keys d.fieldTree).Sublist (["match", "wakeonlan"] ++ ["auto-config", "apn",
      "device-id", "network-id", "pin", "sim-id", "sim-operator-id"] ++ ["access-points"]) := by
  have hselector : (MappingTree.keys d.selectorTree).Sublist ["match"] := by
    rw [selectorTree]
    cases d.selector with
    | none => exact List.nil_sublist _
    | some selector => exact List.Sublist.refl _
  have hpoints : (MappingTree.keys (if d.kind = .wifi then
        nested (.bare "access-points") (d.accessPoints.values.flatMap AccessPoint.tree)
      else [])).Sublist ["access-points"] := by
    split
    · exact List.Sublist.refl _
    · exact List.nil_sublist _
  have hwake := Yaml.MappingTree.keys_flagEntry_sublist "wakeonlan" d.wakeOnLan
  rw [fieldTree]
  simp only [Yaml.MappingTree.keys_append]
  exact ((hselector.append hwake).append d.modem.keys_tree_sublist).append hpoints

/-- The keys under the id are different. -/
theorem nodup_keys_bodyTree (d : Definition) : (MappingTree.keys d.bodyTree).Nodup := by
  have hrenderer : (MappingTree.keys (bareEntry "renderer" d.backend.name)).Sublist ["renderer"] :=
    List.Sublist.refl _
  have hfields : (MappingTree.keys (if d.kind = .other then [] else d.fieldTree)).Sublist
      (["match", "wakeonlan"] ++ ["auto-config", "apn", "device-id", "network-id", "pin", "sim-id",
        "sim-operator-id"] ++ ["access-points"]) := by
    split
    · exact List.nil_sublist _
    · exact d.keys_fieldTree_sublist
  -- All keys that may occur, in the order in which they do.
  have hkeys : (["renderer"] ++ (["match", "wakeonlan"] ++ ["auto-config", "apn", "device-id",
      "network-id", "pin", "sim-id", "sim-operator-id"] ++ ["access-points"])
      ++ ["networkmanager"]).Nodup := by decide
  rw [bodyTree, Yaml.MappingTree.keys_append, Yaml.MappingTree.keys_append]
  exact hkeys.sublist ((hrenderer.append hfields).append d.settings.keys_tree_sublist)

/-- What stands under the id of a definition is legible if the definition meets the
conditions. -/
theorem Meets.legible_bodyTree {onKeys onValues : Scalar → Prop} {d : Definition}
    (h : d.Meets onKeys onValues) (hnames : Yaml.AdmitsNames onKeys onValues)
    (hkeyed : d.IsKeyed) : MappingTree.Legible onKeys onValues d.bodyTree 4 := by
  refine .append (.append ?_ ?_) ?_
  · exact .scalar (hnames.key (by decide)) (hnames.value (isName_backend d.backend))
  · split
    · exact .nil
    · exact h.legible_fieldTree hnames hkeyed
  · exact (h.settings.legible_tree hnames).mono (by decide)

end Definition

end NetProfile
