import NetProfile.Proofs.RoundTrip

/-!
# Texts written without quotes

The writer leaves quotes out where a text is safe without them: in the id, in identities
and in the names of what is passed through. Whether such a text is read as itself is up to
the schema. A name has to stand for its own text, or no definition is read at all. An
identity is turned into text whatever it stands for, and has to come out as it was.

## Main definitions

- `Definition.writtenNames`, `Definition.writtenUuids` — what may stand without quotes

## Main results

- `Definition.keepsNames_of_sectionOfValue` — names of definitions that are read
- `Definition.readsBack_iff_keepsTexts` — the definitions that are read back
- `Definition.readsBack_iff_standsForItself` — one text without quotes, wherever it stands
- `Definition.not_readsBack_unquoted` — texts that are safe, but not read as themselves
-/

namespace NetProfile

open Yaml (Content MappingTree Scalar Value)
open Yaml.MappingTree (bareEntry nested flagEntry optionalEntry optionalBareEntry)

namespace Yaml

/-- Only a scalar that stands for its own text has a text as its value. -/
theorem Scalar.isText_of_value {s : Scalar} {text : String} (h : s.value = .string text) :
    s.IsText := by
  intro hbare
  rw [value, if_pos hbare, Schema.plainValue] at h
  cases hresolve : Schema.resolve s.text.toList with
  | text => rfl
  | integer n =>
    rw [hresolve] at h
    dsimp only [Schema.integerValue] at h
    cases hfits : Schema.fitsWord n with
    | true =>
      rw [hfits, if_pos rfl] at h
      cases h
    | false =>
      rw [hfits, if_neg Bool.false_ne_true] at h
      cases h
  | _ =>
    rw [hresolve] at h
    cases h

theorem MappingTree.mem_values {t : MappingTree} {k : Scalar} {c : Content} (h : (k, c) ∈ t) :
    (k.value, c.value) ∈ t.values := by
  induction t with
  | nil => cases h
  | cons entry rest ih =>
    obtain rfl | h := List.mem_cons.1 h
    · exact List.mem_cons_self
    · exact List.mem_cons_of_mem _ (ih h)

end Yaml

namespace Shape

variable {α : Type} {set : α → String → Value → Except ShapeError α} {read : Shape α} {a b : α}

theorem exists_of_readFields_append {xs ys : List (Value × Value)}
    (h : readFields set a (xs ++ ys) = .ok b) :
    ∃ a', readFields set a xs = .ok a' ∧ readFields set a' ys = .ok b := by
  rw [readFields_append_eq] at h
  exact exists_of_bind h

theorem set_of_readFields_single {k : String} {v : Value}
    (h : readFields set a [(.string k, v)] = .ok b) : set a k v = .ok b := by
  rw [readFields] at h
  cases hset : set a k v with
  | ok a' =>
    rw [hset] at h
    exact h
  | error e =>
    rw [hset] at h
    cases h

/-- The keys of a mapping that is read are texts. -/
theorem exists_of_entriesOf {xs : List (Value × Value)} {as : List (String × α)}
    (h : entriesOf read xs = .ok as) {k v : Value} (hmem : (k, v) ∈ xs) :
    ∃ name a, k = .string name ∧ read v = .ok a := by
  induction xs generalizing as with
  | nil => cases hmem
  | cons entry rest ih =>
    rcases entry with ⟨k', v'⟩
    obtain ⟨name, hname, h⟩ := exists_of_bind h
    obtain ⟨a, ha, h⟩ := exists_of_bind h
    obtain ⟨as', has, -⟩ := exists_of_bind h
    obtain heq | hmem := List.mem_cons.1 hmem
    · obtain ⟨rfl, rfl⟩ := Prod.mk.inj heq
      cases k with
      | string text => exact ⟨text, a, rfl, ha⟩
      | _ => cases hname
    · exact ih has hmem

end Shape

namespace Settings

variable {s : Settings}

/-- Settings are read only if the names of what is passed through are texts. -/
theorem keepsNames_of_ofValue {draft : DraftSettings}
    (h : DraftSettings.ofValue (.mapping (MappingTree.values (optionalBareEntry "uuid" s.uuid
      ++ optionalEntry "name" s.name
      ++ (if s.passthrough.isEmpty then []
          else nested (.bare "passthrough") (Passthrough.tree s.passthrough))))) = .ok draft) :
    s.KeepsNames := by
  intro entry hentry
  have hfilled : ¬s.passthrough.isEmpty = true := by
    intro hempty
    rw [List.isEmpty_iff.1 hempty] at hentry
    cases hentry
  rw [if_neg hfilled, Yaml.MappingTree.values_append,
    Yaml.MappingTree.values_nested (Scalar.isText_of_isName (by decide))] at h
  obtain ⟨before, -, h⟩ := Shape.exists_of_readFields_append h
  obtain ⟨entries, hentries, -⟩ := Shape.exists_of_bind (Shape.set_of_readFields_single h)
  obtain ⟨as, has, -⟩ := Shape.exists_of_bind hentries
  have hmem : (Scalar.bare entry.1, Content.scalar (.quoted entry.2)) ∈
      Passthrough.tree s.passthrough := List.mem_map.2 ⟨entry, hentry, rfl⟩
  obtain ⟨name, value, hname, -⟩ :=
    Shape.exists_of_entriesOf has (Yaml.MappingTree.mem_values hmem)
  exact Scalar.isText_of_value hname

/-- The same holds of what has the settings in one of its fields. -/
theorem keepsNames_of_readFields {α : Type} {set : α → String → Value → Except ShapeError α}
    {a b : α} {update : Option DraftSettings → Except ShapeError α}
    (hset : ∀ v, set a "networkmanager" v = (Shape.optional DraftSettings.ofValue v).bind update)
    (h : Shape.readFields set a (MappingTree.values s.tree) = .ok b) : s.KeepsNames := by
  by_cases hempty : s.isEmpty = true
  · rw [eq_of_isEmpty hempty]
    intro entry hentry
    cases hentry
  · rw [tree, if_neg hempty,
      Yaml.MappingTree.values_nested (Scalar.isText_of_isName (by decide))] at h
    have hfield := (hset _).symm.trans (Shape.set_of_readFields_single h)
    obtain ⟨settings, hsettings, -⟩ := Shape.exists_of_bind hfield
    obtain ⟨draft, hdraft, -⟩ := Shape.exists_of_bind hsettings
    exact keepsNames_of_ofValue hdraft

end Settings

/-- An access point is read only if its settings are. -/
theorem AccessPoint.keepsNames_of_ofValue {ap : AccessPoint} {draft : DraftAccessPoint}
    (h : DraftAccessPoint.ofValue (.mapping (MappingTree.values
      (flagEntry "hidden" ap.hidden ++ bareEntry "mode" ap.modeName ++ ap.settings.tree))) =
      .ok draft) : ap.settings.KeepsNames := by
  rw [Yaml.MappingTree.values_append] at h
  obtain ⟨before, -, h⟩ := Shape.exists_of_readFields_append h
  exact Settings.keepsNames_of_readFields (fun _ => rfl) h

namespace Reading

/-- A text is read without errors only if there is a configuration in it. -/
theorem exists_of_ofText {text : String} (h : (ofText text).failure = none) :
    ∃ configuration, Configuration.ofText? text = .ok configuration ∧
      ofText text = ofConfiguration configuration := by
  rw [ofText] at h ⊢
  cases hconfiguration : Configuration.ofText? text with
  | ok configuration => exact ⟨configuration, rfl, rfl⟩
  | error e =>
    rw [hconfiguration] at h
    cases h

/-- A section is read without errors only if there are drafts in it. -/
theorem exists_of_ofSection {fallback : Option Backend} {kind : Kind} {value : Value}
    (h : ((ofSection fallback kind.keyword value).andThen {}).failure = none) :
    ∃ drafts, Draft.sectionOfValue value = .ok drafts := by
  rw [ofSection, kind.ofKeyword?_keyword] at h
  cases hdrafts : Draft.sectionOfValue value with
  | ok drafts => exact ⟨drafts, rfl⟩
  | error e =>
    dsimp only at h
    rw [hdrafts] at h
    cases h

end Reading

namespace Definition

variable {d : Definition}

/-- The fields of a wireless definition are read only if its access points are. -/
theorem keepsNames_of_fieldTree (hwifi : d.kind = .wifi) {before behind : Draft}
    (h : Shape.readFields Draft.setField before (MappingTree.values d.fieldTree) = .ok behind)
    {ap : AccessPoint} (hap : ap ∈ d.accessPoints.values) : ap.settings.KeepsNames := by
  rw [fieldTree, if_pos hwifi, Yaml.MappingTree.values_append,
    Yaml.MappingTree.values_nested (Scalar.isText_of_isName (by decide))] at h
  obtain ⟨behindModem, -, hpoints⟩ := Shape.exists_of_readFields_append h
  obtain ⟨entries, hentries, -⟩ := Shape.exists_of_bind (Shape.set_of_readFields_single hpoints)
  obtain ⟨as, has, -⟩ := Shape.exists_of_bind hentries
  have hmem : (Scalar.quoted ap.ssid, Content.mapping
      (flagEntry "hidden" ap.hidden ++ bareEntry "mode" ap.modeName ++ ap.settings.tree)) ∈
      d.accessPoints.values.flatMap AccessPoint.tree :=
    List.mem_flatMap.2 ⟨ap, hap, List.mem_cons_self⟩
  obtain ⟨ssid, point, -, hpoint⟩ :=
    Shape.exists_of_entriesOf has (Yaml.MappingTree.mem_values hmem)
  exact AccessPoint.keepsNames_of_ofValue hpoint

/-- A definition is read only if all its names are texts. -/
theorem keepsNames_of_sectionOfValue {drafts : List (String × Draft)}
    (h : Draft.sectionOfValue (.mapping (MappingTree.values d.sectionTree)) = .ok drafts) :
    d.KeepsNames := by
  have hid : (Scalar.bare d.id, Content.mapping d.bodyTree) ∈ d.sectionTree := List.mem_cons_self
  obtain ⟨name, draft, hname, hdraft⟩ :=
    Shape.exists_of_entriesOf h (Yaml.MappingTree.mem_values hid)
  change Shape.readFields Draft.setField {} (MappingTree.values d.bodyTree) = .ok draft at hdraft
  rw [bodyTree, Yaml.MappingTree.values_append, Yaml.MappingTree.values_append] at hdraft
  obtain ⟨behindFields, hfields, hsettings⟩ := Shape.exists_of_readFields_append hdraft
  obtain ⟨behindRenderer, -, hfields⟩ := Shape.exists_of_readFields_append hfields
  refine ⟨Scalar.isText_of_value hname, ?_, ?_⟩
  · exact Settings.keepsNames_of_readFields (fun _ => rfl) hsettings
  · intro ap hap
    rw [writtenAccessPoints] at hap
    split at hap
    · next hwifi =>
      have hother : d.kind ≠ .other := by
        rw [hwifi]
        decide
      rw [if_neg hother] at hfields
      exact keepsNames_of_fieldTree hwifi hfields hap
    · cases hap

/-- A reading of one definition enters it into a new registry. -/
theorem toList_read {text : String} (h : (Reading.ofText text).definitions = [d]) :
    (({} : Registry).read text).definitions.toList = [(d.id, d)] := by
  rw [Registry.read, h]
  rfl

/-- The text of a definition's document is known, so that only reading it is left. -/
theorem readsBack_iff_reading :
    d.ReadsBack ↔ (Reading.ofText d.tree.print).failure = none ∧
      (({} : Registry).read d.tree.print).definitions.toList = [(d.id, d.norm)] := by
  constructor
  · rintro ⟨rendering, hrender, hreads⟩
    obtain rfl := Except.ok.inj (d.render_eq.symm.trans hrender)
    dsimp only at hreads
    exact hreads
  · rintro ⟨hfailure, hdefinitions⟩
    refine ⟨⟨d.tree.print, d.warnings⟩, d.render_eq, ?_⟩
    dsimp only
    exact ⟨hfailure, hdefinitions⟩

/-- The definitions that come through the scanner are read back exactly if their names
stand for their texts and their identities are read as their texts. -/
theorem readsBack_iff_keepsTexts (h : d.IsScannable) (hs : d.HasShortKeys) :
    d.ReadsBack ↔ d.KeepsNames ∧ d.KeepsUuids := by
  have hid : d.reread.norm.id = d.id := d.reread.id_norm
  rw [readsBack_iff_reading]
  constructor
  · rintro ⟨hfailure, hdefinitions⟩
    obtain ⟨configuration, hconfiguration, hreading⟩ := Reading.exists_of_ofText hfailure
    obtain ⟨-, rfl⟩ := (Configuration.ofText?_tree_eq_ok_iff h hs).1 hconfiguration
    rw [hreading, ofConfiguration_section] at hfailure
    obtain ⟨drafts, hdrafts⟩ := Reading.exists_of_ofSection hfailure
    have hnames := keepsNames_of_sectionOfValue hdrafts
    have hread : (Reading.ofText d.tree.print).definitions = [d.reread.norm] := by
      rw [hreading, ofConfiguration_section, ofSection_sectionTree h.keyed hnames]
      rfl
    rw [toList_read hread, hid] at hdefinitions
    have hsame : d.reread.norm = d.norm := by simpa using hdefinitions
    exact ⟨hnames, norm_reread_eq_iff.1 hsame⟩
  · rintro ⟨hnames, huuids⟩
    have hreading := ofText_tree_of_meets h hs (meets_of_keepsNames hnames
      (fun uuid huuid => (huuids.1 uuid huuid).hasValue)
      (fun ap hap uuid huuid => (huuids.2 ap hap uuid huuid).hasValue))
    rw [norm_reread_eq_iff.2 huuids] at hreading
    refine ⟨by rw [hreading], ?_⟩
    rw [toList_read (d := d.norm) (by rw [hreading]), d.id_norm]

/-- The names in the document of the definition that may stand without quotes. -/
def writtenNames (d : Definition) : List String :=
  d.id :: (d.settings.passthrough.keys
    ++ d.writtenAccessPoints.flatMap (fun ap => ap.settings.passthrough.keys))

/-- The identities in the document of the definition, which may stand without quotes. -/
def writtenUuids (d : Definition) : List String :=
  d.settings.uuid.toList ++ d.writtenAccessPoints.flatMap (fun ap => ap.settings.uuid.toList)

theorem keepsNames_iff : d.KeepsNames ↔ ∀ name ∈ d.writtenNames, (Scalar.bare name).IsText := by
  have hsettings : ∀ s : Settings,
      s.KeepsNames ↔ ∀ name ∈ s.passthrough.keys, (Scalar.bare name).IsText := by
    intro s
    rw [OrderedMap.keys, List.forall_mem_map]
    rfl
  simp only [KeepsNames, writtenNames, List.forall_mem_cons, List.forall_mem_append,
    List.forall_mem_flatMap, hsettings]

theorem keepsUuids_iff : d.KeepsUuids ↔ ∀ uuid ∈ d.writtenUuids, (Scalar.bare uuid).KeepsText := by
  simp only [KeepsUuids, Settings.KeepsUuid, writtenUuids, List.forall_mem_append,
    List.forall_mem_flatMap, Option.mem_toList, Option.mem_def]

/-- A text that is safe without quotes is read back, wherever the document has it, if it
stands for itself there: as a name it has to be a text for the schema, as an identity it
may be anything that is spelled like the text. Otherwise the definition is not read back.
All other texts stand for themselves, all texts come through the scanner, and names are
short. -/
theorem readsBack_iff_standsForItself {s : String} (hsafe : Yaml.isPlainSafe s.toList = true)
    (h : d.IsScannable) (hs : d.HasShortKeys)
    (hothers : ∀ text ∈ d.writtenNames ++ d.writtenUuids, text ≠ s →
      Yaml.isPlainSafe text.toList = true → Yaml.Schema.resolve text.toList = .text) :
    d.ReadsBack ↔
      (s ∈ d.writtenNames → Yaml.Schema.resolve s.toList = .text) ∧
      (s ∈ d.writtenUuids → (Scalar.bare s).KeepsText) := by
  rw [readsBack_iff_keepsTexts h hs, keepsNames_iff, keepsUuids_iff]
  constructor
  · rintro ⟨hnames, huuids⟩
    exact ⟨fun hmem => hnames s hmem hsafe, huuids s⟩
  · rintro ⟨hname, huuid⟩
    constructor
    · intro text htext hbare
      by_cases heq : text = s
      · subst heq
        exact hname htext
      · exact hothers text (List.mem_append_left _ htext) heq hbare
    · intro text htext
      by_cases heq : text = s
      · subst heq
        exact huuid htext
      · exact Scalar.IsText.keepsText (hothers text (List.mem_append_right _ htext) heq)

/-- The identity of an access point and the id of a definition are numbers in the document,
but only the id has to be a text. -/
theorem readsBack_numbered :
    let home : AccessPoint :=
      { ssid := "home", mode := .ap
        settings := { uuid := some "12", passthrough := OrderedMap.ofList [("12.0.0", "null")] } }
    let d : Definition :=
      { id := "0012", kind := .wifi, backend := .networkManager
        settings := { uuid := some "\uFEFF0x1G" }
        accessPoints := OrderedMap.ofList [(home.ssid, home)] }
    d.ReadsBack ∧ ¬{ d with id := "12" }.ReadsBack := by
  intro home d
  have hsafe : Yaml.isPlainSafe "12".toList = true := by decide +kernel
  constructor
  · refine (readsBack_iff_standsForItself hsafe ?_ ?_ ?_).2 ⟨?_, fun _ => ?_⟩
    all_goals decide +kernel +zetaReduce
  · refine fun h => absurd ((readsBack_iff_standsForItself hsafe ?_ ?_ ?_).1 h).1 ?_
    all_goals decide +kernel +zetaReduce

instance : Decidable d.ReadsBack := decidable_of_iff _ readsBack_iff_reading.symm

/-- A definition with nothing but an identity. -/
def identified (uuid : String) : Definition :=
  { named "eth0" with settings := { uuid := some uuid } }

/-- A definition with nothing but a setting that is passed through. -/
def passing (name : String) : Definition :=
  { named "eth0" with settings := { passthrough := OrderedMap.ofList [(name, "")] } }

/-- Texts that are safe without quotes for the writer, but are not read as themselves: they
spell something else than a text, go on over a line, or have a noncharacter. -/
theorem not_readsBack_unquoted :
    (∀ s ∈ ["null", "TRUE", "0x10", "1e3"],
      Yaml.isPlainSafe s.toList = true ∧ ¬(identified s).ReadsBack) ∧
    (∀ s ∈ ["null", "true", "12", "1e3"],
      Yaml.isPlainSafe s.toList = true ∧ ¬(named s).ReadsBack ∧ ¬(passing s).ReadsBack) ∧
    (Yaml.isPlainSafe "a\u2028#b".toList = true ∧ ¬(identified "a\u2028#b").ReadsBack) ∧
    (Yaml.isPlainSafe "a\uFFFE".toList = true ∧ ¬(named "a\uFFFE").ReadsBack) := by
  refine ⟨?_, ?_, by decide +kernel, by decide +kernel⟩
  · have hspelled : ∀ s ∈ ["null", "TRUE", "0x10", "1e3"], Yaml.isPlainSafe s.toList = true ∧
        (identified s).IsScannable ∧ (identified s).HasShortKeys ∧ ¬(Scalar.bare s).KeepsText := by
      decide +kernel
    intro s hs
    obtain ⟨hsafe, hscan, hshort, hlost⟩ := hspelled s hs
    exact ⟨hsafe, fun h => hlost (((readsBack_iff_keepsTexts hscan hshort).1 h).2.1 s rfl)⟩
  · have hspelled : ∀ s ∈ ["null", "true", "12", "1e3"], Yaml.isPlainSafe s.toList = true ∧
        ((named s).IsScannable ∧ (named s).HasShortKeys) ∧
        ((passing s).IsScannable ∧ (passing s).HasShortKeys) ∧
        Yaml.Schema.resolve s.toList ≠ .text := by
      decide +kernel
    intro s hs
    obtain ⟨hsafe, ⟨hscan, hshort⟩, ⟨hscan', hshort'⟩, hlost⟩ := hspelled s hs
    refine ⟨hsafe, fun h => ?_, fun h => ?_⟩
    · exact hlost (((readsBack_iff_keepsTexts hscan hshort).1 h).1.1 hsafe)
    · exact hlost (((readsBack_iff_keepsTexts hscan' hshort').1 h).1.2.1 (s, "")
        List.mem_cons_self hsafe)

end Definition

end NetProfile
