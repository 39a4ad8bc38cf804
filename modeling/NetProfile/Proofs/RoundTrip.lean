import NetProfile.Proofs.LegibleTrees
import NetProfile.Registry

/-!
# Definitions in their documents

The document of a definition is read as one definition under its id: the definition
itself, without what documents cannot say.

## Main definitions

- `Definition.ReadsBack` — a definition that is read from its own document
- `Definition.sectionTree` — what stands under the keyword of the kind

## Main results

- `Configuration.ofText?_tree_eq_ok_iff` — the configuration in the document
- `Definition.readsBack` — legible definitions with short names are read back
- `Definition.not_readsBack_accented` — the length of names is measured in bytes
-/

namespace NetProfile

open Yaml (Content MappingTree Scalar Value)
open Yaml.MappingTree (nested)

namespace Kind

theorem isName_keyword (kind : Kind) : Yaml.isName kind.keyword = true := by
  cases kind with
  | ethernet => decide
  | wifi => decide
  | modem => decide
  | bridge => decide
  | bond => decide
  | vlan => decide
  | tunnel => decide
  | other => decide

/-- A section of definitions is neither the version nor the default backend. -/
theorem keyword_ne (kind : Kind) : kind.keyword ≠ "version" ∧ kind.keyword ≠ "renderer" := by
  cases kind with
  | ethernet => decide
  | wifi => decide
  | modem => decide
  | bridge => decide
  | bond => decide
  | vlan => decide
  | tunnel => decide
  | other => decide

theorem ofKeyword?_keyword (kind : Kind) : ofKeyword? kind.keyword = some kind := by
  cases kind with
  | ethernet => decide
  | wifi => decide
  | modem => decide
  | bridge => decide
  | bond => decide
  | vlan => decide
  | tunnel => decide
  | other => decide

end Kind

namespace Definition

variable {d : Definition}

/-- What stands under the keyword of the kind: the definition under its id. -/
def sectionTree (d : Definition) : MappingTree := nested (.bare d.id) d.bodyTree

section Conditions

variable {onKeys onValues : Scalar → Prop}

theorem Meets.legible_sectionTree (h : d.Meets onKeys onValues)
    (hnames : Yaml.AdmitsNames onKeys onValues) (hkeyed : d.IsKeyed) :
    MappingTree.Legible onKeys onValues d.sectionTree 5 :=
  .nested h.id (h.legible_bodyTree hnames hkeyed) (nodup_keys_bodyTree d)

theorem Meets.legible_tree (h : d.Meets onKeys onValues)
    (hnames : Yaml.AdmitsNames onKeys onValues) (hkeyed : d.IsKeyed) :
    MappingTree.Legible onKeys onValues d.tree 7 := by
  have hkeys : ["version", d.kind.keyword].Nodup := by
    simpa using fun heq => d.kind.keyword_ne.1 heq.symm
  refine .nested (hnames.key (by decide)) (.append ?_ ?_) hkeys
  · exact .scalar (hnames.key (by decide)) hnames.version
  · exact .nested (hnames.key d.kind.isName_keyword) (h.legible_sectionTree hnames hkeyed)
      (List.nodup_cons.2 ⟨List.not_mem_nil, List.nodup_nil⟩)

end Conditions

/-- Names that stand for their texts and identities that stand for anything are all that
reading the values asks for. -/
theorem meets_of_keepsNames (h : d.KeepsNames)
    (huuid : ∀ uuid ∈ d.settings.uuid, (Scalar.bare uuid).HasValue)
    (huuids : ∀ ap ∈ d.writtenAccessPoints, ∀ uuid ∈ ap.settings.uuid, (Scalar.bare uuid).HasValue) :
    d.Meets Scalar.IsText Scalar.HasValue := by
  have hquoted : ∀ text, (Scalar.quoted text).HasValue :=
    fun text => (Scalar.isText_quoted text).hasValue
  exact
    { id := h.1
      selector := fun _ _ name _ => hquoted name
      modem := fun text _ => hquoted text
      ssids := fun ap _ => Scalar.isText_quoted ap.ssid
      accessPoints := fun ap hap =>
        ⟨huuids ap hap, fun name _ => hquoted name, h.2.2 ap hap, fun entry _ => hquoted entry.2⟩
      settings := ⟨huuid, fun name _ => hquoted name, h.2.1, fun entry _ => hquoted entry.2⟩ }

end Definition

namespace Configuration

variable {d : Definition}

/-- The scanner reads the document of a definition as its tree. -/
theorem ofText?_tree_eq (h : d.IsScannable) (hs : d.HasShortKeys) :
    ofText? d.tree.print = ofDocument (.ofRoot (Content.mapping d.tree).node) := by
  have hevery := ((h.meets hs).legible_tree Yaml.admitsNames_isKey h.keyed).every
  have hread : Yaml.readFirst d.tree.print =
      { document := some (.ofRoot (Content.mapping d.tree).node), failure := none
        hasMore := false } := by
    refine Yaml.MappingTree.readFirst_print (List.cons_ne_nil _ _) hevery ?_
    intro entry hentry
    obtain rfl := List.mem_singleton.1 hentry
    have hwritten : (Scalar.bare "network").written = "network".toList :=
      Scalar.written_of_isBare (by decide)
    refine ⟨?_, ?_⟩
    · show (Scalar.bare "network").written.head? ≠ _
      rw [hwritten]
      decide
    · intro rest
      show Yaml.isDocumentMarker ((Scalar.bare "network").written ++ rest) = false
      rw [hwritten]
      rfl
  rw [ofText?, hread]
  dsimp only
  cases ofDocument (.ofRoot (Content.mapping d.tree).node) with
  | error e => rfl
  | ok configuration => rfl

/-- The document of a definition is read just if all that is written stands for something
and no key is repeated, and then as one section with the values of the definition. -/
theorem ofText?_tree_eq_ok_iff (h : d.IsScannable) (hs : d.HasShortKeys)
    {configuration : Configuration} :
    ofText? d.tree.print = .ok configuration ↔
      ((Content.mapping d.sectionTree).HasValues ∧
        (Content.mapping d.sectionTree).value.hasRepeatedKey = false) ∧
      configuration =
        { sections := OrderedMap.ofList
            [(d.kind.keyword, .mapping (MappingTree.values d.sectionTree))] } := by
  have hsection := (h.meets hs).legible_sectionTree Yaml.admitsNames_isKey h.keyed
  have hheight : (Content.mapping d.sectionTree).height ≤ sectionDepth :=
    Nat.le_trans (Nat.succ_le_succ hsection.height) (by decide)
  rw [ofText?_tree_eq h hs]
  exact @ofDocument_section_eq_ok_iff (.bare d.kind.keyword) (.mapping d.sectionTree) configuration
    d.kind.keyword_ne hheight

/-- The document of a definition whose names and identities stand for their texts is
read. -/
theorem ofText?_tree (h : d.IsScannable) (hs : d.HasShortKeys)
    (hvalues : d.Meets Scalar.IsText Scalar.HasValue) :
    ofText? d.tree.print =
      .ok { sections := OrderedMap.ofList
              [(d.kind.keyword, .mapping (MappingTree.values d.sectionTree))] } := by
  have hsection := hvalues.legible_sectionTree Yaml.admitsNames_isText h.keyed
  have hmeaningful : (Content.mapping d.sectionTree).Meaningful := hsection.every
  have hdistinct : (Content.mapping d.sectionTree).Distinct :=
    ⟨List.nodup_cons.2 ⟨List.not_mem_nil, List.nodup_nil⟩, hsection.distinct⟩
  exact (ofText?_tree_eq_ok_iff h hs).2
    ⟨⟨hmeaningful.hasValues, Content.hasRepeatedKey_value hmeaningful hdistinct⟩, rfl⟩

end Configuration

/-- A text whose form is wrong is not read. -/
theorem Reading.failure_ofText_of_malformed {text : String}
    (h : (Yaml.readFirst text).failure.isSome = true) : (ofText text).failure.isSome = true := by
  obtain ⟨e, he⟩ := Option.isSome_iff_exists.1 h
  have hconfiguration : ∃ e', Configuration.ofText? text = .error e' := by
    rw [Configuration.ofText?]
    dsimp only
    rw [he]
    cases (Yaml.readFirst text).document with
    | none => exact ⟨_, rfl⟩
    | some doc =>
      dsimp only
      cases Configuration.ofDocument doc with
      | error e' => exact ⟨e', rfl⟩
      | ok configuration => exact ⟨_, rfl⟩
  obtain ⟨e', he'⟩ := hconfiguration
  rw [ofText, he']
  rfl

namespace Definition

variable {d : Definition}

/-- Whether the document of the definition is read, in a new registry and without
errors, as the definition under its id, apart from what documents cannot say. -/
def ReadsBack (d : Definition) : Prop :=
  ∃ rendering, d.render = .ok rendering ∧ (Reading.ofText rendering.text).failure = none ∧
    (({} : Registry).read rendering.text).definitions.toList = [(d.id, d.norm)]

theorem id_norm (d : Definition) : d.norm.id = d.id := by
  rw [norm]
  split
  · rfl
  · split <;> rfl

theorem sectionOfValue_sectionTree (h : d.KeepsNames) :
    Draft.sectionOfValue (.mapping (MappingTree.values d.sectionTree)) = .ok [(d.id, d.draft)] := by
  have hentry : MappingTree.values d.sectionTree =
      [(.string d.id, .mapping (MappingTree.values d.bodyTree))] :=
    Yaml.MappingTree.values_nested h.1 d.bodyTree
  rw [hentry]
  show (do
    let draft ← Draft.ofValue (.mapping (MappingTree.values d.bodyTree))
    let entries ← Shape.entriesOf Draft.ofValue []
    return (d.id, draft) :: entries) = _
  rw [ofValue_bodyTree h]
  rfl

/-- A section of one definition is read as the definition with its identities as they are
read. -/
theorem ofSection_sectionTree (hkeyed : d.IsKeyed) (h : d.KeepsNames) :
    Reading.ofSection none d.kind.keyword (.mapping (MappingTree.values d.sectionTree)) =
      { definitions := [d.reread.norm], logs := d.draft.logs d.id } := by
  rw [Reading.ofSection, d.kind.ofKeyword?_keyword]
  dsimp only
  rw [sectionOfValue_sectionTree h]
  simp only [List.map_cons, List.map_nil, toDefinition_draft hkeyed, List.flatMap_cons,
    List.flatMap_nil, List.append_nil]

/-- A configuration of one section is read as that section. -/
theorem ofConfiguration_section (keyword : String) (value : Value) :
    Reading.ofConfiguration { sections := OrderedMap.ofList [(keyword, value)] } =
      (Reading.ofSection none keyword value).andThen {} := rfl

/-- The text of a definition is read as the definition with its identities as they are
read, if its names stand for their texts. -/
theorem ofText_tree_of_meets (h : d.IsScannable) (hs : d.HasShortKeys)
    (hvalues : d.Meets Scalar.IsText Scalar.HasValue) :
    Reading.ofText d.tree.print =
      { definitions := [d.reread.norm], logs := d.draft.logs d.id } := by
  have hnames : d.KeepsNames :=
    ⟨hvalues.id, hvalues.settings.keys, fun ap hap => (hvalues.accessPoints ap hap).keys⟩
  rw [Reading.ofText, Configuration.ofText?_tree h hs hvalues]
  dsimp only
  rw [ofConfiguration_section, ofSection_sectionTree h.keyed hnames]
  simp [Reading.andThen]

theorem ofText_tree (h : d.IsLegible) (hs : d.HasShortKeys) :
    (Reading.ofText d.tree.print).definitions = [d.norm] ∧
      (Reading.ofText d.tree.print).failure = none := by
  have huuids := h.keepsUuids
  have hvalues : d.Meets Scalar.IsText Scalar.HasValue :=
    meets_of_keepsNames h.keepsNames (fun uuid huuid => (huuids.1 uuid huuid).hasValue)
      (fun ap hap uuid huuid => (huuids.2 ap hap uuid huuid).hasValue)
  rw [ofText_tree_of_meets h.isScannable hs hvalues, norm_reread_eq_iff.2 huuids]
  exact ⟨rfl, rfl⟩

/-- A legible definition whose names are short is read back from its document. -/
theorem readsBack (h : d.IsLegible) (hs : d.HasShortKeys) : d.ReadsBack := by
  obtain ⟨hdefinitions, hfailure⟩ := ofText_tree h hs
  refine ⟨⟨d.tree.print, d.warnings⟩, d.render_eq, hfailure, ?_⟩
  have hentered : ({} : Registry).read d.tree.print = ({} : Registry).insert d.norm := by
    rw [Registry.read, hdefinitions]
    rfl
  rw [hentered]
  show [(d.norm.id, d.norm)] = _
  rw [d.id_norm]

/-- Names and texts that need quotes, in access points of which one has a mode without a
name. -/
theorem readsBack_wireless :
    let spot : AccessPoint := { ssid := "caf\u00E9: \"spot\"\n", hidden := true, mode := .other }
    let home : AccessPoint :=
      { ssid := "0x10", mode := .ap
        settings := { passthrough := OrderedMap.ofList [("wifi.bands", "\u2028 #1")] } }
    let d : Definition :=
      { id := "wl: 0", kind := .wifi, backend := .networkManager
        selector := some { name := some "wl*" }
        settings := { uuid := some "626dd384", name := some "~"
                      passthrough := OrderedMap.ofList [("connection.type", "\\"), ("", "null")] }
        accessPoints := OrderedMap.ofList [(spot.ssid, spot), (home.ssid, home)] }
    d.ReadsBack ∧ d.norm.accessPoints.values = [{ spot with mode := .infrastructure }, home] := by
  intro spot home d
  have hlegible : d.IsLegible := by decide +kernel +zetaReduce
  have hshort : d.HasShortKeys := by decide +kernel +zetaReduce
  exact ⟨readsBack hlegible hshort, rfl⟩

section Names

/-- A definition with nothing but a name. -/
def named (id : String) : Definition := { id := id, kind := .ethernet, backend := .networkd }

variable {id : String}

/-- A definition is legible if its name is all there is, and legible. -/
theorem isLegible_named (h : Yaml.IsLegiblePlain id) : (named id).IsLegible := by
  refine ⟨?_, ?_, ?_⟩
  · intro entry hentry
    cases hentry
  · intro text htext
    obtain rfl : text = id := List.mem_singleton.1 htext
    exact h.chars
  · intro text htext hsafe
    obtain rfl : text = id := List.mem_singleton.1 htext
    exact ⟨h.line hsafe, h.resolve hsafe⟩

/-- The document of a definition with nothing but a name that needs no quotes. -/
theorem toList_print_named (hid : Yaml.isPlainSafe id.toList = true) :
    (named id).tree.print.toList =
      "network:\n  version: 2\n  ethernets:\n    ".toList
        ++ (id.toList ++ ":\n      renderer: networkd\n".toList) := by
  have hwritten : (Scalar.bare id).written = id.toList := Scalar.written_of_isBare hid
  have hnetwork : (Scalar.bare "network").written = "network".toList :=
    Scalar.written_of_isBare (by decide)
  have hversion : (Scalar.bare "version").written = "version".toList :=
    Scalar.written_of_isBare (by decide)
  have htwo : (Scalar.bare "2").written = "2".toList := Scalar.written_of_isBare (by decide)
  have hsection : (Scalar.bare "ethernets").written = "ethernets".toList :=
    Scalar.written_of_isBare (by decide)
  have hrenderer : (Scalar.bare "renderer").written = "renderer".toList :=
    Scalar.written_of_isBare (by decide)
  have hbackend : (Scalar.bare "networkd").written = "networkd".toList :=
    Scalar.written_of_isBare (by decide)
  show (MappingTree.printEntries 0 [(Scalar.bare "network", .mapping
    [(.bare "version", .scalar (.bare "2")), (.bare "ethernets", .mapping [(.bare id, .mapping
      [(.bare "renderer", .scalar (.bare "networkd"))])])])]).toList = _
  rw [Yaml.MappingTree.toList_printEntries_mapping (List.cons_ne_nil _ _),
    Yaml.MappingTree.toList_printEntries_scalar,
    Yaml.MappingTree.toList_printEntries_mapping (List.cons_ne_nil _ _),
    Yaml.MappingTree.toList_printEntries_mapping (List.cons_ne_nil _ _),
    Yaml.MappingTree.toList_printEntries_scalar, hwritten, hnetwork, hversion, htwo, hsection,
    hrenderer, hbackend]
  simp [Yaml.MappingTree.printEntries]

/-- A document whose form is wrong is not read back. -/
theorem not_readsBack_of_malformed {d : Definition}
    (h : (Yaml.readFirst d.tree.print).failure.isSome = true) : ¬ d.ReadsBack := by
  rintro ⟨rendering, hrender, hread, -⟩
  rw [d.render_eq, Except.ok.injEq] at hrender
  have hfailure := Reading.failure_ofText_of_malformed h
  rw [← hrender] at hread
  rw [hread] at hfailure
  exact Bool.false_ne_true hfailure

/-- Names are measured in bytes: a name of 513 characters may be too long. -/
theorem not_readsBack_accented :
    let d := named (String.ofList (List.replicate 513 'é'))
    d.IsLegible ∧ (∀ k ∈ d.keyScalars, k.written.length ≤ 1024) ∧ ¬ d.ReadsBack := by
  have hid : (String.ofList (List.replicate 513 'é')).toList = List.replicate 513 'é' :=
    String.toList_ofList
  -- Only the characters of the name matter; the name itself is never evaluated.
  generalize String.ofList (List.replicate 513 'é') = id at hid ⊢
  intro d
  have hsafe : Yaml.isPlainSafe id.toList = true := by
    rw [hid]
    decide +kernel
  refine ⟨isLegible_named ⟨?_, ?_, ?_⟩, ?_, not_readsBack_of_malformed ?_⟩
  · intro c hc
    rw [hid] at hc
    obtain rfl := List.eq_of_mem_replicate hc
    decide
  · intro _ c hc
    rw [hid] at hc
    obtain rfl := List.eq_of_mem_replicate hc
    decide
  · intro _
    rw [hid]
    decide +kernel
  · intro k hk
    obtain rfl : k = Scalar.bare id := List.mem_singleton.1 hk
    have hwritten : (Scalar.bare id).written = id.toList := Scalar.written_of_isBare hsafe
    rw [hwritten, hid, List.length_replicate]
    decide
  · rw [Yaml.readFirst, toList_print_named hsafe, hid]
    decide +kernel

end Names

end Definition

end NetProfile
