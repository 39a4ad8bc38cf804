import NetProfile.Proofs.DraftReading
import NetProfile.Proofs.PrintedTrees

/-!
# Definitions told apart by their documents

Rendering loses what documents cannot say and nothing else, whatever characters the texts
of a definition have: definitions with the same document are the same after
normalisation. The tree of a definition is a table of fields, of which those with a value
are written; the fields can be told from the tree since their names differ.

## Main definitions

- `MappingTree.ofFields` — the fields that have a value, as a tree
- `Settings.fields`, `AccessPoint.fields`, `Definition.fields` — the tables

## Main results

- `MappingTree.ofFields_inj` — fields can be told from their tree
- `Definition.norm_eq_of_fields_eq`, `Definition.tree_norm` — what the fields say
- `Definition.render_text_eq_iff` — the same text exactly after the same normalisation
-/

namespace NetProfile

open Yaml (Content MappingTree Scalar)
open Yaml.MappingTree (bareEntry quotedEntry nested flagEntry optionalEntry optionalBareEntry
  unstyled)

namespace Yaml

/-- A text as a value. -/
def Content.ofText (text : String) : Content := .scalar (.bare text)

theorem Content.ofText_injective : Function.Injective Content.ofText := by
  intro s t h
  rw [ofText, ofText, Content.scalar.injEq, Scalar.bare, Scalar.bare, Scalar.mk.injEq] at h
  exact h.2

/-- A text that may be missing, as a value. -/
def Content.ofText? (text : Option String) : Option Content := text.map Content.ofText

theorem Content.ofText?_injective : Function.Injective Content.ofText? :=
  Option.map_injective Content.ofText_injective

/-- A flag as a value, which is there only when it is set. -/
def Content.ofFlag (value : Bool) : Option Content := if value then some (ofText "true") else none

theorem Content.ofFlag_injective : Function.Injective Content.ofFlag := by
  intro b b' h
  cases b <;> cases b' <;> simp [ofFlag] at h ⊢

namespace MappingTree

/-- The tree of the fields that have a value. -/
def ofFields (fields : List (String × Option Content)) : MappingTree :=
  fields.filterMap (fun field => field.2.map (fun c => (.bare field.1, c)))

theorem ofFields_append (xs ys : List (String × Option Content)) :
    ofFields (xs ++ ys) = ofFields xs ++ ofFields ys :=
  List.filterMap_append

theorem ofFields_cons_none (key : String) (fields : List (String × Option Content)) :
    ofFields ((key, none) :: fields) = ofFields fields := rfl

theorem ofFields_cons_some (key : String) (c : Content) (fields : List (String × Option Content)) :
    ofFields ((key, some c) :: fields) = (.bare key, c) :: ofFields fields := rfl

theorem mem_names_of_mem_ofFields {fields : List (String × Option Content)} {key : String}
    {c : Content} (h : (Scalar.bare key, c) ∈ ofFields fields) : key ∈ fields.map Prod.fst := by
  obtain ⟨⟨name, value⟩, hfield, hvalue⟩ := List.mem_filterMap.1 h
  obtain ⟨c', -, he⟩ := Option.map_eq_some_iff.1 hvalue
  rw [Prod.mk.injEq, Scalar.bare, Scalar.bare, Scalar.mk.injEq] at he
  exact he.1.2 ▸ List.mem_map_of_mem hfield

/-- Fields with different names can be told from their tree. -/
theorem ofFields_inj {xs ys : List (String × Option Content)}
    (hnames : xs.map Prod.fst = ys.map Prod.fst) (hnodup : (xs.map Prod.fst).Nodup)
    (h : ofFields xs = ofFields ys) : xs = ys := by
  induction xs generalizing ys with
  | nil => exact (List.map_eq_nil_iff.1 hnames.symm).symm
  | cons x xs ih =>
    rcases ys with _ | ⟨⟨key, d⟩, ys⟩
    · exact absurd hnames (by simp)
    · rcases x with ⟨key', c⟩
      rw [List.map_cons, List.map_cons, List.cons.injEq] at hnames
      obtain ⟨rfl : key' = key, hnames⟩ := hnames
      rw [List.map_cons, List.nodup_cons] at hnodup
      -- A field without a value leaves no entry, and no later field has its name.
      cases c with
      | none =>
        cases d with
        | none => rw [ih hnames hnodup.2 h]
        | some d =>
          rw [ofFields_cons_none, ofFields_cons_some] at h
          exact absurd (mem_names_of_mem_ofFields (h ▸ List.mem_cons_self)) hnodup.1
      | some c =>
        cases d with
        | none =>
          rw [ofFields_cons_none, ofFields_cons_some] at h
          exact absurd (mem_names_of_mem_ofFields (h ▸ List.mem_cons_self)) (hnames ▸ hnodup.1)
        | some d =>
          rw [ofFields_cons_some, ofFields_cons_some, List.cons.injEq, Prod.mk.injEq] at h
          rw [h.1.2, ih hnames hnodup.2 h.2]

theorem unstyled_append (t u : MappingTree) : unstyled (t ++ u) = t.unstyled ++ u.unstyled := by
  induction t with
  | nil => rfl
  | cons entry rest ih =>
    rcases entry with ⟨k, c⟩
    rw [List.cons_append, unstyled, unstyled, ih, List.cons_append]

section Entries

variable (key value : String)

theorem unstyled_bareEntry :
    (bareEntry key value).unstyled = ofFields [(key, some (.ofText value))] := rfl

theorem unstyled_flagEntry (b : Bool) :
    (flagEntry key b).unstyled = ofFields [(key, Content.ofFlag b)] := by
  cases b <;> rfl

theorem unstyled_optionalEntry (v : Option String) :
    (optionalEntry key v).unstyled = ofFields [(key, Content.ofText? v)] := by
  cases v <;> rfl

theorem unstyled_optionalBareEntry (v : Option String) :
    (optionalBareEntry key v).unstyled = ofFields [(key, Content.ofText? v)] := by
  cases v <;> rfl

theorem unstyled_nested (t : MappingTree) :
    (nested (.bare key) t).unstyled = ofFields [(key, some (.mapping t.unstyled))] := rfl

end Entries

end MappingTree

end Yaml

open Yaml.MappingTree (ofFields ofFields_append ofFields_inj unstyled_append unstyled_bareEntry
  unstyled_flagEntry unstyled_optionalEntry unstyled_optionalBareEntry unstyled_nested)

/-- What is passed through, as entries without styles. -/
theorem Passthrough.unstyled_tree (p : Passthrough) :
    (Passthrough.tree p).unstyled =
      p.toList.map (fun entry => (.bare entry.1, .ofText entry.2)) := by
  rw [Passthrough.tree]
  induction p.toList with
  | nil => rfl
  | cons entry rest ih => rw [List.map_cons, unstyled, ih, List.map_cons]; rfl

theorem Passthrough.unstyled_tree_injective :
    Function.Injective (fun p : Passthrough => (Passthrough.tree p).unstyled) := by
  intro p q h
  have hentry : Function.Injective
      (fun entry : String × String => (Scalar.bare entry.1, Content.ofText entry.2)) := by
    intro x y hxy
    rw [Prod.mk.injEq, Scalar.bare, Scalar.bare, Scalar.mk.injEq] at hxy
    exact Prod.ext hxy.1.2 (Content.ofText_injective hxy.2)
  simp only [Passthrough.unstyled_tree] at h
  exact OrderedMap.ext (List.map_injective_iff.2 hentry h)

namespace Settings

/-- The fields of a block of settings. -/
def fields (s : Settings) : List (String × Option Content) :=
  [("uuid", Content.ofText? s.uuid), ("name", Content.ofText? s.name),
    ("passthrough", if s.passthrough.isEmpty then none
      else some (.mapping (Passthrough.tree s.passthrough).unstyled))]

/-- The block of settings as a value, which is not there when there is nothing in it. -/
def content? (s : Settings) : Option Content :=
  if s.isEmpty then none else some (.mapping (ofFields s.fields))

theorem unstyled_tree (s : Settings) :
    s.tree.unstyled = ofFields [("networkmanager", s.content?)] := by
  have hpassthrough : unstyled (if s.passthrough.isEmpty then []
      else nested (.bare "passthrough") (Passthrough.tree s.passthrough)) =
      ofFields [("passthrough", if s.passthrough.isEmpty then none
        else some (.mapping (Passthrough.tree s.passthrough).unstyled))] := by
    split <;> rfl
  rw [tree, content?]
  split
  · rfl
  · rw [unstyled_nested, unstyled_append, unstyled_append, hpassthrough,
      unstyled_optionalBareEntry, unstyled_optionalEntry, ← ofFields_append, ← ofFields_append]
    rfl

theorem nodup_fields (s : Settings) : (s.fields.map Prod.fst).Nodup := by simp [fields]

theorem fields_injective : Function.Injective fields := by
  intro s s' h
  simp only [fields, List.cons.injEq, Prod.mk.injEq, true_and, and_true] at h
  obtain ⟨huuid, hname, hpassthrough⟩ := h
  have hpassed : s.passthrough = s'.passthrough := by
    by_cases hs : s.passthrough.isEmpty = true
    · by_cases hs' : s'.passthrough.isEmpty = true
      · exact OrderedMap.ext ((List.isEmpty_iff.1 hs).trans (List.isEmpty_iff.1 hs').symm)
      · simp [hs, hs'] at hpassthrough
    · by_cases hs' : s'.passthrough.isEmpty = true
      · simp [hs, hs'] at hpassthrough
      · rw [if_neg hs, if_neg hs', Option.some.injEq, Content.mapping.injEq] at hpassthrough
        exact Passthrough.unstyled_tree_injective hpassthrough
  rcases s with ⟨uuid, name, passthrough⟩
  rcases s' with ⟨uuid', name', passthrough'⟩
  rw [mk.injEq]
  exact ⟨Content.ofText?_injective huuid, Content.ofText?_injective hname, hpassed⟩

/-- Settings can be told from their block, or from its absence. -/
theorem content?_injective : Function.Injective content? := by
  intro s s' h
  rw [content?, content?] at h
  -- No block is written for empty settings only.
  by_cases hs : s.isEmpty = true
  · by_cases hs' : s'.isEmpty = true
    · rw [eq_of_isEmpty hs, eq_of_isEmpty hs']
    · simp [hs, hs'] at h
  · by_cases hs' : s'.isEmpty = true
    · simp [hs, hs'] at h
    · rw [if_neg hs, if_neg hs', Option.some.injEq, Content.mapping.injEq] at h
      exact fields_injective (ofFields_inj rfl s.nodup_fields h)

end Settings

namespace AccessPoint

/-- The fields of an access point. -/
def fields (ap : AccessPoint) : List (String × Option Content) :=
  [("hidden", Content.ofFlag ap.hidden), ("mode", some (.ofText ap.modeName)),
    ("networkmanager", ap.settings.content?)]

theorem unstyled_tree (ap : AccessPoint) :
    ap.tree.unstyled = [(.bare ap.ssid, .mapping (ofFields ap.fields))] := by
  have hfields : unstyled (flagEntry "hidden" ap.hidden ++ bareEntry "mode" ap.modeName
      ++ ap.settings.tree) = ofFields ap.fields := by
    rw [unstyled_append, unstyled_append, unstyled_flagEntry, unstyled_bareEntry,
      ap.settings.unstyled_tree, ← ofFields_append, ← ofFields_append]
    rfl
  rw [← hfields]
  rfl

theorem unstyled_trees (aps : List AccessPoint) :
    unstyled (aps.flatMap tree) =
      aps.map (fun ap => (.bare ap.ssid, .mapping (ofFields ap.fields))) := by
  induction aps with
  | nil => rfl
  | cons ap rest ih =>
    rw [List.flatMap_cons, unstyled_append, ih, unstyled_tree, List.map_cons]
    rfl

/-- Modes with the same name are the same after normalisation. -/
theorem norm_mode_of_name {m m' : WifiMode}
    (h : m.name?.getD fallbackMode = m'.name?.getD fallbackMode) :
    (if m = .other then WifiMode.infrastructure else m) =
      if m' = .other then .infrastructure else m' := by
  revert h
  cases m <;> cases m' <;> decide

theorem nodup_fields (ap : AccessPoint) : (ap.fields.map Prod.fst).Nodup := by simp [fields]

/-- The name and the fields of an access point tell all that documents can say of it. -/
theorem norm_eq_of_fields_eq {ap ap' : AccessPoint} (hssid : ap.ssid = ap'.ssid)
    (h : ap.fields = ap'.fields) : ap.norm = ap'.norm := by
  simp only [fields, List.cons.injEq, Prod.mk.injEq, true_and, and_true, Option.some.injEq] at h
  obtain ⟨hhidden, hmode, hsettings⟩ := h
  rw [norm, norm, mk.injEq]
  exact ⟨hssid, Content.ofFlag_injective hhidden,
    norm_mode_of_name (Content.ofText_injective hmode), Settings.content?_injective hsettings⟩

/-- So do the trees of access points, in order. -/
theorem map_norm_eq_of_trees_eq {aps aps' : List AccessPoint}
    (h : unstyled (aps.flatMap tree) = unstyled (aps'.flatMap tree)) :
    aps.map norm = aps'.map norm := by
  rw [unstyled_trees, unstyled_trees] at h
  induction aps generalizing aps' with
  | nil =>
    obtain rfl := List.map_eq_nil_iff.1 h.symm
    rfl
  | cons ap rest ih =>
    rcases aps' with _ | ⟨ap', rest'⟩
    · exact absurd h (by simp)
    · simp only [List.map_cons, List.cons.injEq, Prod.mk.injEq, Scalar.bare, Scalar.mk.injEq,
        true_and, Content.mapping.injEq] at h
      obtain ⟨⟨hssid, hfields⟩, hrest⟩ := h
      rw [List.map_cons, List.map_cons, ih hrest,
        norm_eq_of_fields_eq hssid (ofFields_inj rfl ap.nodup_fields hfields)]

theorem tree_norm (ap : AccessPoint) : ap.norm.tree = ap.tree := by
  have hname : ap.norm.mode.name?.getD fallbackMode = ap.mode.name?.getD fallbackMode := by
    rw [norm]
    cases ap.mode <;> rfl
  rw [tree, hname]
  rfl

end AccessPoint

/-- A selector as a value. -/
def Selector.content (s : Selector) : Content :=
  .mapping (ofFields [("name", Content.ofText? s.name)])

theorem Selector.content_injective : Function.Injective Selector.content := by
  intro s s' h
  rw [content, content, Content.mapping.injEq] at h
  have hfields : [("name", Content.ofText? s.name)] = [("name", Content.ofText? s'.name)] :=
    ofFields_inj rfl (by simp) h
  simp only [List.cons.injEq, Prod.mk.injEq, true_and, and_true] at hfields
  rcases s with ⟨name⟩
  rcases s' with ⟨name'⟩
  rw [mk.injEq]
  exact Content.ofText?_injective hfields

namespace Definition

/-- The fields that only modelled kinds have. -/
def modelFields (d : Definition) : List (String × Option Content) :=
  [("match", d.selector.map Selector.content),
    ("wakeonlan", Content.ofFlag d.wakeOnLan),
    ("auto-config", Content.ofFlag d.modem.autoConfig),
    ("apn", Content.ofText? d.modem.apn),
    ("device-id", Content.ofText? d.modem.deviceId),
    ("network-id", Content.ofText? d.modem.networkId),
    ("pin", Content.ofText? d.modem.pin),
    ("sim-id", Content.ofText? d.modem.simId),
    ("sim-operator-id", Content.ofText? d.modem.simOperatorId),
    ("access-points", if d.kind = .wifi then
        some (.mapping (unstyled (d.accessPoints.values.flatMap AccessPoint.tree)))
      else none)]

/-- The fields of a definition. -/
def fields (d : Definition) : List (String × Option Content) :=
  ("renderer", some (.ofText d.backend.name))
    :: ((if d.kind = .other then [] else d.modelFields)
      ++ [("networkmanager", d.settings.content?)])

theorem names_fields (d : Definition) :
    d.fields.map Prod.fst =
      if d.kind = .other then ["renderer", "networkmanager"]
      else ["renderer", "match", "wakeonlan", "auto-config", "apn", "device-id", "network-id",
        "pin", "sim-id", "sim-operator-id", "access-points", "networkmanager"] := by
  rw [fields]
  split <;> rfl

theorem nodup_fields (d : Definition) : (d.fields.map Prod.fst).Nodup := by
  rw [names_fields]
  split <;> decide

theorem unstyled_selectorTree (d : Definition) :
    d.selectorTree.unstyled = ofFields [("match", d.selector.map Selector.content)] := by
  rw [selectorTree]
  cases d.selector with
  | none => rfl
  | some selector => rw [unstyled_nested, unstyled_optionalEntry]; rfl

theorem unstyled_fieldTree (d : Definition) : d.fieldTree.unstyled = ofFields d.modelFields := by
  have haccessPoints : unstyled (if d.kind = .wifi then
        nested (.bare "access-points") (d.accessPoints.values.flatMap AccessPoint.tree)
      else []) =
      ofFields [("access-points", if d.kind = .wifi then
        some (.mapping (unstyled (d.accessPoints.values.flatMap AccessPoint.tree))) else none)] := by
    split <;> rfl
  rw [fieldTree, Modem.tree]
  simp only [unstyled_append, unstyled_selectorTree, unstyled_flagEntry, unstyled_optionalEntry,
    haccessPoints, ← ofFields_append]
  rfl

theorem unstyled_bodyTree (d : Definition) : d.bodyTree.unstyled = ofFields d.fields := by
  have hfields : unstyled (if d.kind = .other then [] else d.fieldTree) =
      ofFields (if d.kind = .other then [] else d.modelFields) := by
    split
    · rfl
    · exact d.unstyled_fieldTree
  rw [bodyTree, unstyled_append, unstyled_append, hfields, unstyled_bareEntry,
    d.settings.unstyled_tree, ← ofFields_append, ← ofFields_append]
  rfl

theorem unstyled_tree (d : Definition) :
    d.tree.unstyled =
      [(.bare "network", .mapping
        [(.bare "version", .ofText formatVersion),
          (.bare d.kind.keyword, .mapping
            [(.bare d.id, .mapping (ofFields d.fields))])])] := by
  rw [← unstyled_bodyTree]
  rfl

end Definition

theorem Kind.keyword_injective : Function.Injective Kind.keyword := by
  intro kind kind' h
  revert h
  cases kind <;> cases kind' <;> decide

theorem Backend.name_injective : Function.Injective Backend.name := by
  intro backend backend' h
  rw [← Option.some.injEq, ← Definition.ofName?_backend, h, Definition.ofName?_backend]

namespace Definition

/-- Access points under their own names can be told from their values. -/
theorem mapValues_norm_eq {d d' : Definition} (hd : d.IsKeyed) (hd' : d'.IsKeyed)
    (h : d.accessPoints.values.map AccessPoint.norm = d'.accessPoints.values.map AccessPoint.norm) :
    d.accessPoints.mapValues AccessPoint.norm = d'.accessPoints.mapValues AccessPoint.norm := by
  rw [← ofList_accessPoints hd AccessPoint.norm, ← ofList_accessPoints hd' AccessPoint.norm]
  have hpair : (fun ap : AccessPoint => (ap.ssid, ap.norm)) =
      (fun ap => (ap.ssid, ap)) ∘ AccessPoint.norm := rfl
  rw [hpair, ← List.map_map, ← List.map_map, h]

/-- The kind, the name and the fields of a definition tell all that documents can say of
it. -/
theorem norm_eq_of_fields_eq {d d' : Definition} (hd : d.IsKeyed) (hd' : d'.IsKeyed)
    (hid : d.id = d'.id) (hkind : d.kind = d'.kind) (h : d.fields = d'.fields) :
    d.norm = d'.norm := by
  rw [fields, fields, List.cons.injEq] at h
  obtain ⟨hrenderer, hrest⟩ := h
  simp only [Prod.mk.injEq, true_and, Option.some.injEq] at hrenderer
  have hbackend := Backend.name_injective (Content.ofText_injective hrenderer)
  rcases d with ⟨id, kind, backend, selector, wakeOnLan, modem, settings, accessPoints⟩
  rcases d' with ⟨id', kind', backend', selector', wakeOnLan', modem', settings', accessPoints'⟩
  simp only at hid hkind hbackend
  subst hid hkind hbackend
  by_cases hother : kind = .other
  · -- Only the settings of an unmodelled kind are written.
    simp only [hother, if_true, List.nil_append, List.cons.injEq, Prod.mk.injEq, true_and,
      and_true] at hrest
    simp only [norm, hother, if_true, Settings.content?_injective hrest]
  · simp only [hother, if_false, modelFields, List.cons_append, List.nil_append, List.cons.injEq,
      Prod.mk.injEq, true_and, and_true] at hrest
    obtain ⟨hselector, hwake, hauto, hapn, hdevice, hnetwork, hpin, hsim, hoperator, hpoints,
      hsettings⟩ := hrest
    have hmodem : modem = modem' := by
      rcases modem with ⟨autoConfig, apn, deviceId, networkId, pin, simId, simOperatorId⟩
      rcases modem' with ⟨autoConfig', apn', deviceId', networkId', pin', simId', simOperatorId'⟩
      rw [Modem.mk.injEq]
      exact ⟨Content.ofFlag_injective hauto, Content.ofText?_injective hapn,
        Content.ofText?_injective hdevice, Content.ofText?_injective hnetwork,
        Content.ofText?_injective hpin, Content.ofText?_injective hsim,
        Content.ofText?_injective hoperator⟩
    have hselect := Option.map_injective Selector.content_injective hselector
    have hflag := Content.ofFlag_injective hwake
    have hset := Settings.content?_injective hsettings
    subst hmodem hselect hflag hset
    by_cases hwifi : kind = .wifi
    · simp only [hwifi, if_true, Option.some.injEq, Content.mapping.injEq] at hpoints
      have haccess := mapValues_norm_eq hd hd' (AccessPoint.map_norm_eq_of_trees_eq hpoints)
      simp only at haccess
      simp only [norm, hwifi, if_true, haccess]
    · simp only [norm, hother, hwifi, if_false]

/-- Documents say of a definition what they say of it after normalisation. -/
theorem tree_norm (d : Definition) : d.norm.tree = d.tree := by
  rw [norm]
  by_cases hother : d.kind = .other
  · rw [if_pos hother]
    simp only [tree, bodyTree, hother, if_true]
  · rw [if_neg hother]
    by_cases hwifi : d.kind = .wifi
    · have htrees : ((d.accessPoints.mapValues AccessPoint.norm).values).flatMap AccessPoint.tree =
          d.accessPoints.values.flatMap AccessPoint.tree := by
        simp only [OrderedMap.values, OrderedMap.toList_mapValues, List.map_map, List.flatMap_map]
        congr 1
        funext entry
        exact entry.2.tree_norm
      rw [if_pos hwifi]
      simp only [tree, bodyTree, fieldTree, selectorTree, htrees]
    · rw [if_neg hwifi]
      simp only [tree, bodyTree, fieldTree, selectorTree, hwifi, if_false]

/-- Definitions with the same tree, apart from styles, are the same after normalisation. -/
theorem norm_eq_of_unstyled_eq {d d' : Definition} (hd : d.IsKeyed) (hd' : d'.IsKeyed)
    (h : d.tree.unstyled = d'.tree.unstyled) : d.norm = d'.norm := by
  rw [unstyled_tree, unstyled_tree] at h
  simp only [List.cons.injEq, Prod.mk.injEq, Content.mapping.injEq, Scalar.bare, Scalar.mk.injEq,
    true_and, and_true] at h
  obtain ⟨hkeyword, hid, hfields⟩ := h
  have hkind := Kind.keyword_injective hkeyword
  have hnames : d.fields.map Prod.fst = d'.fields.map Prod.fst := by
    rw [names_fields, names_fields, hkind]
  exact norm_eq_of_fields_eq hd hd' hid hkind (ofFields_inj hnames d.nodup_fields hfields)

/-- Two definitions can be rendered, and they have the same document exactly when they are
the same after normalisation, whatever characters their texts have. -/
theorem render_text_eq_iff {d d' : Definition} (hd : d.IsKeyed) (hd' : d'.IsKeyed) :
    ∃ r r', d.render = .ok r ∧ d'.render = .ok r' ∧ (r.text = r'.text ↔ d.norm = d'.norm) := by
  refine ⟨_, _, d.render_eq, d'.render_eq, ?_, ?_⟩
  · intro h
    exact norm_eq_of_unstyled_eq hd hd' (MappingTree.unstyled_eq_of_print_eq h)
  · intro h
    show d.tree.print = d'.tree.print
    rw [← d.tree_norm, ← d'.tree_norm, h]

/-- Two access points differ in a mode without a name only; and a name that looks like
further lines of a document is not taken for them. -/
theorem render_text_eq_iff_mesh :
    let mesh (name : String) (mode : WifiMode) : Definition :=
      { id := name, kind := .wifi, backend := .networkd
        accessPoints := OrderedMap.ofList [("a", { ssid := "a", mode := mode })] }
    (mesh "w" .other).IsKeyed ∧ (mesh "w" .infrastructure).IsKeyed ∧
      (mesh "w:\n  x" .other).IsKeyed ∧
      (∃ r r', (mesh "w" .other).render = .ok r ∧ (mesh "w" .infrastructure).render = .ok r' ∧
        r.text = r'.text) ∧
      ∃ r r', (mesh "w" .other).render = .ok r ∧ (mesh "w:\n  x" .other).render = .ok r' ∧
        r.text ≠ r'.text := by
  intro mesh
  have hplain : (mesh "w" .other).IsKeyed := by decide
  have hjoined : (mesh "w" .infrastructure).IsKeyed := by decide
  have hlines : (mesh "w:\n  x" .other).IsKeyed := by decide
  obtain ⟨r, r', hr, hr', hsame⟩ := render_text_eq_iff hplain hjoined
  obtain ⟨s, s', hs, hs', hdiffer⟩ := render_text_eq_iff hplain hlines
  exact ⟨hplain, hjoined, hlines, ⟨r, r', hr, hr', hsame.2 (by decide)⟩,
    ⟨s, s', hs, hs', fun h => absurd (hdiffer.1 h) (by decide)⟩⟩

end Definition

end NetProfile
