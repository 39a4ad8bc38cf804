import NetProfile.Proofs.PrintedAndWritten
import NetProfile.Proofs.RegistryRuns

/-!
# The last entry of an id

The document of a definition, written on its own from a text, comes from one entry of the
text: of the entries with the id, in the order in which sections are read, the last one.
Texts that agree on it and on the default backend give the same document, however they
differ otherwise.

## Main definitions

- `Configuration.Entry`, `Configuration.last?` — the entries of sections, the last of an id
- `Configuration.Entry.definition?` — the definition that an entry makes
- `LastEntry` — texts that are read to their end, with their last entry of an id

## Main results

- `LastEntry.find?_read` — the definition that is found was made from the last entry
- `Transfer.saveFrom_eq_of_lastEntry` — documents written from two texts
-/

namespace NetProfile

open Yaml (Value)

namespace Configuration

/-- A definition as it stands in a section, with the kind of the section. -/
structure Entry where
  kind : Kind
  id : String
  value : Value
  deriving DecidableEq

namespace Entry

/-- The entry of a section under a key. -/
def ofPair? (kind : Kind) : Value × Value → Option Entry
  | (.string id, value) => some ⟨kind, id, value⟩
  | _ => none

/-- The definition that the entry makes, if it can be read. -/
def definition? (fallback : Option Backend) (e : Entry) : Option Definition :=
  (Draft.ofValue e.value).toOption.map (fun draft => draft.toDefinition e.id e.kind fallback)

end Entry

/-- The entries of a section, in order; none if its kind is not known. -/
def entriesOf (part : String × Value) : List Entry :=
  match Kind.ofKeyword? part.1, part.2 with
  | some kind, .mapping pairs => pairs.filterMap (Entry.ofPair? kind)
  | _, _ => []

/-- All entries, in the order in which the sections are read. -/
def entries (c : Configuration) : List Entry := c.sections.toList.flatMap entriesOf

/-- The last entry of an id. -/
def last? (c : Configuration) (id : String) : Option Entry :=
  (c.entries.filter (fun e => e.id = id)).getLast?

end Configuration

theorem Draft.id_toDefinition (d : Draft) (id : String) (kind : Kind)
    (fallback : Option Backend) : (d.toDefinition id kind fallback).id = id := by
  rw [toDefinition, Definition.foldl_addAccessPoint]

namespace Configuration

variable {fallback : Option Backend}

theorem Entry.id_of_definition? {e : Entry} {d : Definition}
    (h : e.definition? fallback = some d) : d.id = e.id := by
  obtain ⟨draft, -, rfl⟩ := Option.map_eq_some_iff.1 h
  exact draft.id_toDefinition e.id e.kind fallback

theorem map_definition?_pairs {pairs : List (Value × Value)} {drafts : List (String × Draft)}
    (h : Shape.entriesOf Draft.ofValue pairs = .ok drafts) (kind : Kind) :
    (pairs.filterMap (Entry.ofPair? kind)).map (Entry.definition? fallback) =
      (drafts.map (fun entry => entry.2.toDefinition entry.1 kind fallback)).map some := by
  induction pairs generalizing drafts with
  | nil =>
    obtain rfl := Except.ok.inj h
    rfl
  | cons pair rest ih =>
    obtain ⟨k, v⟩ := pair
    obtain ⟨id, hid, h⟩ := Shape.exists_of_bind h
    obtain ⟨draft, hdraft, h⟩ := Shape.exists_of_bind h
    obtain ⟨more, hmore, h⟩ := Shape.exists_of_bind h
    obtain rfl := Except.ok.inj h
    cases k with
    | string name =>
      obtain rfl := Except.ok.inj hid
      have hpair : Entry.ofPair? kind (.string name, v) = some ⟨kind, name, v⟩ := rfl
      have hentry : Entry.definition? fallback ⟨kind, name, v⟩ =
          some (draft.toDefinition name kind fallback) := by
        rw [Entry.definition?, hdraft]
        rfl
      rw [List.filterMap_cons_some hpair, List.map_cons, List.map_cons, List.map_cons, hentry,
        ih hmore]
    | _ => cases hid

theorem map_definition?_entriesOf (c : Configuration) {part : String × Value} (h : Converts part) :
    (entriesOf part).map (Entry.definition? (c.renderer.bind Backend.ofName?)) =
      (c.definitionsOf part).map some := by
  obtain ⟨keyword, value⟩ := part
  rw [entriesOf, definitionsOf]
  cases hkind : Kind.ofKeyword? keyword with
  | none => rfl
  | some kind =>
    obtain ⟨drafts, hdrafts⟩ := h kind hkind
    rw [hdrafts]
    cases value with
    | null =>
      obtain rfl := Except.ok.inj hdrafts
      rfl
    | mapping pairs => exact map_definition?_pairs hdrafts kind
    | _ => cases hdrafts

theorem map_definition?_parts (c : Configuration) {parts : List (String × Value)}
    (h : ∀ part ∈ parts, Converts part) :
    (parts.flatMap entriesOf).map (Entry.definition? (c.renderer.bind Backend.ofName?)) =
      (parts.flatMap c.definitionsOf).map some := by
  induction parts with
  | nil => rfl
  | cons part rest ih =>
    rw [List.flatMap_cons, List.flatMap_cons, List.map_append, List.map_append,
      map_definition?_entriesOf c (h part List.mem_cons_self),
      ih (fun p hp => h p (List.mem_cons_of_mem _ hp))]

theorem map_definition?_filter {es : List Entry} {ds : List Definition}
    (h : es.map (Entry.definition? fallback) = ds.map some) (id : String) :
    (es.filter (fun e => e.id = id)).map (Entry.definition? fallback) =
      (ds.filter (fun d => d.id = id)).map some := by
  induction es generalizing ds with
  | nil =>
    obtain rfl := List.map_eq_nil_iff.1 h.symm
    rfl
  | cons e rest ih =>
    obtain ⟨d, ds, rfl, hd, hrest⟩ := List.map_eq_cons_iff.1 h.symm
    have hid : d.id = e.id := Entry.id_of_definition? hd.symm
    rw [List.filter_cons, List.filter_cons, hid]
    by_cases he : e.id = id
    · simp only [he, decide_true, if_true, List.map_cons, ← hd, ih hrest.symm]
    · simp only [he, decide_false, Bool.false_eq_true, if_false, ih hrest.symm]

/-- The last entry of an id makes the last definition of that id. -/
theorem exists_getLast? {es : List Entry} {ds : List Definition} {id : String} {e : Entry}
    (h : es.map (Entry.definition? fallback) = ds.map some)
    (hlast : (es.filter (fun e => e.id = id)).getLast? = some e) :
    ∃ d, e.definition? fallback = some d ∧
      (ds.filter (fun d => d.id = id)).getLast? = some d := by
  have hmap := congrArg List.getLast? (map_definition?_filter h id)
  rw [List.getLast?_map, List.getLast?_map, hlast, Option.map_some] at hmap
  obtain ⟨d, hd, he⟩ := Option.map_eq_some_iff.1 hmap.symm
  exact ⟨d, he.symm, hd⟩

end Configuration

/-- Whether a text is read to its end, has this default backend, and has `e` as its last
entry of the id. -/
structure LastEntry (text : String) (renderer : Option String) (id : String)
    (e : Configuration.Entry) : Prop where
  finished : (Reading.ofText text).failure = none
  last : ∃ c, Configuration.ofText? text = .ok c ∧ c.renderer = renderer ∧ c.last? id = some e

namespace LastEntry

variable {text text₁ text₂ id : String} {renderer : Option String} {e : Configuration.Entry}

theorem of_configuration {c : Configuration} (htext : Configuration.ofText? text = .ok c)
    (hfinished : (Reading.ofConfiguration c).failure = none) (hlast : c.last? id = some e) :
    LastEntry text c.renderer id e := by
  refine ⟨?_, c, htext, rfl, hlast⟩
  rw [Reading.ofText, htext]
  exact hfinished

/-- Under the id one finds the definition that the last entry makes. Earlier entries of the
id have left nothing. -/
theorem find?_read (h : LastEntry text renderer id e) :
    ∃ d, e.definition? (renderer.bind Backend.ofName?) = some d ∧
      (({} : Registry).read text).find? id = some d := by
  obtain ⟨hfinished, c, htext, rfl, hlast⟩ := h
  have hgathers := Registry.gathers_parse text
  rw [Registry.parse, hfinished] at hgathers
  dsimp only at hgathers
  generalize ({} : Registry).read text = r at hgathers ⊢
  -- Since reading has not failed, the definitions of all sections were entered.
  cases hgathers with
  | @finished c' _ htext' hparts hread =>
    obtain rfl := Except.ok.inj (htext.symm.trans htext')
    obtain ⟨d, hentry, hd⟩ :=
      Configuration.exists_getLast? (Configuration.map_definition?_parts c hparts) hlast
    exact ⟨d, hentry, (hread.find? id).trans hd⟩

/-- The definition that is read of a file with the text, to be written on its own. -/
theorem selected? (h : LastEntry text renderer id e) {d : Definition}
    (hd : e.definition? (renderer.bind Backend.ofName?) = some d) {t : FileTree} {path : String}
    (ht : t.text path = .ok text) : t.selected? (.serialize path id) = some d := by
  obtain ⟨d', hd', hfind⟩ := h.find?_read
  obtain rfl := Option.some.inj (hd.symm.trans hd')
  have hreading : Transfer.readingOf t path = (Reading.ofText text, none) := by
    rw [Transfer.readingOf, ht]
    dsimp only
    rw [h.finished, Option.map_none]
  rw [Transfer.selected?_serialize, hreading]
  exact hfind

end LastEntry

/-- Two texts are read to their ends, name the same default backend, and have the same last
entry of an id. Then the document of the id, written from either text on its own, is that
of the definition which this entry makes: in one tree of files both ways answer the same
and leave the same files, and wherever the file of the document can be made or replaced,
it gets the same text under the same name, with the same warnings. -/
theorem Transfer.saveFrom_eq_of_lastEntry {text₁ text₂ id : String} {renderer : Option String}
    {e : Configuration.Entry} (h₁ : LastEntry text₁ renderer id e)
    (h₂ : LastEntry text₂ renderer id e) :
    ∃ d rendering, e.definition? (renderer.bind Backend.ofName?) = some d ∧
      d.render = .ok rendering ∧
      (∀ (t : FileTree) (path₁ path₂ root : String),
        t.text path₁ = .ok text₁ → t.text path₂ = .ok text₂ →
        let (saved₁, left₁) := (saveFrom id path₁ root : StateM FileTree _).run t
        let (saved₂, left₂) := (saveFrom id path₂ root : StateM FileTree _).run t
        saved₁.answer = saved₂.answer ∧ left₁ = left₂) ∧
      ∀ text, text = text₁ ∨ text = text₂ →
        ∀ (t : FileTree) (path root : String) (place : Place), t.text path = .ok text →
          t.TakesFile (FilePath.join (Definition.directoryPath root) d.fileName) place →
          ∃ logs, (saveFrom id path root : StateM FileTree _).run t =
            (⟨logs, .ok ⟨FilePath.join (Definition.directoryPath root) d.fileName,
              rendering.warnings⟩⟩, t.put place (.file rendering.text.toUTF8)) := by
  obtain ⟨d, hd, -⟩ := h₁.find?_read
  refine ⟨d, ⟨d.tree.print, d.warnings⟩, hd, d.render_eq, ?_, ?_⟩
  · intro t path₁ path₂ root ht₁ ht₂
    obtain ⟨logs₁, hrun₁⟩ := run_saveFrom_of_some root (h₁.selected? hd ht₁)
    obtain ⟨logs₂, hrun₂⟩ := run_saveFrom_of_some root (h₂.selected? hd ht₂)
    rw [hrun₁, hrun₂]
    exact ⟨rfl, rfl⟩
  · intro text htext t path root place ht htakes
    have hselected : t.selected? (.serialize path id) = some d := by
      obtain rfl | rfl := htext
      · exact h₁.selected? hd ht
      · exact h₂.selected? hd ht
    obtain ⟨logs, hrun⟩ := run_saveFrom_of_some root hselected
    obtain ⟨saving, hsave⟩ := run_save htakes
    rw [hrun, hsave]
    exact ⟨_, rfl⟩

/-- A definition that replaces a wireless one of its id, with another one before. -/
def replacingText : String :=
  "network:\n wifis:\n  e:\n   wakeonlan: true\n ethernets:\n  a:\n  e:\n" ++
    "   networkmanager:\n    uuid: u\n"

/-- The same definition without the others, and one of another kind behind it. -/
def loneText : String :=
  "network:\n ethernets:\n  e:\n   networkmanager:\n    uuid: u\n vlans:\n  v:\n"

/-- A tree in which both texts stand. -/
def FileTree.twoTexts : FileTree :=
  { entries := OrderedMap.ofList
      [(["etc"], .directory), (["etc", "netplan"], .directory),
        (["replacing"], .file replacingText.toUTF8), (["lone"], .file loneText.toUTF8)] }

theorem Transfer.saveFrom_eq_of_lastEntry_twoTexts :
    let e : Configuration.Entry :=
      ⟨.ethernet, "e", .mapping [(.string "networkmanager", .mapping [(.string "uuid", .string "u")])]⟩
    LastEntry replacingText none "e" e ∧ LastEntry loneText none "e" e ∧
      ∃ (logs logs' : List LogRecord) (rendering : Definition.Rendering),
        (saveFrom "e" "replacing" "." : StateM FileTree _).run .twoTexts =
          (⟨logs, .ok ⟨"./etc/netplan/90-NM-u.yaml", rendering.warnings⟩⟩,
            FileTree.twoTexts.put ["etc", "netplan", "90-NM-u.yaml"]
              (.file rendering.text.toUTF8)) ∧
        (saveFrom "e" "lone" "." : StateM FileTree _).run .twoTexts =
          (⟨logs', .ok ⟨"./etc/netplan/90-NM-u.yaml", rendering.warnings⟩⟩,
            FileTree.twoTexts.put ["etc", "netplan", "90-NM-u.yaml"]
              (.file rendering.text.toUTF8)) := by
  intro e
  have hreplacing : LastEntry replacingText none "e" e :=
    @LastEntry.of_configuration replacingText "e" e ⟨none, .ofList [("wifis", .mapping
      [(.string "e", .mapping [(.string "wakeonlan", .bool true)])]), ("ethernets", .mapping
      [(.string "a", .null), (.string "e", e.value)])]⟩ (by decide +kernel) (by decide +kernel)
      (by decide +kernel)
  have hlone : LastEntry loneText none "e" e :=
    @LastEntry.of_configuration loneText "e" e ⟨none, .ofList [("ethernets", .mapping
      [(.string "e", e.value)]), ("vlans", .mapping [(.string "v", .null)])]⟩ (by decide +kernel)
      (by decide +kernel) (by decide +kernel)
  obtain ⟨d, rendering, hd, -, -, hrun⟩ := saveFrom_eq_of_lastEntry hreplacing hlone
  have hname : (e.definition? none).map Definition.fileName = some "90-NM-u.yaml" := by
    decide +kernel
  have hpath : FilePath.join (Definition.directoryPath ".") d.fileName =
      "./etc/netplan/90-NM-u.yaml" := by
    have hfile : d.fileName = "90-NM-u.yaml" :=
      Option.some.inj ((congrArg (Option.map Definition.fileName) hd).symm.trans hname)
    rw [hfile]
    decide +kernel
  have htakes : FileTree.twoTexts.TakesFile (FilePath.join (Definition.directoryPath ".") d.fileName)
      ["etc", "netplan", "90-NM-u.yaml"] := by
    rw [hpath, FileTree.takesFile_iff]
    decide +kernel
  obtain ⟨logs, hfirst⟩ := hrun replacingText (.inl rfl) .twoTexts "replacing" "." _
    (by decide +kernel) htakes
  obtain ⟨logs', hsecond⟩ := hrun loneText (.inr rfl) .twoTexts "lone" "." _
    (by decide +kernel) htakes
  rw [hpath] at hfirst hsecond
  exact ⟨hreplacing, hlone, logs, logs', rendering, hfirst, hsecond⟩

end NetProfile
