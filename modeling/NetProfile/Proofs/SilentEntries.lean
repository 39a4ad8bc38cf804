import Mathlib.Logic.Relation
import NetProfile.Proofs.RegistryRuns
import NetProfile.Proofs.SilentFields

/-!
# Entries that say nothing

Sections of kinds that are not known, and fields that say nothing in the definitions of
the other sections, can be put anywhere into a configuration, one after the other: reading
it ends as before, with the same error if there is one, and adds the same definitions. Only
what is reported may differ.

## Main definitions

- `Configuration.Insertion` — one more entry that says nothing
- `Reading.Agrees` — readings that differ at most in what they report

## Main results

- `Configuration.agrees_insertion` — one more entry
- `Registry.parse_insertions` — any number of entries, for texts read into any registry
-/

namespace NetProfile

open Yaml (Value)

namespace Configuration

/-- One more entry that says nothing among the sections, as they are before repeated ones
replace each other. -/
inductive Insertion : List (String × Value) → List (String × Value) → Prop
  /-- A section of a kind that is not known. -/
  | newSection {before after : List (String × Value)} {keyword : String} {value : Value}
      (h : Kind.ofKeyword? keyword = none) :
      Insertion (before ++ after) (before ++ (keyword, value) :: after)
  /-- A field in a definition, or in something inside of it. -/
  | newField {before after : List (String × Value)} {earlier later : List (Value × Value)}
      {keyword : String} {id v v' : Value} (h : Draft.Insertion v v') :
      Insertion (before ++ (keyword, .mapping (earlier ++ (id, v) :: later)) :: after)
        (before ++ (keyword, .mapping (earlier ++ (id, v') :: later)) :: after)

/-- Whether the kind of a section is known. -/
def isKnown (keyword : String) : Bool := (Kind.ofKeyword? keyword).isSome

end Configuration

theorem Draft.sectionOfValue_insertion {earlier later : List (Value × Value)} {id v v' : Value}
    (h : Draft.Insertion v v') :
    sectionOfValue (.mapping (earlier ++ (id, v') :: later)) =
      sectionOfValue (.mapping (earlier ++ (id, v) :: later)) :=
  Shape.entriesOf_congr id (ofValue_insertion h)

namespace Reading

/-- Readings that end in the same way and add the same definitions. -/
structure Agrees (first second : Reading) : Prop where
  failure : first.failure = second.failure
  definitions : first.definitions = second.definitions

theorem Agrees.refl (r : Reading) : Agrees r r := ⟨rfl, rfl⟩

theorem Agrees.symm {r s : Reading} (h : Agrees r s) : Agrees s r :=
  ⟨h.failure.symm, h.definitions.symm⟩

theorem Agrees.trans {r s t : Reading} (h : Agrees r s) (h' : Agrees s t) : Agrees r t :=
  ⟨h.failure.trans h'.failure, h.definitions.trans h'.definitions⟩

theorem Agrees.andThen (first : Reading) {second second' : Reading} (h : Agrees second second') :
    Agrees (first.andThen second) (first.andThen second') := by
  cases hfirst : first.failure with
  | some e =>
    rw [andThen_of_failure hfirst, andThen_of_failure hfirst]
    exact Agrees.refl first
  | none =>
    refine ⟨?_, ?_⟩
    · rw [failure_andThen hfirst, failure_andThen hfirst, h.failure]
    · rw [definitions_andThen hfirst, definitions_andThen hfirst, h.definitions]

variable (fallback : Option Backend)

theorem agrees_filter (parts : List (String × Value)) :
    Agrees (ofSections fallback (parts.filter (fun part => Configuration.isKnown part.1)))
      (ofSections fallback parts) := by
  induction parts with
  | nil => exact Agrees.refl _
  | cons part rest ih =>
    obtain ⟨keyword, value⟩ := part
    cases hkind : Kind.ofKeyword? keyword with
    | some kind =>
      have hknown : Configuration.isKnown keyword = true := by
        rw [Configuration.isKnown, hkind, Option.isSome_some]
      rw [List.filter_cons, if_pos hknown]
      exact ih.andThen _
    | none =>
      have hunknown : ¬Configuration.isKnown keyword = true := by
        rw [Configuration.isKnown, hkind]
        exact Bool.false_ne_true
      rw [List.filter_cons, if_neg hunknown, ofSections, ofSection, hkind]
      exact ⟨ih.failure, ih.definitions⟩

/-- What is read from sections depends on the drafts in them only. -/
theorem ofSections_congr {parts parts' : List (String × Value)}
    (h : parts'.map (fun part => (part.1, Draft.sectionOfValue part.2)) =
      parts.map (fun part => (part.1, Draft.sectionOfValue part.2))) :
    ofSections fallback parts' = ofSections fallback parts := by
  induction parts generalizing parts' with
  | nil => rw [List.map_eq_nil_iff.1 h]
  | cons part rest ih =>
    obtain ⟨keyword, value⟩ := part
    obtain ⟨⟨keyword', value'⟩, rest', rfl, hpart, hrest⟩ := List.map_eq_cons_iff.1 h
    obtain ⟨rfl, hvalue⟩ := Prod.mk.inj hpart
    rw [ofSections, ofSections, ofSection, ofSection, hvalue, ih hrest]

end Reading

namespace Configuration

variable {parts parts' : List (String × Value)}

/-- One more entry that says nothing changes neither how reading ends nor what it adds. -/
theorem agrees_insertion (h : Insertion parts parts') (fallback : Option Backend) :
    Reading.Agrees (Reading.ofSections fallback (OrderedMap.ofList parts').toList)
      (Reading.ofSections fallback (OrderedMap.ofList parts).toList) := by
  cases h with
  | @newSection before after keyword value h =>
    -- The section may replace one of its own keyword, but no known one.
    have hdropped : (before ++ (keyword, value) :: after).filter (fun part => isKnown part.1) =
        (before ++ after).filter (fun part => isKnown part.1) := by
      have hunknown : ¬isKnown keyword = true := by
        rw [isKnown, h]
        exact Bool.false_ne_true
      rw [List.filter_append, List.filter_append, List.filter_cons, if_neg hunknown]
    have hfilter := Reading.agrees_filter fallback
      (OrderedMap.ofList (before ++ (keyword, value) :: after)).toList
    rw [OrderedMap.filter_ofList, hdropped, ← OrderedMap.filter_ofList] at hfilter
    exact hfilter.symm.trans (Reading.agrees_filter fallback _)
  | @newField before after earlier later keyword id v v' h =>
    have hdrafts : (OrderedMap.ofList (before ++
          (keyword, Value.mapping (earlier ++ (id, v') :: later)) :: after)).mapValues
          Draft.sectionOfValue =
        (OrderedMap.ofList (before ++
          (keyword, Value.mapping (earlier ++ (id, v) :: later)) :: after)).mapValues
          Draft.sectionOfValue := by
      rw [OrderedMap.mapValues_ofList, OrderedMap.mapValues_ofList, List.map_append,
        List.map_append, List.map_cons, List.map_cons, Draft.sectionOfValue_insertion h]
    rw [Reading.ofSections_congr fallback (congrArg OrderedMap.toList hdrafts)]
    exact Reading.Agrees.refl _

theorem agrees_insertions (h : Relation.ReflTransGen Insertion parts parts')
    (renderer : Option String) :
    Reading.Agrees (Reading.ofConfiguration ⟨renderer, .ofList parts'⟩)
      (Reading.ofConfiguration ⟨renderer, .ofList parts⟩) := by
  induction h with
  | refl => exact Reading.Agrees.refl _
  | tail _ hstep ih =>
    exact ((agrees_insertion hstep (renderer.bind Backend.ofName?)).andThen
      { logs := unknownBackendLogs renderer }).trans ih

end Configuration

theorem Registry.parse_of_agrees {text text' : String}
    (h : (Reading.ofText text').Agrees (Reading.ofText text)) (r : Registry) :
    r.parse text' = r.parse text := by
  rw [parse, parse, read, read, h.failure, h.definitions]

/-- Entries that say nothing influence nothing. Wherever they are put among the sections and
into definitions, reading ends in the same way, with the same error if there is one, and
the definitions are the same. So texts that differ in such entries only do the same to
every registry. -/
theorem Registry.parse_insertions {parts parts' : List (String × Value)}
    (h : Relation.ReflTransGen Configuration.Insertion parts parts') (renderer : Option String) :
    (Reading.ofConfiguration ⟨renderer, .ofList parts'⟩).failure =
        (Reading.ofConfiguration ⟨renderer, .ofList parts⟩).failure ∧
      (Reading.ofConfiguration ⟨renderer, .ofList parts'⟩).definitions =
        (Reading.ofConfiguration ⟨renderer, .ofList parts⟩).definitions ∧
      ∀ text text' : String, Configuration.ofText? text = .ok ⟨renderer, .ofList parts⟩ →
        Configuration.ofText? text' = .ok ⟨renderer, .ofList parts'⟩ →
        ∀ r : Registry, r.parse text' = r.parse text := by
  have hagrees := Configuration.agrees_insertions h renderer
  refine ⟨hagrees.failure, hagrees.definitions, ?_⟩
  intro text text' htext htext' r
  apply parse_of_agrees
  rw [Reading.ofText, Reading.ofText, htext, htext']
  exact hagrees

/-- Sections that are read up to a truth value that is none, with more sections in front,
more fields in the definition that is not read, and more in its settings. -/
def Configuration.refusedParts (sections : List (String × Value))
    (fields settings : List (Value × Value)) : List (String × Value) :=
  sections ++ [("vlans", .mapping [(.string "v", .null)]),
    ("wifis", .mapping [(.string "w", .mapping (fields ++ [
      (.string "networkmanager", .mapping (settings ++ [(.string "uuid", .string "u")])),
      (.string "wakeonlan", .number (.int 7))]))])]

/-- A section that is not known, a field that is not known and an absent name, in a document
that cannot be read to its end: the error is the same, and what precedes it is read. -/
theorem Registry.parse_insertions_refused :
    let parts := Configuration.refusedParts [] [] []
    let parts' := Configuration.refusedParts [("vrfs", .bool true)]
      [(.string "mtu", .number (.int 9))] [(.string "name", .null)]
    let text := "network:\n vlans:\n  v:\n wifis:\n  w:\n" ++
      "   networkmanager:\n    uuid: u\n   wakeonlan: 7\n"
    let text' := "network:\n vrfs: true\n vlans:\n  v:\n wifis:\n  w:\n   mtu: 9\n" ++
      "   networkmanager:\n    name:\n    uuid: u\n   wakeonlan: 7\n"
    Relation.ReflTransGen Configuration.Insertion parts parts' ∧
      Configuration.ofText? text = .ok ⟨none, .ofList parts⟩ ∧
      Configuration.ofText? text' = .ok ⟨none, .ofList parts'⟩ ∧
      (Reading.ofText text).failure = some (.shape ⟨.number (.int 7), .truthValue⟩) ∧
      (Reading.ofText text).definitions.map Definition.id = ["v"] ∧
      ∀ r : Registry, r.parse text' = r.parse text := by
  intro parts parts' text text'
  let parts₁ := Configuration.refusedParts [("vrfs", .bool true)] [] []
  let parts₂ := Configuration.refusedParts [("vrfs", .bool true)]
    [(.string "mtu", .number (.int 9))] []
  have hsection : Configuration.Insertion parts parts₁ :=
    @Configuration.Insertion.newSection [] parts "vrfs" (.bool true) (by decide)
  have hunknown : Configuration.Insertion parts₁ parts₂ :=
    @Configuration.Insertion.newField [_, _] [] [] [] _ _ _ _
      (@Shape.Insertion.here _ _ [] _ "mtu" (.number (.int 9)) (.inl (by decide)))
  have habsent : DraftSettings.Insertion (.mapping [(.string "uuid", .string "u")])
      (.mapping [(.string "name", .null), (.string "uuid", .string "u")]) :=
    @Shape.Insertion.here _ _ [] [(.string "uuid", .string "u")] "name" _
      (.inr ⟨rfl, by decide⟩)
  have hsettings : Configuration.Insertion parts₂ parts' :=
    @Configuration.Insertion.newField [_, _] [] [] [] _ _ _ _
      (@Shape.Insertion.inside _ _ [_] _ _ _ _ (.settings habsent))
  have hinsertions : Relation.ReflTransGen Configuration.Insertion parts parts' :=
    ((Relation.ReflTransGen.single hsection).tail hunknown).tail hsettings
  have htext : Configuration.ofText? text = .ok ⟨none, .ofList parts⟩ := by decide +kernel
  have htext' : Configuration.ofText? text' = .ok ⟨none, .ofList parts'⟩ := by decide +kernel
  have hreading : Reading.ofText text = Reading.ofConfiguration ⟨none, .ofList parts⟩ := by
    rw [Reading.ofText, htext]
  obtain ⟨-, -, hparse⟩ := Registry.parse_insertions hinsertions none
  refine ⟨hinsertions, htext, htext', ?_, ?_, hparse text text' htext htext'⟩
  · rw [hreading]
    decide +kernel
  · rw [hreading]
    decide +kernel

end NetProfile
