import NetProfile.Proofs.DraftReading
import NetProfile.Proofs.MapMerging
import NetProfile.Registry

/-!
# Registries over a run

What a registry holds after texts were read into it and it was cleared, in any order.
Reading a text ends the same way whatever the registry holds, and leaves in it what it
leaves in a registry without definitions: an id that was there keeps its place, a new one
goes to the end. A text that is not read to its end leaves the sections that precede the
first one that cannot be read.

## Main definitions

- `Registry.parse` — reads a text: how it ended, and the registry then
- `Registry.Call`, `Registry.run` — what can be done with a registry, one after the other
- `Registry.Absorbs` — a registry that has taken up the definitions of another
- `Registry.Holds` — a registry with just these definitions
- `Registry.Gathers` — which sections of a text are entered, for each way to end
- `Registry.IsKeyed` — definitions under their own ids, access points under their own names

## Main results

- `Registry.gathers_iff` — what reading a text leaves in a registry without definitions
- `Registry.isKeyed_call`, `Registry.isKeyed_run` — the invariant, for a call and a run
- `Registry.parse_run` — what reading a text does after any run
-/

namespace NetProfile

open Yaml (ReadError Value)

namespace Configuration

/-- Whether a section can be read: a kind that is not known is passed over, and the value
of any other has to hold drafts. -/
def Converts (part : String × Value) : Prop :=
  ∀ kind, Kind.ofKeyword? part.1 = some kind →
    ∃ drafts, Draft.sectionOfValue part.2 = .ok drafts

theorem not_converts {keyword : String} {value : Value} {kind : Kind} {e : ShapeError}
    (hkind : Kind.ofKeyword? keyword = some kind)
    (hvalue : Draft.sectionOfValue value = .error e) : ¬ Converts (keyword, value) := by
  intro h
  obtain ⟨drafts, hdrafts⟩ := h kind hkind
  rw [hvalue] at hdrafts
  cases hdrafts

instance (part : String × Value) : Decidable (Converts part) :=
  match hkind : Kind.ofKeyword? part.1, hvalue : Draft.sectionOfValue part.2 with
  | none, _ => isTrue (fun _ h => absurd (hkind.symm.trans h) (Option.some_ne_none _).symm)
  | some _, .ok drafts => isTrue (fun _ _ => ⟨drafts, hvalue⟩)
  | some _, .error _ => isFalse (not_converts hkind hvalue)

/-- There is one way only to cut sections at the first that cannot be read. -/
theorem takeWhile_converts {parts before after : List (String × Value)} {part : String × Value}
    (hparts : parts = before ++ part :: after) (hbefore : ∀ p ∈ before, Converts p)
    (hpart : ¬ Converts part) : parts.takeWhile (fun p => decide (Converts p)) = before := by
  rw [hparts, List.takeWhile_append_of_pos (fun p hp => decide_eq_true (hbefore p hp)),
    List.takeWhile_cons_of_neg (by simpa using hpart), List.append_nil]

theorem not_forall_converts {parts before after : List (String × Value)} {part : String × Value}
    (hparts : parts = before ++ part :: after) (hpart : ¬ Converts part) :
    ¬ ∀ p ∈ parts, Converts p := by
  intro hall
  rw [hparts] at hall
  exact hpart (hall part (List.mem_append_right before List.mem_cons_self))

/-- The definitions of a section, in order. -/
def definitionsOf (c : Configuration) (part : String × Value) : List Definition :=
  match Kind.ofKeyword? part.1, Draft.sectionOfValue part.2 with
  | some kind, .ok drafts =>
    drafts.map (fun entry =>
      entry.2.toDefinition entry.1 kind (c.renderer.bind Backend.ofName?))
  | _, _ => []

end Configuration

namespace Draft

/-- The access points of a definition that was read are under their own names. -/
theorem isKeyed_toDefinition (d : Draft) (id : String) (kind : Kind)
    (fallback : Option Backend) : (d.toDefinition id kind fallback).IsKeyed := by
  intro entry hentry
  rw [toDefinition, Definition.foldl_addAccessPoint] at hentry
  rcases OrderedMap.mem_of_mem_insertMany hentry with hold | hnew
  · exact absurd hold List.not_mem_nil
  · obtain ⟨ap, -, rfl⟩ := List.mem_map.1 hnew
    rfl

end Draft

namespace Registry

/-- Reads a text into a registry: how reading it ended, and the registry then. -/
def parse (r : Registry) (text : String) : Except DocumentError Unit × Registry :=
  (match (Reading.ofText text).failure with
    | some e => .error e
    | none => .ok (),
    r.read text)

/-- What can be done with a registry. -/
inductive Call where
  /-- Reads a text, whether or not that succeeds. -/
  | parse (text : String)
  /-- Drops all definitions. -/
  | clear

/-- The registry after a call. -/
def call (r : Registry) : Call → Registry
  | .parse text => (r.parse text).2
  | .clear => {}

/-- The registry after calls, beginning without definitions. -/
def run (calls : List Call) : Registry := calls.foldl call {}

/-- Whether `new` is `old` with the definitions of `added` inserted in order: ids that were
there keep their places and take the new definitions, new ids follow. -/
structure Absorbs (old added new : Registry) : Prop where
  definitions : new.definitions = old.definitions.insertMany added.definitions.toList
  keys : new.definitions.keys = old.definitions.keys ++
    added.definitions.keys.filter (fun id => decide (id ∉ old.definitions.keys))
  find? : ∀ id, new.find? id = (added.find? id).or (old.find? id)

/-- Whether the registry holds just these definitions: their ids in the order in which they
first occur, and under each id the last definition that has it. -/
structure Holds (r : Registry) (ds : List Definition) : Prop where
  definitions : r.definitions = OrderedMap.ofList (ds.map (fun d => (d.id, d)))
  keys : r.definitions.keys = (ds.map Definition.id).eraseDups
  find? : ∀ id, r.find? id = (ds.filter (fun d => d.id = id)).getLast?

/-- What a text leaves in a registry without definitions, for each way reading it can
end. -/
inductive Gathers (text : String) : Except DocumentError Unit → Registry → Prop
  /-- A text that cannot be read leaves nothing. -/
  | unreadable {e : ReadError} (h : Configuration.ofText? text = .error e) :
    Gathers text (.error (.unreadable e)) {}
  /-- The first section that cannot be read ends the reading: those before it are entered,
  and nothing of it or of those after it. -/
  | stopped {c : Configuration} {before after : List (String × Value)} {keyword : String}
    {value : Value} {kind : Kind} {e : ShapeError} {added : Registry}
    (h : Configuration.ofText? text = .ok c)
    (hparts : c.sections.toList = before ++ (keyword, value) :: after)
    (hbefore : ∀ part ∈ before, Configuration.Converts part)
    (hkind : Kind.ofKeyword? keyword = some kind)
    (hvalue : Draft.sectionOfValue value = .error e)
    (hadded : added.Holds (before.flatMap c.definitionsOf)) :
    Gathers text (.error (.shape e)) added
  /-- Otherwise all sections are entered. -/
  | finished {c : Configuration} {added : Registry} (h : Configuration.ofText? text = .ok c)
    (hparts : ∀ part ∈ c.sections.toList, Configuration.Converts part)
    (hadded : added.Holds (c.sections.toList.flatMap c.definitionsOf)) :
    Gathers text (.ok ()) added

/-- Whether definitions are under their own ids, and access points under their own
names. -/
def IsKeyed (r : Registry) : Prop :=
  ∀ entry ∈ r.definitions.toList, entry.2.id = entry.1 ∧ entry.2.IsKeyed

theorem definitions_enter (r : Registry) (ds : List Definition) :
    (r.enter ds).definitions = r.definitions.insertMany (ds.map (fun d => (d.id, d))) := by
  induction ds generalizing r with
  | nil => rfl
  | cons d rest ih =>
    rw [enter, List.foldl_cons]
    exact ih (r.insert d)

theorem isKeyed_empty : ({} : Registry).IsKeyed :=
  fun _ h => absurd h List.not_mem_nil

theorem holds_enter (ds : List Definition) : (({} : Registry).enter ds).Holds ds := by
  have hdefinitions : (({} : Registry).enter ds).definitions =
      OrderedMap.ofList (ds.map (fun d => (d.id, d))) := definitions_enter {} ds
  refine ⟨hdefinitions, ?_, fun id => ?_⟩
  · rw [hdefinitions, OrderedMap.keys_ofList, List.map_map]
    rfl
  · rw [find?, hdefinitions, OrderedMap.find?_ofList, List.filter_map, List.getLast?_map,
      Option.map_map]
    exact congrFun Option.map_id _

theorem Holds.unique {r s : Registry} {ds : List Definition} (h : r.Holds ds) (h' : s.Holds ds) :
    r = s := by
  cases r
  cases s
  exact congrArg Registry.mk (h.definitions.trans h'.definitions.symm)

theorem Holds.isKeyed {r : Registry} {ds : List Definition} (h : r.Holds ds)
    (hds : ∀ d ∈ ds, d.IsKeyed) : r.IsKeyed := by
  intro entry hentry
  rw [h.definitions] at hentry
  obtain ⟨d, hd, rfl⟩ :=
    List.mem_map.1 ((OrderedMap.mem_of_mem_insertMany hentry).resolve_left List.not_mem_nil)
  exact ⟨rfl, hds d hd⟩

/-- Entering definitions is absorbing what they make of a registry without any. -/
theorem absorbs_enter (r : Registry) (ds : List Definition) :
    r.Absorbs (({} : Registry).enter ds) (r.enter ds) := by
  have hadded := (holds_enter ds).definitions
  -- Several definitions may share an id: inserting them all, or only what is left of them in
  -- the new registry, comes to the same.
  have hdefinitions : (r.enter ds).definitions =
      r.definitions.insertMany (({} : Registry).enter ds).definitions.toList := by
    rw [hadded, OrderedMap.ofList, OrderedMap.insertMany_insertMany, definitions_enter]
    rfl
  have hnodup := (({} : Registry).enter ds).definitions.nodup_keys
  refine ⟨hdefinitions, ?_, fun id => ?_⟩
  · rw [hdefinitions]
    exact OrderedMap.keys_insertMany r.definitions hnodup
  · rw [find?, hdefinitions]
    exact OrderedMap.find?_insertMany r.definitions hnodup id

end Registry

namespace Reading

theorem andThen_of_failure {first : Reading} {e : DocumentError} (h : first.failure = some e)
    (second : Reading) : first.andThen second = first := by
  rw [andThen, h]

theorem definitions_andThen {first : Reading} (h : first.failure = none) (second : Reading) :
    (first.andThen second).definitions = first.definitions ++ second.definitions := by
  rw [andThen, h]

theorem failure_andThen {first : Reading} (h : first.failure = none) (second : Reading) :
    (first.andThen second).failure = second.failure := by
  rw [andThen, h]

variable (c : Configuration)

/-- A section is read completely or not at all. -/
theorem ofSection_cases (part : String × Value) :
    (Configuration.Converts part ∧
      (ofSection (c.renderer.bind Backend.ofName?) part.1 part.2).failure = none ∧
      (ofSection (c.renderer.bind Backend.ofName?) part.1 part.2).definitions =
        c.definitionsOf part) ∨
    ∃ kind e, Kind.ofKeyword? part.1 = some kind ∧ Draft.sectionOfValue part.2 = .error e ∧
      (ofSection (c.renderer.bind Backend.ofName?) part.1 part.2).failure = some (.shape e) ∧
      (ofSection (c.renderer.bind Backend.ofName?) part.1 part.2).definitions = [] := by
  rw [ofSection, Configuration.definitionsOf, Configuration.Converts]
  cases hkind : Kind.ofKeyword? part.1 with
  | none => exact Or.inl ⟨fun _ h => absurd h (by simp), rfl, rfl⟩
  | some kind =>
    cases hvalue : Draft.sectionOfValue part.2 with
    | ok drafts => exact Or.inl ⟨fun _ _ => ⟨drafts, rfl⟩, rfl, rfl⟩
    | error e => exact Or.inr ⟨kind, e, rfl, rfl, rfl, rfl⟩

/-- Sections are read one after the other until one cannot be read. -/
theorem ofSections_cases (parts : List (String × Value)) :
    ((∀ part ∈ parts, Configuration.Converts part) ∧
      (ofSections (c.renderer.bind Backend.ofName?) parts).failure = none ∧
      (ofSections (c.renderer.bind Backend.ofName?) parts).definitions =
        parts.flatMap c.definitionsOf) ∨
    ∃ before keyword value after kind e, parts = before ++ (keyword, value) :: after ∧
      (∀ part ∈ before, Configuration.Converts part) ∧
      Kind.ofKeyword? keyword = some kind ∧ Draft.sectionOfValue value = .error e ∧
      (ofSections (c.renderer.bind Backend.ofName?) parts).failure = some (.shape e) ∧
      (ofSections (c.renderer.bind Backend.ofName?) parts).definitions =
        before.flatMap c.definitionsOf := by
  induction parts with
  | nil => exact Or.inl ⟨fun _ h => absurd h List.not_mem_nil, rfl, rfl⟩
  | cons part rest ih =>
    rcases part with ⟨keyword, value⟩
    rw [ofSections]
    rcases ofSection_cases c (keyword, value) with
      ⟨hconverts, hnone, hdefs⟩ | ⟨kind, e, hkind, hvalue, hfailure, hdefs⟩
    · -- This section is read, so it goes on with the rest.
      rw [failure_andThen hnone, definitions_andThen hnone, hdefs]
      rcases ih with ⟨hall, hfailure, hrest⟩ |
        ⟨before, keyword', value', after, kind, e, rfl, hbefore, hkind, hvalue, hfailure, hrest⟩
      · refine Or.inl ⟨List.forall_mem_cons.2 ⟨hconverts, hall⟩, hfailure, ?_⟩
        rw [hrest, List.flatMap_cons]
      · refine Or.inr ⟨(keyword, value) :: before, keyword', value', after, kind, e, rfl,
          List.forall_mem_cons.2 ⟨hconverts, hbefore⟩, hkind, hvalue, hfailure, ?_⟩
        rw [hrest, List.flatMap_cons]
    · -- It is the first that cannot be read, and the rest is not looked at.
      refine Or.inr ⟨[], keyword, value, rest, kind, e, rfl,
        fun _ h => absurd h List.not_mem_nil, hkind, hvalue, ?_⟩
      rw [andThen_of_failure hfailure]
      exact ⟨hfailure, hdefs⟩

end Reading

namespace Registry

/-- What a text leaves in a registry without definitions are whole sections, up to the
first that cannot be read. -/
theorem gathers_parse (text : String) :
    Gathers text (({} : Registry).parse text).1 (({} : Registry).parse text).2 := by
  rw [parse, read, Reading.ofText]
  cases htext : Configuration.ofText? text with
  | error e => exact .unreadable htext
  | ok c =>
    show Gathers text (match (Reading.ofConfiguration c).failure with
      | some e => .error e
      | none => .ok ()) (({} : Registry).enter (Reading.ofConfiguration c).definitions)
    have hlogs : ({ logs := unknownBackendLogs c.renderer } : Reading).failure = none := rfl
    rw [Reading.ofConfiguration, Reading.failure_andThen hlogs, Reading.definitions_andThen hlogs]
    rcases Reading.ofSections_cases c c.sections.toList with ⟨hall, hfailure, hdefs⟩ |
      ⟨before, keyword, value, after, kind, e, hparts, hbefore, hkind, hvalue, hfailure, hdefs⟩
    · rw [hfailure, hdefs]
      exact .finished htext hall (holds_enter _)
    · rw [hfailure, hdefs]
      exact .stopped htext hparts hbefore hkind hvalue (holds_enter _)

/-- How reading a text ends, and what it leaves then, is determined by its sections. -/
theorem Gathers.unique {text : String} {result result' : Except DocumentError Unit}
    {added added' : Registry} (h : Gathers text result added) (h' : Gathers text result' added') :
    result = result' ∧ added = added' := by
  cases h with
  | unreadable htext =>
    cases h' with
    | unreadable htext' =>
      obtain rfl := Except.error.inj (htext.symm.trans htext')
      exact ⟨rfl, rfl⟩
    | stopped htext' => cases htext.symm.trans htext'
    | finished htext' => cases htext.symm.trans htext'
  | stopped htext hparts hbefore hkind hvalue hadded =>
    have hpart := Configuration.not_converts hkind hvalue
    cases h' with
    | unreadable htext' => cases htext.symm.trans htext'
    | stopped htext' hparts' hbefore' hkind' hvalue' hadded' =>
      obtain rfl := Except.ok.inj (htext.symm.trans htext')
      -- Both stop at the first section that cannot be read, so it is the same one.
      have hcut := Configuration.takeWhile_converts hparts hbefore hpart
      rw [Configuration.takeWhile_converts hparts' hbefore'
        (Configuration.not_converts hkind' hvalue')] at hcut
      obtain rfl := hcut
      have hsame := List.append_cancel_left (hparts.symm.trans hparts')
      obtain ⟨-, rfl⟩ := Prod.mk.inj (List.cons.inj hsame).1
      obtain rfl := Except.error.inj (hvalue.symm.trans hvalue')
      exact ⟨rfl, hadded.unique hadded'⟩
    | finished htext' hall =>
      obtain rfl := Except.ok.inj (htext.symm.trans htext')
      exact absurd hall (Configuration.not_forall_converts hparts hpart)
  | finished htext hall hadded =>
    cases h' with
    | unreadable htext' => cases htext.symm.trans htext'
    | stopped htext' hparts' _ hkind' hvalue' =>
      obtain rfl := Except.ok.inj (htext.symm.trans htext')
      exact absurd hall (Configuration.not_forall_converts hparts'
        (Configuration.not_converts hkind' hvalue'))
    | finished htext' _ hadded' =>
      obtain rfl := Except.ok.inj (htext.symm.trans htext')
      exact ⟨rfl, hadded.unique hadded'⟩

/-- Reading a text into a registry without definitions ends in this way and leaves this
registry exactly if its sections say so. -/
theorem gathers_iff {text : String} {result : Except DocumentError Unit} {added : Registry} :
    Gathers text result added ↔ ({} : Registry).parse text = (result, added) := by
  have hparse := gathers_parse text
  constructor
  · intro h
    obtain ⟨hresult, hadded⟩ := hparse.unique h
    exact Prod.ext hresult hadded
  · intro h
    rwa [h] at hparse

theorem isKeyed_definitionsOf {c : Configuration} {parts : List (String × Value)}
    {d : Definition} (h : d ∈ parts.flatMap c.definitionsOf) : d.IsKeyed := by
  obtain ⟨part, -, hd⟩ := List.mem_flatMap.1 h
  rw [Configuration.definitionsOf] at hd
  split at hd
  · obtain ⟨entry, -, rfl⟩ := List.mem_map.1 hd
    exact entry.2.isKeyed_toDefinition _ _ _
  · exact absurd hd List.not_mem_nil

theorem Gathers.isKeyed {text : String} {result : Except DocumentError Unit} {added : Registry}
    (h : Gathers text result added) : added.IsKeyed := by
  cases h with
  | unreadable => exact isKeyed_empty
  | stopped _ _ _ _ _ hadded => exact hadded.isKeyed (fun _ => isKeyed_definitionsOf)
  | finished _ _ hadded => exact hadded.isKeyed (fun _ => isKeyed_definitionsOf)

theorem Absorbs.isKeyed {old added new : Registry} (h : Absorbs old added new)
    (hold : old.IsKeyed) (hadded : added.IsKeyed) : new.IsKeyed := by
  intro entry hentry
  rw [h.definitions] at hentry
  exact (OrderedMap.mem_of_mem_insertMany hentry).elim (hold entry) (hadded entry)

/-- What a text leaves in a registry is what it leaves in one without definitions,
absorbed. -/
theorem absorbs_parse (r : Registry) (text : String) :
    r.Absorbs (({} : Registry).parse text).2 (r.parse text).2 :=
  absorbs_enter r (Reading.ofText text).definitions

/-- A call keeps definitions and access points under their own names. -/
theorem isKeyed_call {r : Registry} (h : r.IsKeyed) (c : Call) : (r.call c).IsKeyed := by
  cases c with
  | parse text => exact (r.absorbs_parse text).isKeyed h (gathers_parse text).isKeyed
  | clear => exact isKeyed_empty

theorem isKeyed_foldl_call {r : Registry} (h : r.IsKeyed) (calls : List Call) :
    (calls.foldl call r).IsKeyed := by
  induction calls generalizing r with
  | nil => exact h
  | cons c rest ih => exact ih (isKeyed_call h c)

/-- Definitions and access points are under their own names after any calls. -/
theorem isKeyed_run (calls : List Call) : (run calls).IsKeyed :=
  isKeyed_foldl_call isKeyed_empty calls

/-- After any calls a text is read as it would be into a registry without definitions: with
the same result, and the definitions it leaves there are inserted in order. These are the
definitions of the sections that precede the first one that cannot be read, under each id
the last one that has it, and nothing else. All are under their own names. -/
theorem parse_run (calls : List Call) (text : String) :
    ((run calls).parse text).1 = (({} : Registry).parse text).1 ∧
    Absorbs (run calls) (({} : Registry).parse text).2 ((run calls).parse text).2 ∧
    (∀ result added, Gathers text result added ↔
      ({} : Registry).parse text = (result, added)) ∧
    (run calls).IsKeyed :=
  ⟨rfl, absorbs_parse (run calls) text, fun _ _ => gathers_iff, isKeyed_run calls⟩

/-- An id that was there keeps its place, and of two definitions with one id the later
counts. A section that is not known is passed over; the one that cannot be read and the one
behind it leave nothing. -/
theorem parse_run_stopped :
    let calls : List Call := [.parse "network:\n vlans:\n  x:\n", .clear,
      .parse "network:\n vlans:\n  c:\n  b:\n"]
    let text := "network:\n ethernets:\n  b:\n  a:\n vrfs: 1\n wifis:\n  b:\n" ++
      " bridges: 7\n vlans:\n  v:\n"
    let kinds (r : Registry) := r.definitions.toList.map (fun entry => (entry.1, entry.2.kind))
    kinds (run calls) = [("c", .vlan), ("b", .vlan)] ∧
      ((run calls).parse text).1 = .error (.shape ⟨.number (.int 7), .mapping⟩) ∧
      kinds (({} : Registry).parse text).2 = [("b", .wifi), ("a", .ethernet)] ∧
      kinds ((run calls).parse text).2 = [("c", .vlan), ("b", .wifi), ("a", .ethernet)] := by
  intro calls text kinds
  let before : List (String × Value) := [("ethernets", .mapping [(.string "b", .null),
    (.string "a", .null)]), ("vrfs", .number (.int 1)), ("wifis", .mapping [(.string "b", .null)])]
  let after : List (String × Value) := [("vlans", .mapping [(.string "v", .null)])]
  let c : Configuration := ⟨none, .ofList (before ++ ("bridges", .number (.int 7)) :: after)⟩
  let added := ({} : Registry).enter (before.flatMap c.definitionsOf)
  have htext : Configuration.ofText? text = .ok c := by decide +kernel
  have hstopped : Gathers text (.error (.shape ⟨.number (.int 7), .mapping⟩)) added :=
    @Gathers.stopped text c before after "bridges" _ .bridge _ added htext rfl
      (by decide +kernel) rfl rfl (holds_enter _)
  obtain ⟨hresult, habsorbs, hgathers, -⟩ := parse_run calls text
  rw [(hgathers _ _).1 hstopped] at hresult habsorbs ⊢
  have hkinds : kinds ((run calls).parse text).2 =
      kinds ⟨(run calls).definitions.insertMany added.definitions.toList⟩ :=
    congrArg (List.map _) (congrArg OrderedMap.toList habsorbs.definitions)
  refine ⟨by decide +kernel, hresult, by decide +kernel, ?_⟩
  rw [hkinds]
  decide +kernel

end Registry

end NetProfile
