import Mathlib.Data.List.Basic
import NetProfile.Proofs.DraftReading

/-!
# Fields that say nothing

A field says nothing if it is not known, or if its value is absent and the mapping has no
other field of its name. One more such field, anywhere in a mapping with fixed fields or in
one further inside, changes nothing: a draft is read as before, or fails with the same
error as before.

## Main definitions

- `Shape.SaysNothing` — fields that say nothing
- `Shape.Insertion` — one more field that says nothing, in a mapping or inside of it
- `Shape.Lenient` — readers of fields that pass over such a field

## Main results

- `Shape.Lenient.fields_insertion` — readers of fields
- `Draft.ofValue_insertion` — drafts, with all that is inside of them
-/

namespace NetProfile

open Yaml (Value)

namespace Shape

/-- Whether the field says nothing beside the given fields: its name is not known, or its
value is absent and no other field has its name. -/
def SaysNothing (known : List String) (others : List (Value × Value)) (name : String)
    (v : Value) : Prop :=
  name ∉ known ∨ v = .null ∧ ∀ field ∈ others, field.1 ≠ .string name

/-- One more field in a mapping, where `inner` says what becomes of the values of its
fields when there is one more field inside of them. -/
inductive Insertion (known : List String) (inner : String → Value → Value → Prop) :
    Value → Value → Prop
  /-- The field is one of the mapping itself. -/
  | here {before after : List (Value × Value)} {name : String} {v : Value}
      (h : SaysNothing known (before ++ after) name v) :
      Insertion known inner (.mapping (before ++ after))
        (.mapping (before ++ (.string name, v) :: after))
  /-- The field is one further inside. -/
  | inside {before after : List (Value × Value)} {name : String} {v v' : Value}
      (h : inner name v v') :
      Insertion known inner (.mapping (before ++ (.string name, v) :: after))
        (.mapping (before ++ (.string name, v') :: after))

variable {α : Type}

/-- What keeps a field that says nothing from changing anything. `unset a name` says that
nothing has been set in `a` under the name. -/
structure Lenient (set : α → String → Value → Except ShapeError α) (start : α)
    (known : List String) (unset : α → String → Prop) : Prop where
  /-- At first nothing is set. -/
  start : ∀ name, unset start name
  /-- Fields that are not known are passed over. -/
  unknown : ∀ {name}, name ∉ known → ∀ a v, set a name v = .ok a
  /-- An absent value leaves unset what is unset. -/
  absent : ∀ {a name}, name ∈ known → unset a name → set a name .null = .ok a
  /-- And so do fields of other names. -/
  frame : ∀ {a a' name other v}, other ∈ known → set a other v = .ok a' → other ≠ name →
    unset a name → unset a' name

section Fields

variable {set : α → String → Value → Except ShapeError α} {start a a' : α} {known : List String}
  {unset : α → String → Prop} {inner : String → Value → Value → Prop}
  {before after : List (Value × Value)} {name : String} {v v' : Value}

theorem Lenient.unset_of_set {other : String} (h : Lenient set start known unset)
    (hset : set a other v = .ok a') (hne : other ≠ name) (hunset : unset a name) :
    unset a' name := by
  by_cases hknown : other ∈ known
  · exact h.frame hknown hset hne hunset
  · obtain rfl := Except.ok.inj ((h.unknown hknown a v).symm.trans hset)
    exact hunset

theorem Lenient.set_of_unset (h : Lenient set start known unset) (hunset : unset a name) :
    set a name .null = .ok a := by
  by_cases hknown : name ∈ known
  · exact h.absent hknown hunset
  · exact h.unknown hknown a .null

theorem Lenient.unset_readFields (h : Lenient set start known unset)
    (hread : readFields set a before = .ok a') (hnone : ∀ field ∈ before, field.1 ≠ .string name)
    (hunset : unset a name) : unset a' name := by
  induction before generalizing a with
  | nil =>
    obtain rfl := Except.ok.inj hread
    exact hunset
  | cons field rest ih =>
    obtain ⟨k, w⟩ := field
    have hrest : ∀ field ∈ rest, field.1 ≠ .string name :=
      fun field hfield => hnone field (List.mem_cons_of_mem _ hfield)
    cases k with
    | string other =>
      have hne : other ≠ name := fun e => hnone _ List.mem_cons_self (congrArg Value.string e)
      rw [readFields] at hread
      split at hread
      · next hset => exact ih hread hrest (h.unset_of_set hset hne hunset)
      · cases hread
    | _ => cases hread

/-- A field that says nothing may stand anywhere. -/
theorem Lenient.readFields_insert (h : Lenient set start known unset)
    (hsilent : SaysNothing known (before ++ after) name v) :
    readFields set start (before ++ (.string name, v) :: after) =
      readFields set start (before ++ after) := by
  rw [readFields_append_eq, readFields_append_eq]
  cases hbefore : readFields set start before with
  | error e => rfl
  | ok a =>
    -- What precedes the field has left unset what it would set.
    have hset : set a name v = .ok a := by
      obtain hunknown | ⟨rfl, hnone⟩ := hsilent
      · exact h.unknown hunknown a v
      · refine h.set_of_unset (h.unset_readFields hbefore ?_ (h.start name))
        exact fun field hfield => hnone field (List.mem_append_left _ hfield)
    show readFields set a ((.string name, v) :: after) = readFields set a after
    rw [readFields, hset]

theorem readFields_congr (h : ∀ a, set a name v' = set a name v) :
    readFields set a (before ++ (.string name, v') :: after) =
      readFields set a (before ++ (.string name, v) :: after) := by
  rw [readFields_append_eq, readFields_append_eq]
  congr 1
  funext b
  rw [readFields, readFields, h b]

/-- One more field that says nothing leaves what is read as it was. -/
theorem Lenient.fields_insertion (h : Lenient set start known unset)
    (hinner : ∀ name v v', inner name v v' → ∀ a, set a name v' = set a name v)
    (hins : Insertion known inner v v') (label : String) :
    fields label set start v' = fields label set start v := by
  cases hins with
  | here hsilent => exact h.readFields_insert hsilent
  | inside hfield => exact readFields_congr (hinner _ _ _ hfield)

/-- What takes one more field is a mapping, and so not absent. -/
theorem Insertion.optional_eq {read : Shape α} (hins : Insertion known inner v v')
    (h : read v' = read v) : optional read v' = optional read v := by
  cases hins with
  | here _ => exact congrArg (Except.map some) h
  | inside _ => exact congrArg (Except.map some) h

theorem entriesOf_congr {read : Shape α} (k : Value) (h : read v' = read v) :
    entriesOf read (before ++ (k, v') :: after) = entriesOf read (before ++ (k, v) :: after) := by
  induction before with
  | nil => rw [List.nil_append, List.nil_append, entriesOf, entriesOf, h]
  | cons entry rest ih => rw [List.cons_append, List.cons_append, entriesOf, entriesOf, ih]

end Fields

end Shape

/-- Nothing has a field further inside. -/
def Shape.noInner (_ : String) (_ _ : Value) : Prop := False

namespace Selector

/-- The names of the fields. -/
def fieldNames : List String := ["name"]

/-- One more field that says nothing. -/
def Insertion : Value → Value → Prop := Shape.Insertion fieldNames Shape.noInner

/-- Whether nothing is set under the name of a field. -/
def Unset (s : Selector) (name : String) : Prop := name = "name" → s.name = none

theorem setField_of_not_mem {name : String} (h : name ∉ fieldNames) (s : Selector) (v : Value) :
    setField s name v = .ok s :=
  if_neg (fun e => h (List.mem_singleton.2 e))

theorem lenient : Shape.Lenient setField {} fieldNames Unset where
  start _ _ := rfl
  unknown := setField_of_not_mem
  absent := by
    intro s name hknown hunset
    obtain ⟨_⟩ := s
    obtain rfl := List.mem_singleton.1 hknown
    obtain rfl := hunset rfl
    rfl
  frame := by
    intro s s' name other v hknown hset hne hunset
    obtain rfl := List.mem_singleton.1 hknown
    exact fun e => absurd e.symm hne

theorem ofValue_insertion {v v' : Value} (h : Insertion v v') : ofValue v' = ofValue v :=
  lenient.fields_insertion (fun _ _ _ h => h.elim) h "MatchYaml"

end Selector

namespace DraftSettings

def fieldNames : List String := ["uuid", "name", "passthrough"]

/-- One more field that says nothing. What is passed through has no fixed fields. -/
def Insertion : Value → Value → Prop := Shape.Insertion fieldNames Shape.noInner

structure Unset (s : DraftSettings) (field : String) : Prop where
  uuid : field = "uuid" → s.uuid = none
  name : field = "name" → s.name = none
  passthrough : field = "passthrough" → s.passthrough = []

theorem setField_of_not_mem {name : String} (h : name ∉ fieldNames) (s : DraftSettings)
    (v : Value) : setField s name v = .ok s := by
  simp only [fieldNames, List.mem_cons, List.not_mem_nil, or_false, not_or] at h
  obtain ⟨h1, h2, h3⟩ := h
  rw [setField, if_neg h1, if_neg h2, if_neg h3]

theorem lenient : Shape.Lenient setField {} fieldNames Unset where
  start _ := ⟨fun _ => rfl, fun _ => rfl, fun _ => rfl⟩
  unknown := setField_of_not_mem
  absent := by
    intro s name hknown hunset
    obtain ⟨_, _, _⟩ := s
    simp only [fieldNames, List.mem_cons, List.not_mem_nil, or_false] at hknown
    obtain rfl | rfl | rfl := hknown
    · obtain rfl := hunset.uuid rfl; rfl
    · obtain rfl := hunset.name rfl; rfl
    · obtain rfl := hunset.passthrough rfl; rfl
  frame := by
    intro s s' name other v hknown hset hne hunset
    simp only [fieldNames, List.mem_cons, List.not_mem_nil, or_false] at hknown
    obtain rfl | rfl | rfl := hknown
    · obtain rfl := Except.ok.inj hset
      exact { hunset with uuid := fun e => absurd e.symm hne }
    · obtain rfl := Except.ok.inj hset
      exact { hunset with name := fun e => absurd e.symm hne }
    · obtain ⟨entries, -, h⟩ := Shape.exists_of_bind hset
      obtain rfl := Except.ok.inj h
      exact { hunset with passthrough := fun e => absurd e.symm hne }

theorem ofValue_insertion {v v' : Value} (h : Insertion v v') : ofValue v' = ofValue v :=
  lenient.fields_insertion (fun _ _ _ h => h.elim) h "NetworkManagerYaml"

end DraftSettings

namespace DraftAccessPoint

def fieldNames : List String := ["hidden", "mode", "networkmanager"]

/-- One more field inside of the settings. -/
inductive Inner : String → Value → Value → Prop
  | settings {v v' : Value} (h : DraftSettings.Insertion v v') : Inner "networkmanager" v v'

/-- One more field that says nothing, in the access point or in its settings. -/
def Insertion : Value → Value → Prop := Shape.Insertion fieldNames Inner

structure Unset (ap : DraftAccessPoint) (name : String) : Prop where
  hidden : name = "hidden" → ap.hidden = none
  mode : name = "mode" → ap.mode = none
  settings : name = "networkmanager" → ap.settings = none

theorem setField_of_not_mem {name : String} (h : name ∉ fieldNames) (ap : DraftAccessPoint)
    (v : Value) : setField ap name v = .ok ap := by
  simp only [fieldNames, List.mem_cons, List.not_mem_nil, or_false, not_or] at h
  obtain ⟨h1, h2, h3⟩ := h
  rw [setField, if_neg h1, if_neg h2, if_neg h3]

theorem lenient : Shape.Lenient setField {} fieldNames Unset where
  start _ := ⟨fun _ => rfl, fun _ => rfl, fun _ => rfl⟩
  unknown := setField_of_not_mem
  absent := by
    intro ap name hknown hunset
    obtain ⟨_, _, _⟩ := ap
    simp only [fieldNames, List.mem_cons, List.not_mem_nil, or_false] at hknown
    obtain rfl | rfl | rfl := hknown
    · obtain rfl := hunset.hidden rfl; rfl
    · obtain rfl := hunset.mode rfl; rfl
    · obtain rfl := hunset.settings rfl; rfl
  frame := by
    intro ap ap' name other v hknown hset hne hunset
    simp only [fieldNames, List.mem_cons, List.not_mem_nil, or_false] at hknown
    obtain rfl | rfl | rfl := hknown
    all_goals
      obtain ⟨x, -, h⟩ := Shape.exists_of_bind hset
      obtain rfl := Except.ok.inj h
    · exact { hunset with hidden := fun e => absurd e.symm hne }
    · exact { hunset with mode := fun e => absurd e.symm hne }
    · exact { hunset with settings := fun e => absurd e.symm hne }

theorem setField_inner {name : String} {v v' : Value} (h : Inner name v v')
    (ap : DraftAccessPoint) : setField ap name v' = setField ap name v := by
  obtain ⟨h⟩ := h
  have hread : Shape.optional DraftSettings.ofValue v' = Shape.optional DraftSettings.ofValue v :=
    h.optional_eq (DraftSettings.ofValue_insertion h)
  exact congrArg (· >>= fun settings => Except.ok { ap with settings }) hread

theorem ofValue_insertion {v v' : Value} (h : Insertion v v') : ofValue v' = ofValue v := by
  have hfields := lenient.fields_insertion (fun _ _ _ => setField_inner) h "AccessPointYaml"
  cases h with
  | here _ => exact hfields
  | inside _ => exact hfields

end DraftAccessPoint

namespace Draft

def fieldNames : List String :=
  ["renderer", "match", "wakeonlan", "auto-config", "apn", "device-id", "network-id", "pin",
    "sim-id", "sim-operator-id", "access-points", "networkmanager"]

/-- One more field inside of the selector, of the settings or of an access point. -/
inductive Inner : String → Value → Value → Prop
  | selector {v v' : Value} (h : Selector.Insertion v v') : Inner "match" v v'
  | settings {v v' : Value} (h : DraftSettings.Insertion v v') : Inner "networkmanager" v v'
  | accessPoint {before after : List (Value × Value)} {ssid v v' : Value}
      (h : DraftAccessPoint.Insertion v v') :
      Inner "access-points" (.mapping (before ++ (ssid, v) :: after))
        (.mapping (before ++ (ssid, v') :: after))

/-- One more field that says nothing, in the draft or in something inside of it. -/
def Insertion : Value → Value → Prop := Shape.Insertion fieldNames Inner

structure Unset (d : Draft) (name : String) : Prop where
  renderer : name = "renderer" → d.renderer = none
  selector : name = "match" → d.selector = none
  wakeOnLan : name = "wakeonlan" → d.wakeOnLan = none
  autoConfig : name = "auto-config" → d.autoConfig = none
  apn : name = "apn" → d.apn = none
  deviceId : name = "device-id" → d.deviceId = none
  networkId : name = "network-id" → d.networkId = none
  pin : name = "pin" → d.pin = none
  simId : name = "sim-id" → d.simId = none
  simOperatorId : name = "sim-operator-id" → d.simOperatorId = none
  accessPoints : name = "access-points" → d.accessPoints = []
  settings : name = "networkmanager" → d.settings = none

theorem unset_empty (name : String) : ({} : Draft).Unset name := by
  constructor <;> exact fun _ => rfl

theorem setField_of_not_mem {name : String} (h : name ∉ fieldNames) (d : Draft) (v : Value) :
    setField d name v = .ok d := by
  simp only [fieldNames, List.mem_cons, List.not_mem_nil, or_false, not_or] at h
  obtain ⟨h1, h2, h3, h4, h5, h6, h7, h8, h9, h10, h11, h12⟩ := h
  -- The tests are peeled off in order: splitting on them opens all at once.
  rw [setField, if_neg h1, if_neg h2, if_neg h3, if_neg h4, if_neg h5, if_neg h6, if_neg h7,
    if_neg h8, if_neg h9, if_neg h10, if_neg h11, if_neg h12]

theorem setField_null {d : Draft} {name : String} (hknown : name ∈ fieldNames)
    (h : d.Unset name) : setField d name .null = .ok d := by
  obtain ⟨_, _, _, _, _, _, _, _, _, _, _, _⟩ := d
  simp only [fieldNames, List.mem_cons, List.not_mem_nil, or_false] at hknown
  obtain rfl | rfl | rfl | rfl | rfl | rfl | rfl | rfl | rfl | rfl | rfl | rfl := hknown
  · obtain rfl := h.renderer rfl; rfl
  · obtain rfl := h.selector rfl; rfl
  · obtain rfl := h.wakeOnLan rfl; rfl
  · obtain rfl := h.autoConfig rfl; rfl
  · obtain rfl := h.apn rfl; rfl
  · obtain rfl := h.deviceId rfl; rfl
  · obtain rfl := h.networkId rfl; rfl
  · obtain rfl := h.pin rfl; rfl
  · obtain rfl := h.simId rfl; rfl
  · obtain rfl := h.simOperatorId rfl; rfl
  · obtain rfl := h.accessPoints rfl; rfl
  · obtain rfl := h.settings rfl; rfl

theorem unset_setField {d d' : Draft} {name other : String} {v : Value}
    (hknown : other ∈ fieldNames) (hset : setField d other v = .ok d') (hne : other ≠ name)
    (hunset : d.Unset name) : d'.Unset name := by
  simp only [fieldNames, List.mem_cons, List.not_mem_nil, or_false] at hknown
  obtain rfl | rfl | rfl | rfl | rfl | rfl | rfl | rfl | rfl | rfl | rfl | rfl := hknown
  -- A field sets its own part, and that is not the part in question.
  · obtain ⟨renderer, -, h⟩ := Shape.exists_of_bind hset
    obtain rfl := Except.ok.inj h
    exact { hunset with renderer := fun e => absurd e.symm hne }
  · obtain ⟨selector, -, h⟩ := Shape.exists_of_bind hset
    obtain rfl := Except.ok.inj h
    exact { hunset with selector := fun e => absurd e.symm hne }
  · obtain ⟨wakeOnLan, -, h⟩ := Shape.exists_of_bind hset
    obtain rfl := Except.ok.inj h
    exact { hunset with wakeOnLan := fun e => absurd e.symm hne }
  · obtain ⟨autoConfig, -, h⟩ := Shape.exists_of_bind hset
    obtain rfl := Except.ok.inj h
    exact { hunset with autoConfig := fun e => absurd e.symm hne }
  · obtain rfl := Except.ok.inj hset
    exact { hunset with apn := fun e => absurd e.symm hne }
  · obtain rfl := Except.ok.inj hset
    exact { hunset with deviceId := fun e => absurd e.symm hne }
  · obtain rfl := Except.ok.inj hset
    exact { hunset with networkId := fun e => absurd e.symm hne }
  · obtain rfl := Except.ok.inj hset
    exact { hunset with pin := fun e => absurd e.symm hne }
  · obtain rfl := Except.ok.inj hset
    exact { hunset with simId := fun e => absurd e.symm hne }
  · obtain rfl := Except.ok.inj hset
    exact { hunset with simOperatorId := fun e => absurd e.symm hne }
  · obtain ⟨entries, -, h⟩ := Shape.exists_of_bind hset
    obtain rfl := Except.ok.inj h
    exact { hunset with accessPoints := fun e => absurd e.symm hne }
  · obtain ⟨settings, -, h⟩ := Shape.exists_of_bind hset
    obtain rfl := Except.ok.inj h
    exact { hunset with settings := fun e => absurd e.symm hne }

theorem lenient : Shape.Lenient setField {} fieldNames Unset where
  start := unset_empty
  unknown := setField_of_not_mem
  absent := setField_null
  frame := unset_setField

theorem setField_inner {name : String} {v v' : Value} (h : Inner name v v') (d : Draft) :
    setField d name v' = setField d name v := by
  cases h with
  | selector h =>
    have hread : Shape.optional Selector.ofValue v' = Shape.optional Selector.ofValue v :=
      h.optional_eq (Selector.ofValue_insertion h)
    exact congrArg (· >>= fun selector => Except.ok { d with selector }) hread
  | settings h =>
    have hread : Shape.optional DraftSettings.ofValue v' =
        Shape.optional DraftSettings.ofValue v :=
      h.optional_eq (DraftSettings.ofValue_insertion h)
    exact congrArg (· >>= fun settings => Except.ok { d with settings }) hread
  | @accessPoint before after ssid v v' h =>
    have hread : Shape.entriesOf DraftAccessPoint.ofValue (before ++ (ssid, v') :: after) =
        Shape.entriesOf DraftAccessPoint.ofValue (before ++ (ssid, v) :: after) :=
      Shape.entriesOf_congr ssid (DraftAccessPoint.ofValue_insertion h)
    exact congrArg (fun read => read.map some >>= fun entries =>
      Except.ok { d with accessPoints := entries.getD [] }) hread

/-- A draft is read as before when there is one more field that says nothing, and one
that cannot be read fails with the same error. -/
theorem ofValue_insertion {v v' : Value} (h : Insertion v v') : ofValue v' = ofValue v := by
  have hfields := lenient.fields_insertion (fun _ _ _ => setField_inner) h "DefinitionYaml"
  cases h with
  | here _ => exact hfields
  | inside _ => exact hfields

end Draft

end NetProfile
