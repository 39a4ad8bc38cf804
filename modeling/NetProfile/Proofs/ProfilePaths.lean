import Mathlib.Data.List.Infix
import NetProfile.ProfilePath
import NetProfile.Proofs.PercentEscapes

/-!
# Ids behind paths

The path that a profile is generated at is made of the id of its definition and the name
of its network. What is found behind a path is the longest of the ids whose generated
path the path begins with. So each id is found behind its own path, whatever it is made
of; but it is found behind that path with more text at its end as well, for the end of
the generated path is looked for and need not be the end of the path.

## Main definitions

- `ProfilePath.generated` — the path of the profile of a definition

## Main results

- `ProfilePath.definitionId?_eq_some_iff` — which id is found
- `ProfilePath.definitionId?_iff_longest` — and when the path is the generated one
- `ProfilePath.definitionId?_generated` — the id is found behind the generated path
-/

namespace NetProfile

namespace ProfilePath

/-- The path of the profile that is generated from the definition `id`, for the network
`ssid` if there is one. -/
def generated (id : String) (ssid : Option String) : String :=
  match ssid with
  | some name =>
    lead ++ id ++ "-" ++ String.ofList (Text.percentEncode name.toList) ++ extension
  | none => lead ++ id ++ extension

theorem toList_generated (id : String) (ssid : Option String) :
    (generated id ssid).toList = lead.toList ++ (id.toList ++ tail ssid) := by
  cases ssid with
  | none => simp [generated, tail]
  | some name => simp [generated, tail]

theorem afterStart?_eq_some_iff {start s rest : List Char} :
    afterStart? start s = some rest ↔ s = start ++ rest := by
  induction start generalizing s with
  | nil => simp [afterStart?]
  | cons c start ih =>
    cases s with
    | nil => simp [afterStart?]
    | cons d s =>
      rw [afterStart?]
      split
      · next h => simp [ih, h]
      · next h => simp [Ne.symm h]

section Occurrences

variable {part before s : List Char}

/-- A part that occurs later than at the front occurs in the rest. -/
theorem cons_append_prefix_cons {c d : Char} :
    (d :: before) ++ part <+: c :: s ↔ d = c ∧ before ++ part <+: s := by
  rw [List.cons_append, List.cons_prefix_cons]

theorem not_prefix_of_beforeLast? (h : beforeLast? part s = none) (before : List Char) :
    ¬ before ++ part <+: s := by
  induction s generalizing before with
  | nil =>
    rw [beforeLast?] at h
    split at h
    · cases h
    · next hpart =>
      intro hbefore
      exact hpart (by simp [(List.append_eq_nil_iff.1 (List.prefix_nil.1 hbefore)).2])
  | cons c rest ih =>
    rw [beforeLast?] at h
    split at h
    · cases h
    · next hrest =>
      split at h
      · cases h
      · next hhere =>
        intro hbefore
        cases before with
        | nil => exact hhere (List.isPrefixOf_iff_prefix.2 hbefore)
        | cons d before => exact ih hrest before (cons_append_prefix_cons.1 hbefore).2

/-- The part occurs behind what is found, and nowhere later. -/
theorem longest_of_beforeLast? (h : beforeLast? part s = some before) :
    before ++ part <+: s ∧ ∀ other, other ++ part <+: s → other.length ≤ before.length := by
  induction s generalizing before with
  | nil =>
    rw [beforeLast?] at h
    split at h
    · next hpart =>
      obtain rfl := Option.some.inj h
      obtain rfl := List.isEmpty_iff.1 hpart
      refine ⟨List.prefix_rfl, fun other hother => ?_⟩
      rw [(List.append_eq_nil_iff.1 (List.prefix_nil.1 hother)).1]
    · cases h
  | cons c rest ih =>
    rw [beforeLast?] at h
    split at h
    · next found hfound =>
      -- The last occurrence is in the rest, and the others are no later in it.
      obtain rfl := Option.some.inj h
      obtain ⟨hoccurs, hlongest⟩ := ih hfound
      refine ⟨cons_append_prefix_cons.2 ⟨rfl, hoccurs⟩, fun other hother => ?_⟩
      cases other with
      | nil => exact Nat.zero_le _
      | cons d other =>
        exact Nat.succ_le_succ (hlongest other (cons_append_prefix_cons.1 hother).2)
    · next hrest =>
      split at h
      · next hhere =>
        obtain rfl := Option.some.inj h
        refine ⟨List.isPrefixOf_iff_prefix.1 hhere, fun other hother => ?_⟩
        cases other with
        | nil => exact Nat.le_refl _
        | cons d other =>
          exact absurd (cons_append_prefix_cons.1 hother).2 (not_prefix_of_beforeLast? hrest other)
      · cases h

/-- What is found is the longest text behind which the part occurs. -/
theorem beforeLast?_eq_some_iff :
    beforeLast? part s = some before ↔
      before ++ part <+: s ∧ ∀ other, other ++ part <+: s → other.length ≤ before.length := by
  refine ⟨longest_of_beforeLast?, fun ⟨hoccurs, hlongest⟩ => ?_⟩
  cases hfound : beforeLast? part s with
  | none => exact absurd hoccurs (not_prefix_of_beforeLast? hfound before)
  | some found =>
    obtain ⟨hoccurs', hlongest'⟩ := longest_of_beforeLast? hfound
    have hlength : found.length = before.length :=
      Nat.le_antisymm (hlongest found hoccurs') (hlongest' before hoccurs)
    have hbegins : found <+: before :=
      List.prefix_of_prefix_length_le ((List.prefix_append found part).trans hoccurs')
        ((List.prefix_append before part).trans hoccurs) (Nat.le_of_eq hlength)
    rw [hbegins.eq_of_length hlength]

end Occurrences

variable {path id : String} {ssid : Option String}

/-- Whether the path begins with the path generated for an id. -/
def BeginsWith (path id : String) (ssid : Option String) : Prop :=
  (generated id ssid).toList <+: path.toList

theorem beginsWith_iff {rest : List Char} (h : path.toList = lead.toList ++ rest) :
    BeginsWith path id ssid ↔ id.toList ++ tail ssid <+: rest := by
  rw [BeginsWith, toList_generated, h, List.prefix_append_right_inj]

theorem exists_of_beginsWith (h : BeginsWith path id ssid) :
    ∃ rest, path.toList = lead.toList ++ rest := by
  rw [BeginsWith, toList_generated] at h
  obtain ⟨rest, hrest⟩ := (List.prefix_append _ _).trans h
  exact ⟨rest, hrest.symm⟩

/-- The id that is found is the longest of those whose generated path the path begins
with. -/
theorem definitionId?_eq_some_iff :
    definitionId? path ssid = some id ↔
      BeginsWith path id ssid ∧
        ∀ other, BeginsWith path other ssid → other.length ≤ id.length := by
  rw [definitionId?]
  cases hrest : afterStart? lead.toList path.toList with
  | none =>
    refine iff_of_false (fun h => nomatch h) (fun h => ?_)
    obtain ⟨rest, hlead⟩ := exists_of_beginsWith h.1
    rw [afterStart?_eq_some_iff.2 hlead] at hrest
    cases hrest
  | some rest =>
    have hlead := afterStart?_eq_some_iff.1 hrest
    simp only [beginsWith_iff hlead]
    have hid : (beforeLast? (tail ssid) rest).map String.ofList = some id ↔
        beforeLast? (tail ssid) rest = some id.toList := by
      rw [Option.map_eq_some_iff]
      constructor
      · rintro ⟨before, hbefore, rfl⟩
        rw [hbefore, String.toList_ofList]
      · intro h
        exact ⟨id.toList, h, String.ofList_toList⟩
    rw [hid, beforeLast?_eq_some_iff, and_congr_right_iff]
    intro _
    constructor
    · intro h other hother
      rw [← String.length_toList, ← String.length_toList]
      exact h other.toList hother
    · intro h other hother
      rw [← String.length_ofList, String.length_toList]
      exact h (String.ofList other) (by rwa [String.toList_ofList])

/-- The id of a generated path is the longest that it begins with. -/
theorem longest_generated (id : String) (ssid : Option String) :
    BeginsWith (generated id ssid) id ssid ∧
      ∀ other, BeginsWith (generated id ssid) other ssid → other.length ≤ id.length := by
  refine ⟨List.prefix_rfl, fun other hother => ?_⟩
  have hlength := hother.length_le
  simp only [toList_generated, List.length_append, String.length_toList] at hlength
  omega

/-- A path with the right end is the generated one for the id that is found: no later
place is left for the end that is looked for. -/
theorem eq_generated_of_suffix (hid : definitionId? path ssid = some id)
    (hend : tail ssid <:+ path.toList) : path = generated id ssid := by
  obtain ⟨hbegins, hlongest⟩ := definitionId?_eq_some_iff.1 hid
  obtain ⟨rest, hlead⟩ := exists_of_beginsWith hbegins
  have hoccurs := (beginsWith_iff hlead).1 hbegins
  have hlength : (tail ssid).length ≤ rest.length := by
    have := hoccurs.length_le
    rw [List.length_append] at this
    omega
  obtain ⟨before, hbefore⟩ : tail ssid <:+ rest :=
    List.suffix_of_suffix_length_le hend (hlead ▸ List.suffix_append _ _) hlength
  have hle := hlongest (String.ofList before) ((beginsWith_iff hlead).2 (by
    rw [String.toList_ofList, hbefore]))
  have hall : (id.toList ++ tail ssid).length = rest.length := by
    have hrest := hoccurs.length_le
    rw [← hbefore] at hrest ⊢
    simp only [List.length_append, String.length_toList, String.length_ofList] at hle hrest ⊢
    omega
  rw [← String.toList_inj, hlead, toList_generated, hoccurs.eq_of_length hall]

/-- Behind a path is found the longest of the ids whose generated path it begins with.
The path is the generated one just if it ends like one. -/
theorem definitionId?_iff_longest :
    (definitionId? path ssid = some id ↔
      BeginsWith path id ssid ∧
        ∀ other, BeginsWith path other ssid → other.length ≤ id.length) ∧
    (definitionId? path ssid = some id →
      (path = generated id ssid ↔ tail ssid <:+ path.toList)) := by
  refine ⟨definitionId?_eq_some_iff, fun hid => ⟨?_, eq_generated_of_suffix hid⟩⟩
  rintro rfl
  rw [toList_generated, ← List.append_assoc]
  exact List.suffix_append _ _

/-- Something is found behind the path of a copy, which is generated from nothing. -/
theorem definitionId?_copy :
    let copy := "/run/NetworkManager/system-connections/netplan-eth0.nmconnection~"
    definitionId? copy none = some "eth0" ∧ ∀ id, copy ≠ generated id none := by
  intro copy
  refine ⟨by decide +kernel, fun id hcopy => ?_⟩
  have hend : tail none <:+ copy.toList := by
    rw [hcopy, toList_generated, ← List.append_assoc]
    exact List.suffix_append _ _
  exact absurd hend (by decide +kernel)

/-- Behind the path generated for an id, that id is found. Names of networks are escaped
so that only unreserved characters, escapes and characters beyond ASCII are left, and the
names can be recovered: different names never make the same end of a path. -/
theorem definitionId?_generated (id : String) (ssid : Option String) :
    definitionId? (generated id ssid) ssid = some id ∧
    ∀ name, Text.PercentEncoded (Text.percentEncode name.toList) ∧
      Text.percentDecode (Text.percentEncode name.toList) = name.toList ∧
      ∀ other, tail (some other) = tail (some name) → other = name := by
  refine ⟨definitionId?_eq_some_iff.2 (longest_generated id ssid), fun name => ?_⟩
  refine ⟨Text.percentEncoded_percentEncode _, Text.percentDecode_percentEncode _, ?_⟩
  intro other htail
  have hencoded := List.append_cancel_right (List.cons.inj htail).2
  exact String.toList_inj.1 (Text.percentEncode_injective hencoded)

end ProfilePath

end NetProfile
