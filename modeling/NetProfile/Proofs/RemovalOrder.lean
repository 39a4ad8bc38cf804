import Mathlib.Data.List.Nodup
import NetProfile.Proofs.Clearing

/-!
# Removals in any order

Settings are removed one after the other, and each removal tells whether the setting
was there. A removal that finds nothing may still take an empty group away, so two
removals are not independent at a glance. What is left of a group is nevertheless read
off the group and the settings named (`survivor?`), and neither order nor repetition
has a place in that.

## Main definitions

- `Keyfile.removeAll` — removes settings one after the other and keeps the answers
- `Keyfile.settingNames` — the settings of a profile

## Main results

- `Keyfile.settingNames_clearAll` — the settings that are left
- `Keyfile.count_removeAll` — each answer of yes stands for one setting less
- `Keyfile.removeAll_of_same_settings` — what is left, and what the answers are
-/

namespace NetProfile

namespace Keyfile

/-- Removes settings one after the other and tells of each whether it was there. -/
def removeAll (kf : Keyfile) : List (String × String) → List Bool × Keyfile
  | [] => ([], kf)
  | (group, key) :: rest =>
    let (present, left) := kf.remove group key
    let (answers, final) := left.removeAll rest
    (present :: answers, final)

/-- The settings in file order, each as its group and its key. -/
def settingNames (kf : Keyfile) : List (String × String) :=
  kf.groups.toList.flatMap (fun group => group.2.keys.map (fun key => (group.1, key)))

section Names

variable {kf : Keyfile} {ss ts : List (String × String)} {group key : String}

theorem find?_groups {g : Group} (h : g ∈ kf.groups.toList) :
    kf.groups.find? g.1 = some g.2 :=
  OrderedMap.find?_of_mem h

theorem settings_of_mem {g : Group} (h : g ∈ kf.groups.toList) : kf.settings g.1 = g.2 := by
  rw [settings, find?_groups h, Option.getD_some]

theorem mem_settingNames : (group, key) ∈ kf.settingNames ↔ kf.hasKey group key = true := by
  simp only [settingNames, List.mem_flatMap, List.mem_map, Prod.mk.injEq]
  constructor
  · rintro ⟨g, hg, k, hk, rfl, rfl⟩
    obtain ⟨entry, hentry, rfl⟩ := List.mem_map.1 hk
    rw [hasKey, raw?, find?_groups hg, Option.bind_some, OrderedMap.find?_of_mem hentry]
    rfl
  · intro h
    obtain ⟨value, hvalue⟩ := Option.isSome_iff_exists.1 h
    obtain ⟨entries, hentries, hfind⟩ := Option.bind_eq_some_iff.1 hvalue
    exact ⟨(group, entries), OrderedMap.mem_of_lookup? hentries, key,
      List.mem_map_of_mem (OrderedMap.mem_of_lookup? hfind), rfl, rfl⟩

theorem nodup_settingNames (kf : Keyfile) : kf.settingNames.Nodup := by
  refine List.nodup_flatMap.2 ⟨fun g _ => ?_, ?_⟩
  · exact g.2.nodup_keys.map (fun k k' h => (Prod.mk.inj h).2)
  · -- Settings of two groups differ in their groups.
    refine (List.pairwise_map.1 kf.groups.nodup_keys).imp ?_
    intro g g' hne s hs hs'
    obtain ⟨k, -, rfl⟩ := List.mem_map.1 hs
    obtain ⟨k', -, he⟩ := List.mem_map.1 hs'
    exact hne (congrArg Prod.fst he).symm

theorem keys_unnamed (ss : List (String × String)) (g : Group) :
    (unnamed ss g).keys = g.2.keys.filter (fun k => !ss.contains (g.1, k)) := by
  rw [OrderedMap.keys, OrderedMap.keys, List.filter_map]
  rfl

theorem isEmpty_unnamed (ss : List (String × String)) (g : Group) :
    (unnamed ss g).isEmpty = g.2.keys.all (fun key => ss.contains (g.1, key)) := by
  rw [Bool.eq_iff_iff]
  simp [unnamed, OrderedMap.isEmpty, OrderedMap.keys]

/-- What is left of a group when settings are removed has the keys that were not named,
also when nothing is left of it. -/
theorem keys_survivor? (ss : List (String × String)) (g : Group) :
    (survivor? ss g).toList.flatMap (fun g => g.2.keys.map (fun key => (g.1, key))) =
      (g.2.keys.map (fun key => (g.1, key))).filter (fun s => !ss.contains s) := by
  have hkeys : (g.2.keys.map (fun key => (g.1, key))).filter (fun s => !ss.contains s) =
      (unnamed ss g).keys.map (fun key => (g.1, key)) := by
    rw [keys_unnamed, List.filter_map]
    rfl
  rw [hkeys, survivor?]
  by_cases hgone : (names ss g.1 && (unnamed ss g).isEmpty) = true
  · have hempty : (unnamed ss g).toList = [] :=
      List.isEmpty_iff.1 (Bool.and_eq_true_iff.1 hgone).2
    rw [if_pos hgone, OrderedMap.keys, hempty]
    rfl
  · rw [if_neg hgone, Option.toList_some, List.flatMap_singleton]

/-- The settings that are left are those that were not named, in their old order. -/
theorem settingNames_clearAll (kf : Keyfile) (ss : List (String × String)) :
    (kf.clearAll ss).settingNames = kf.settingNames.filter (fun s => !ss.contains s) := by
  rw [settingNames, settingNames, groups_clearAll]
  induction kf.groups.toList with
  | nil => rfl
  | cons g rest ih =>
    rw [List.flatMap_cons, List.filter_append, ← ih, ← keys_survivor?, List.filterMap_cons]
    cases survivor? ss g with
    | none => rfl
    | some left => rw [Option.toList_some, List.flatMap_singleton, List.flatMap_cons]

/-- The groups that are left, in their old order: one goes when a setting of it was
named and all its settings were. -/
theorem groupNames_clearAll (kf : Keyfile) (ss : List (String × String)) :
    (kf.clearAll ss).groupNames =
      kf.groupNames.filter (fun group =>
        !(names ss group && (kf.keys group).all (fun key => ss.contains (group, key)))) := by
  rw [groupNames, groupNames, OrderedMap.keys, OrderedMap.keys, groups_clearAll, List.map_filterMap,
    List.filter_map, ← List.filterMap_eq_filter, List.map_filterMap]
  apply List.filterMap_congr
  intro g hg
  simp only [Option.guard, Function.comp_apply, keys, settings_of_mem hg, survivor?, isEmpty_unnamed]
  cases names ss g.1 && g.2.keys.all (fun key => ss.contains (g.1, key)) with
  | true => rfl
  | false => rfl

/-- A group that is left has its settings that were not named, in their old order. -/
theorem settings_clearAll {group : String} (h : group ∈ (kf.clearAll ss).groupNames) :
    ((kf.clearAll ss).settings group).toList =
      (kf.settings group).toList.filter (fun entry => !ss.contains (group, entry.1)) := by
  obtain ⟨left, hleft, rfl⟩ := List.mem_map.1 h
  have hmem := hleft
  rw [groups_clearAll] at hmem
  obtain ⟨g, hg, hsurvivor⟩ := List.mem_filterMap.1 hmem
  obtain ⟨-, rfl⟩ : _ ∧ (g.1, unnamed ss g) = left := by
    simpa [survivor?] using hsurvivor
  rw [settings_of_mem hleft, settings_of_mem hg]
  rfl

end Names

/-- The settings that are gone are those that are found no more. -/
theorem length_gone (kf : Keyfile) (ss : List (String × String)) :
    (kf.clearAll ss).settingNames.length +
        (kf.settingNames.filter (fun s => !(kf.clearAll ss).hasKey s.1 s.2)).length =
      kf.settingNames.length := by
  have hfound : ∀ s ∈ kf.settingNames, (kf.clearAll ss).hasKey s.1 s.2 = !ss.contains s := by
    rintro ⟨group, key⟩ hs
    rw [hasKey, raw?_clearAll]
    by_cases hnamed : (group, key) ∈ ss
    · simp [hnamed]
    · simpa [hnamed, hasKey] using mem_settingNames.1 hs
  rw [settingNames_clearAll, ← List.filter_congr hfound]
  exact (List.length_eq_length_filter_add _).symm

/-! ### One removal after the other -/

theorem snd_removeAll (kf : Keyfile) (ss : List (String × String)) :
    (kf.removeAll ss).2 = kf.clearAll ss := by
  induction ss generalizing kf with
  | nil => rfl
  | cons s rest ih => exact ih (kf.clear s.1 s.2)

/-- Each removal tells whether the setting was there when its turn came. -/
theorem fst_removeAll (kf : Keyfile) (ss : List (String × String)) :
    (kf.removeAll ss).1 =
      ss.mapIdx (fun i s => (kf.removeAll (ss.take i)).2.hasKey s.1 s.2) := by
  induction ss generalizing kf with
  | nil => rfl
  | cons s rest ih =>
    rw [List.mapIdx_cons]
    exact congrArg₂ List.cons (kf.fst_remove s.1 s.2) (ih (kf.clear s.1 s.2))

/-- A removal takes one setting away when it says that it was there, and none otherwise. -/
theorem length_settingNames_clear (kf : Keyfile) (group key : String) :
    (kf.clear group key).settingNames.length + (kf.hasKey group key).toNat =
      kf.settingNames.length := by
  have hleft : (kf.clear group key).settingNames = kf.settingNames.erase (group, key) := by
    rw [kf.nodup_settingNames.erase_eq_filter, ← clearAll_singleton, settingNames_clearAll]
    apply List.filter_congr
    intro s _
    by_cases hs : s = (group, key)
    · simp [hs]
    · simp [hs]
  rw [hleft, List.length_erase]
  by_cases hmem : (group, key) ∈ kf.settingNames
  · have hpos := List.length_pos_of_mem hmem
    rw [if_pos hmem, mem_settingNames.1 hmem, Bool.toNat_true]
    omega
  · have habsent : kf.hasKey group key = false := by simpa using mt mem_settingNames.2 hmem
    rw [if_neg hmem, habsent, Bool.toNat_false, Nat.add_zero]

/-- Over a whole run each answer of yes stands for one setting less. -/
theorem count_removeAll (kf : Keyfile) (ss : List (String × String)) :
    (kf.removeAll ss).2.settingNames.length + (kf.removeAll ss).1.count true =
      kf.settingNames.length := by
  induction ss generalizing kf with
  | nil => rfl
  | cons s rest ih =>
    have hstep := kf.length_settingNames_clear s.1 s.2
    have hrun := ih (kf.clear s.1 s.2)
    have hanswers : (kf.removeAll (s :: rest)).1 =
        kf.hasKey s.1 s.2 :: ((kf.clear s.1 s.2).removeAll rest).1 :=
      congrArg (List.cons · _) (kf.fst_remove s.1 s.2)
    have hfinal : (kf.removeAll (s :: rest)).2 = ((kf.clear s.1 s.2).removeAll rest).2 := rfl
    rw [hanswers, hfinal, List.count_cons]
    cases hkey : kf.hasKey s.1 s.2 with
    | false =>
      rw [hkey, Bool.toNat_false] at hstep
      simp
      omega
    | true =>
      rw [hkey, Bool.toNat_true] at hstep
      simp
      omega

/-- Two lists of removals that name the same settings leave the same profile. -/
theorem clearAll_congr (kf : Keyfile) {ss ts : List (String × String)}
    (h : ∀ s, s ∈ ss ↔ s ∈ ts) : kf.clearAll ss = kf.clearAll ts := by
  have hcontains : ∀ s, ss.contains s = ts.contains s := fun s => by
    rw [Bool.eq_iff_iff, List.contains_iff_mem, List.contains_iff_mem, h]
  have hnames : ∀ group, names ss group = names ts group := fun group => by
    rw [Bool.eq_iff_iff, names, names, List.any_eq_true, List.any_eq_true]
    simp only [h]
  have hsurvivor : survivor? ss = survivor? ts := by
    funext g
    rw [survivor?, survivor?, unnamed, unnamed, hnames]
    simp only [hcontains]
  have hgroups : (kf.clearAll ss).groups = (kf.clearAll ts).groups := by
    apply OrderedMap.ext
    rw [groups_clearAll, groups_clearAll, hsurvivor]
  exact congrArg Keyfile.mk hgroups

/-- What removals leave of a profile depends on which settings are named and on nothing
else. Groups and settings keep their order; a setting goes when it is named, and a
group goes when a setting of it is named, whether or not it was there, and all its
settings are. Each answer tells whether the setting was still there, so that there are
as many answers of yes as settings that went. -/
theorem removeAll_of_same_settings (kf : Keyfile) {ss ts : List (String × String)}
    (h : ∀ s, s ∈ ss ↔ s ∈ ts) :
    let left := (kf.removeAll ss).2
    (kf.removeAll ts).2 = left ∧
    left.groupNames =
      kf.groupNames.filter (fun group =>
        !(ss.any (fun s => s.1 == group) &&
          (kf.keys group).all (fun key => ss.contains (group, key)))) ∧
    (∀ group ∈ left.groupNames,
      (left.settings group).toList =
        (kf.settings group).toList.filter (fun entry => !ss.contains (group, entry.1))) ∧
    (kf.removeAll ss).1 =
      ss.mapIdx (fun i s => (kf.removeAll (ss.take i)).2.hasKey s.1 s.2) ∧
    (kf.removeAll ss).1.count true =
      (kf.settingNames.filter (fun s => !left.hasKey s.1 s.2)).length ∧
    (kf.removeAll ts).1.count true = (kf.removeAll ss).1.count true := by
  have hsame : (kf.removeAll ts).2 = (kf.removeAll ss).2 := by
    rw [snd_removeAll, snd_removeAll, kf.clearAll_congr h]
  have hcount := kf.count_removeAll ss
  have hcount' := kf.count_removeAll ts
  refine ⟨hsame, ?_, ?_, kf.fst_removeAll ss, ?_, ?_⟩
  · rw [snd_removeAll]
    exact kf.groupNames_clearAll ss
  · rw [snd_removeAll]
    intro group hgroup
    exact settings_clearAll hgroup
  · have hgone := kf.length_gone ss
    rw [snd_removeAll] at hcount ⊢
    omega
  · rw [hsame] at hcount'
    omega

/-- Two groups with settings between two without. -/
def fourGroups : Keyfile :=
  ⟨OrderedMap.ofList [("proxy", ∅), ("wifi", OrderedMap.ofList [("ssid", "net"), ("mode", "ap")]),
    ("gsm", OrderedMap.ofList [("pin", "1")]), ("ipv4", ∅)]⟩

/-- An absent setting takes its empty group away; a repeated removal finds nothing. -/
theorem removeAll_fourGroups :
    let ss := [("gsm", "pin"), ("ipv4", "dns"), ("wifi", "mode"), ("gsm", "pin")]
    let ts := [("ipv4", "dns"), ("ipv4", "dns"), ("gsm", "pin"), ("wifi", "mode")]
    (∀ s, s ∈ ss ↔ s ∈ ts) ∧
    (fourGroups.removeAll ts).2 = (fourGroups.removeAll ss).2 ∧
    (fourGroups.removeAll ss).2.groupNames = ["proxy", "wifi"] ∧
    (fourGroups.removeAll ss).1 = [true, false, true, false] ∧
    (fourGroups.removeAll ts).1.count true = 2 := by
  intro ss ts
  have hsame : ∀ s, s ∈ ss ↔ s ∈ ts := by
    intro s
    simp only [ss, ts, List.mem_cons, List.not_mem_nil]
    tauto
  obtain ⟨hleft, -, -, -, -, hcount⟩ := fourGroups.removeAll_of_same_settings hsame
  refine ⟨hsame, hleft, by decide +kernel, by decide +kernel, ?_⟩
  rw [hcount]
  decide +kernel

end Keyfile

end NetProfile
