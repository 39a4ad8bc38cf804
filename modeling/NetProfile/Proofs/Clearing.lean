import Mathlib.Data.List.Basic
import NetProfile.Keyfile

/-!
# Clearing settings

What is left of a profile when settings are cleared one after the other. A group
keeps its settings that were not cleared, in order; it disappears when a setting of
it was named and none is left, whether or not that setting was there.

## Main definitions

- `OrderedMap.keep` — the entries whose keys satisfy a condition
- `Keyfile.clearAll` — clears settings one after the other
- `Keyfile.survivor?` — what is left of one group

## Main results

- `Keyfile.groups_clearAll` — the groups that are left
- `Keyfile.raw?_clearAll` — the settings that are left
-/

namespace NetProfile

namespace OrderedMap

variable {κ α : Type}

/-- The entries whose keys satisfy `p`. -/
def keep (m : OrderedMap κ α) (p : κ → Bool) : OrderedMap κ α :=
  ⟨m.toList.filter (fun entry => p entry.1),
    m.nodup_keys.sublist ((List.filter_sublist (l := m.toList)).map Prod.fst)⟩

@[simp]
theorem toList_keep (m : OrderedMap κ α) (p : κ → Bool) :
    (m.keep p).toList = m.toList.filter (fun entry => p entry.1) := rfl

theorem keep_keep (m : OrderedMap κ α) (p q : κ → Bool) :
    (m.keep p).keep q = m.keep (fun k => p k && q k) := by
  apply ext
  simp only [toList_keep, List.filter_filter]
  congr 1
  funext entry
  rw [Bool.and_comm]

theorem keep_of_all (m : OrderedMap κ α) {p : κ → Bool} (h : ∀ k, p k = true) : m.keep p = m := by
  apply ext
  rw [toList_keep]
  exact List.filter_eq_self.2 (fun entry _ => h entry.1)

section Lookup

variable [DecidableEq κ]

theorem erase_eq_keep (m : OrderedMap κ α) (k : κ) :
    m.erase k = m.keep (fun x => decide (x ≠ k)) := rfl

theorem not_mem_keys_of_lookup? {k : κ} {entries : List (κ × α)} (h : lookup? k entries = none) :
    k ∉ entries.map Prod.fst := by
  induction entries with
  | nil => exact List.not_mem_nil
  | cons entry rest ih =>
    rcases entry with ⟨k', a⟩
    by_cases hk : k' = k
    · rw [lookup?, if_pos hk] at h
      exact absurd h (Option.some_ne_none a)
    · rw [lookup?, if_neg hk] at h
      rw [List.map_cons, List.mem_cons, not_or]
      exact ⟨fun e => hk e.symm, ih h⟩

theorem mem_of_lookup? {k : κ} {a : α} {entries : List (κ × α)} (h : lookup? k entries = some a) :
    (k, a) ∈ entries := by
  induction entries with
  | nil => exact absurd h (by simp [lookup?])
  | cons entry rest ih =>
    rcases entry with ⟨k', a'⟩
    by_cases hk : k' = k
    · rw [lookup?, if_pos hk, Option.some.injEq] at h
      rw [hk, h]
      exact List.mem_cons_self
    · rw [lookup?, if_neg hk] at h
      exact List.mem_cons_of_mem _ (ih h)

theorem lookup?_of_mem {k : κ} {a : α} {entries : List (κ × α)}
    (hnodup : (entries.map Prod.fst).Nodup) (h : (k, a) ∈ entries) :
    lookup? k entries = some a := by
  induction entries with
  | nil => exact absurd h List.not_mem_nil
  | cons entry rest ih =>
    rcases entry with ⟨k', a'⟩
    rw [List.map_cons, List.nodup_cons] at hnodup
    rcases List.mem_cons.1 h with he | hrest
    · cases he
      simp [lookup?]
    · have hne : k' ≠ k := by
        rintro rfl
        exact hnodup.1 (List.mem_map.2 ⟨(k', a), hrest, rfl⟩)
      rw [lookup?, if_neg hne]
      exact ih hnodup.2 hrest

theorem find?_of_mem {m : OrderedMap κ α} {k : κ} {a : α} (h : (k, a) ∈ m.toList) :
    m.find? k = some a :=
  lookup?_of_mem m.nodup_keys h

/-- A key that is listed takes a new value in its place. -/
theorem putEntry_eq_map {k : κ} (a : α) {entries : List (κ × α)}
    (hnodup : (entries.map Prod.fst).Nodup) (h : k ∈ entries.map Prod.fst) :
    putEntry k a entries = entries.map (fun entry => if entry.1 = k then (k, a) else entry) := by
  induction entries with
  | nil => exact absurd h List.not_mem_nil
  | cons entry rest ih =>
    rcases entry with ⟨k', a'⟩
    rw [List.map_cons, List.nodup_cons] at hnodup
    by_cases hk : k' = k
    · subst hk
      have hrest : rest.map (fun entry => if entry.1 = k' then (k', a) else entry) = rest := by
        rw [List.map_congr_left (g := id), List.map_id]
        intro entry hentry
        rw [if_neg]
        · rfl
        · rintro rfl
          exact hnodup.1 (List.mem_map.2 ⟨entry, hentry, rfl⟩)
      rw [putEntry, if_pos rfl, List.map_cons, if_pos rfl, hrest]
    · rw [List.map_cons, List.mem_cons] at h
      have hmem : k ∈ rest.map Prod.fst := h.resolve_left (fun e => hk e.symm)
      rw [putEntry, if_neg hk, List.map_cons, if_neg hk, ih hnodup.2 hmem]

end Lookup

end OrderedMap

namespace Keyfile

/-- A group with its name. -/
abbrev Group := String × OrderedMap String String

/-- Clears settings one after the other. -/
def clearAll (kf : Keyfile) (settings : List (String × String)) : Keyfile :=
  settings.foldl (fun kf setting => kf.clear setting.1 setting.2) kf

/-- Whether a setting of the group is among those named. -/
def names (settings : List (String × String)) (group : String) : Bool :=
  settings.any (fun setting => setting.1 == group)

/-- The settings of a group that are not among those named. -/
def unnamed (settings : List (String × String)) (group : Group) : OrderedMap String String :=
  group.2.keep (fun key => !settings.contains (group.1, key))

/-- What is left of a group when settings are cleared. -/
def survivor? (settings : List (String × String)) (group : Group) : Option Group :=
  if names settings group.1 && (unnamed settings group).isEmpty then none
  else some (group.1, unnamed settings group)

theorem clearAll_append (kf : Keyfile) (ss ts : List (String × String)) :
    kf.clearAll (ss ++ ts) = (kf.clearAll ss).clearAll ts :=
  List.foldl_append

theorem clearAll_singleton (kf : Keyfile) (group key : String) :
    kf.clearAll [(group, key)] = kf.clear group key := rfl

theorem unnamed_of_not_names {settings : List (String × String)} {group : Group}
    (h : names settings group.1 = false) : unnamed settings group = group.2 := by
  apply OrderedMap.keep_of_all
  intro key
  rw [names, List.any_eq_false] at h
  rw [Bool.not_eq_true', ← Bool.not_eq_true, List.contains_iff_mem]
  exact fun hmem => h _ hmem (beq_self_eq_true _)

theorem names_append (ss ts : List (String × String)) (group : String) :
    names (ss ++ ts) group = (names ss group || names ts group) :=
  List.any_append

/-- What two goes leave of a group is what they leave together. -/
theorem survivor?_append (ss ts : List (String × String)) (group : Group) :
    (survivor? ss group).bind (survivor? ts) = survivor? (ss ++ ts) group := by
  have hunnamed : unnamed ts (group.1, unnamed ss group) = unnamed (ss ++ ts) group := by
    rw [unnamed, unnamed, unnamed, OrderedMap.keep_keep]
    simp only [List.contains_append, Bool.not_or]
  unfold survivor?
  rw [names_append]
  by_cases hss : names ss group.1 && (unnamed ss group).isEmpty
  · -- Nothing was left, so nothing is left of that.
    have hempty : (unnamed (ss ++ ts) group).isEmpty = true := by
      rw [Bool.and_eq_true] at hss
      have hnil : (unnamed ss group).toList = [] := List.isEmpty_iff.1 hss.2
      rw [← hunnamed, OrderedMap.isEmpty, unnamed, OrderedMap.toList_keep, hnil]
      rfl
    rw [if_pos hss]
    rw [Bool.and_eq_true] at hss
    simp [hss.1, hempty]
  · rw [if_neg hss, Option.bind_some, hunnamed]
    by_cases hts : names ts group.1
    · simp [hts]
    · have hsame : unnamed (ss ++ ts) group = unnamed ss group := by
        rw [← hunnamed]
        exact unnamed_of_not_names (by simpa using hts)
      simp only [hts, Bool.false_and, Bool.false_eq_true, if_false, Bool.or_false, hsame, if_neg hss]

theorem survivor?_singleton_of_ne {group key : String} {g : Group} (h : g.1 ≠ group) :
    survivor? [(group, key)] g = some g := by
  have hnames : names [(group, key)] g.1 = false := by
    simpa [names] using fun e => h e.symm
  rw [survivor?, hnames, Bool.false_and, if_neg Bool.false_ne_true, unnamed_of_not_names hnames]

theorem survivor?_singleton_self (group key : String) (entries : OrderedMap String String) :
    survivor? [(group, key)] (group, entries) =
      if (entries.erase key).isEmpty then none else some (group, entries.erase key) := by
  have hunnamed : unnamed [(group, key)] (group, entries) = entries.erase key := by
    rw [unnamed, OrderedMap.erase_eq_keep]
    congr 1
    funext x
    by_cases hx : x = key
    · simp [hx]
    · simp [hx]
  have hnames : names [(group, key)] group = true := by simp [names]
  rw [survivor?, hnames, hunnamed, Bool.true_and]

/-- Clearing one setting leaves of each group what survives. -/
theorem groups_clear (kf : Keyfile) (group key : String) :
    (kf.clear group key).groups.toList = kf.groups.toList.filterMap (survivor? [(group, key)]) := by
  have hnodup := kf.groups.nodup_keys
  rw [clear, remove]
  cases hfind : kf.groups.find? group with
  | none =>
    have habsent := OrderedMap.not_mem_keys_of_lookup? hfind
    symm
    rw [List.filterMap_congr (g := some), List.filterMap_some]
    intro g hg
    apply survivor?_singleton_of_ne
    rintro rfl
    exact habsent (List.mem_map_of_mem hg)
  | some entries =>
    have hgroup : ∀ g ∈ kf.groups.toList, g.1 = group → g = (group, entries) := by
      rintro ⟨name, es⟩ hg rfl
      rw [OrderedMap.find?_of_mem hg, Option.some.injEq] at hfind
      rw [hfind]
    have hpresent : group ∈ kf.groups.toList.map Prod.fst :=
      List.mem_map_of_mem (OrderedMap.mem_of_lookup? hfind)
    -- The group goes with its last setting, and otherwise takes its new settings in place.
    by_cases hempty : (entries.erase key).isEmpty = true
    · simp only [hempty, if_true, OrderedMap.toList_erase, OrderedMap.dropEntry]
      rw [← List.filterMap_eq_filter]
      apply List.filterMap_congr
      intro g hg
      by_cases hne : g.1 = group
      · rw [hgroup g hg hne, survivor?_singleton_self, if_pos hempty]
        simp [Option.guard]
      · rw [survivor?_singleton_of_ne hne]
        simp [Option.guard, hne]
    · simp only [hempty, Bool.false_eq_true, if_false, OrderedMap.toList_insert]
      rw [OrderedMap.putEntry_eq_map _ hnodup hpresent, ← List.filterMap_eq_map]
      apply List.filterMap_congr
      intro g hg
      by_cases hne : g.1 = group
      · rw [Function.comp, if_pos hne, hgroup g hg hne, survivor?_singleton_self, if_neg hempty]
      · rw [Function.comp, if_neg hne, survivor?_singleton_of_ne hne]

/-- Clearing settings one after the other leaves of each group what survives all of
them, and the groups that are left keep their order. -/
theorem groups_clearAll (kf : Keyfile) (settings : List (String × String)) :
    (kf.clearAll settings).groups.toList = kf.groups.toList.filterMap (survivor? settings) := by
  induction settings generalizing kf with
  | nil =>
    symm
    rw [List.filterMap_congr (g := some), List.filterMap_some]
    · rfl
    · intro g _
      rw [survivor?, names, List.any_nil, Bool.false_and, if_neg Bool.false_ne_true,
        unnamed_of_not_names rfl]
  | cons setting rest ih =>
    show ((kf.clear setting.1 setting.2).clearAll rest).groups.toList = _
    rw [ih, groups_clear, List.filterMap_filterMap]
    congr 1
    funext g
    exact survivor?_append [setting] rest g

/-- Cleared settings are found no more, and all others are found as before. -/
theorem raw?_clearAll (kf : Keyfile) (settings : List (String × String)) (group key : String) :
    (kf.clearAll settings).raw? group key =
      if (group, key) ∈ settings then none else kf.raw? group key := by
  induction settings generalizing kf with
  | nil => simp [clearAll]
  | cons setting rest ih =>
    show ((kf.clear setting.1 setting.2).clearAll rest).raw? group key = _
    rw [ih, raw?_clear]
    by_cases hrest : (group, key) ∈ rest
    · simp [hrest]
    · by_cases hset : group = setting.1 ∧ key = setting.2
      · simp [hset]
      · have hne : (group, key) ≠ setting := fun e => hset ⟨congrArg Prod.fst e, congrArg Prod.snd e⟩
        simp [hrest, hset, hne]

/-- A group of which nothing is cleared is there exactly when it was. -/
theorem hasGroup_clearAll_of_not_names (kf : Keyfile) {settings : List (String × String)}
    {group : String} (h : names settings group = false) :
    (kf.clearAll settings).hasGroup group = kf.hasGroup group := by
  induction settings generalizing kf with
  | nil => rfl
  | cons setting rest ih =>
    rw [names, List.any_cons, Bool.or_eq_false_iff] at h
    show ((kf.clear setting.1 setting.2).clearAll rest).hasGroup group = _
    rw [ih _ h.2]
    have hne : group ≠ setting.1 := by
      rintro rfl
      simp at h
    have hne' : setting.1 ≠ group := fun e => hne e.symm
    rw [hasGroup, hasGroup, OrderedMap.contains, OrderedMap.contains, clear, remove]
    cases hfind : kf.groups.find? setting.1 with
    | none => rfl
    | some entries =>
      by_cases hempty : (entries.erase setting.2).isEmpty = true
      · simp [hempty, OrderedMap.find?_erase, hne]
      · simp [hempty, OrderedMap.find?_insert, hne']

end Keyfile

end NetProfile
