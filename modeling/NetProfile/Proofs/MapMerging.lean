import Mathlib.Data.List.Induction
import NetProfile.Proofs.Clearing

/-!
# Taking up entries

What a map holds once the entries of a list or of another map have been inserted one
after the other: keys that were there keep their places, new keys follow in order, and of
several values under one key the last one stays.

## Main results

- `OrderedMap.insertMany_insertMany` — taking up a map is taking up what went into it
- `OrderedMap.keys_insertMany`, `OrderedMap.find?_insertMany` — the keys and the values then
- `OrderedMap.mem_ofList_split` — the last value under a key
- `OrderedMap.keys_ofList`, `OrderedMap.find?_ofList` — what entries with repeated keys make
- `OrderedMap.mapValues_ofList`, `OrderedMap.filter_ofList` — changes before and after
-/

namespace NetProfile

theorem eraseDups_concat {α : Type} [DecidableEq α] (xs : List α) (x : α) :
    (xs ++ [x]).eraseDups = if x ∈ xs then xs.eraseDups else xs.eraseDups ++ [x] := by
  rw [List.eraseDups_append]
  by_cases h : x ∈ xs
  · simp [h, List.removeAll]
  · simp [h, List.removeAll, List.eraseDups_cons]

namespace OrderedMap

variable {κ α : Type} [DecidableEq κ] {k x : κ} {m : OrderedMap κ α} {entries : List (κ × α)}

theorem lookup?_of_not_mem (h : k ∉ entries.map Prod.fst) : lookup? k entries = none := by
  cases hfind : lookup? k entries with
  | none => rfl
  | some a => exact absurd (List.mem_map_of_mem (mem_of_lookup? hfind)) h

theorem mem_of_mem_putEntry {a : α} {entry : κ × α} (h : entry ∈ putEntry k a entries) :
    entry = (k, a) ∨ entry ∈ entries := by
  induction entries with
  | nil => exact Or.inl (List.mem_singleton.1 h)
  | cons first rest ih =>
    rw [putEntry] at h
    split at h
    · rcases List.mem_cons.1 h with rfl | hrest
      · exact Or.inl rfl
      · exact Or.inr (List.mem_cons_of_mem _ hrest)
    · rcases List.mem_cons.1 h with rfl | hrest
      · exact Or.inr List.mem_cons_self
      · exact (ih hrest).imp_right (List.mem_cons_of_mem _)

theorem mem_of_mem_insertMany {entry : κ × α} (h : entry ∈ (m.insertMany entries).toList) :
    entry ∈ m.toList ∨ entry ∈ entries := by
  induction entries generalizing m with
  | nil => exact Or.inl h
  | cons first rest ih =>
    rcases ih (m := m.insert first.1 first.2) h with hput | hrest
    · rcases mem_of_mem_putEntry hput with rfl | hold
      · exact Or.inr List.mem_cons_self
      · exact Or.inl hold
    · exact Or.inr (List.mem_cons_of_mem _ hrest)

/-- Of two values put under a key the second stays. -/
theorem putEntry_putEntry_self (k : κ) (a b : α) (entries : List (κ × α)) :
    putEntry k b (putEntry k a entries) = putEntry k b entries := by
  induction entries with
  | nil => simp [putEntry]
  | cons first rest ih =>
    rcases first with ⟨k', a'⟩
    by_cases h : k' = k
    · simp [putEntry, h]
    · simp [putEntry, h, ih]

theorem putEntry_concat (a b : α) (h : k ∉ entries.map Prod.fst) :
    putEntry k a (entries ++ [(k, b)]) = entries ++ [(k, a)] := by
  induction entries with
  | nil => simp [putEntry]
  | cons entry rest ih =>
    rw [List.map_cons, List.mem_cons, not_or] at h
    rw [List.cons_append, putEntry, if_neg (fun e => h.1 e.symm), ih h.2]
    rfl

/-- A key that is listed may take its new value before or after another key. -/
theorem putEntry_comm {a b : α} (hne : k ≠ x) (h : k ∈ entries.map Prod.fst) :
    putEntry k a (putEntry x b entries) = putEntry x b (putEntry k a entries) := by
  induction entries with
  | nil => exact absurd h List.not_mem_nil
  | cons first rest ih =>
    rcases first with ⟨k', a'⟩
    by_cases hk : k' = k
    · subst hk
      simp [putEntry, hne]
    · rw [List.map_cons, List.mem_cons] at h
      have hrest : k ∈ rest.map Prod.fst := h.resolve_left (fun e => hk e.symm)
      by_cases hx : k' = x
      · subst hx
        simp [putEntry, hk]
      · simp [putEntry, hk, hx, ih hrest]

theorem mem_keys_insert {a : α} : x ∈ (m.insert k a).keys ↔ x = k ∨ x ∈ m.keys :=
  mem_keys_putEntry

theorem mem_keys_insertMany :
    x ∈ (m.insertMany entries).keys ↔ x ∈ m.keys ∨ x ∈ entries.map Prod.fst := by
  induction entries generalizing m with
  | nil => simp [insertMany]
  | cons entry rest ih =>
    show x ∈ ((m.insert entry.1 entry.2).insertMany rest).keys ↔ _
    rw [ih, mem_keys_insert, List.map_cons, List.mem_cons, or_assoc, or_left_comm]

/-- A key that is there may take its new value before or after other keys. -/
theorem insert_insertMany {a : α} (hm : k ∈ m.keys) (hk : k ∉ entries.map Prod.fst) :
    (m.insertMany entries).insert k a = (m.insert k a).insertMany entries := by
  induction entries generalizing m with
  | nil => rfl
  | cons first rest ih =>
    rw [List.map_cons, List.mem_cons, not_or] at hk
    have hcomm : (m.insert first.1 first.2).insert k a = (m.insert k a).insert first.1 first.2 :=
      ext (putEntry_comm hk.1 hm)
    have hstep := ih (m := m.insert first.1 first.2) (mem_keys_insert.2 (Or.inr hm)) hk.2
    rw [hcomm] at hstep
    exact hstep

/-- Taking up entries with one more put is taking up the entries, and then that one. -/
theorem insertMany_putEntry (m : OrderedMap κ α) (k : κ) (a : α)
    (hnodup : (entries.map Prod.fst).Nodup) :
    m.insertMany (putEntry k a entries) = (m.insertMany entries).insert k a := by
  induction entries generalizing m with
  | nil => rfl
  | cons first rest ih =>
    rcases first with ⟨k', a'⟩
    rw [List.map_cons, List.nodup_cons] at hnodup
    by_cases h : k' = k
    · -- The first value goes in early and is replaced late; the key keeps its place.
      subst h
      have htwice : (m.insert k' a').insert k' a = m.insert k' a :=
        ext (putEntry_putEntry_self k' a' a m.toList)
      have hlate := insert_insertMany (m := m.insert k' a') (a := a)
        (mem_keys_insert.2 (Or.inl rfl)) hnodup.1
      rw [htwice] at hlate
      rw [putEntry, if_pos rfl]
      exact hlate.symm
    · rw [putEntry, if_neg h]
      exact ih (m.insert k' a') hnodup.2

/-- Taking up a map is taking up what went into it, one after the other. -/
theorem insertMany_insertMany (m n : OrderedMap κ α) (entries : List (κ × α)) :
    m.insertMany (n.insertMany entries).toList = (m.insertMany n.toList).insertMany entries := by
  induction entries generalizing n with
  | nil => rfl
  | cons first rest ih =>
    have hput : m.insertMany (n.insert first.1 first.2).toList =
        (m.insertMany n.toList).insert first.1 first.2 :=
      insertMany_putEntry m first.1 first.2 n.nodup_keys
    have hstep := ih (n.insert first.1 first.2)
    rw [hput] at hstep
    exact hstep

theorem keys_insert (m : OrderedMap κ α) (k : κ) (a : α) :
    (m.insert k a).keys = if k ∈ m.keys then m.keys else m.keys ++ [k] := by
  by_cases h : k ∈ m.keys
  · rw [if_pos h, keys, toList_insert, putEntry_eq_map a m.nodup_keys h, List.map_map]
    apply List.map_congr_left
    intro entry _
    rw [Function.comp]
    split
    · next he => exact he.symm
    · rfl
  · rw [if_neg h, keys, toList_insert, putEntry_of_not_mem a h, List.map_append]
    rfl

/-- Keys that are there keep their places, and new keys follow in order. -/
theorem keys_insertMany (m : OrderedMap κ α) (hnodup : (entries.map Prod.fst).Nodup) :
    (m.insertMany entries).keys =
      m.keys ++ (entries.map Prod.fst).filter (fun k => decide (k ∉ m.keys)) := by
  induction entries generalizing m with
  | nil => exact (List.append_nil _).symm
  | cons first rest ih =>
    rcases first with ⟨k, a⟩
    rw [List.map_cons, List.nodup_cons] at hnodup
    show ((m.insert k a).insertMany rest).keys = _
    rw [ih (m.insert k a) hnodup.2, keys_insert, List.map_cons, List.filter_cons]
    by_cases h : k ∈ m.keys
    · simp [h]
    · -- The key just appended is not among the keys still to come.
      have hrest : (rest.map Prod.fst).filter (fun x => decide (x ∉ m.keys ++ [k])) =
          (rest.map Prod.fst).filter (fun x => decide (x ∉ m.keys)) := by
        apply List.filter_congr
        intro x hx
        have hne : x ≠ k := fun e => hnodup.1 (e ▸ hx)
        simp [hne]
      rw [if_neg h, hrest]
      simp [h]

/-- Values taken up hide those that were there. -/
theorem find?_insertMany (m : OrderedMap κ α) (hnodup : (entries.map Prod.fst).Nodup) (k : κ) :
    (m.insertMany entries).find? k = (lookup? k entries).or (m.find? k) := by
  induction entries generalizing m with
  | nil => rfl
  | cons first rest ih =>
    rcases first with ⟨k', a⟩
    rw [List.map_cons, List.nodup_cons] at hnodup
    show ((m.insert k' a).insertMany rest).find? k = _
    rw [ih (m.insert k' a) hnodup.2, find?_insert, lookup?]
    by_cases h : k' = k
    · subst h
      simp [lookup?_of_not_mem hnodup.1]
    · simp [h]

theorem find?_insertMany_of_not_mem (h : k ∉ entries.map Prod.fst) :
    (m.insertMany entries).find? k = m.find? k := by
  induction entries generalizing m with
  | nil => rfl
  | cons entry rest ih =>
    rw [List.map_cons, List.mem_cons, not_or] at h
    show ((m.insert entry.1 entry.2).insertMany rest).find? k = _
    rw [ih h.2, find?_insert, if_neg (fun e => h.1 e.symm)]

/-- Of the entries under a key the last one stays. -/
theorem mem_ofList_split {a : α} (xs : List (κ × α)) {ys : List (κ × α)}
    (h : k ∉ ys.map Prod.fst) : (k, a) ∈ (ofList (xs ++ (k, a) :: ys)).toList := by
  apply mem_of_lookup?
  show (ofList (xs ++ (k, a) :: ys)).find? k = some a
  rw [ofList, insertMany_append]
  show ((((empty : OrderedMap κ α).insertMany xs).insert k a).insertMany ys).find? k = some a
  rw [find?_insertMany_of_not_mem h, find?_insert, if_pos rfl]

theorem contains_eq_true_iff : m.contains k = true ↔ k ∈ m.keys := by
  rw [contains, Option.isSome_iff_ne_none]
  refine ⟨fun h => ?_, fun h hnone => not_mem_keys_of_lookup? hnone h⟩
  by_contra hmem
  exact h (lookup?_of_not_mem hmem)

theorem ofList_concat (entries : List (κ × α)) (k : κ) (a : α) :
    ofList (entries ++ [(k, a)]) = (ofList entries).insert k a :=
  insertMany_append _ _ _

/-- Keys are in the order in which they first occur. -/
theorem keys_ofList (entries : List (κ × α)) :
    (ofList entries).keys = (entries.map Prod.fst).eraseDups := by
  induction entries using List.reverseRecOn with
  | nil => rfl
  | append_singleton entries entry ih =>
    rw [ofList_concat, keys_insert, ih, List.map_append, List.map_singleton, eraseDups_concat]
    simp only [List.mem_eraseDups]

/-- The value of a key is that of its last entry. -/
theorem find?_ofList (entries : List (κ × α)) (k : κ) :
    (ofList entries).find? k =
      ((entries.filter (fun entry => entry.1 = k)).getLast?).map Prod.snd := by
  induction entries using List.reverseRecOn with
  | nil => rfl
  | append_singleton entries entry ih =>
    rw [ofList_concat, find?_insert, ih, List.filter_append]
    by_cases h : entry.1 = k
    · simp [h]
    · simp [h]

theorem mapValues_insert {β : Type} (f : α → β) (m : OrderedMap κ α) (k : κ) (a : α) :
    (m.insert k a).mapValues f = (m.mapValues f).insert k (f a) := by
  apply ext
  rw [toList_mapValues, toList_insert, toList_insert, toList_mapValues]
  induction m.toList with
  | nil => rfl
  | cons entry rest ih =>
    rcases entry with ⟨k', a'⟩
    rw [putEntry, List.map_cons, putEntry]
    by_cases h : k' = k
    · rw [if_pos h, if_pos h, List.map_cons]
    · rw [if_neg h, if_neg h, List.map_cons, ih]

/-- Values may be changed before they are put into a map as well as after. -/
theorem mapValues_ofList {β : Type} (f : α → β) (entries : List (κ × α)) :
    (ofList entries).mapValues f = ofList (entries.map (fun entry => (entry.1, f entry.2))) := by
  induction entries using List.reverseRecOn with
  | nil => rfl
  | append_singleton entries entry ih =>
    rw [ofList_concat, mapValues_insert, ih, List.map_append, List.map_singleton, ofList_concat]

theorem filter_putEntry (p : κ → Bool) (k : κ) (a : α) (entries : List (κ × α)) :
    (putEntry k a entries).filter (fun entry => p entry.1) =
      if p k then putEntry k a (entries.filter (fun entry => p entry.1))
      else entries.filter (fun entry => p entry.1) := by
  induction entries with
  | nil => simp [putEntry, List.filter_cons]
  | cons entry rest ih =>
    rcases entry with ⟨k', a'⟩
    by_cases h : k' = k
    · subst h
      by_cases hp : p k' <;> simp [putEntry, hp]
    · rw [putEntry, if_neg h, List.filter_cons, List.filter_cons, ih]
      by_cases hp : p k' <;> by_cases hk : p k <;> simp [putEntry, hp, hk, h]

/-- Keys may be left out before a map is made as well as after. -/
theorem filter_ofList (p : κ → Bool) (entries : List (κ × α)) :
    (ofList entries).toList.filter (fun entry => p entry.1) =
      (ofList (entries.filter (fun entry => p entry.1))).toList := by
  induction entries using List.reverseRecOn with
  | nil => rfl
  | append_singleton entries entry ih =>
    rw [ofList_concat, toList_insert, filter_putEntry, ih, List.filter_append, List.filter_singleton]
    cases p entry.1 with
    | true => rw [if_pos rfl, cond_true, ofList_concat, toList_insert]
    | false => rw [if_neg Bool.false_ne_true, cond_false, List.append_nil]

end OrderedMap

end NetProfile
