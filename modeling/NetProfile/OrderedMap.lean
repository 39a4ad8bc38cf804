/-!
# Insertion-ordered maps

A map that remembers the order in which its keys first arrived. Replacing the
value of a key keeps the key's position, a new key goes to the end, and
removing a key closes the gap without moving the others.

## Main definitions

- `OrderedMap κ α` — entries in order, no key twice
- `OrderedMap.insert`, `OrderedMap.erase`, `OrderedMap.find?`
- `OrderedMap.ofList` — entries inserted one after the other

## Design notes

The list of entries is the map: two maps are equal exactly when they hold the
same entries in the same order (`OrderedMap.ext`). Each operation says what it
does to that list (`toList_insert`, `toList_erase`).
-/

namespace NetProfile

/-- Entries in insertion order, each key at most once. -/
structure OrderedMap (κ : Type) (α : Type) where
  /-- The entries, oldest key first. -/
  toList : List (κ × α)
  /-- No key occurs twice. -/
  nodup_keys : (toList.map Prod.fst).Nodup

namespace OrderedMap

variable {κ α : Type}

/-- Maps with the same entries in the same order are equal. -/
@[ext]
theorem ext {m n : OrderedMap κ α} (h : m.toList = n.toList) : m = n := by
  cases m
  cases n
  cases h
  rfl

instance [DecidableEq κ] [DecidableEq α] : DecidableEq (OrderedMap κ α) := fun m n =>
  if h : m.toList = n.toList then isTrue (ext h)
  else isFalse (fun e => h (congrArg toList e))

instance [Repr κ] [Repr α] : Repr (OrderedMap κ α) where
  reprPrec m p := reprPrec m.toList p

/-- The map without entries. -/
def empty : OrderedMap κ α := ⟨[], List.Pairwise.nil⟩

instance : EmptyCollection (OrderedMap κ α) := ⟨empty⟩

instance : Inhabited (OrderedMap κ α) := ⟨empty⟩

/-- The keys in order. -/
def keys (m : OrderedMap κ α) : List κ := m.toList.map Prod.fst

/-- The values in the order of their keys. -/
def values (m : OrderedMap κ α) : List α := m.toList.map Prod.snd

/-- The number of entries. -/
def size (m : OrderedMap κ α) : Nat := m.toList.length

/-- Whether there is no entry. -/
def isEmpty (m : OrderedMap κ α) : Bool := m.toList.isEmpty

@[simp]
theorem toList_empty : (∅ : OrderedMap κ α).toList = [] := rfl

/-- The map with other values under the same keys. -/
def mapValues {β : Type} (f : α → β) (m : OrderedMap κ α) : OrderedMap κ β :=
  ⟨m.toList.map (fun entry => (entry.1, f entry.2)), by
    rw [List.map_map]
    exact m.nodup_keys⟩

@[simp]
theorem toList_mapValues {β : Type} (f : α → β) (m : OrderedMap κ α) :
    (m.mapValues f).toList = m.toList.map (fun entry => (entry.1, f entry.2)) := rfl

theorem mapValues_mapValues {β γ : Type} (f : α → β) (g : β → γ) (m : OrderedMap κ α) :
    (m.mapValues f).mapValues g = m.mapValues (fun a => g (f a)) := by
  apply ext
  simp only [toList_mapValues, List.map_map]
  rfl

theorem mapValues_eq_iff {β : Type} {f g : α → β} {m : OrderedMap κ α} :
    m.mapValues f = m.mapValues g ↔ ∀ a ∈ m.values, f a = g a := by
  constructor
  · intro h a ha
    obtain ⟨entry, hentry, rfl⟩ := List.mem_map.1 ha
    exact congrArg Prod.snd (List.map_inj_left.1 (congrArg toList h) entry hentry)
  · intro h
    apply ext
    apply List.map_congr_left
    intro entry hentry
    rw [h entry.2 (List.mem_map_of_mem hentry)]

section Lookup

variable [DecidableEq κ]

/-- The first value listed under `k`. -/
def lookup? (k : κ) : List (κ × α) → Option α
  | [] => none
  | (k', a) :: rest => if k' = k then some a else lookup? k rest

/-- Entries with `a` in the place of the first value under `k`, or with the pair
`(k, a)` at the end when `k` is new. -/
def putEntry (k : κ) (a : α) : List (κ × α) → List (κ × α)
  | [] => [(k, a)]
  | (k', a') :: rest => if k' = k then (k, a) :: rest else (k', a') :: putEntry k a rest

/-- Entries whose key differs from `k`. -/
def dropEntry (k : κ) (entries : List (κ × α)) : List (κ × α) :=
  entries.filter (fun entry => decide (entry.1 ≠ k))

/-- A key is listed after a put exactly when it is the key put or was listed before. -/
theorem mem_keys_putEntry {k x : κ} {a : α} {entries : List (κ × α)} :
    x ∈ (putEntry k a entries).map Prod.fst ↔ x = k ∨ x ∈ entries.map Prod.fst := by
  induction entries with
  | nil => simp [putEntry]
  | cons entry rest ih =>
    rcases entry with ⟨k', a'⟩
    by_cases h : k' = k
    · subst h
      simp [putEntry]
    · simp only [putEntry, if_neg h, List.map_cons, List.mem_cons, ih]
      constructor
      · rintro (h1 | h1 | h1)
        · exact Or.inr (Or.inl h1)
        · exact Or.inl h1
        · exact Or.inr (Or.inr h1)
      · rintro (h1 | h1 | h1)
        · exact Or.inr (Or.inl h1)
        · exact Or.inl h1
        · exact Or.inr (Or.inr h1)

/-- Putting an entry keeps the keys distinct. -/
theorem nodup_putEntry (k : κ) (a : α) {entries : List (κ × α)}
    (h : (entries.map Prod.fst).Nodup) : ((putEntry k a entries).map Prod.fst).Nodup := by
  induction entries with
  | nil => simp [putEntry]
  | cons entry rest ih =>
    rcases entry with ⟨k', a'⟩
    rw [List.map_cons, List.nodup_cons] at h
    by_cases hk : k' = k
    · subst hk
      simpa [putEntry] using h
    · rw [putEntry, if_neg hk, List.map_cons, List.nodup_cons]
      refine ⟨fun hmem => ?_, ih h.2⟩
      rcases mem_keys_putEntry.1 hmem with h1 | h1
      · exact hk h1
      · exact h.1 h1

/-- Dropping a key keeps the keys distinct. -/
theorem nodup_dropEntry (k : κ) {entries : List (κ × α)}
    (h : (entries.map Prod.fst).Nodup) : ((dropEntry k entries).map Prod.fst).Nodup :=
  h.sublist ((List.filter_sublist (l := entries)).map Prod.fst)

/-- The value stored under `k`. -/
def find? (m : OrderedMap κ α) (k : κ) : Option α := lookup? k m.toList

/-- Whether `k` has a value. -/
def contains (m : OrderedMap κ α) (k : κ) : Bool := (m.find? k).isSome

/-- Stores `a` under `k`: in place when `k` is present, at the end otherwise. -/
def insert (m : OrderedMap κ α) (k : κ) (a : α) : OrderedMap κ α :=
  ⟨putEntry k a m.toList, nodup_putEntry k a m.nodup_keys⟩

/-- Removes `k`; the other entries keep their order. -/
def erase (m : OrderedMap κ α) (k : κ) : OrderedMap κ α :=
  ⟨dropEntry k m.toList, nodup_dropEntry k m.nodup_keys⟩

/-- Inserts the given entries one after the other. -/
def insertMany (m : OrderedMap κ α) (entries : List (κ × α)) : OrderedMap κ α :=
  entries.foldl (fun acc entry => acc.insert entry.1 entry.2) m

/-- The map that holds the given entries, the last value of a repeated key at
the position of its first occurrence. -/
def ofList (entries : List (κ × α)) : OrderedMap κ α := (empty : OrderedMap κ α).insertMany entries

@[simp]
theorem toList_insert (m : OrderedMap κ α) (k : κ) (a : α) :
    (m.insert k a).toList = putEntry k a m.toList := rfl

@[simp]
theorem toList_erase (m : OrderedMap κ α) (k : κ) :
    (m.erase k).toList = dropEntry k m.toList := rfl

/-- A put is found under its own key and changes no other. -/
theorem lookup?_putEntry (k x : κ) (a : α) (entries : List (κ × α)) :
    lookup? x (putEntry k a entries) = if k = x then some a else lookup? x entries := by
  induction entries with
  | nil => simp [putEntry, lookup?]
  | cons entry rest ih =>
    rcases entry with ⟨k', a'⟩
    by_cases h : k' = k
    · subst h
      by_cases hx : k' = x <;> simp [putEntry, lookup?, hx]
    · by_cases hx : k' = x
      · subst hx
        have hne : k ≠ k' := fun e => h e.symm
        simp [putEntry, lookup?, h, hne]
      · simp [putEntry, lookup?, h, hx, ih]

/-- Looking up after an insertion. -/
theorem find?_insert (m : OrderedMap κ α) (k x : κ) (a : α) :
    (m.insert k a).find? x = if k = x then some a else m.find? x :=
  lookup?_putEntry k x a m.toList

/-- A dropped key is found no more, and all others are found as before. -/
theorem lookup?_dropEntry (k x : κ) (entries : List (κ × α)) :
    lookup? x (dropEntry k entries) = if x = k then none else lookup? x entries := by
  induction entries with
  | nil => simp [dropEntry, lookup?]
  | cons entry rest ih =>
    rcases entry with ⟨k', a'⟩
    rw [dropEntry] at ih
    rw [dropEntry, List.filter_cons]
    by_cases h : k' = k
    · subst h
      by_cases hx : x = k'
      · subst hx
        simpa using ih
      · have hne : ¬k' = x := fun e => hx e.symm
        simpa [lookup?, hx, hne] using ih
    · by_cases hx : k' = x
      · subst hx
        simp [lookup?, h]
      · simpa [lookup?, h, hx] using ih

/-- Looking up after a removal. -/
theorem find?_erase (m : OrderedMap κ α) (k x : κ) :
    (m.erase k).find? x = if x = k then none else m.find? x :=
  lookup?_dropEntry k x m.toList

/-- Entries may be inserted in several goes. -/
theorem insertMany_append (m : OrderedMap κ α) (entries more : List (κ × α)) :
    m.insertMany (entries ++ more) = (m.insertMany entries).insertMany more :=
  List.foldl_append

/-- A new key goes to the end. -/
theorem putEntry_of_not_mem {k : κ} (a : α) {entries : List (κ × α)}
    (h : k ∉ entries.map Prod.fst) : putEntry k a entries = entries ++ [(k, a)] := by
  induction entries with
  | nil => rfl
  | cons entry rest ih =>
    rcases entry with ⟨k', a'⟩
    rw [List.map_cons, List.mem_cons, not_or] at h
    rw [putEntry, if_neg (fun e => h.1 e.symm), ih h.2, List.cons_append]

/-- Entries with new keys go to the end in order. -/
theorem toList_insertMany {m : OrderedMap κ α} {entries : List (κ × α)}
    (h : ((m.toList ++ entries).map Prod.fst).Nodup) :
    (m.insertMany entries).toList = m.toList ++ entries := by
  induction entries generalizing m with
  | nil => exact (List.append_nil _).symm
  | cons entry rest ih =>
    rcases entry with ⟨k, a⟩
    have hnew : k ∉ m.toList.map Prod.fst := by
      rw [List.map_append, List.nodup_append] at h
      exact fun hmem => h.2.2 k hmem k List.mem_cons_self rfl
    have hput : (m.insert k a).toList = m.toList ++ [(k, a)] := putEntry_of_not_mem a hnew
    change ((m.insert k a).insertMany rest).toList = _
    rw [ih (by rw [hput, List.append_assoc]; exact h), hput, List.append_assoc, List.singleton_append]

/-- A map of entries with different keys holds just them. -/
theorem toList_ofList {entries : List (κ × α)} (h : (entries.map Prod.fst).Nodup) :
    (ofList entries : OrderedMap κ α).toList = entries :=
  toList_insertMany h

/-- A map is made by its entries. -/
theorem ofList_toList (m : OrderedMap κ α) : ofList m.toList = m :=
  ext (toList_ofList m.nodup_keys)

end Lookup

end OrderedMap

end NetProfile
