import NetProfile.Yaml.Writer

/-!
# Mapping trees

The documents that the writer can write: mappings whose keys are scalars and
whose values are scalars or mappings again, to any depth. A tree is written as a
sequence of events, and printed as a text, by recursion on the tree.

## Main definitions

- `Scalar` — a text and the style in which it is handed to the writer
- `Content`, `MappingTree` — values, and entries in order
- `MappingTree.events` — the events that write a tree
- `MappingTree.print` — the text of a document

## Main results

- `MappingTree.induction` — one case for each kind of entry
- `MappingTree.events_injective` — different trees have different events
-/

namespace NetProfile

namespace Yaml

/-- How a scalar is handed to the writer. -/
inductive ScalarStyle where
  /-- Without quotes where that is safe. -/
  | plain
  /-- Between double quotes. -/
  | quoted
  deriving DecidableEq, Repr

/-- A scalar of a document. -/
structure Scalar where
  style : ScalarStyle
  text : String
  deriving DecidableEq, Repr

namespace Scalar

/-- The event that writes the scalar. -/
def event : Scalar → Event
  | ⟨.plain, text⟩ => .plain text
  | ⟨.quoted, text⟩ => .quoted text

/-- Whether the scalar is written without quotes. -/
def isBare (s : Scalar) : Bool :=
  match s.style with
  | .plain => isPlainSafe s.text.toList
  | .quoted => false

/-- The characters of the scalar as it is written. -/
def written (s : Scalar) : List Char := if s.isBare then s.text.toList else quote s.text.toList

/-- The scalar as it is written. -/
def token (s : Scalar) : String := String.ofList s.written

/-- The event of a scalar tells its style and its text. -/
theorem event_injective : Function.Injective event := by
  rintro ⟨_ | _, s⟩ ⟨_ | _, t⟩ h
  all_goals
    first
    | cases h; rfl
    | cases h

theorem react_event (l : Layout) (s : Scalar) : l.react s.event = l.reactScalar s.token := by
  rcases s with ⟨_ | _, text⟩
  · rfl
  · rfl

theorem exists_of_event (e : Event) :
    e = .openMapping ∨ e = .closeMapping ∨ ∃ s : Scalar, e = s.event := by
  cases e with
  | openMapping => exact Or.inl rfl
  | closeMapping => exact Or.inr (Or.inl rfl)
  | plain text => exact Or.inr (Or.inr ⟨⟨.plain, text⟩, rfl⟩)
  | quoted text => exact Or.inr (Or.inr ⟨⟨.quoted, text⟩, rfl⟩)

theorem event_ne_close (s : Scalar) : s.event ≠ .closeMapping := by
  rcases s with ⟨_ | _, text⟩
  · exact Event.noConfusion
  · exact Event.noConfusion

theorem event_ne_open (s : Scalar) : s.event ≠ .openMapping := by
  rcases s with ⟨_ | _, text⟩
  · exact Event.noConfusion
  · exact Event.noConfusion

end Scalar

/-- What stands behind a key: a scalar, or the entries of a mapping in order. -/
inductive Content where
  | scalar (s : Scalar)
  | mapping (entries : List (Scalar × Content))
  deriving Repr

/-- The entries of a mapping in order, keys with their contents. -/
abbrev MappingTree := List (Scalar × Content)

/-- The spaces before a key with `depth` mappings around its own. -/
def margin (depth : Nat) : String := String.ofList (List.replicate (2 * depth) ' ')

mutual

/-- The events of a value. -/
def Content.events : Content → List Event
  | .scalar s => [s.event]
  | .mapping t => .openMapping :: (MappingTree.entryEvents t ++ [.closeMapping])

/-- The events between the opening and the closing of a mapping. -/
def MappingTree.entryEvents : MappingTree → List Event
  | [] => []
  | (k, c) :: rest => k.event :: (c.events ++ MappingTree.entryEvents rest)

end

mutual

/-- What is printed behind the colon of a key, whose mapping has `depth` others
around it. -/
def Content.print (depth : Nat) : Content → String
  | .scalar s => " " ++ s.token ++ "\n"
  | .mapping [] => " \x7b\x7d\n"
  | .mapping (entry :: rest) => "\n" ++ MappingTree.printEntries (depth + 1) (entry :: rest)

/-- The lines of the entries of a mapping with `depth` others around it. -/
def MappingTree.printEntries (depth : Nat) : MappingTree → String
  | [] => ""
  | (k, c) :: rest =>
    margin depth ++ k.token ++ ":" ++ c.print depth ++ MappingTree.printEntries depth rest

end

namespace MappingTree

/-- Proofs about all trees go entry by entry, with the entries inside a value
that is a mapping beside those that follow. -/
@[elab_as_elim]
theorem induction {motive : MappingTree → Prop} (nil : motive [])
    (scalar : ∀ k v rest, motive rest → motive ((k, .scalar v) :: rest))
    (mapping : ∀ k t rest, motive t → motive rest → motive ((k, .mapping t) :: rest))
    (t : MappingTree) : motive t :=
  Content.rec_1 (motive_1 := fun c => ∀ k rest, motive rest → motive ((k, c) :: rest))
    (motive_2 := motive) (motive_3 := fun entry => ∀ rest, motive rest → motive (entry :: rest))
    (fun v k rest h => scalar k v rest h) (fun t ih k rest h => mapping k t rest ih h)
    nil (fun _ _ hentry hrest => hentry _ hrest) (fun k _ h rest => h k rest) t

/-- The events that write the tree. -/
def events (t : MappingTree) : List Event := (Content.mapping t).events

/-- The text of the document that holds the tree. -/
def print : MappingTree → String
  | [] => "\x7b\x7d\n"
  | entry :: rest => printEntries 0 (entry :: rest)

@[simp]
theorem entryEvents_nil : entryEvents [] = [] := rfl

@[simp]
theorem entryEvents_cons_scalar (k v : Scalar) (rest : MappingTree) :
    entryEvents ((k, .scalar v) :: rest) = k.event :: v.event :: entryEvents rest := rfl

@[simp]
theorem entryEvents_cons_mapping (k : Scalar) (t rest : MappingTree) :
    entryEvents ((k, .mapping t) :: rest) =
      k.event :: .openMapping :: (entryEvents t ++ .closeMapping :: entryEvents rest) := by
  simp [entryEvents, Content.events]

theorem entryEvents_append (t u : MappingTree) :
    entryEvents (t ++ u) = entryEvents t ++ entryEvents u := by
  induction t with
  | nil => rfl
  | cons entry rest ih =>
    rcases entry with ⟨k, c⟩
    rw [List.cons_append, entryEvents, entryEvents, ih]
    simp

theorem events_eq (t : MappingTree) :
    t.events = .openMapping :: (entryEvents t ++ [.closeMapping]) := by
  rw [events, Content.events]

/-- The end of a mapping can be told from its entries: the events up to the end of
an open mapping come from one list of entries only. -/
theorem entryEvents_append_close_inj {t u : MappingTree} {more more' : List Event}
    (h : entryEvents t ++ .closeMapping :: more = entryEvents u ++ .closeMapping :: more') :
    t = u ∧ more = more' := by
  induction t using MappingTree.induction generalizing u more more' with
  | nil =>
    rcases u with _ | ⟨⟨k, c⟩, rest⟩
    · exact ⟨rfl, (List.cons.inj h).2⟩
    · rw [entryEvents] at h
      exact absurd (List.cons.inj h).1.symm k.event_ne_close
  | scalar k v rest ih =>
    rcases u with _ | ⟨⟨k', v' | t'⟩, rest'⟩
    · exact absurd (List.cons.inj h).1 k.event_ne_close
    · simp only [entryEvents_cons_scalar, List.cons_append, List.cons.injEq] at h
      obtain ⟨hk, hv, hrest⟩ := h
      obtain ⟨rfl, hmore⟩ := ih hrest
      exact ⟨by rw [Scalar.event_injective hk, Scalar.event_injective hv], hmore⟩
    · simp only [entryEvents_cons_scalar, entryEvents_cons_mapping, List.cons_append,
        List.cons.injEq] at h
      exact absurd h.2.1 v.event_ne_open
  | mapping k t rest iht ih =>
    rcases u with _ | ⟨⟨k', v' | t'⟩, rest'⟩
    · simp only [entryEvents_cons_mapping, List.cons_append, entryEvents_nil,
        List.nil_append, List.cons.injEq] at h
      exact absurd h.1 k.event_ne_close
    · simp only [entryEvents_cons_scalar, entryEvents_cons_mapping, List.cons_append,
        List.cons.injEq] at h
      exact absurd h.2.1.symm v'.event_ne_open
    · simp only [entryEvents_cons_mapping, List.cons_append, List.cons.injEq,
        List.append_assoc, true_and] at h
      obtain ⟨hk, hinner⟩ := h
      -- The inner mapping ends first, and what follows it are the other entries.
      obtain ⟨rfl, hrest⟩ := iht hinner
      obtain ⟨rfl, hmore⟩ := ih hrest
      exact ⟨by rw [Scalar.event_injective hk], hmore⟩

/-- Different trees have different events. -/
theorem events_injective : Function.Injective events := by
  intro t u h
  rw [events_eq, events_eq] at h
  exact (entryEvents_append_close_inj (List.cons.inj h).2).1

end MappingTree

end Yaml

end NetProfile
