import NetProfile.Configuration
import NetProfile.Proofs.TreeNodes

/-!
# Reading the values of mapping trees

What the scalars of a mapping tree stand for, and that a document of a tree is read as
a tree of these values just if all its scalars stand for something. A tree whose keys are
different texts is read without complaints about repeated ones.

## Main definitions

- `Scalar.value`, `Content.value`, `MappingTree.values` — the values of a tree
- `Scalar.IsText`, `Scalar.KeepsText`, `Scalar.HasValue` — scalars that stand for their
  texts, that keep them when they are turned into text, or that stand for anything
- `Resolve.Gives` — when reading succeeds, and with which result
- `Content.height` — how deep mappings stand in each other
- `Content.Distinct` — no mapping has two keys of one text

## Main results

- `Document.gives_value_node` — the value of a tree's node
- `Content.hasRepeatedKey_value` — no key is repeated
- `Configuration.ofDocument_section_eq_ok_iff` — a document with one section
-/

namespace NetProfile

namespace Yaml

namespace Scalar

/-- What the scalar stands for. -/
def value (s : Scalar) : Value :=
  if s.isBare then
    match Schema.plainValue s.text with
    | .ok v => v
    | .error _ => .null
  else .string s.text

/-- Whether the scalar stands for its own text. -/
def IsText (s : Scalar) : Prop := s.isBare = true → Schema.resolve s.text.toList = .text

/-- Whether the scalar stands for anything: integers may be out of range. -/
def HasValue (s : Scalar) : Prop := s.isBare = true → ∃ v, Schema.plainValue s.text = .ok v

/-- Whether the scalar is read as its own text where any scalar is turned into text. -/
def KeepsText (s : Scalar) : Prop := s.value.scalarText? = some s.text

instance (s : Scalar) : Decidable s.KeepsText := inferInstanceAs (Decidable (_ = _))

/-- A scalar that stands for its own text has that as its value. -/
theorem value_of_isText {s : Scalar} (h : s.IsText) : s.value = .string s.text := by
  rw [value]
  split
  · next hbare => rw [Schema.plainValue, h hbare]
  · rfl

theorem IsText.hasValue {s : Scalar} (h : s.IsText) : s.HasValue := by
  intro hbare
  refine ⟨.string s.text, ?_⟩
  rw [Schema.plainValue, h hbare]

theorem IsText.keepsText {s : Scalar} (h : s.IsText) : s.KeepsText := by
  rw [KeepsText, value_of_isText h]
  rfl

theorem KeepsText.hasValue {s : Scalar} (h : s.KeepsText) : s.HasValue := by
  intro hbare
  cases hv : Schema.plainValue s.text with
  | ok v => exact ⟨v, rfl⟩
  | error e =>
    rw [KeepsText, value, if_pos hbare, hv] at h
    cases h

theorem scalarValue_eq {s : Scalar} (h : s.HasValue) :
    Schema.scalarValue none s.text s.isBare = .ok s.value := by
  rw [Schema.scalarValue, value]
  cases hbare : s.isBare with
  | false => rfl
  | true =>
    obtain ⟨v, hv⟩ := h hbare
    simp only [if_true, hv]

/-- A plain scalar stands for no collection. -/
theorem hasRepeatedKey_plainValue {text : String} {v : Value} (h : Schema.plainValue text = .ok v) :
    v.hasRepeatedKey = false := by
  rw [Schema.plainValue] at h
  split at h
  · cases h; rfl
  · cases h; rfl
  · rw [Schema.integerValue] at h
    split at h
    · cases h; rfl
    · cases h
  · cases h; rfl
  · cases h; rfl

theorem hasRepeatedKey_value (s : Scalar) : s.value.hasRepeatedKey = false := by
  rw [value]
  split
  · split
    · next hv => exact hasRepeatedKey_plainValue hv
    · rfl
  · rfl

end Scalar

mutual

/-- What a value of a tree stands for. -/
def Content.value : Content → Value
  | .scalar s => s.value
  | .mapping t => .mapping (MappingTree.values t)

/-- What the entries of a mapping stand for. -/
def MappingTree.values : MappingTree → List (Value × Value)
  | [] => []
  | (k, c) :: rest => (k.value, c.value) :: MappingTree.values rest

end

mutual

/-- How many mappings stand in each other. -/
def Content.height : Content → Nat
  | .scalar _ => 0
  | .mapping t => MappingTree.height t + 1

/-- How many mappings stand in each other in the values of some entries. -/
def MappingTree.height : MappingTree → Nat
  | [] => 0
  | (_, c) :: rest => max c.height (MappingTree.height rest)

end

mutual

/-- No mapping in the value has two keys of one text. -/
def Content.Distinct : Content → Prop
  | .scalar _ => True
  | .mapping t => (t.map (fun entry => entry.1.text)).Nodup ∧ MappingTree.Distinct t

/-- No mapping in the values of the entries has two keys of one text. -/
def MappingTree.Distinct : MappingTree → Prop
  | [] => True
  | (_, c) :: rest => c.Distinct ∧ MappingTree.Distinct rest

end

/-- The keys and values of a tree are read: keys as texts, scalars as anything. -/
abbrev MappingTree.Meaningful (t : MappingTree) : Prop := t.Every Scalar.IsText Scalar.HasValue

/-- The same for a value. -/
abbrev Content.Meaningful (c : Content) : Prop := c.Every Scalar.IsText Scalar.HasValue

/-- All keys and scalars of a value stand for something. -/
abbrev Content.HasValues (c : Content) : Prop := c.Every Scalar.HasValue Scalar.HasValue

theorem Content.Meaningful.hasValues {c : Content} (h : c.Meaningful) : c.HasValues :=
  h.mono (fun _ hk => hk.hasValue) (fun _ hv => hv)

/-- Reading succeeds just if `p` holds, with `a`, and without following an alias. -/
def Resolve.Gives {α : Type} (act : Resolve α) (p : Prop) (a : α) : Prop :=
  ∀ n r, act.run n = .ok r ↔ p ∧ r = (a, n)

namespace Resolve.Gives

variable {α β : Type} {act : Resolve α} {f : α → Resolve β} {p q : Prop} {a : α} {b : β}

theorem pure (a : α) : Gives (pure a) True a := by
  intro n r
  show Except.ok (a, n) = .ok r ↔ True ∧ r = (a, n)
  rw [Except.ok.injEq, true_and, eq_comm]

/-- One reading after another succeeds if both do. -/
theorem bind (h : Gives act p a) (hf : Gives (f a) q b) : Gives (act >>= f) (p ∧ q) b := by
  intro n r
  rw [StateT.run_bind, and_assoc, ← hf n r]
  cases hact : act.run n with
  | error e =>
    have hp : ¬p := by
      intro hp
      rw [(h n (a, n)).2 ⟨hp, rfl⟩] at hact
      cases hact
    exact ⟨fun hr => (nomatch hr), fun hr => absurd hr.1 hp⟩
  | ok x =>
    obtain ⟨hp, rfl⟩ := (h n x).1 hact
    exact ⟨fun hr => ⟨hp, hr⟩, fun hr => hr.2⟩

/-- The result may be put into another shape. -/
theorem map (f : α → β) (h : Gives act p a) : Gives (act >>= fun a => Pure.pure (f a)) p (f a) := by
  intro n r
  rw [h.bind (pure (f a)) n r, and_true]

end Resolve.Gives

namespace Document

variable {doc : Document} {strictness : Strictness} {depth : Nat}

/-- A scalar is read, at any depth, if it stands for something. -/
theorem gives_value_scalar (s : Scalar) :
    Resolve.Gives (doc.value strictness depth s.node) s.HasValue s.value := by
  have hread : doc.value strictness depth s.node =
      ((liftM (Schema.scalarValue none s.text s.isBare) : Resolve Value) >>= fun v => pure v) := by
    cases depth with
    | zero => rfl
    | succ depth => rfl
  intro n r
  rw [hread, bind_pure]
  show ((Schema.scalarValue none s.text s.isBare).bind fun v => .ok (v, n)) = .ok r ↔ _
  constructor
  · intro h
    have hvalue : s.HasValue := by
      intro hbare
      rw [Schema.scalarValue, hbare] at h
      cases hv : Schema.plainValue s.text with
      | ok v => exact ⟨v, rfl⟩
      | error e =>
        simp only [if_true, hv] at h
        cases h
    rw [Scalar.scalarValue_eq hvalue] at h
    exact ⟨hvalue, (Except.ok.inj h).symm⟩
  · rintro ⟨hvalue, rfl⟩
    rw [Scalar.scalarValue_eq hvalue]
    rfl

/-- The value of a mapping's node, where its entries may be read. -/
theorem value_mapping (entries : List (Node × Node)) :
    doc.value strictness (depth + 1) (.mapping {} entries) =
      (do return .mapping (← readEntries (doc.value strictness depth) strictness.distinctKeys [] entries)) :=
  rfl

theorem gives_readEntries_cons {read : Node → Resolve Value} {seen : List Value} {k v : Node}
    {rest : List (Node × Node)} {key value : Value} {values : List (Value × Value)}
    {p q r : Prop} (hk : Resolve.Gives (read k) p key) (hv : Resolve.Gives (read v) q value)
    (hrest : Resolve.Gives (readEntries read false (key :: seen) rest) r values) :
    Resolve.Gives (readEntries read false seen ((k, v) :: rest)) (p ∧ q ∧ r)
      ((key, value) :: values) := by
  rw [readEntries]
  simp only [Bool.false_and, Bool.false_eq_true, if_false]
  exact hk.bind (hv.bind (hrest.map _))

/-- The entries of a mapping are read, where repeated keys are no matter, if all that is
in them stands for something. -/
theorem gives_readEntries_nodes (hstrict : strictness.distinctKeys = false) {t : MappingTree}
    (hheight : t.height ≤ depth) (seen : List Value) :
    Resolve.Gives (readEntries (doc.value strictness depth) false seen t.nodes)
      (t.Every Scalar.HasValue Scalar.HasValue) t.values := by
  induction t using MappingTree.induction generalizing depth seen with
  | nil => exact .pure []
  | scalar k v rest ih =>
    have hheight' : rest.height ≤ depth := Nat.le_trans (Nat.le_max_right _ _) hheight
    exact gives_readEntries_cons (gives_value_scalar k) (gives_value_scalar v) (ih hheight' _)
  | mapping k t rest iht ih =>
    have hheight' : rest.height ≤ depth := Nat.le_trans (Nat.le_max_right _ _) hheight
    -- The mapping inside takes one level of the depth, and so there is one.
    have hinner : t.height + 1 ≤ depth := Nat.le_trans (Nat.le_max_left _ _) hheight
    obtain ⟨depth, rfl⟩ : ∃ n, depth = n + 1 := Nat.exists_eq_add_of_le' (Nat.le_of_add_left_le hinner)
    have hvalue : Resolve.Gives (doc.value strictness (depth + 1) (Content.mapping t).node)
        (t.Every Scalar.HasValue Scalar.HasValue) (Content.mapping t).value := by
      rw [Content.node, value_mapping, hstrict]
      exact (iht (Nat.le_of_succ_le_succ hinner) []).map _
    exact gives_readEntries_cons (gives_value_scalar k) hvalue (ih hheight' _)

/-- A tree is read as its value, where its mappings may stand in each other. -/
theorem gives_value_node (hstrict : strictness.distinctKeys = false) {c : Content}
    (hheight : c.height ≤ depth) :
    Resolve.Gives (doc.value strictness depth c.node) c.HasValues c.value := by
  rcases c with s | t
  · exact gives_value_scalar s
  · obtain ⟨depth, rfl⟩ : ∃ n, depth = n + 1 :=
      Nat.exists_eq_add_of_le' (Nat.le_of_add_left_le hheight)
    rw [Content.node, value_mapping, hstrict]
    exact (gives_readEntries_nodes hstrict (Nat.le_of_succ_le_succ hheight) []).map _

end Document

theorem anyRepeated_strings {texts : List String} (h : texts.Nodup) :
    Value.anyRepeated (texts.map Value.string) = false := by
  induction texts with
  | nil => rfl
  | cons s rest ih =>
    rw [List.nodup_cons] at h
    rw [List.map_cons, Value.anyRepeated, ih h.2, Bool.or_false, List.any_map, List.any_eq_false]
    intro t ht hsame
    have heq : s = t := eq_of_beq hsame
    exact h.1 (heq ▸ ht)

theorem map_fst_values {t : MappingTree} (h : t.Meaningful) :
    t.values.map Prod.fst = (t.map (fun entry => entry.1.text)).map Value.string := by
  induction t with
  | nil => rfl
  | cons entry rest ih =>
    rcases entry with ⟨k, c⟩
    obtain ⟨hk, -, hrest⟩ := h
    rw [MappingTree.values, List.map_cons, List.map_cons, List.map_cons, ih hrest,
      Scalar.value_of_isText hk]

theorem anyRepeated_values {t : MappingTree} (h : t.Meaningful)
    (hnodup : (t.map (fun entry => entry.1.text)).Nodup) :
    Value.anyRepeated (t.values.map Prod.fst) = false := by
  rw [map_fst_values h]
  exact anyRepeated_strings hnodup

/-- Mappings whose keys are different stay so as values. -/
theorem someEntryHasRepeatedKey_values (t : MappingTree) (h : t.Meaningful) (hd : t.Distinct) :
    Value.someEntryHasRepeatedKey t.values = false := by
  induction t using MappingTree.induction with
  | nil => rfl
  | scalar k v rest ih =>
    obtain ⟨-, -, hrest⟩ := h
    rw [MappingTree.values, Value.someEntryHasRepeatedKey, ih hrest hd.2, Content.value,
      k.hasRepeatedKey_value, v.hasRepeatedKey_value]
    rfl
  | mapping k t rest iht ih =>
    obtain ⟨-, ht, hrest⟩ := h
    obtain ⟨⟨hnodup, htd⟩, hrestd⟩ := hd
    rw [MappingTree.values, Value.someEntryHasRepeatedKey, ih hrest hrestd, Content.value,
      k.hasRepeatedKey_value, Value.hasRepeatedKey, anyRepeated_values ht hnodup, iht ht htd]
    rfl

/-- No mapping in the value of a tree with different keys repeats one. -/
theorem Content.hasRepeatedKey_value {c : Content} (h : c.Meaningful) (hd : c.Distinct) :
    c.value.hasRepeatedKey = false := by
  rcases c with s | t
  · exact s.hasRepeatedKey_value
  · rw [Content.value, Value.hasRepeatedKey, anyRepeated_values h hd.1,
      someEntryHasRepeatedKey_values t h hd.2]
    rfl

end Yaml

namespace Configuration

open Yaml (Content Document MappingTree Resolve Scalar)

variable {doc : Document}

/-- The version that definitions are written with is a number. -/
theorem hasValue_two : (⟨.plain, "2"⟩ : Scalar).HasValue := by
  intro _
  have hresolve : Yaml.Schema.resolve "2".toList = .integer 2 := by decide +kernel
  refine ⟨.number (.int 2), ?_⟩
  rw [Yaml.Schema.plainValue, hresolve]
  rfl

/-- The version that definitions are written with is accepted. -/
theorem checkVersion_two : checkVersion doc (Scalar.node ⟨.plain, "2"⟩) = pure () := by
  have hpresent : doc.present? (Scalar.node ⟨.plain, "2"⟩) =
      pure (some (Scalar.node ⟨.plain, "2"⟩)) := by
    have hbare : (⟨.plain, "2"⟩ : Scalar).isBare = true := by decide
    have hnull : Yaml.Schema.isNull "2".toList = false := by decide
    rw [Scalar.node, hbare]
    show (pure (if Yaml.Schema.isNull "2".toList = true then none else
      some (Yaml.Node.scalar {} "2" true)) : Yaml.Resolve (Option Yaml.Node)) = _
    rw [hnull]
    rfl
  have hvalue : ∀ n, (doc.value versionStrictness sectionDepth (Scalar.node ⟨.plain, "2"⟩)).run n =
      .ok (Scalar.value ⟨.plain, "2"⟩, n) :=
    fun n => (Document.gives_value_scalar _ n _).2 ⟨hasValue_two, rfl⟩
  rw [checkVersion, hpresent, pure_bind]
  dsimp only
  apply StateT.ext
  intro n
  rw [StateT.run_bind, hvalue]
  rfl

theorem readEntry_version :
    readEntry doc {} (Scalar.node ⟨.plain, "version"⟩, Scalar.node ⟨.plain, "2"⟩) =
      pure { versioned := true } := by
  have hgo : readEntry doc {} (Scalar.node ⟨.plain, "version"⟩, Scalar.node ⟨.plain, "2"⟩) =
      (do
        checkVersion doc (Scalar.node ⟨.plain, "2"⟩)
        return { versioned := true }) := rfl
  rw [hgo, checkVersion_two, pure_bind]

/-- A section is read as its value. -/
theorem gives_readEntry_section {p : Progress} {k : Scalar} {c : Content}
    (hk : k.text ≠ "version" ∧ k.text ≠ "renderer") (hheight : c.height ≤ sectionDepth) :
    Resolve.Gives (readEntry doc p (k.node, c.node)) c.HasValues
      { p with sections := p.sections ++ [(k.text, c.value)] } := by
  have htext : doc.text k.node = pure k.text := rfl
  rw [readEntry, htext, pure_bind, if_neg hk.1, if_neg hk.2]
  exact (Document.gives_value_node rfl hheight).map _

/-- A version and one section under `network` are read as a configuration of that section,
if all that is in it stands for something and no key is repeated. -/
theorem gives_readNetwork_section {k : Scalar} {c : Content}
    (hk : k.text ≠ "version" ∧ k.text ≠ "renderer") (hheight : c.height ≤ sectionDepth) :
    Resolve.Gives
      (readNetwork doc (Content.mapping [(⟨.plain, "version"⟩, .scalar ⟨.plain, "2"⟩), (k, c)]).node)
      (c.HasValues ∧ c.value.hasRepeatedKey = false)
      { sections := OrderedMap.ofList [(k.text, c.value)] } := by
  let finish (p : Progress) : Resolve Configuration :=
    if p.sections.any (fun entry => entry.2.hasRepeatedKey) then throw (.misplaced "repeated key")
    else return { renderer := p.renderer.join, sections := OrderedMap.ofList p.sections }
  have hgo : readNetwork doc
      (Content.mapping [(⟨.plain, "version"⟩, .scalar ⟨.plain, "2"⟩), (k, c)]).node =
      ([(Scalar.node ⟨.plain, "version"⟩, Scalar.node ⟨.plain, "2"⟩),
        (k.node, c.node)].foldlM (readEntry doc) {} >>= finish) := rfl
  have hfinish : Resolve.Gives (finish { versioned := true, sections := [(k.text, c.value)] })
      (c.value.hasRepeatedKey = false) { sections := OrderedMap.ofList [(k.text, c.value)] } := by
    have hany : [(k.text, c.value)].any (fun entry => entry.2.hasRepeatedKey) =
        c.value.hasRepeatedKey := Bool.or_false _
    simp only [finish, hany]
    cases c.value.hasRepeatedKey with
    | false =>
      intro n r
      rw [eq_self_iff_true]
      exact Resolve.Gives.pure _ n r
    | true =>
      intro n r
      exact ⟨fun h => (nomatch h), fun h => (nomatch h.1)⟩
  rw [hgo, List.foldlM_cons, readEntry_version, pure_bind, List.foldlM_cons]
  simp only [List.foldlM_nil, bind_pure]
  exact (gives_readEntry_section hk hheight).bind hfinish

/-- A document with a version and one section is read just if all that is in the section
stands for something and no key is repeated, and then as a configuration of that section. -/
theorem ofDocument_section_eq_ok_iff {k : Scalar} {c : Content} {configuration : Configuration}
    (hk : k.text ≠ "version" ∧ k.text ≠ "renderer") (hheight : c.height ≤ sectionDepth) :
    ofDocument (.ofRoot (Content.mapping [(⟨.plain, "network"⟩, .mapping
      [(⟨.plain, "version"⟩, .scalar ⟨.plain, "2"⟩), (k, c)])]).node) = .ok configuration ↔
      (c.HasValues ∧ c.value.hasRepeatedKey = false) ∧
        configuration = { sections := OrderedMap.ofList [(k.text, c.value)] } := by
  let inner := (Content.mapping [(⟨.plain, "version"⟩, .scalar ⟨.plain, "2"⟩), (k, c)]).node
  let doc : Document := .ofRoot (.mapping {} [(Scalar.node ⟨.plain, "network"⟩, inner)])
  have hentry : readRootEntry doc none (Scalar.node ⟨.plain, "network"⟩, inner) =
      (do return some (← readNetwork doc inner)) := rfl
  have hfold : Resolve.Gives
      ([(Scalar.node ⟨.plain, "network"⟩, inner)].foldlM (readRootEntry doc) none)
      (c.HasValues ∧ c.value.hasRepeatedKey = false)
      (some { sections := OrderedMap.ofList [(k.text, c.value)] }) := by
    rw [List.foldlM_cons, hentry]
    simp only [List.foldlM_nil, bind_pure]
    exact (gives_readNetwork_section hk hheight).map some
  have hread : ofDocument doc =
      ((([(Scalar.node ⟨.plain, "network"⟩, inner)].foldlM (readRootEntry doc) none).run 0).bind
        (fun found => .ok (found.1.getD {}))) := rfl
  change ofDocument doc = .ok configuration ↔ _
  rw [hread]
  constructor
  · intro h
    cases hrun : ([(Scalar.node ⟨.plain, "network"⟩, inner)].foldlM (readRootEntry doc) none).run 0 with
    | error e =>
      rw [hrun] at h
      cases h
    | ok found =>
      obtain ⟨hvalues, rfl⟩ := (hfold 0 found).1 hrun
      rw [hrun] at h
      exact ⟨hvalues, (Except.ok.inj h).symm⟩
  · rintro ⟨hvalues, rfl⟩
    rw [(hfold 0 _).2 ⟨hvalues, rfl⟩]
    rfl

end Configuration

end NetProfile
