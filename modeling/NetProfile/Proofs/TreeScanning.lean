import NetProfile.Proofs.EntryScanning

/-!
# Reading the tokens of mapping trees

The scanner undoes the printing of a mapping tree: from the text of a tree it reads
the tokens that recursion on the tree gives.

## Main definitions

- `MappingTree.Every` — conditions on the keys and the values of a tree
- `MappingTree.entryTokens`, `Content.tokens` — the tokens of a tree
- `Scalar.IsKey` — scalars that can be keys

## Main results

- `MappingTree.readsEntries` — the entries of a mapping, among the lines of others
- `MappingTree.tokens_print` — a whole document
-/

namespace NetProfile

namespace Yaml

mutual

/-- The keys and the scalars of a value satisfy their conditions. -/
def Content.Every (onKeys onValues : Scalar → Prop) : Content → Prop
  | .scalar s => onValues s
  | .mapping t => MappingTree.Every onKeys onValues t

/-- The keys and the scalars of a tree satisfy their conditions. -/
def MappingTree.Every (onKeys onValues : Scalar → Prop) : MappingTree → Prop
  | [] => True
  | (k, c) :: rest => onKeys k ∧ c.Every onKeys onValues ∧ MappingTree.Every onKeys onValues rest

end

mutual

theorem Content.Every.mono {p p' q q' : Scalar → Prop} (hp : ∀ s, p s → p' s) (hq : ∀ s, q s → q' s) :
    ∀ {c : Content}, c.Every p q → c.Every p' q'
  | .scalar s, h => hq s h
  | .mapping t, h => MappingTree.Every.mono hp hq (t := t) h

theorem MappingTree.Every.mono {p p' q q' : Scalar → Prop} (hp : ∀ s, p s → p' s)
    (hq : ∀ s, q s → q' s) : ∀ {t : MappingTree}, t.Every p q → t.Every p' q'
  | [], _ => trivial
  | (k, _) :: rest, h =>
    ⟨hp k h.1, Content.Every.mono hp hq h.2.1, MappingTree.Every.mono hp hq (t := rest) h.2.2⟩

end

mutual

/-- The tokens of a value. -/
def Content.tokens : Content → List Token
  | .scalar s => [.scalar s.text s.isBare]
  | .mapping [] => [.flowMappingStart, .flowMappingEnd]
  | .mapping (entry :: rest) =>
    .blockMappingStart :: (MappingTree.entryTokens (entry :: rest) ++ [.blockEnd])

/-- The tokens of the entries of a mapping. -/
def MappingTree.entryTokens : MappingTree → List Token
  | [] => []
  | (k, c) :: rest =>
    .key :: .scalar k.text k.isBare :: .value :: (c.tokens ++ MappingTree.entryTokens rest)

end

/-- Whether the scalar comes through a document as a key: a key may take 1024 bytes as
it is written. -/
def Scalar.IsKey (s : Scalar) : Prop := s.Clean ∧ byteCount s.written ≤ 1024

/-- The tokens of a mapping that has entries. -/
theorem Content.tokens_mapping {t : MappingTree} (ht : t ≠ []) :
    (mapping t).tokens = .blockMappingStart :: (t.entryTokens ++ [.blockEnd]) := by
  cases t with
  | nil => exact absurd rfl ht
  | cons entry t => rfl

namespace MappingTree

section Lines

variable {depth : Nat} {k v : Scalar} {t rest : MappingTree}

theorem toList_printEntries_scalar :
    (printEntries depth ((k, .scalar v) :: rest)).toList =
      List.replicate (2 * depth) ' ' ++ (k.written ++ ':' :: ' ' ::
        (v.written ++ '\n' :: (printEntries depth rest).toList)) := by
  simp [printEntries, Content.print, margin, Scalar.token, String.toList_append]

theorem toList_printEntries_empty :
    (printEntries depth ((k, .mapping []) :: rest)).toList =
      List.replicate (2 * depth) ' ' ++ (k.written ++ ':' :: ' ' :: '\x7b' :: '\x7d' :: '\n' ::
        (printEntries depth rest).toList) := by
  simp [printEntries, Content.print, margin, Scalar.token, String.toList_append]

theorem toList_printEntries_mapping (ht : t ≠ []) :
    (printEntries depth ((k, .mapping t) :: rest)).toList =
      List.replicate (2 * depth) ' ' ++ (k.written ++ ':' :: '\n' ::
        ((printEntries (depth + 1) t).toList ++ (printEntries depth rest).toList)) := by
  cases t with
  | nil => exact absurd rfl ht
  | cons entry t =>
    simp [printEntries, Content.print, margin, Scalar.token, String.toList_append]

/-- The characters of entries begin with a margin and a key. -/
theorem exists_toList_printEntries (c : Content) :
    ∃ more, (printEntries depth ((k, c) :: rest)).toList =
      List.replicate (2 * depth) ' ' ++ (k.written ++ more) := by
  refine ⟨':' :: ((c.print depth).toList ++ (printEntries depth rest).toList), ?_⟩
  simp [printEntries, margin, Scalar.token, String.toList_append]

/-- Only keys at the margin begin their lines. -/
theorem beginsLine_of_mem {entry : Scalar × Content}
    (hstart : depth = 0 → ∀ entry ∈ t, entry.1.BeginsLine) (hentry : entry ∈ t) :
    2 * depth = 0 → entry.1.BeginsLine := fun h => hstart (by omega) entry hentry

/-- Behind a line of a mapping comes a line that is not indented further. -/
theorem exists_next_line (hrest : rest.Every Scalar.IsKey Scalar.Clean)
    (hstart : depth = 0 → ∀ entry ∈ rest, entry.1.BeginsLine) {n : Nat} {tail : List Char}
    (hn : n ≤ 2 * depth) (htail : StartsToken n tail) :
    ∃ n' tail', n' ≤ 2 * depth ∧ StartsToken n' tail' ∧
      (printEntries depth rest).toList ++ (List.replicate n ' ' ++ tail) =
        List.replicate n' ' ' ++ tail' := by
  rcases rest with _ | ⟨⟨k, c⟩, rest⟩
  · exact ⟨n, tail, hn, htail, by simp [printEntries]⟩
  · obtain ⟨more, hmore⟩ := @exists_toList_printEntries depth k rest c
    refine ⟨2 * depth, k.written ++ (more ++ (List.replicate n ' ' ++ tail)), Nat.le_refl _,
      Scalar.startsToken_written hrest.1.1 (beginsLine_of_mem hstart List.mem_cons_self) _, ?_⟩
    rw [hmore, List.append_assoc, List.append_assoc]

end Lines

/-- The entries of a mapping are read, wherever it stands: in front of them whatever is
deeper is closed and the mapping opened, and behind them its tokens have been read. The
keys of the outermost mapping stand at the start of their lines. -/
def ReadsEntries (t : MappingTree) : Prop :=
  ∀ {depth n : Nat} {s : Scanner} {b : Blocks} {tail : List Char},
    t.Every Scalar.IsKey Scalar.Clean → t ≠ [] →
    (depth = 0 → ∀ entry ∈ t, entry.1.BeginsLine) →
    s.AtLine ((printEntries depth t).toList ++ (List.replicate n ' ' ++ tail)) b →
    (b.close (2 * depth : Nat)).indent ≤ (2 * depth : Nat) → n ≤ 2 * depth → StartsToken n tail →
    ∃ s' b', s.Reads s' ∧ s'.AtLine (List.replicate n ' ' ++ tail) b' ∧
      b'.close (2 * depth : Nat) =
        ((b.close (2 * depth : Nat)).enter (2 * depth : Nat)).emits (entryTokens t)

/-- Further entries of a mapping that is open are read. -/
theorem ReadsEntries.further {rest : MappingTree} (h : ReadsEntries rest) {depth n : Nat}
    {s : Scanner} {b c : Blocks} {tail : List Char} (hrest : rest.Every Scalar.IsKey Scalar.Clean)
    (hstart : depth = 0 → ∀ entry ∈ rest, entry.1.BeginsLine)
    (hs : s.AtLine ((printEntries depth rest).toList ++ (List.replicate n ' ' ++ tail)) b)
    (hclose : b.close (2 * depth : Nat) = c) (hc : c.indent = (2 * depth : Nat))
    (hn : n ≤ 2 * depth) (htail : StartsToken n tail) :
    ∃ s' b', s.Reads s' ∧ s'.AtLine (List.replicate n ' ' ++ tail) b' ∧
      b'.close (2 * depth : Nat) = c.emits (entryTokens rest) := by
  by_cases hnil : rest = []
  · subst hnil
    refine ⟨s, b, .refl s, ?_, hclose⟩
    simpa [printEntries] using hs
  · obtain ⟨s', b', hreads, hline, hb'⟩ :=
      h hrest hnil hstart hs (Int.le_of_eq (by rw [hclose, hc])) hn htail
    refine ⟨s', b', hreads, hline, ?_⟩
    rw [hb', hclose, Blocks.enter_of_indent hc]

/-- What `reads_key` leaves of the open collections: one mapping at the key's column. -/
theorem indent_emits_enter {b : Blocks} {column : Nat} (h : b.indent ≤ column) (ts : List Token) :
    ((b.enter column).emits ts).indent = column :=
  Blocks.indent_enter h

namespace ReadsEntries

variable {k v : Scalar} {t rest : MappingTree}

/-- An entry with a scalar takes one line. -/
theorem cons_scalar (h : ReadsEntries rest) : ReadsEntries ((k, .scalar v) :: rest) := by
  intro depth n s b tail hevery _ hstart hs hindent hn htail
  obtain ⟨⟨hclean, hshort⟩, hv, hrest⟩ := hevery
  have hstart' : depth = 0 → ∀ entry ∈ rest, entry.1.BeginsLine :=
    fun h entry hentry => hstart h entry (List.mem_cons_of_mem _ hentry)
  obtain ⟨n', tail', hn', htail', hnext⟩ := exists_next_line hrest hstart' hn htail
  rw [toList_printEntries_scalar] at hs
  simp only [List.append_assoc, List.cons_append, hnext] at hs
  obtain ⟨p, hp, hkey⟩ := Scanner.reads_key hs hclean hshort rfl hindent
    (beginsLine_of_mem hstart List.mem_cons_self)
  let b₁ := ((b.close (2 * depth : Nat)).enter (2 * depth : Nat)).emits
    [.key, .scalar k.text k.isBare, .value]
  have hcolumn : b₁.indent = (2 * depth : Nat) := indent_emits_enter hindent _
  obtain ⟨s₁, hscalar, hline⟩ := @Scanner.reads_scalar v tail' p b₁ n' hv
    (by rw [hcolumn]; omega) (by rw [hcolumn]; omega) htail'
  rw [← hnext] at hline
  obtain ⟨s', b', hreads, hline', hb'⟩ := h.further hrest hstart' hline
    (Blocks.close_of_le (Int.le_of_eq hcolumn)) hcolumn hn htail
  refine ⟨s', b', hkey.trans (hscalar.trans hreads), hline', ?_⟩
  rw [hb', Blocks.emits_emits, Blocks.emits_emits]
  rfl

/-- So does an entry with an empty mapping. -/
theorem cons_empty (h : ReadsEntries rest) : ReadsEntries ((k, .mapping []) :: rest) := by
  intro depth n s b tail hevery _ hstart hs hindent hn htail
  obtain ⟨⟨hclean, hshort⟩, -, hrest⟩ := hevery
  rw [toList_printEntries_empty] at hs
  simp only [List.append_assoc, List.cons_append] at hs
  obtain ⟨p, hp, hkey⟩ := Scanner.reads_key hs hclean hshort rfl hindent
    (beginsLine_of_mem hstart List.mem_cons_self)
  let b₁ := ((b.close (2 * depth : Nat)).enter (2 * depth : Nat)).emits
    [.key, .scalar k.text k.isBare, .value]
  have hcolumn : b₁.indent = (2 * depth : Nat) := indent_emits_enter hindent _
  obtain ⟨s₁, hvalue, hline⟩ := @Scanner.reads_emptyMapping
    ((printEntries depth rest).toList ++ (List.replicate n ' ' ++ tail)) p b₁
    (by rw [hcolumn]; omega)
  obtain ⟨s', b', hreads, hline', hb'⟩ := h.further hrest
    (fun h entry hentry => hstart h entry (List.mem_cons_of_mem _ hentry)) hline
    (Blocks.close_of_le (Int.le_of_eq hcolumn)) hcolumn hn htail
  refine ⟨s', b', hkey.trans (hvalue.trans hreads), hline', ?_⟩
  rw [hb', Blocks.emits_emits, Blocks.emits_emits]
  rfl

/-- An entry with a mapping that has entries is a line of its key and the lines of that
mapping. -/
theorem cons_mapping (ht : t ≠ []) (hinside : ReadsEntries t) (h : ReadsEntries rest) :
    ReadsEntries ((k, .mapping t) :: rest) := by
  intro depth n s b tail hevery _ hstart hs hindent hn htail
  obtain ⟨⟨hclean, hshort⟩, hevery, hrest⟩ := hevery
  have hstart' : depth = 0 → ∀ entry ∈ rest, entry.1.BeginsLine :=
    fun h entry hentry => hstart h entry (List.mem_cons_of_mem _ hentry)
  obtain ⟨n', tail', hn', htail', hnext⟩ := exists_next_line hrest hstart' hn htail
  rw [toList_printEntries_mapping ht] at hs
  simp only [List.append_assoc, List.cons_append, hnext] at hs
  obtain ⟨p, hp, hkey⟩ := Scanner.reads_key hs hclean hshort rfl hindent
    (beginsLine_of_mem hstart List.mem_cons_self)
  -- The entries inside stand deeper. They open their mapping, whose end is read when the
  -- next line of this one comes.
  let b₁ := ((b.close (2 * depth : Nat)).enter (2 * depth : Nat)).emits
    [.key, .scalar k.text k.isBare, .value]
  have hcolumn : b₁.indent = (2 * depth : Nat) := indent_emits_enter hindent _
  have hkeep : b₁.close (2 * (depth + 1) : Nat) = b₁ :=
    Blocks.close_of_le (by rw [hcolumn]; omega)
  obtain ⟨s₁, b₂, hinner, hline, hb₂⟩ := @hinside (depth + 1) n' _ b₁ tail' hevery ht
    (fun h => absurd h (Nat.succ_ne_zero _)) Scanner.atLine_behindColon
    (by rw [hkeep, hcolumn]; omega) (by omega) htail'
  rw [← hnext] at hline
  have hb₂' : b₂.close (2 * depth : Nat) = b₁.emits (Content.mapping t).tokens := by
    rw [hkeep] at hb₂
    rw [Content.tokens_mapping ht]
    exact Blocks.close_nested hcolumn (by omega) hb₂
  obtain ⟨s', b', hreads, hline', hb'⟩ := h.further hrest hstart' hline hb₂' hcolumn hn htail
  refine ⟨s', b', hkey.trans (hinner.trans hreads), hline', ?_⟩
  rw [hb', Blocks.emits_emits, Blocks.emits_emits]
  rfl

end ReadsEntries

/-- The scanner reads the entries of every mapping. -/
theorem readsEntries (t : MappingTree) : ReadsEntries t := by
  induction t using MappingTree.induction with
  | nil =>
    intro depth n s b tail _ hne
    exact absurd rfl hne
  | scalar k v rest ih => exact ih.cons_scalar
  | mapping k t rest iht ih =>
    by_cases hempty : t = []
    · subst hempty
      exact ih.cons_empty
    · exact ReadsEntries.cons_mapping hempty iht ih

/-- The lines of entries have only characters that documents may contain. -/
theorem isAllowed_of_mem_printEntries (t : MappingTree) {depth : Nat}
    (h : t.Every Scalar.IsKey Scalar.Clean) {c : Char} (hc : c ∈ (printEntries depth t).toList) :
    isAllowed c = true := by
  have hspace : ∀ {n : Nat}, c ∈ List.replicate n ' ' → isAllowed c = true := by
    intro n hmem
    rw [List.eq_of_mem_replicate hmem]
    decide
  induction t using MappingTree.induction generalizing depth with
  | nil => exact absurd hc (by simp [printEntries])
  | scalar k v rest ih =>
    obtain ⟨hk, hv, hrest⟩ := h
    rw [toList_printEntries_scalar] at hc
    simp only [List.mem_append, List.mem_cons] at hc
    rcases hc with hc | hc | rfl | rfl | hc | rfl | hc
    · exact hspace hc
    · exact Scalar.isAllowed_of_mem_written hk.1 hc
    · decide
    · decide
    · exact Scalar.isAllowed_of_mem_written hv hc
    · decide
    · exact ih hrest hc
  | mapping k t rest iht ih =>
    obtain ⟨hk, ht, hrest⟩ := h
    by_cases hempty : t = []
    · subst hempty
      rw [toList_printEntries_empty] at hc
      simp only [List.mem_append, List.mem_cons] at hc
      rcases hc with hc | hc | rfl | rfl | rfl | rfl | rfl | hc
      · exact hspace hc
      · exact Scalar.isAllowed_of_mem_written hk.1 hc
      · decide
      · decide
      · decide
      · decide
      · decide
      · exact ih hrest hc
    · rw [toList_printEntries_mapping hempty] at hc
      simp only [List.mem_append, List.mem_cons] at hc
      rcases hc with hc | hc | rfl | rfl | hc | hc
      · exact hspace hc
      · exact Scalar.isAllowed_of_mem_written hk.1 hc
      · decide
      · decide
      · exact iht ht hc
      · exact ih hrest hc

/-- Where all characters are allowed, none is found that is not. -/
theorem forbiddenStretch?_eq_none {text : List Char} (h : ∀ c ∈ text, isAllowed c = true)
    (start index : Nat) : forbiddenStretch? start index text = none := by
  induction text generalizing start index with
  | nil => rfl
  | cons c rest ih =>
    rw [forbiddenStretch?, h c List.mem_cons_self]
    exact ih (fun d hd => h d (List.mem_cons_of_mem c hd)) _ _

/-- At the end of the text everything is closed, and that is the last token. -/
theorem fetch_atEnd {s : Scanner} {b : Blocks} (h : s.AtLine [] b) {c : Blocks}
    (hb : (b.close 0).close (-1) = c) :
    ∃ s', s.fetch = .ok s' ∧ s'.tokens = .streamEnd :: c.tokens := by
  obtain ⟨p, hp, hgap⟩ := Scanner.AtLine.skipGap_eq (n := 0) h (by intro _ hc; cases hc)
  have hhere : (Scanner.resting [] p (b.close 0)).fetchHere =
      .ok ({ Scanner.resting [] p c with keyAllowed := false }.emit .streamEnd) := by
    show (Scanner.resting [] p (b.close 0)).fetchEnd = _
    rw [Scanner.fetchEnd]
    have hcolumn : (Scanner.resting [] p (b.close 0)).position.column = 0 := hp
    rw [if_pos hcolumn, Scanner.closeBlocks_resting, hb]
    rfl
  refine ⟨{ Scanner.resting [] p c with keyAllowed := false }.emit .streamEnd, ?_, rfl⟩
  apply Scanner.fetch_eq hgap rfl
  · rw [Scanner.closeBlocks_resting]
    rfl
  · rw [Scanner.closeBlocks_resting]
    show (Scanner.resting [] p (b.close p.column)).fetchHere = _
    rw [hp]
    exact hhere
  · rfl
  · rfl

/-- The tokens of a document are those of its tree. -/
theorem tokens_print {t : MappingTree} (hne : t ≠ []) (h : t.Every Scalar.IsKey Scalar.Clean)
    (hstart : ∀ entry ∈ t, entry.1.BeginsLine) :
    tokens t.print.toList =
      { tokens := .blockMappingStart :: (entryTokens t ++ [.blockEnd, .streamEnd]) } := by
  let start : Blocks := ⟨[], -1, []⟩
  have hprint : t.print.toList = (printEntries 0 t).toList := by
    cases t with
    | nil => exact absurd rfl hne
    | cons entry t => rfl
  have hlimit : forbiddenStretch? 0 0 t.print.toList = none := by
    apply forbiddenStretch?_eq_none
    intro c hc
    rw [hprint] at hc
    exact isAllowed_of_mem_printEntries t h hc
  have hfirst : tokens t.print.toList =
      fetchAll (t.print.toList.length + 1) (Scanner.resting t.print.toList {} start) := by
    rw [tokens, hlimit]
    rfl
  have hline : (Scanner.resting t.print.toList {} start).AtLine
      ((printEntries 0 t).toList ++ (List.replicate 0 ' ' ++ [])) start := by
    refine ⟨{}, rfl, ?_⟩
    rw [List.replicate_zero, List.append_nil, List.append_nil, hprint]
  obtain ⟨s', b', hreads, hend, hb'⟩ := readsEntries t h hne (fun _ => hstart) hline
    (by decide) (Nat.le_refl _) (by intro _ hc; cases hc)
  obtain ⟨fuel, hfuel, hall⟩ := @fetchAll_of_reads _ _ hreads (t.print.toList.length + 1)
    (Nat.lt_succ_self _)
  obtain ⟨s'', hfetch, htokens⟩ := fetch_atEnd hend (c := ⟨.blockEnd ::
    ((entryTokens t).reverse ++ [.blockMappingStart]), -1, []⟩) (by
      have hzero : b'.close 0 = (start.enter 0).emits (entryTokens t) := hb'
      rw [hzero]
      rfl)
  rcases fuel with _ | fuel
  · exact absurd hfuel (Nat.not_lt_zero _)
  · rw [hfirst, hall, fetchAll, hfetch]
    dsimp only
    rw [htokens, List.head?_cons, if_pos rfl]
    simp

end MappingTree

end Yaml

end NetProfile
