import NetProfile.Proofs.TreeScanning

/-!
# Decoding quoted texts

What stands between double quotes is cut into pieces, each of which spells one character:
a character that stands for itself, or a backslash with a letter or with digits behind
it. There is one way only to cut a text so, and `quote` writes a text so that the pieces
spell it. They keep to one line and hold no character that could be mistaken, and the
reader stops behind the closing quote.

## Main definitions

- `Spells` — the piece that stands for one character
- `SpellsText` — what stands between the quotes for a text

## Main results

- `SpellsText.split` — reading on from where a piece ends
- `SpellsText.unique` — at most one text is spelled
- `quote_decodes` — a quoted text, and how it is read
-/

namespace NetProfile

namespace Yaml

/-- The number that hexadecimal digits write. -/
def hexValue? (digits : List Char) : Option Nat :=
  digits.foldlM (fun n d => (Text.hexDigitValue? d).map (n * 16 + ·)) 0

/-- A piece between double quotes and the character that it spells. -/
inductive Spells : List Char → Char → Prop where
  | itself {c : Char} : c ≠ '"' → c ≠ '\\' → isBreak c = false → Spells [c] c
  | named {e c : Char} : escapeMeaning? e = some (.char c) → Spells ['\\', e] c
  | numbered {e c : Char} {digits : List Char} :
      escapeMeaning? e = some (.digits digits.length) → hexValue? digits = some c.toNat →
      Spells ('\\' :: e :: digits) c

/-- Pieces between double quotes, one behind the other, and the text that they spell. -/
inductive SpellsText : List Char → List Char → Prop where
  | nil : SpellsText [] []
  | cons {piece body s : List Char} {c : Char} :
      Spells piece c → SpellsText body s → SpellsText (piece ++ body) (c :: s)

namespace Spells

variable {piece piece' r r' : List Char} {c c' d : Char}

theorem ne_nil (h : Spells piece c) : piece ≠ [] := by
  cases h <;> exact List.cons_ne_nil _ _

theorem head_ne_quote (h : Spells (d :: piece) c) : d ≠ '"' := by
  cases h with
  | itself hquote => exact hquote
  | named => decide
  | numbered => decide

/-- Where a piece begins it is told by what follows which piece it is. -/
theorem append_inj (h : Spells piece c) (h' : Spells piece' c') (heq : piece ++ r = piece' ++ r') :
    piece = piece' ∧ c = c' ∧ r = r' := by
  cases h with
  | itself _ hbackslash =>
    cases h' with
    | itself => simpa using heq
    | named => exact absurd (List.cons.inj heq).1 hbackslash
    | numbered => exact absurd (List.cons.inj heq).1 hbackslash
  | @named e _ hmeaning =>
    cases h' with
    | itself _ hbackslash => exact absurd (List.cons.inj heq).1.symm hbackslash
    | named hmeaning' =>
      simp only [List.cons_append, List.nil_append, List.cons.injEq, true_and] at heq
      obtain ⟨rfl, rfl⟩ := heq
      rw [hmeaning, Option.some.injEq, EscapeMeaning.char.injEq] at hmeaning'
      exact ⟨rfl, hmeaning', rfl⟩
    | numbered hcount' =>
      obtain rfl := (List.cons.inj (List.cons.inj heq).2).1
      rw [hmeaning] at hcount'
      cases hcount'
  | @numbered e _ digits hcount hvalue =>
    cases h' with
    | itself _ hbackslash => exact absurd (List.cons.inj heq).1.symm hbackslash
    | named hmeaning' =>
      obtain rfl := (List.cons.inj (List.cons.inj heq).2).1
      rw [hmeaning'] at hcount
      cases hcount
    | @numbered _ _ digits' hcount' hvalue' =>
      simp only [List.cons_append, List.cons.injEq, true_and] at heq
      obtain ⟨rfl, hrest⟩ := heq
      -- The letter tells how many digits there are.
      rw [hcount, Option.some.injEq, EscapeMeaning.digits.injEq] at hcount'
      obtain ⟨rfl, rfl⟩ := List.append_inj hrest hcount'
      rw [hvalue, Option.some.injEq] at hvalue'
      exact ⟨rfl, Char.toNat_inj.1 hvalue', rfl⟩

end Spells

namespace SpellsText

variable {body before after s t : List Char} {c : Char}

theorem nil_iff : SpellsText [] s ↔ s = [] := by
  constructor
  · intro h
    generalize hbody : ([] : List Char) = body at h
    cases h with
    | nil => rfl
    | cons hpiece _ =>
      rw [List.nil_eq, List.append_eq_nil_iff] at hbody
      exact absurd hbody.1 hpiece.ne_nil
  · rintro rfl
    exact .nil

theorem exists_piece (h : SpellsText (c :: body) s) :
    ∃ piece d rest s', c :: body = piece ++ rest ∧ Spells piece d ∧ SpellsText rest s' ∧
      s = d :: s' := by
  generalize hbody : c :: body = text at h
  cases h with
  | nil => cases hbody
  | cons hpiece hrest => exact ⟨_, _, _, _, rfl, hpiece, hrest, rfl⟩

/-- Where a beginning is spelled out, the rest is spelled on its own. -/
theorem split (hbefore : SpellsText before t) (h : SpellsText (before ++ after) s) :
    ∃ s', SpellsText after s' ∧ s = t ++ s' := by
  induction hbefore generalizing s with
  | nil => exact ⟨s, h, rfl⟩
  | @cons piece rest t c hpiece hrest ih =>
    obtain ⟨d, more, hd⟩ := List.exists_cons_of_ne_nil hpiece.ne_nil
    rw [hd, List.append_assoc, List.cons_append] at h
    obtain ⟨piece', c', rest', s', heq, hpiece', hrest', rfl⟩ := exists_piece h
    rw [← List.cons_append, ← hd] at heq
    obtain ⟨-, rfl, rfl⟩ := hpiece.append_inj hpiece' heq
    obtain ⟨s'', hafter, rfl⟩ := ih hrest'
    exact ⟨s'', hafter, rfl⟩

/-- At most one text is spelled. -/
theorem unique (h : SpellsText body s) (h' : SpellsText body t) : t = s := by
  rw [← List.append_nil body] at h'
  obtain ⟨s', hnil, rfl⟩ := h.split h'
  rw [nil_iff.1 hnil, List.append_nil]

/-- Behind what is spelled out stands no quote, and a backslash begins an escape. -/
theorem spells_behind (h : SpellsText (before ++ c :: after) s) (hbefore : SpellsText before t) :
    c ≠ '"' ∧ ∃ piece d rest, c :: after = piece ++ rest ∧ Spells piece d := by
  obtain ⟨s', hafter, -⟩ := hbefore.split h
  obtain ⟨piece, d, rest, -, heq, hpiece, -, -⟩ := exists_piece hafter
  refine ⟨?_, piece, d, rest, heq, hpiece⟩
  obtain ⟨e, more, rfl⟩ := List.exists_cons_of_ne_nil hpiece.ne_nil
  rw [(List.cons.inj heq).1]
  exact hpiece.head_ne_quote

end SpellsText

/-! ### Written texts -/

theorem hexValue?_hexByte {n : Nat} (h : n < 256) : hexValue? (Text.hexByte n) = some n := by
  have hhigh := Text.hexDigitValue?_hexDigit (n := n / 16) (by omega)
  have hlow := Text.hexDigitValue?_hexDigit (n := n % 16) (by omega)
  simp only [hexValue?, Text.hexByte, List.foldlM_cons, List.foldlM_nil, hhigh, hlow,
    Option.map_some, Option.bind_eq_bind, Option.bind_some, Option.pure_def, Option.some.injEq]
  omega

theorem spells_quoteChar (c : Char) : Spells (quoteChar c) c := by
  rw [quoteChar]
  split
  case h_16 h =>
    obtain rfl := eq_ofNat_of_toNat h
    exact @Spells.numbered 'u' _ ['F', 'E', 'F', 'F'] (by decide) (by decide)
  case h_17 hquote hbackslash _ _ _ _ hlf _ _ hcr _ hnel _ hls hps _ =>
    split
    · next hcontrol =>
      have hlt : c.toNat < 256 := by
        simp only [Text.isControl, Bool.or_eq_true, Bool.and_eq_true, decide_eq_true_eq] at hcontrol
        omega
      exact .numbered rfl (hexValue?_hexByte hlt)
    · have hbreak : isBreak c = false := by
        simp only [isBreak, Bool.or_eq_false_iff, beq_eq_false_iff_ne]
        exact ⟨⟨⟨⟨hlf, hcr⟩, hnel⟩, hls⟩, hps⟩
      exact .itself (fun e => hquote (congrArg Char.toNat e))
        (fun e => hbackslash (congrArg Char.toNat e)) hbreak
  all_goals
    next h =>
    obtain rfl := eq_ofNat_of_toNat h
    exact .named (by decide)

theorem spellsText_flatMap_quoteChar (s : List Char) : SpellsText (s.flatMap quoteChar) s := by
  induction s with
  | nil => exact .nil
  | cons c s ih => exact .cons (spells_quoteChar c) ih

/-! ### Reading a quoted text -/

namespace Scanner

theorem dropStaleKey_of_not_required {s : Scanner} {k : PossibleKey} (hkey : s.blockKey = some k)
    (hk : k.required = false) :
    s.dropStaleKey = .ok s ∨ s.dropStaleKey = .ok { s with blockKey := none } := by
  rw [dropStaleKey, hkey]
  dsimp only
  rw [hk, if_neg Bool.false_ne_true]
  by_cases hstale : s.isStale k = true
  · rw [if_pos hstale]
    exact Or.inr rfl
  · rw [if_neg hstale]
    exact Or.inl rfl

/-- The first token of a text that begins with a quoted one is that text, and the reader
goes on behind the closing quote. -/
theorem fetch_quote {s rest : List Char} (hs : ∀ c ∈ s, isText c = true)
    (hrest : ∀ c ∈ rest, isAllowed c = true) :
    ∃ after : Scanner,
      fetch { rest := quote s ++ rest, limit := forbiddenStretch? 0 0 (quote s ++ rest) } =
        .ok after ∧
      after.rest = rest ∧ after.position = Position.along {} (quote s) ∧
      after.tokens = [.scalar (String.ofList s) false] := by
  have hallowed : ∀ c ∈ quote s ++ rest, isAllowed c = true := by
    intro c hc
    rcases List.mem_append.1 hc with hc | hc
    · exact isAllowed_of_mem_quote hs hc
    · exact hrest c hc
  let fresh := resting (quote s ++ rest) {} ⟨[], -1, []⟩
  have hgap : fresh.skipGap = fresh := by
    have hstart : StartsToken (({} : Position).column + 0) (quote s ++ rest) := by
      intro c hc
      obtain rfl : '"' = c := Option.some.inj hc
      decide
    exact skipGap_resting hstart
  have hclose : fresh.closeBlocks fresh.position.column = fresh :=
    closeBlocks_of_le (by simp [fresh, resting])
  -- A key may have begun at the quote, but none has to.
  let read := (({ fresh with blockKey := some (keyPlace {} ⟨[], -1, []⟩), keyAllowed := false } :
    Scanner).behind ⟨s, rest, Position.along {} (quote s)⟩).emit (.scalar (String.ofList s) false)
  have hhere : fresh.fetchHere = .ok read := by
    rw [fetchHere_quote (s := fresh) rfl, fetchQuoted_eq saveKey_resting (scanQuoted_quote s rest {})]
  have hfetch : fetch { rest := quote s ++ rest, limit := none } = read.dropStaleKey := by
    have hfresh : ({ rest := quote s ++ rest, limit := none } : Scanner) = fresh := rfl
    have hkey : fresh.dropStaleKey = .ok fresh := rfl
    rw [hfresh, fetch, hgap, hkey]
    simp only [bind, Except.bind, hclose, hhere]
    rfl
  rw [MappingTree.forbiddenStretch?_eq_none hallowed, hfetch]
  obtain hdrop | hdrop := dropStaleKey_of_not_required (s := read) rfl rfl
  · exact ⟨_, hdrop, rfl, rfl, rfl⟩
  · exact ⟨_, hdrop, rfl, rfl, rfl⟩

end Scanner

/-- A quoted text is one clean line that can be decoded without loss. Between its quotes
stand pieces that spell the text and no other, so that no quote stands on its own and each
backslash in front of a piece begins an escape, and no character that could be mistaken.
The reader takes just the quoted text off whatever follows; in documents that holds of
texts with characters that documents can bring. -/
theorem quote_decodes (s : List Char) :
    ∃ body, quote s = '"' :: (body ++ ['"']) ∧
      SpellsText body s ∧ (∀ t, SpellsText body t → t = s) ∧
      (∀ before c after t, body = before ++ c :: after → SpellsText before t →
        c ≠ '"' ∧ ∃ piece d rest, c :: after = piece ++ rest ∧ Spells piece d) ∧
      (∀ c ∈ body, Text.isControl c = false ∧ c.toNat ∉ [0xA0, 0x2028, 0x2029, 0xFEFF]) ∧
      (∀ rest (p : Position), scanQuoted true (p.right 1) (body ++ '"' :: rest) =
        .ok ⟨s, rest, p.along (quote s)⟩) ∧
      ∀ rest, (∀ c ∈ s, isText c = true) → (∀ c ∈ rest, isAllowed c = true) →
        ∃ after : Scanner,
          Scanner.fetch
              { rest := quote s ++ rest, limit := forbiddenStretch? 0 0 (quote s ++ rest) } =
            .ok after ∧
          after.rest = rest ∧ after.position = Position.along {} (quote s) ∧
          after.tokens = [.scalar (String.ofList s) false] := by
  have hspells := spellsText_flatMap_quoteChar s
  refine ⟨s.flatMap quoteChar, rfl, hspells, fun t ht => hspells.unique ht, ?_, ?_, ?_, ?_⟩
  · rintro before c after t hbody ht
    rw [hbody] at hspells
    exact hspells.spells_behind ht
  · intro c hc
    obtain ⟨x, -, hx⟩ := List.mem_flatMap.1 hc
    exact isControl_of_mem_quoteChar hx
  · intro rest p
    have hscan := scanQuoted_quote s rest p
    rwa [quote, List.cons_append, List.drop_one, List.tail_cons, List.append_assoc,
      List.singleton_append] at hscan
  · intro rest hs hrest
    exact Scanner.fetch_quote hs hrest

/-- Escapes of each kind and a line separator, in front of a comment. -/
theorem quote_decodes_escapes :
    let s := ['"', '\\', '\n', Char.ofNat 1, Char.ofNat 0x2028, Char.ofNat 0xFEFF, ' ', 'é']
    let rest := " # more".toList
    (∀ c ∈ s, isText c = true) ∧ (∀ c ∈ rest, isAllowed c = true) ∧
      ∃ after : Scanner,
        Scanner.fetch
            { rest := quote s ++ rest, limit := forbiddenStretch? 0 0 (quote s ++ rest) } =
          .ok after ∧
        after.rest = rest ∧ after.tokens = [.scalar (String.ofList s) false] := by
  intro s rest
  have hs : ∀ c ∈ s, isText c = true := List.all_eq_true.1 (by decide)
  have hrest : ∀ c ∈ rest, isAllowed c = true := List.all_eq_true.1 (by decide)
  obtain ⟨-, -, -, -, -, -, -, hread⟩ := quote_decodes s
  obtain ⟨after, hfetch, hafter, -, htokens⟩ := hread rest hs hrest
  exact ⟨hs, hrest, after, hfetch, hafter, htokens⟩

end Yaml

end NetProfile
