import NetProfile.Proofs.LineScanning

/-!
# Reading the entries of block mappings

What the scanner does on one line of a block mapping: it reads a key, which becomes
one when its colon comes, and then a scalar, an empty mapping or the end of the line.

## Main definitions

- `Scalar.Clean` — scalars that come through a document
- `Scalar.BeginsLine` — scalars that may stand at the start of a line
- `Scanner.pending` — the scanner between a key and its colon

## Main results

- `Scanner.reads_key` — a key and its colon
- `Scanner.reads_scalar` — a scalar behind the colon
- `Scanner.reads_emptyMapping` — an empty mapping behind the colon
-/

namespace NetProfile

namespace Yaml

namespace Scalar

/-- The text has only characters that documents can hold, and without quotes it keeps
to one line. -/
def Clean (s : Scalar) : Prop :=
  (∀ c ∈ s.text.toList, isText c = true) ∧ (s.isBare = true → KeepsLine s.text.toList)

theorem isPlainSafe_of_isBare {s : Scalar} (h : s.isBare = true) :
    isPlainSafe s.text.toList = true := by
  rcases s with ⟨_ | _, text⟩
  · exact h
  · exact absurd h Bool.false_ne_true

theorem written_of_isBare {s : Scalar} (h : s.isBare = true) : s.written = s.text.toList := by
  rw [written, if_pos h]

theorem written_of_not_isBare {s : Scalar} (h : s.isBare = false) :
    s.written = quote s.text.toList := by
  rw [written, h, if_neg Bool.false_ne_true]

theorem written_ne_nil (s : Scalar) : s.written ≠ [] := by
  cases h : s.isBare with
  | false =>
    rw [written_of_not_isBare h]
    exact List.cons_ne_nil _ _
  | true =>
    rw [written_of_isBare h]
    exact ne_nil_of_isPlainSafe (isPlainSafe_of_isBare h)

/-- Whether the scalar can stand at the start of a line, where it is taken for no
document marker and its first character for no byte order mark. -/
structure BeginsLine (s : Scalar) : Prop where
  head : s.written.head? ≠ some byteOrderMark
  marker : ∀ rest, isDocumentMarker (s.written ++ rest) = false

/-- A token begins with the first character of a scalar. -/
theorem startsToken_written {s : Scalar} {column : Nat} (h : s.Clean)
    (hstart : column = 0 → s.BeginsLine) (rest : List Char) :
    StartsToken column (s.written ++ rest) := by
  intro c hc
  have hmark : column = 0 → c ≠ byteOrderMark := by
    rintro hcolumn rfl
    apply (hstart hcolumn).head
    rwa [List.head?_append_of_ne_nil _ s.written_ne_nil] at hc
  cases hbare : s.isBare with
  | false =>
    rw [written_of_not_isBare hbare, quote, List.cons_append, List.head?_cons,
      Option.mem_some_iff] at hc
    subst hc
    exact ⟨by decide, by decide, by decide, hmark⟩
  | true =>
    obtain ⟨d, s', hs, hbreak, hspace, hleading, -⟩ :=
      head_of_isPlainSafe (isPlainSafe_of_isBare hbare) (h.2 hbare)
    rw [written_of_isBare hbare, hs, List.cons_append, List.head?_cons, Option.mem_some_iff] at hc
    subst hc
    refine ⟨hbreak, hspace, ?_, hmark⟩
    rintro rfl
    exact hleading (by decide)

theorem isAllowed_of_mem_written {s : Scalar} (h : s.Clean) {c : Char} (hc : c ∈ s.written) :
    isAllowed c = true := by
  cases hbare : s.isBare with
  | false =>
    rw [written_of_not_isBare hbare] at hc
    exact isAllowed_of_mem_quote h.1 hc
  | true =>
    rw [written_of_isBare hbare] at hc
    exact isAllowed_of_isText (h.1 c hc)
      (isControl_of_isPlainSafe (isPlainSafe_of_isBare hbare) hc)

end Scalar

namespace Scanner

/-- Reading one token, put together from its parts where no key is given up. -/
theorem fetch_eq {s s₁ s₂ : Scanner} (hgap : s.skipGap = s₁) (hkey₁ : s₁.dropStaleKey = .ok s₁)
    (hlimit₁ : (s₁.closeBlocks s₁.position.column).limit = none)
    (hhere : (s₁.closeBlocks s₁.position.column).fetchHere = .ok s₂)
    (hlimit₂ : s₂.limit = none) (hkey₂ : s₂.dropStaleKey = .ok s₂) : s.fetch = .ok s₂ := by
  have hgo : ∀ (s : Scanner) (i : Nat), s.limit = none → s.requireUpTo i = .ok () := by
    intro s i h
    rw [requireUpTo, h]
    rfl
  -- Without a limit nothing is required of what has been looked through.
  rw [fetch, hgap, hkey₁]
  simp only [bind, Except.bind]
  rw [hgo _ _ hlimit₁]
  simp only [hhere]
  rw [hgo _ _ hlimit₂]
  exact hkey₂

section Here

variable {s : Scanner} {c : Char} {rest : List Char}

theorem fetchHere_quote (h : s.rest = '"' :: rest) : s.fetchHere = s.fetchQuoted true := by
  have hstart : startsDocument ('"' :: rest) = false := rfl
  have hend : endsDocument ('"' :: rest) = false := rfl
  rw [fetchHere, h]
  simp [hstart, hend]

theorem fetchHere_colon (h : s.rest = ':' :: rest) (hrest : endsWord rest = true) :
    s.fetchHere = s.fetchValue := by
  have hstart : startsDocument (':' :: rest) = false := rfl
  have hend : endsDocument (':' :: rest) = false := rfl
  rw [fetchHere, h]
  simp [hstart, hend, hrest]

/-- The text in front of which a plain scalar may begin, outside of flow collections. -/
structure BeginsPlain (c : Char) (rest : List Char) : Prop where
  isBreak : isBreak c = false
  isSpace : isSpace c = false
  leading : c ∉ leadingIndicators
  loose : c ∈ looseIndicators → endsWord rest = false

/-- Indicators are those of the start of a text, with or without a blank behind. -/
theorem mem_of_mem_indicators {c : Char} (h : c ∈ indicators) :
    c ∈ leadingIndicators ∨ c ∈ looseIndicators := by
  have hall : indicators.all (fun d =>
      decide (d ∈ leadingIndicators ∨ d ∈ looseIndicators)) = true := by decide
  exact of_decide_eq_true (List.all_eq_true.1 hall c h)

theorem startsPlain_of_beginsPlain (h : BeginsPlain c rest) :
    startsPlain false (c :: rest) = true := by
  rw [startsPlain]
  by_cases hmem : c ∈ looseIndicators
  · have hrest := h.loose hmem
    have hblank : rest.head?.any isSpace = false := by
      cases rest with
      | nil => rfl
      | cons d rest =>
        rw [endsWord, Bool.or_eq_false_iff] at hrest
        exact hrest.1
    simp only [looseIndicators, List.mem_cons, List.not_mem_nil, or_false] at hmem
    rcases hmem with rfl | rfl | rfl
    · simp [hblank]
    · simp [hrest]
    · simp [hrest]
  · have hindicator : c ∉ indicators := by
      intro hin
      rcases mem_of_mem_indicators hin with hleading | hin
      · exact h.leading hleading
      · exact hmem hin
    simp [h.isSpace, h.isBreak, hindicator]

/-- What begins a plain scalar begins nothing else. -/
theorem fetchHere_plain (h : s.rest = c :: rest) (hflow : s.inFlow = false)
    (hc : BeginsPlain c rest) (hmarker : s.position.column ≠ 0 ∨ isDocumentMarker s.rest = false) :
    s.fetchHere = s.fetchPlain := by
  have hne : ∀ d ∈ leadingIndicators, c ≠ d := by
    rintro d hd rfl
    exact hc.leading hd
  have hloose : ∀ d ∈ looseIndicators, ¬ (c = d ∧ endsWord rest = true) := by
    rintro d hd ⟨rfl, hrest⟩
    rw [hc.loose hd] at hrest
    exact Bool.false_ne_true hrest
  have hdocument : ¬ (s.position.column = 0 ∧ startsDocument s.rest = true) ∧
      ¬ (s.position.column = 0 ∧ endsDocument s.rest = true) := by
    rcases hmarker with hcolumn | hmarker
    · exact ⟨fun h => hcolumn h.1, fun h => hcolumn h.1⟩
    · rw [isDocumentMarker, Bool.or_eq_false_iff] at hmarker
      exact ⟨fun h => by simp [hmarker.1] at h, fun h => by simp [hmarker.2] at h⟩
  have hplain : startsPlain s.inFlow s.rest = true := by
    rw [h, hflow]
    exact startsPlain_of_beginsPlain hc
  -- One branch after another is passed over, down to the one of plain scalars.
  rw [fetchHere, h]
  dsimp only
  rw [← h]
  rw [if_neg (fun h => hne '%' (by decide) h.2), if_neg hdocument.1, if_neg hdocument.2,
    if_neg (hne _ (by decide)), if_neg (hne _ (by decide)), if_neg (hne _ (by decide)),
    if_neg (hne _ (by decide)), if_neg (hne _ (by decide)), if_neg (hloose _ (by decide)),
    if_neg, if_neg, if_neg (hne _ (by decide)), if_neg (hne _ (by decide)),
    if_neg (hne _ (by decide)), if_neg (fun h => hne '|' (by decide) h.1),
    if_neg (fun h => hne '>' (by decide) h.1), if_neg (hne _ (by decide)),
    if_neg (hne _ (by decide)), if_pos hplain]
  · rw [hflow]
    simpa using hloose ':' (by decide)
  · rw [hflow]
    simpa using hloose '?' (by decide)

end Here

/-- Between a key and its colon the place of the key is remembered. -/
def pending (text : List Char) (p : Position) (b : Blocks) (place : PossibleKey) : Scanner :=
  { resting text p b with blockKey := some place, keyAllowed := false }

/-- The place of a possible key that begins at rest. -/
def keyPlace (p : Position) (b : Blocks) : PossibleKey :=
  ⟨b.tokens.length, p, b.indent == (p.column : Int)⟩

theorem fetchQuoted_eq {s s' : Scanner} {piece : Piece (List Char)} (hsave : s.saveKey = .ok s')
    (hscan : scanQuoted true (s'.position.right 1) (s'.rest.drop 1) = .ok piece) :
    s.fetchQuoted true = .ok (({ s' with keyAllowed := false }.behind piece).emit
      (.scalar (String.ofList piece.value) false)) := by
  rw [fetchQuoted, hsave]
  simp only [bind, Except.bind, hscan]
  rfl

theorem fetchPlain_eq {s s' : Scanner} {piece : Piece PlainScalar} (hsave : s.saveKey = .ok s')
    (hscan : scanPlain ⟨s'.inFlow, (s'.indent + 1).toNat⟩ s'.position s'.rest = .ok piece) :
    s.fetchPlain = .ok (({ s' with keyAllowed := piece.value.endsOnNewLine }.behind piece).emit
      (.scalar (String.ofList piece.value.text) true)) := by
  rw [fetchPlain, hsave]
  simp only [bind, Except.bind, hscan]
  rfl

section Scalars

variable {text rest : List Char} {p : Position} {b : Blocks} {k : Scalar}

theorem saveKey_resting :
    (resting text p b).saveKey = .ok { resting text p b with blockKey := some (keyPlace p b) } := rfl

theorem saveKey_behindColon : (behindColon text p b).saveKey = .ok (behindColon text p b) := rfl

/-- What begins a scalar without quotes. -/
theorem beginsPlain_written (hk : k.Clean) (hbare : k.isBare = true) (tail : List Char) :
    ∃ c rest, k.written ++ tail = c :: rest ∧ BeginsPlain c rest := by
  obtain ⟨c, s, hs, hbreak, hspace, hleading, hloose⟩ :=
    head_of_isPlainSafe (Scalar.isPlainSafe_of_isBare hbare) (hk.2 hbare)
  refine ⟨c, s ++ tail, ?_, hbreak, hspace, hleading, fun hc => hloose hc tail⟩
  rw [Scalar.written_of_isBare hbare, hs, List.cons_append]

/-- A scalar at rest is read, and it may be a key. -/
theorem fetchHere_key (hk : k.Clean) (hrest : endsWord rest = true) (hindent : b.indent ≤ p.column)
    (hmarker : p.column ≠ 0 ∨ isDocumentMarker (k.written ++ ':' :: rest) = false) :
    (resting (k.written ++ ':' :: rest) p b).fetchHere =
      .ok (pending (':' :: rest) (p.along k.written) (b.emits [.scalar k.text k.isBare])
        (keyPlace p b)) := by
  cases hbare : k.isBare with
  | false =>
    have hwritten := Scalar.written_of_not_isBare hbare
    have hscan := scanQuoted_quote k.text.toList (':' :: rest) p
    rw [← hwritten] at hscan
    have hhead : (resting (k.written ++ ':' :: rest) p b).rest =
        '"' :: (k.text.toList.flatMap quoteChar ++ ['"'] ++ ':' :: rest) := by
      rw [hwritten]
      rfl
    rw [fetchHere_quote hhead, fetchQuoted_eq saveKey_resting hscan, String.ofList_toList]
    rfl
  | true =>
    have hwritten := Scalar.written_of_isBare hbare
    have htext : String.ofList k.written = k.text := by rw [hwritten, String.ofList_toList]
    have hscan : scanPlain ⟨false, (b.indent + 1).toNat⟩ p (k.text.toList ++ ':' :: rest) =
        .ok ⟨⟨k.text.toList, false⟩, ':' :: rest, p.along k.text.toList⟩ :=
      scanPlain_key (Scalar.isPlainSafe_of_isBare hbare) (hk.2 hbare) (by omega) hrest
    rw [← hwritten] at hscan
    obtain ⟨c, tail, hhead, hbegins⟩ := beginsPlain_written hk hbare (':' :: rest)
    rw [fetchHere_plain hhead rfl hbegins hmarker, fetchPlain_eq saveKey_resting hscan, ← htext]
    rfl

/-- At the colon the scalar before it becomes a key, and the first key at a column opens
a mapping there. -/
theorem fetchHere_pending {q : Position} (hrest : endsWord rest = true) (t : Token) :
    (pending (':' :: rest) q (b.emits [t]) (keyPlace p b)).fetchHere =
      .ok (behindColon rest (q.right 1) ((b.enter p.column).emits [.key, t, .value])) := by
  rw [fetchHere_colon rfl hrest]
  have hkey : fetchValue (pending (':' :: rest) q (b.emits [t]) (keyPlace p b)) =
      .ok (({ (openBlock ((pending (':' :: rest) q (b.emits [t]) (keyPlace p b)).emitAt
            b.tokens.length .key) p.column (some b.tokens.length) .blockMappingStart).setPossibleKey
              none with keyAllowed := false }.skip 1).emit .value) := rfl
  -- The token of the key goes in front of its scalar, and the start of the mapping in
  -- front of that, unless the mapping is open.
  have hcount : b.tokens.length + 1 - b.tokens.length = 1 := by omega
  have hcount' : b.tokens.length + 1 + 1 - b.tokens.length = 2 := by omega
  rw [hkey]
  by_cases hopen : b.indent < (p.column : Int)
  · have henter : b.enter p.column =
        ⟨.blockMappingStart :: b.tokens, p.column, b.indent :: b.outer⟩ := if_pos hopen
    rw [henter]
    simp [openBlock, inFlow, pending, resting, emitAt, Blocks.emits, hopen, setPossibleKey, skip,
      emit, behindColon, hcount, hcount']
  · have henter : b.enter p.column = b := if_neg hopen
    rw [henter]
    simp [openBlock, inFlow, pending, resting, emitAt, Blocks.emits, hopen, setPossibleKey, skip,
      emit, behindColon, hcount]

theorem skipGap_pending {q : Position} {place : PossibleKey} (htext : StartsToken q.column text) :
    (pending text q b place).skipGap = pending text q b place := by
  rw [skipGap]
  simp only [pending, resting, inFlow, behind, List.isEmpty_nil, Bool.not_true,
    skipGapFrom_token htext]

/-- A key of at most 1024 bytes is not given up. -/
theorem dropStaleKey_pending {b' : Blocks} {s : List Char}
    (hshort : byteCount s ≤ 1024) :
    (pending text (p.along s) b' (keyPlace p b)).dropStaleKey =
      .ok (pending text (p.along s) b' (keyPlace p b)) := by
  have hline := Position.line_along p s
  have hindex := Position.index_along p s
  have hstale : (pending text (p.along s) b' (keyPlace p b)).isStale (keyPlace p b) = false := by
    rw [isStale, decide_eq_false_iff_not]
    show ¬ (p.line < (p.along s).line ∨ p.index + 1024 < (p.along s).index)
    omega
  show (if (pending text (p.along s) b' (keyPlace p b)).isStale (keyPlace p b) = true then _
    else _) = _
  rw [hstale, if_neg Bool.false_ne_true]

/-- The colon is read behind a key of at most 1024 bytes. -/
theorem fetch_pending {s : List Char} (hrest : endsWord rest = true) (hshort : byteCount s ≤ 1024)
    (hindent : b.indent ≤ (p.along s).column) (t : Token) :
    (pending (':' :: rest) (p.along s) (b.emits [t]) (keyPlace p b)).fetch =
      .ok (behindColon rest ((p.along s).right 1) ((b.enter p.column).emits [.key, t, .value])) := by
  have hclose : closeBlocks (pending (':' :: rest) (p.along s) (b.emits [t]) (keyPlace p b))
      (p.along s).column = pending (':' :: rest) (p.along s) (b.emits [t]) (keyPlace p b) :=
    closeBlocks_of_le hindent
  have htoken : StartsToken 0 (':' :: rest) := by
    intro c hc
    rw [List.head?_cons, Option.mem_some_iff] at hc
    subst hc
    decide
  apply fetch_eq (skipGap_pending (htoken.of_zero _)) (dropStaleKey_pending hshort)
  · exact congrArg limit hclose
  · exact (congrArg fetchHere hclose).trans (fetchHere_pending hrest t)
  · rfl
  · rfl

end Scalars

section Entries

variable {s : Scanner} {k v : Scalar} {text rest tail : List Char} {p : Position} {b : Blocks}
  {n : Nat}

/-- A key and its colon are read, with the ends of the collections before. -/
theorem reads_key (hs : s.AtLine (List.replicate n ' ' ++ (k.written ++ ':' :: rest)) b)
    (hk : k.Clean) (hshort : byteCount k.written ≤ 1024)
    (hrest : endsWord rest = true) (hindent : (b.close n).indent ≤ n)
    (hstart : n = 0 → k.BeginsLine) :
    ∃ p : Position, n < p.column ∧
      s.Reads (behindColon rest p
        (((b.close n).enter n).emits [.key, .scalar k.text k.isBare, .value])) := by
  obtain ⟨p, hp, hgap⟩ := hs.skipGap_eq (Scalar.startsToken_written hk hstart _)
  have hmarker : n ≠ 0 ∨ isDocumentMarker (k.written ++ ':' :: rest) = false := by
    by_cases hn : n = 0
    · exact Or.inr ((hstart hn).marker _)
    · exact Or.inl hn
  let b' := (b.close n).emits [.scalar k.text k.isBare]
  let q := p.along k.written
  have hq : q.column = n + k.written.length := by rw [Position.column_along, hp]
  have hfetch : s.fetch = .ok (pending (':' :: rest) q b' (keyPlace p (b.close n))) := by
    apply fetch_eq hgap rfl
    · rw [closeBlocks_resting]
      rfl
    · rw [closeBlocks_resting]
      show (resting _ p (b.close p.column)).fetchHere = _
      rw [hp]
      exact fetchHere_key hk hrest (by rw [hp]; exact hindent) (by rw [hp]; exact hmarker)
    · rfl
    · exact dropStaleKey_pending hshort
  have hcolon : (pending (':' :: rest) q b' (keyPlace p (b.close n))).fetch =
      .ok (behindColon rest (q.right 1)
        (((b.close n).enter n).emits [.key, .scalar k.text k.isBare, .value])) := by
    have hdeep : (b.close n).indent ≤ q.column := by omega
    have hpending := fetch_pending (p := p) (b := b.close n) hrest hshort hdeep
      (.scalar k.text k.isBare)
    rwa [hp] at hpending
  refine ⟨q.right 1, ?_, ?_⟩
  · rw [Position.column_right, hq]
    omega
  · have hlength := length_skipGap_le s
    have hne : k.written.length ≠ 0 := fun h => k.written_ne_nil (List.length_eq_zero_iff.1 h)
    rw [hgap] at hlength
    change (k.written ++ ':' :: rest).length ≤ _ at hlength
    rw [List.length_append] at hlength
    refine .step hfetch (by simp [pending, resting, b', Blocks.emits]) ?_
      (.single hcolon (by simp [behindColon, resting, Blocks.emits]) (Nat.lt_succ_self _))
    show (':' :: rest).length < _
    omega

/-- Behind a scalar on the line of its key: a plain one is read up to the next token,
`n` columns into its line, and a quoted one up to its closing quote. -/
def behindValue (v : Scalar) (n : Nat) (tail : List Char) (q : Position) (b : Blocks) : Scanner :=
  if v.isBare then
    resting tail (((q.along v.written).nextLine 1).right n) (b.emits [.scalar v.text v.isBare])
  else
    behindColon ('\n' :: (List.replicate n ' ' ++ tail)) (q.along v.written)
      (b.emits [.scalar v.text v.isBare])

/-- Behind a scalar the next line begins. -/
theorem atLine_behindValue (htail : StartsToken n tail) :
    (behindValue v n tail p b).AtLine (List.replicate n ' ' ++ tail)
      (b.emits [.scalar v.text v.isBare]) := by
  rw [behindValue]
  split
  · exact atLine_resting htail rfl
  · exact atLine_behindColon

/-- A scalar on the line of its key is read. -/
theorem fetchHere_value (hv : v.Clean) (hindent : b.indent ≤ p.column) (hp : p.column ≠ 0)
    (hn : n ≤ b.indent) (htail : StartsToken n tail) :
    (behindColon (v.written ++ '\n' :: (List.replicate n ' ' ++ tail)) p b).fetchHere =
      .ok (behindValue v n tail p b) := by
  cases hbare : v.isBare with
  | false =>
    have hwritten := Scalar.written_of_not_isBare hbare
    have hscan := scanQuoted_quote v.text.toList ('\n' :: (List.replicate n ' ' ++ tail)) p
    rw [← hwritten] at hscan
    have hhead : (behindColon (v.written ++ '\n' :: (List.replicate n ' ' ++ tail)) p b).rest =
        '"' :: (v.text.toList.flatMap quoteChar ++ ['"'] ++
          '\n' :: (List.replicate n ' ' ++ tail)) := by
      rw [hwritten]
      rfl
    rw [fetchHere_quote hhead, fetchQuoted_eq saveKey_behindColon hscan, String.ofList_toList,
      behindValue, if_neg (by simp [hbare]), hbare]
    rfl
  | true =>
    have hwritten := Scalar.written_of_isBare hbare
    have htext : String.ofList v.written = v.text := by rw [hwritten, String.ofList_toList]
    have hscan : scanPlain ⟨false, (b.indent + 1).toNat⟩ p
        (v.text.toList ++ '\n' :: (List.replicate n ' ' ++ tail)) =
        .ok ⟨⟨v.text.toList, true⟩, tail, ((p.along v.text.toList).nextLine 1).right n⟩ :=
      scanPlain_value (Scalar.isPlainSafe_of_isBare hbare) (hv.2 hbare) (by omega) htail (by omega)
    rw [← hwritten] at hscan
    obtain ⟨c, rest, hhead, hbegins⟩ :=
      beginsPlain_written hv hbare ('\n' :: (List.replicate n ' ' ++ tail))
    rw [fetchHere_plain hhead rfl hbegins (Or.inl hp), fetchPlain_eq saveKey_behindColon hscan,
      behindValue, if_pos hbare, hbare, ← htext]
    rfl

/-- A scalar behind a colon is read, and then the next line begins. -/
theorem reads_scalar (hv : v.Clean) (hindent : b.indent < p.column) (hn : n ≤ b.indent)
    (htail : StartsToken n tail) :
    ∃ s', (behindColon (' ' :: (v.written ++ '\n' :: (List.replicate n ' ' ++ tail))) p b).Reads s' ∧
      s'.AtLine (List.replicate n ' ' ++ tail) (b.emits [.scalar v.text v.isBare]) := by
  have hgap := skipGap_behindColon (p := p) (b := b)
    (Scalar.startsToken_written hv (fun h => absurd h (Nat.succ_ne_zero _))
      ('\n' :: (List.replicate n ' ' ++ tail)))
  have hcolumn : b.indent ≤ (p.right 1).column := by
    rw [Position.column_right]
    omega
  have hclose := closeBlocks_of_le
    (s := behindColon (v.written ++ '\n' :: (List.replicate n ' ' ++ tail)) (p.right 1) b) hcolumn
  have hfetch : (behindColon (' ' :: (v.written ++ '\n' :: (List.replicate n ' ' ++ tail)))
      p b).fetch = .ok (behindValue v n tail (p.right 1) b) := by
    apply fetch_eq hgap rfl
    · exact congrArg limit hclose
    · exact (congrArg fetchHere hclose).trans
        (fetchHere_value hv hcolumn (Nat.succ_ne_zero _) hn htail)
    · rw [behindValue]
      split <;> rfl
    · rw [behindValue]
      split <;> rfl
  refine ⟨_, .single hfetch ?_ ?_, atLine_behindValue htail⟩
  · rw [behindValue]
    split <;> simp [resting, behindColon, Blocks.emits]
  · rw [behindValue]
    split
    · simp only [behindColon, resting, List.length_cons, List.length_append]
      omega
    · simp only [behindColon, resting, List.length_cons, List.length_append]
      omega

/-- An empty mapping behind a colon is read, and then the next line begins. -/
theorem reads_emptyMapping (hindent : b.indent < p.column) :
    ∃ s', (behindColon (' ' :: '\x7b' :: '\x7d' :: '\n' :: text) p b).Reads s' ∧
      s'.AtLine text (b.emits [.flowMappingStart, .flowMappingEnd]) := by
  -- The braces are two tokens. Between them the reader is inside a flow collection.
  let opened : Scanner :=
    { behindColon ('\x7d' :: '\n' :: text) ((p.right 1).right 1) (b.emits [.flowMappingStart]) with
      flowKeys := [none]
      keyAllowed := true }
  let closed := behindColon ('\n' :: text) (((p.right 1).right 1).right 1)
    (b.emits [.flowMappingStart, .flowMappingEnd])
  have hopen : (behindColon (' ' :: '\x7b' :: '\x7d' :: '\n' :: text) p b).fetch = .ok opened := by
    have htoken : StartsToken 0 ('\x7b' :: '\x7d' :: '\n' :: text) := by
      intro c hc
      rw [List.head?_cons, Option.mem_some_iff] at hc
      subst hc
      decide
    have hclose : closeBlocks (behindColon ('\x7b' :: '\x7d' :: '\n' :: text) (p.right 1) b)
        (p.right 1).column = behindColon ('\x7b' :: '\x7d' :: '\n' :: text) (p.right 1) b := by
      apply closeBlocks_of_le
      show b.indent ≤ ((p.column + 1 : Nat) : Int)
      omega
    apply fetch_eq (skipGap_behindColon (htoken.of_zero _)) rfl
    · exact congrArg limit hclose
    · refine (congrArg fetchHere hclose).trans ?_
      rfl
    · rfl
    · rfl
  have hshut : opened.fetch = .ok closed := by
    apply fetch_eq (show opened.skipGap = opened from rfl) rfl
    · rfl
    · rfl
    · rfl
    · rfl
  refine ⟨closed, ?_, atLine_behindColon⟩
  refine .step hopen (by simp [opened, behindColon, resting, Blocks.emits]) ?_
    (.single hshut (by simp [closed, behindColon, resting, Blocks.emits]) (Nat.lt_succ_self _))
  show ('\x7d' :: '\n' :: text).length < (' ' :: '\x7b' :: '\x7d' :: '\n' :: text).length
  simp

end Entries

end Scanner

end Yaml

end NetProfile
