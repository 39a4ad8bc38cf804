import NetProfile.Proofs.QuotedReading
import NetProfile.Yaml.Token.PlainScalar

/-!
# Reading plain texts

A text that is safe without quotes is read as it stands. Behind a key the reading
stops at the colon; behind a value it goes on over the line break, and stops at the
next line that is not indented further than the mapping.

## Main definitions

- `Yaml.KeepsLine` — texts that keep to one line
- `Yaml.StartsToken` — texts that begin with a token or are empty

## Main results

- `Yaml.plainFrom_append` — a safe text is read to its end
- `Yaml.scanPlain_key` — a plain key
- `Yaml.scanPlain_value` — a plain value
-/

namespace NetProfile

namespace Yaml

/-- The text keeps to one line: control characters apart, these two end lines. -/
def KeepsLine (s : List Char) : Prop := ∀ c ∈ s, c.toNat ≠ 0x2028 ∧ c.toNat ≠ 0x2029

instance (s : List Char) : Decidable (KeepsLine s) := List.decidableBAll _ s

/-- The text keeps to one line and hides no byte order mark. -/
def IsLineText (s : List Char) : Prop :=
  ∀ c ∈ s, c.toNat ≠ 0x2028 ∧ c.toNat ≠ 0x2029 ∧ c ≠ byteOrderMark

instance (s : List Char) : Decidable (IsLineText s) := List.decidableBAll _ s

theorem IsLineText.keepsLine {s : List Char} (h : IsLineText s) : KeepsLine s :=
  fun c hc => ⟨(h c hc).1, (h c hc).2.1⟩

/-- Nothing follows, or a token begins at once. A byte order mark begins one behind the
start of a line only. -/
def StartsToken (column : Nat) (s : List Char) : Prop :=
  ∀ c ∈ s.head?, isBreak c = false ∧ isSpace c = false ∧ c ≠ '#' ∧
    (column = 0 → c ≠ byteOrderMark)

/-- At the start of a line fewer tokens begin than behind it. -/
theorem StartsToken.of_zero {s : List Char} (h : StartsToken 0 s) (column : Nat) :
    StartsToken column s := fun c hc =>
  ⟨(h c hc).1, (h c hc).2.1, (h c hc).2.2.1, fun _ => (h c hc).2.2.2 rfl⟩

namespace Position

@[simp]
theorem right_right (p : Position) (m n : Nat) : (p.right m).right n = p.right (m + n) := by
  rw [right, right, right]
  congr 1
  · exact Nat.add_assoc _ _ _
  · exact Nat.add_assoc _ _ _

@[simp]
theorem right_zero (p : Position) : p.right 0 = p := rfl

@[simp]
theorem column_right (p : Position) (n : Nat) : (p.right n).column = p.column + n := rfl

end Position

section Safe

variable {s : List Char}

theorem isControl_of_isPlainSafe (h : isPlainSafe s = true) {c : Char} (hc : c ∈ s) :
    Text.isControl c = false := by
  rw [isPlainSafe] at h
  simp only [Bool.and_eq_true, Bool.not_eq_true', List.any_eq_false] at h
  simpa using h.1.1.2 c hc

/-- Safe texts have no breaks and no tabs, if they keep to one line. -/
theorem blank_of_isPlainSafe (h : isPlainSafe s = true) (hline : KeepsLine s) {c : Char}
    (hc : c ∈ s) : isBreak c = false ∧ c ≠ '\t' := by
  have hcontrol := isControl_of_isPlainSafe h hc
  obtain ⟨hls, hps⟩ := hline c hc
  simp only [Text.isControl, Bool.or_eq_false_iff, Bool.and_eq_false_iff,
    decide_eq_false_iff_not] at hcontrol
  constructor
  · simp only [isBreak, Bool.or_eq_false_iff, beq_eq_false_iff_ne]
    omega
  · rintro rfl
    exact hcontrol.1 (by decide)

theorem ne_nil_of_isPlainSafe (h : isPlainSafe s = true) : s ≠ [] := by
  rintro rfl
  exact absurd h (by decide)

theorem getLast_of_isPlainSafe (h : isPlainSafe s = true) :
    s.getLast? ≠ some ' ' ∧ s.getLast? ≠ some ':' := by
  rw [isPlainSafe] at h
  simp only [Bool.and_eq_true, endsSafely, bne_iff_ne] at h
  exact h.1.1.1.2

theorem hasPair_of_isPlainSafe (h : isPlainSafe s = true) :
    hasPair ':' ' ' s = false ∧ hasPair ' ' '#' s = false := by
  rw [isPlainSafe] at h
  simp only [Bool.and_eq_true, Bool.not_eq_true'] at h
  exact ⟨h.1.2, h.2⟩

/-- A safe text begins with no indicator, or with one that has no meaning there since
no blank follows. -/
theorem head_of_isPlainSafe (h : isPlainSafe s = true) (hline : KeepsLine s) :
    ∃ c s', s = c :: s' ∧ isBreak c = false ∧ isSpace c = false ∧ c ∉ leadingIndicators ∧
      (c ∈ looseIndicators → ∀ tail, endsWord (s' ++ tail) = false) := by
  cases s with
  | nil => exact absurd rfl (ne_nil_of_isPlainSafe h)
  | cons c s =>
    obtain ⟨hbreak, htab⟩ := blank_of_isPlainSafe h hline (c := c) List.mem_cons_self
    have hstart : startsSafely (c :: s) = true := by
      rw [isPlainSafe] at h
      simp only [Bool.and_eq_true] at h
      exact h.1.1.1.1
    simp only [startsSafely, Bool.and_eq_true, bne_iff_ne, Bool.not_eq_true',
      Bool.and_eq_false_iff, Bool.or_eq_false_iff] at hstart
    obtain ⟨⟨hspace, hleading⟩, hloose⟩ := hstart
    refine ⟨c, s, rfl, hbreak, by simp [isSpace, hspace, htab], ?_, ?_⟩
    · simpa using hleading
    · -- What follows an indicator is a character of the text, whatever follows the text.
      intro hc tail
      rcases hloose with hnot | ⟨hne, hhead⟩
      · rw [List.contains_iff_mem.2 hc] at hnot
        exact absurd hnot.symm Bool.false_ne_true
      · cases s with
        | nil => exact absurd hne (by simp)
        | cons d s =>
          obtain ⟨hd, hdtab⟩ := blank_of_isPlainSafe h hline (c := d) (by simp)
          have hdspace : d ≠ ' ' := by simpa using hhead
          simp [endsWord, isSpace, hdspace, hdtab, hd]

end Safe

theorem hasPair_cons {a b c : Char} {s : List Char} (h : hasPair a b (c :: s) = false) :
    hasPair a b s = false ∧ (c = a → s.head? ≠ some b) := by
  cases s with
  | nil => exact ⟨rfl, fun _ => by simp⟩
  | cons d s =>
    rw [hasPair, Bool.or_eq_false_iff] at h
    refine ⟨h.2, ?_⟩
    rintro rfl hd
    simp only [List.head?_cons, Option.some.injEq] at hd
    simp [hd] at h

section Steps

variable {ctx : PlainContext} {acc : List Char} {gap : Gap} {p : Position} {c : Char}
  {rest : List Char}

/-- A space is kept back. -/
theorem plainFrom_space :
    plainFrom ctx acc gap p (' ' :: rest) = plainFrom ctx acc (gap.addSpace ' ') (p.right 1) rest := by
  rw [plainFrom]
  · simp only [show isBreak ' ' = false from rfl, show isSpace ' ' = true from rfl,
      show (' ' = '\t') = False from by simp, Bool.false_eq_true, if_false, if_true, and_false]
  · intro _ hcr _
    exact absurd hcr (by decide)

/-- Any other character of a line belongs to the text, unless that ends before it. -/
theorem plainFrom_char (hctx : ctx.inFlow = false) (hbreak : isBreak c = false)
    (hspace : isSpace c = false) (hgap : gap.broken = false) :
    plainFrom ctx acc gap p (c :: rest) =
      if ctx.endsAt gap p (c :: rest) then .ok ⟨⟨acc.reverse, false⟩, c :: rest, p⟩
      else plainFrom ctx (c :: (gap.spaces ++ acc)) {} (p.past c) rest := by
  rw [plainFrom]
  · simp only [hbreak, hspace, hctx, hgap, Gap.folded_of_not_broken hgap, Bool.false_and,
      Bool.false_eq_true, if_false]
  · intro _ hcr _
    exact ne_of_not_isBreak hbreak hcr

end Steps

/-- No colon inside a text ends it: what follows it is a character of the text that
is no blank. -/
theorem isValueMark_cons_append {c : Char} {s : List Char} (tail : List Char)
    (hpair : hasPair ':' ' ' (c :: s) = false) (hlast : (c :: s).getLast? ≠ some ':')
    (hblank : ∀ d ∈ s, isBreak d = false ∧ d ≠ '\t') : isValueMark (c :: (s ++ tail)) = false := by
  by_cases hc : c = ':'
  · subst hc
    cases s with
    | nil => exact absurd rfl hlast
    | cons d s =>
      have hd : d ≠ ' ' := fun e => (hasPair_cons hpair).2 rfl (congrArg some e)
      obtain ⟨hbreak, htab⟩ := hblank d List.mem_cons_self
      simp [isValueMark, endsWord, isSpace, hd, htab, hbreak]
  · rw [isValueMark.eq_2]
    rintro _ heq
    exact hc (List.cons.inj heq).1

/-- A safe text is read to its end, whatever follows. The columns matter where spaces
have been read, and there the text has begun already. -/
theorem plainFrom_append {ctx : PlainContext} (hctx : ctx.inFlow = false) (s tail : List Char)
    {acc : List Char} {gap : Gap} {p : Position} (hne : s ≠ [])
    (hpair : hasPair ':' ' ' s = false) (hcomment : hasPair ' ' '#' s = false)
    (hlast : s.getLast? ≠ some ' ' ∧ s.getLast? ≠ some ':')
    (hblank : ∀ c ∈ s, isBreak c = false ∧ c ≠ '\t') (hgap : gap.broken = false)
    (hindent : ctx.indent ≤ p.column + 1)
    (hbegun : gap.spaces ≠ [] → ctx.indent ≤ p.column ∧ p.column ≠ 0 ∧ s.head? ≠ some '#') :
    plainFrom ctx acc gap p (s ++ tail) =
      plainFrom ctx (s.reverse ++ (gap.spaces ++ acc)) {} (p.along s) tail := by
  induction s generalizing acc gap p with
  | nil => exact absurd rfl hne
  | cons c s ih =>
    have hpairs := hasPair_cons hpair
    have hcomments := hasPair_cons hcomment
    have hblanks : ∀ d ∈ s, isBreak d = false ∧ d ≠ '\t' :=
      fun d hd => hblank d (List.mem_cons_of_mem c hd)
    have hindent' : ctx.indent ≤ p.column + 1 + 1 := by omega
    have hlasts : s ≠ [] → s.getLast? ≠ some ' ' ∧ s.getLast? ≠ some ':' := by
      intro hs
      rwa [List.getLast?_cons_of_ne_nil hs] at hlast
    by_cases hc : c = ' '
    · -- A space is kept back. The text does not end with it, so it is given out later.
      subst hc
      have hs : s ≠ [] := by
        rintro rfl
        exact hlast.1 rfl
      rw [List.cons_append, plainFrom_space, Position.right_one p (c := ' ') (by decide),
        ih hs hpairs.1 hcomments.1 (hlasts hs) hblanks ((gap.broken_addSpace ' ').trans hgap)
          hindent' (fun _ => ⟨hindent, Nat.succ_ne_zero _, hcomments.2 rfl⟩),
        Gap.spaces_addSpace hgap]
      simp
    · obtain ⟨hbreak, htab⟩ := hblank c List.mem_cons_self
      have hspace : isSpace c = false := by simp [isSpace, hc, htab]
      have hends : ctx.endsAt gap p (c :: (s ++ tail)) = false := by
        have hmark := isValueMark_cons_append tail hpair hlast.2 hblanks
        by_cases hspaces : gap.spaces = []
        · have hempty : gap.isEmpty = true := by rw [Gap.isEmpty, hspaces, hgap]; rfl
          simp [PlainContext.endsAt, hempty, hmark, hctx]
        · obtain ⟨hcolumn, hzero, hhash⟩ := hbegun hspaces
          have hhash' : c ≠ '#' := fun e => hhash (congrArg some e)
          simp [PlainContext.endsAt, hmark, hctx, hcolumn, hzero, hhash']
      rw [List.cons_append, plainFrom_char hctx hbreak hspace hgap, hends,
        if_neg Bool.false_ne_true]
      by_cases hs : s = []
      · subst hs
        simp
      · rw [ih hs hpairs.1 hcomments.1 (hlasts hs) hblanks rfl hindent' (fun h => absurd rfl h)]
        simp

theorem scanPlain_append {indent : Nat} {p : Position} {s : List Char} (tail : List Char)
    (hsafe : isPlainSafe s = true) (hline : KeepsLine s) (hindent : indent ≤ p.column + 1) :
    scanPlain ⟨false, indent⟩ p (s ++ tail) =
      plainFrom ⟨false, indent⟩ s.reverse {} (p.along s) tail := by
  obtain ⟨hpair, hcomment⟩ := hasPair_of_isPlainSafe hsafe
  rw [scanPlain, plainFrom_append rfl s tail (ne_nil_of_isPlainSafe hsafe) hpair hcomment
    (getLast_of_isPlainSafe hsafe) (fun _ hc => blank_of_isPlainSafe hsafe hline hc) rfl hindent
    (fun h => absurd rfl h)]
  simp

/-- A plain key is read up to its colon. -/
theorem scanPlain_key {indent : Nat} {p : Position} {s rest : List Char}
    (hsafe : isPlainSafe s = true) (hline : KeepsLine s) (hindent : indent ≤ p.column + 1)
    (hrest : endsWord rest = true) :
    scanPlain ⟨false, indent⟩ p (s ++ ':' :: rest) = .ok ⟨⟨s, false⟩, ':' :: rest, p.along s⟩ := by
  have hends : PlainContext.endsAt ⟨false, indent⟩ {} (p.along s) (':' :: rest) = true := by
    simp [PlainContext.endsAt, isValueMark, hrest]
  rw [scanPlain_append _ hsafe hline hindent, plainFrom_char rfl (by decide) (by decide) rfl,
    if_pos hends, List.reverse_reverse]

/-- The spaces that indent the line behind a plain value are passed over. -/
theorem plainFrom_indentation {ctx : PlainContext} (n : Nat) {acc : List Char} {gap : Gap}
    {p : Position} {tail : List Char} (hgap : gap.broken = true) :
    plainFrom ctx acc gap p (List.replicate n ' ' ++ tail) =
      plainFrom ctx acc gap (p.right n) tail := by
  induction n generalizing p with
  | zero => rfl
  | succ n ih =>
    have hkeep : gap.addSpace ' ' = gap := by rw [Gap.addSpace, if_pos hgap]
    rw [List.replicate_succ, List.cons_append, plainFrom_space, hkeep, ih, Position.right_right,
      Nat.add_comm]

/-- A plain value is read over its line break up to the next token, which is not
indented further. -/
theorem scanPlain_value {indent n : Nat} {p : Position} {s tail : List Char}
    (hsafe : isPlainSafe s = true) (hline : KeepsLine s) (hindent : indent ≤ p.column + 1)
    (htail : StartsToken n tail) (hn : n < indent) :
    scanPlain ⟨false, indent⟩ p (s ++ '\n' :: (List.replicate n ' ' ++ tail)) =
      .ok ⟨⟨s, true⟩, tail, ((p.along s).nextLine 1).right n⟩ := by
  have hbreak : plainFrom ⟨false, indent⟩ s.reverse {} (p.along s)
      ('\n' :: (List.replicate n ' ' ++ tail)) =
      plainFrom ⟨false, indent⟩ s.reverse (Gap.addBreak {} '\n') ((p.along s).nextLine 1)
        (List.replicate n ' ' ++ tail) := by
    rw [plainFrom]
    · rfl
    · intro _ hcr _
      exact absurd hcr (by decide)
  rw [scanPlain_append _ hsafe hline hindent, hbreak, plainFrom_indentation n rfl]
  -- The next token is not indented as far as a continuation of the value would be.
  cases tail with
  | nil => rw [plainFrom, List.reverse_reverse]; rfl
  | cons c tail =>
    obtain ⟨hc, hspace, -, -⟩ := htail c rfl
    have hends : PlainContext.endsAt ⟨false, indent⟩ (Gap.addBreak {} '\n')
        (((p.along s).nextLine 1).right n) (c :: tail) = true := by
      have hcolumn : ((p.along s).nextLine 1).column + n < indent := by
        show 0 + n < indent
        omega
      simp [PlainContext.endsAt, Gap.isEmpty, Gap.addBreak, hcolumn]
    rw [plainFrom]
    · simp only [hc, hspace, Bool.false_eq_true, if_false, Bool.false_and, hends, if_true,
        List.reverse_reverse]
      rfl
    · intro _ hcr _
      exact ne_of_not_isBreak hc hcr

end Yaml

end NetProfile
