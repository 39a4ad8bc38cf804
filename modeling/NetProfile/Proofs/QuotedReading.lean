import Mathlib.Data.List.Basic
import NetProfile.Yaml.Quoted
import NetProfile.Yaml.Token.QuotedScalar

/-!
# Reading quoted texts

Reading undoes quoting. Character by character, what `quote` writes is read back as
the one character that was written, and spaces, which are kept back until it is
known what follows, are all given out in the end.

## Main definitions

- `Yaml.byteCount` — how many bytes a text takes
- `Position.along` — the place behind a text without line breaks
- `Yaml.isText` — characters that a quoted text can bring through a document

## Main results

- `Yaml.quotedFrom_quoteChar` — one written character
- `Yaml.scanQuoted_quote` — a quoted text
- `Yaml.isAllowed_of_mem_quote` — quotes leave no forbidden characters
-/

namespace NetProfile

namespace Yaml

/-- The number of bytes that the characters take in UTF-8. -/
def byteCount : List Char → Nat
  | [] => 0
  | c :: rest => c.utf8Size + byteCount rest

namespace Position

/-- The place behind a text without line breaks. -/
def along (p : Position) (s : List Char) : Position := s.foldl past p

@[simp]
theorem along_nil (p : Position) : p.along [] = p := rfl

@[simp]
theorem along_cons (p : Position) (c : Char) (s : List Char) :
    p.along (c :: s) = (p.past c).along s := rfl

theorem along_append (p : Position) (s t : List Char) :
    p.along (s ++ t) = (p.along s).along t :=
  List.foldl_append

@[simp]
theorem line_past (p : Position) (c : Char) : (p.past c).line = p.line := rfl

@[simp]
theorem column_past (p : Position) (c : Char) : (p.past c).column = p.column + 1 := rfl

theorem line_along (p : Position) (s : List Char) : (p.along s).line = p.line := by
  induction s generalizing p with
  | nil => rfl
  | cons c s ih => rw [along_cons, ih, line_past]

theorem column_along (p : Position) (s : List Char) : (p.along s).column = p.column + s.length := by
  induction s generalizing p with
  | nil => rfl
  | cons c s ih =>
    rw [along_cons, ih, column_past, List.length_cons]
    omega

theorem index_along (p : Position) (s : List Char) :
    (p.along s).index = p.index + byteCount s := by
  induction s generalizing p with
  | nil => rfl
  | cons c s ih =>
    rw [along_cons, ih, byteCount]
    show p.index + c.utf8Size + byteCount s = p.index + (c.utf8Size + byteCount s)
    omega

/-- A step to the right passes a character of one byte. -/
theorem right_one {c : Char} (p : Position) (h : c.utf8Size = 1) : p.right 1 = p.past c := by
  rw [right, past, h]

end Position

/-- Whether a quoted text brings the character through a document: all characters
but the noncharacters at the end of the basic plane. -/
def isText (c : Char) : Bool := c.toNat != 0xFFFE && c.toNat != 0xFFFF

theorem Gap.folded_of_not_broken {gap : Gap} (h : gap.broken = false) : gap.folded = gap.spaces := by
  rw [folded, h, if_neg Bool.false_ne_true]

theorem Gap.broken_addSpace (gap : Gap) (c : Char) :
    (gap.addSpace c).broken = gap.broken := by
  rw [addSpace]
  split <;> rfl

theorem Gap.spaces_addSpace {gap : Gap} (h : gap.broken = false) (c : Char) :
    (gap.addSpace c).spaces = c :: gap.spaces := by
  rw [addSpace, h, if_neg Bool.false_ne_true]

theorem ne_of_not_isBreak {c : Char} (h : isBreak c = false) : c ≠ '\r' := by
  rintro rfl
  exact absurd h (by decide)

theorem ne_of_hexDigitValue? {c : Char} {d : Nat} (h : Text.hexDigitValue? c = some d) :
    c ≠ '\r' := by
  rintro rfl
  have hnone : Text.hexDigitValue? '\r' = none := by decide
  rw [hnone] at h
  exact Option.some_ne_none d h.symm

section Steps

variable {acc : List Char} {gap : Gap} {p : Position} {c : Char} {rest : List Char}

/-- One step of reading between double quotes, in front of no line break. -/
theorem quotedFrom_text (hc : isBreak c = false) (hp : p.column ≠ 0) (hgap : gap.broken = false) :
    quotedFrom true .text acc gap p (c :: rest) =
      if isSpace c then quotedFrom true .text acc (gap.addSpace c) (p.right 1) rest
      else if c = '"' then .ok ⟨(gap.spaces ++ acc).reverse, rest, p.right 1⟩
      else if c = '\\' then quotedFrom true .escape (gap.spaces ++ acc) {} (p.right 1) rest
      else quotedFrom true .text (c :: (gap.spaces ++ acc)) {} (p.past c) rest := by
  rw [quotedFrom]
  · simp only [hc, hp, Gap.folded_of_not_broken hgap, Bool.false_eq_true, if_false, if_true,
      false_and]
  · intro _ hcr _
    exact ne_of_not_isBreak hc hcr

/-- Behind a backslash a character stands for another one. -/
theorem quotedFrom_escape {x : Char} (hc : isBreak c = false)
    (hx : escapeMeaning? c = some (.char x)) :
    quotedFrom true .escape acc gap p (c :: rest) =
      quotedFrom true .text (x :: acc) {} (p.right 1) rest := by
  rw [quotedFrom]
  · simp only [hc, hx, Bool.false_eq_true, if_false]
  · intro _ hcr _
    exact ne_of_not_isBreak hc hcr

/-- An escape of two characters stands for one. -/
theorem quotedFrom_pair {e : Char} (hp : p.column ≠ 0) (hgap : gap.broken = false)
    (he : isBreak e = false) (hc : escapeMeaning? e = some (.char c)) :
    quotedFrom true .text acc gap p ('\\' :: e :: rest) =
      quotedFrom true .text (c :: (gap.spaces ++ acc)) {} ((p.right 1).right 1) rest := by
  rw [quotedFrom_text (by decide) hp hgap, if_neg (by decide), if_neg (by decide), if_pos rfl,
    quotedFrom_escape he hc]

/-- A backslash and a letter announce the digits of a character's number. -/
theorem quotedFrom_announce {e : Char} {count : Nat} (hp : p.column ≠ 0) (hgap : gap.broken = false)
    (he : isBreak e = false) (hcount : escapeMeaning? e = some (.digits count)) :
    quotedFrom true .text acc gap p ('\\' :: e :: rest) =
      quotedFrom true (.digits (count - 1) 0) (gap.spaces ++ acc) {} ((p.right 1).right 1) rest := by
  rw [quotedFrom_text (by decide) hp hgap, if_neg (by decide), if_neg (by decide), if_pos rfl,
    quotedFrom]
  · simp only [he, hcount, Bool.false_eq_true, if_false]
  · intro _ hcr _
    exact ne_of_not_isBreak he hcr

theorem quotedFrom_digit {left value d : Nat} (h : Text.hexDigitValue? c = some d) :
    quotedFrom true (.digits (left + 1) value) acc gap p (c :: rest) =
      quotedFrom true (.digits left (value * 16 + d)) acc {} (p.right 1) rest := by
  rw [quotedFrom]
  · simp only [h]
  · intro _ hcr _
    exact ne_of_hexDigitValue? h hcr

theorem quotedFrom_lastDigit {x : Char} {value d : Nat} (h : Text.hexDigitValue? c = some d)
    (hx : charOfCode? (value * 16 + d) = some x) :
    quotedFrom true (.digits 0 value) acc gap p (c :: rest) =
      quotedFrom true .text (x :: acc) {} (p.right 1) rest := by
  rw [quotedFrom]
  · simp only [h, hx]
  · intro _ hcr _
    exact ne_of_hexDigitValue? h hcr

end Steps

theorem utf8Size_hexDigit {n : Nat} (h : n < 16) : (Text.hexDigit n).utf8Size = 1 := by
  have hall : ∀ m : Fin 16, (Text.hexDigit m).utf8Size = 1 := by decide
  exact hall ⟨n, h⟩

theorem charOfCode?_toNat (c : Char) : charOfCode? c.toNat = some c := by
  have hvalid : c.toNat.isValidChar := c.valid
  rw [charOfCode?, if_pos hvalid, Char.ofNat_toNat]

theorem eq_ofNat_of_toNat {c : Char} {n : Nat} (h : c.toNat = n) : c = Char.ofNat n := by
  rw [← h, Char.ofNat_toNat]

/-- What stands between quotes for a character but the space is read back as it. -/
theorem quotedFrom_quoteChar {acc : List Char} {gap : Gap} {p : Position} {c : Char}
    (rest : List Char) (hp : p.column ≠ 0) (hgap : gap.broken = false) (hc : c ≠ ' ') :
    quotedFrom true .text acc gap p (quoteChar c ++ rest) =
      quotedFrom true .text (c :: (gap.spaces ++ acc)) {} (p.along (quoteChar c)) rest := by
  rw [quoteChar]
  split
  case h_16 h =>
    -- The byte order mark takes four digits.
    obtain rfl := eq_ofNat_of_toNat h
    simp only [List.cons_append, List.nil_append]
    rw [quotedFrom_announce hp hgap (by decide) rfl, quotedFrom_digit (d := 15) (by decide),
      quotedFrom_digit (d := 14) (by decide), quotedFrom_digit (d := 15) (by decide),
      quotedFrom_lastDigit (d := 15) (x := Char.ofNat 0xFEFF) (by decide) (by decide)]
    rfl
  case h_17 hquote hbackslash hnul hbel hbs htab hlf hvt hff hcr hesc hnel hnbsp hls hps hbom =>
    by_cases hcontrol : Text.isControl c = true
    · -- Any other control character takes two digits.
      have hlt : c.toNat < 256 := by
        simp only [Text.isControl, Bool.or_eq_true, Bool.and_eq_true, decide_eq_true_eq] at hcontrol
        omega
      have hhigh : c.toNat / 16 < 16 := by omega
      have hlow : c.toNat % 16 < 16 := by omega
      have hcode : charOfCode? ((0 * 16 + c.toNat / 16) * 16 + c.toNat % 16) = some c := by
        rw [Nat.zero_mul, Nat.zero_add, Nat.div_add_mod', charOfCode?_toNat]
      rw [if_pos hcontrol, Text.hexByte]
      simp only [List.cons_append, List.nil_append]
      rw [quotedFrom_announce hp hgap (by decide) rfl,
        quotedFrom_digit (Text.hexDigitValue?_hexDigit hhigh),
        quotedFrom_lastDigit (Text.hexDigitValue?_hexDigit hlow) hcode,
        Position.right_one ((p.right 1).right 1) (utf8Size_hexDigit hhigh),
        Position.right_one (((p.right 1).right 1).past _) (utf8Size_hexDigit hlow)]
      rfl
    · -- All others stand for themselves.
      have hbreak : isBreak c = false := by
        simp only [isBreak, Bool.or_eq_false_iff, beq_eq_false_iff_ne]
        exact ⟨⟨⟨⟨hlf, hcr⟩, hnel⟩, hls⟩, hps⟩
      have hspace : isSpace c = false := by
        have htab' : c ≠ '\t' := fun e => htab (congrArg Char.toNat e)
        simp only [isSpace, Bool.or_eq_false_iff, beq_eq_false_iff_ne]
        exact ⟨hc, htab'⟩
      have hquote' : c ≠ '"' := fun e => hquote (congrArg Char.toNat e)
      have hbackslash' : c ≠ '\\' := fun e => hbackslash (congrArg Char.toNat e)
      rw [if_neg hcontrol, List.singleton_append, quotedFrom_text hbreak hp hgap, hspace,
        if_neg Bool.false_ne_true, if_neg hquote', if_neg hbackslash']
      rfl
  all_goals
    -- An escape of two characters.
    next h =>
    obtain rfl := eq_ofNat_of_toNat h
    simp only [List.cons_append, List.nil_append]
    rw [quotedFrom_pair hp hgap (by decide) (by rfl)]
    rfl

/-- A space stands for itself; it is kept back for a while. -/
theorem quoteChar_space : quoteChar ' ' = [' '] := rfl

/-- What stands between quotes for a text, with the closing quote, is read back as
the text. -/
theorem quotedFrom_flatMap_quoteChar (s rest : List Char) {acc : List Char} {gap : Gap}
    {p : Position} (hp : p.column ≠ 0) (hgap : gap.broken = false) :
    quotedFrom true .text acc gap p (s.flatMap quoteChar ++ '"' :: rest) =
      .ok ⟨(gap.spaces ++ acc).reverse ++ s, rest, (p.along (s.flatMap quoteChar)).past '"'⟩ := by
  induction s generalizing acc gap p with
  | nil =>
    rw [List.flatMap_nil, List.nil_append, quotedFrom_text (by decide) hp hgap,
      if_neg (by decide), if_pos rfl, List.append_nil]
    rfl
  | cons c s ih =>
    have hp' : (p.along (quoteChar c)).column ≠ 0 := by
      rw [Position.column_along]
      omega
    rw [List.flatMap_cons, List.append_assoc, Position.along_append]
    by_cases hc : c = ' '
    · subst hc
      rw [quoteChar_space, List.singleton_append, quotedFrom_text (by decide) hp hgap,
        if_pos (by decide), Position.right_one p (c := ' ') (by decide),
        ih (Nat.succ_ne_zero _) ((gap.broken_addSpace ' ').trans hgap), Gap.spaces_addSpace hgap]
      simp
    · rw [quotedFrom_quoteChar _ hp hgap hc, ih hp' rfl]
      simp

/-- A quoted text is read back behind its opening quote. -/
theorem scanQuoted_quote (s rest : List Char) (p : Position) :
    scanQuoted true (p.right 1) ((quote s ++ rest).drop 1) = .ok ⟨s, rest, p.along (quote s)⟩ := by
  have hp : (p.past '"').column ≠ 0 := Nat.succ_ne_zero _
  rw [quote, List.cons_append, List.drop_one, List.tail_cons, List.append_assoc,
    List.singleton_append, scanQuoted, Position.right_one p (c := '"') (by decide),
    quotedFrom_flatMap_quoteChar s rest hp rfl, Position.along_cons, Position.along_append]
  rfl

/-- Apart from control characters and two noncharacters, documents may contain
every character. -/
theorem isAllowed_of_isText {c : Char} (ht : isText c = true) (hc : Text.isControl c = false) :
    isAllowed c = true := by
  have hvalid : c.toNat < 0xD800 ∨ 0xDFFF < c.toNat ∧ c.toNat < 0x110000 := c.valid
  simp only [isText, Bool.and_eq_true, bne_iff_ne, ne_eq] at ht
  simp only [Text.isControl, Bool.or_eq_false_iff, Bool.and_eq_false_iff,
    decide_eq_false_iff_not] at hc
  simp only [isAllowed, Bool.or_eq_true, Bool.and_eq_true, beq_iff_eq, decide_eq_true_eq]
  omega

/-- Between quotes a character is written as itself, unless it could be mistaken, or with
visible characters of one byte. -/
theorem mem_quoteChar {x c : Char} (hc : c ∈ quoteChar x) :
    (c = x ∧ Text.isControl x = false ∧ x.toNat ∉ [0xA0, 0x2028, 0x2029, 0xFEFF]) ∨
      (0x21 ≤ c.toNat ∧ c.toNat ≤ 0x7E) := by
  rw [quoteChar] at hc
  split at hc
  case h_17 _ _ _ _ _ _ _ _ _ _ _ _ hnbsp hls hps hbom =>
    by_cases hcontrol : Text.isControl x = true
    · have hdigit : ∀ m : Fin 16, 0x21 ≤ (Text.hexDigit m).toNat ∧ (Text.hexDigit m).toNat ≤ 0x7E := by
        decide
      have hlt : x.toNat < 256 := by
        simp only [Text.isControl, Bool.or_eq_true, Bool.and_eq_true, decide_eq_true_eq] at hcontrol
        omega
      rw [if_pos hcontrol] at hc
      simp only [Text.hexByte, List.mem_cons, List.not_mem_nil, or_false] at hc
      rcases hc with rfl | rfl | rfl | rfl
      · exact Or.inr (by decide)
      · exact Or.inr (by decide)
      · exact Or.inr (hdigit ⟨x.toNat / 16, by omega⟩)
      · exact Or.inr (hdigit ⟨x.toNat % 16, by omega⟩)
    · rw [if_neg hcontrol, List.mem_singleton] at hc
      refine Or.inl ⟨hc, by simpa using hcontrol, ?_⟩
      simp only [List.mem_cons, List.not_mem_nil, or_false, not_or]
      exact ⟨hnbsp, hls, hps, hbom⟩
  all_goals
    refine Or.inr (of_decide_eq_true (List.all_eq_true.1 (?_ : List.all _ (fun d : Char =>
      decide (0x21 ≤ d.toNat ∧ d.toNat ≤ 0x7E)) = true) c hc))
    decide

theorem isAllowed_of_mem_quoteChar {x c : Char} (hx : isText x = true) (hc : c ∈ quoteChar x) :
    isAllowed c = true := by
  obtain ⟨rfl, hcontrol, -⟩ | hvisible := mem_quoteChar hc
  · exact isAllowed_of_isText hx hcontrol
  · simp only [isAllowed, Bool.or_eq_true, Bool.and_eq_true, beq_iff_eq, decide_eq_true_eq]
    omega

/-- Between quotes stands no control character, nor any other that could be mistaken. -/
theorem isControl_of_mem_quoteChar {x c : Char} (hc : c ∈ quoteChar x) :
    Text.isControl c = false ∧ c.toNat ∉ [0xA0, 0x2028, 0x2029, 0xFEFF] := by
  obtain ⟨rfl, hcontrol⟩ | hvisible := mem_quoteChar hc
  · exact hcontrol
  · simp only [Text.isControl, Bool.or_eq_false_iff, Bool.and_eq_false_iff,
      decide_eq_false_iff_not, List.mem_cons, List.not_mem_nil, or_false]
    omega

/-- Between quotes stand no forbidden characters. -/
theorem isAllowed_of_mem_quote {s : List Char} (hs : ∀ c ∈ s, isText c = true) {c : Char}
    (hc : c ∈ quote s) : isAllowed c = true := by
  rw [quote, List.mem_cons, List.mem_append, List.mem_singleton, List.mem_flatMap] at hc
  rcases hc with rfl | ⟨x, hx, hc⟩ | rfl
  · decide
  · exact isAllowed_of_mem_quoteChar (hs x hx) hc
  · decide

end Yaml

end NetProfile
