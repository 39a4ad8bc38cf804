import Mathlib.Data.List.Basic
import NetProfile.Proofs.MappingTree
import NetProfile.Proofs.PlainReading
import NetProfile.Yaml.Token.Stream

/-!
# The scanner between lines

Between two lines of block mappings the scanner rests: no key is pending, and what
matters is the text, the place, the tokens so far and the open block collections. The ends of collections are given out late, in front of the next
line, so two resting states are compared after closing what is deeper than a column.

## Main definitions

- `Blocks` — the tokens so far and the open block collections
- `Scanner.resting`, `Scanner.AtLine` — the scanner between two lines
- `Scanner.Reads` — one state is reached from another, token by token

## Main results

- `Blocks.close_close` — collections may be closed in two goes
- `Scanner.skipGap_resting`, `Scanner.closeBlocks_resting` — what happens in front of a line
- `fetchAll_of_reads` — reading on from a state that is reached
-/

namespace NetProfile

namespace Yaml

/-- The tokens so far, last first, and the open block collections. -/
structure Blocks where
  tokens : List Token
  /-- The column of the innermost collection. -/
  indent : Int
  /-- The columns of the collections around it, innermost first. -/
  outer : List Int

namespace Blocks

/-- More tokens, in order. -/
def emits (b : Blocks) (ts : List Token) : Blocks := { b with tokens := ts.reverse ++ b.tokens }

/-- Closes the collections that are deeper than a column, given the columns of those
around. -/
def closeFrom (column : Int) : List Int → Blocks → Blocks
  | [], b => { b with outer := [] }
  | next :: further, b =>
    if column < b.indent then closeFrom column further ⟨.blockEnd :: b.tokens, next, further⟩
    else { b with outer := next :: further }

/-- Closes the collections that are deeper than a column. -/
def close (b : Blocks) (column : Int) : Blocks := closeFrom column b.outer b

/-- Opens a mapping at a column, unless there is one already. -/
def enter (b : Blocks) (column : Int) : Blocks :=
  if b.indent < column then ⟨.blockMappingStart :: b.tokens, column, b.indent :: b.outer⟩ else b

@[simp]
theorem emits_nil (b : Blocks) : b.emits [] = b := rfl

theorem emits_emits (b : Blocks) (ts us : List Token) : (b.emits ts).emits us = b.emits (ts ++ us) := by
  simp [emits]

@[simp]
theorem indent_emits (b : Blocks) (ts : List Token) : (b.emits ts).indent = b.indent := rfl

@[simp]
theorem outer_emits (b : Blocks) (ts : List Token) : (b.emits ts).outer = b.outer := rfl

theorem close_of_le {b : Blocks} {column : Int} (h : b.indent ≤ column) : b.close column = b := by
  have hnot : ¬ column < b.indent := by omega
  rcases b with ⟨tokens, indent, _ | ⟨next, further⟩⟩
  · rfl
  · rw [close, closeFrom, if_neg hnot]

/-- Closing a deeper collection brings back the one around it. -/
theorem close_inner {ts : List Token} {indent next column : Int} {further : List Int}
    (h : column < indent) :
    close ⟨ts, indent, next :: further⟩ column = close ⟨.blockEnd :: ts, next, further⟩ column := by
  rw [close, closeFrom, if_pos h, close]

/-- Closing in two goes, the deeper collections first. -/
theorem close_close (b : Blocks) {column column' : Int} (h : column ≤ column') :
    (b.close column').close column = b.close column := by
  rcases b with ⟨ts, indent, outer⟩
  induction outer generalizing ts indent with
  | nil => rfl
  | cons next further ih =>
    by_cases hdeep : column' < indent
    · have hdeep' : column < indent := by omega
      rw [close_inner hdeep, close_inner hdeep', ih]
    · rw [close_of_le (b := ⟨ts, indent, next :: further⟩) (by simpa using hdeep)]

theorem indent_enter {b : Blocks} {column : Int} (h : b.indent ≤ column) :
    (b.enter column).indent = column := by
  rw [enter]
  split
  · rfl
  · omega

/-- A mapping is opened once. -/
theorem enter_of_indent {b : Blocks} {column : Int} (h : b.indent = column) : b.enter column = b := by
  rw [enter, if_neg (by omega)]

/-- Behind the entries of a mapping inside another, closing what is deeper than the
outer one ends the inner one. -/
theorem close_nested {b b' : Blocks} {column column' : Int} {ts : List Token}
    (hindent : b.indent = column) (hlt : column < column')
    (h : b'.close column' = (b.enter column').emits ts) :
    b'.close column = b.emits (.blockMappingStart :: (ts ++ [.blockEnd])) := by
  have henter : (b.enter column').emits ts =
      ⟨ts.reverse ++ .blockMappingStart :: b.tokens, column', b.indent :: b.outer⟩ := by
    rw [enter, if_pos (by omega)]
    rfl
  have houter : close ⟨.blockEnd :: (ts.reverse ++ .blockMappingStart :: b.tokens), b.indent, b.outer⟩
      column = ⟨.blockEnd :: (ts.reverse ++ .blockMappingStart :: b.tokens), b.indent, b.outer⟩ :=
    close_of_le (Int.le_of_eq hindent)
  rw [← close_close b' (Int.le_of_lt hlt), h, henter, close_inner hlt, houter]
  simp [emits]

end Blocks

namespace Scanner

/-- Between two lines of block collections no key is pending and one may begin. -/
def resting (text : List Char) (p : Position) (b : Blocks) : Scanner :=
  { rest := text, position := p, tokens := b.tokens, count := b.tokens.length, indent := b.indent,
    outerIndents := b.outer }

/-- Behind a colon, on the line of its key, no further key may begin. -/
def behindColon (text : List Char) (p : Position) (b : Blocks) : Scanner :=
  { resting text p b with keyAllowed := false }

/-- Up to what separates tokens, the scanner rests at the start of a line. -/
def AtLine (s : Scanner) (text : List Char) (b : Blocks) : Prop :=
  ∃ p : Position, p.column = 0 ∧ s.skipGap = (resting text p b).skipGap

/-- One state is reached from another by reading tokens, none of which is the end. -/
inductive Reads : Scanner → Scanner → Prop where
  | refl (s : Scanner) : Reads s s
  | step {s s' s'' : Scanner} : s.fetch = .ok s' → s'.tokens.head? ≠ some .streamEnd →
      s'.rest.length < s.rest.length → Reads s' s'' → Reads s s''

theorem Reads.trans {s s' s'' : Scanner} (h : Reads s s') (h' : Reads s' s'') : Reads s s'' := by
  induction h with
  | refl s => exact h'
  | step hfetch hend hlength _ ih => exact .step hfetch hend hlength (ih h')

/-- One token. -/
theorem Reads.single {s s' : Scanner} (hfetch : s.fetch = .ok s')
    (hend : s'.tokens.head? ≠ some .streamEnd) (hlength : s'.rest.length < s.rest.length) :
    Reads s s' :=
  .step hfetch hend hlength (.refl s')

section Gaps

variable {keyAllowed : Bool} {p : Position} {text tail : List Char} {n : Nat}

theorem skipGapFrom_spaces (n : Nat) :
    skipGapFrom false false keyAllowed p (List.replicate n ' ' ++ tail) =
      skipGapFrom false false keyAllowed (p.right n) tail := by
  induction n generalizing p with
  | zero => rfl
  | succ n ih =>
    have hspace : skipGapFrom false false keyAllowed p (' ' :: (List.replicate n ' ' ++ tail)) =
        skipGapFrom false false keyAllowed (p.right 1) (List.replicate n ' ' ++ tail) := by
      rw [skipGapFrom]
      · have hmark : ¬ ' ' = byteOrderMark := by decide
        simp [show isBreak ' ' = false from rfl, hmark]
      · intro _ hcr _
        exact absurd hcr (by decide)
    rw [List.replicate_succ, List.cons_append, hspace, ih, Position.right_right, Nat.add_comm]

theorem skipGapFrom_token (htail : StartsToken p.column tail) :
    skipGapFrom false false keyAllowed p tail = ⟨keyAllowed, tail, p⟩ := by
  cases tail with
  | nil => rfl
  | cons c tail =>
    obtain ⟨hbreak, hspace, hcomment, hmark⟩ := htail c rfl
    simp only [isSpace, Bool.or_eq_false_iff, beq_eq_false_iff_ne] at hspace
    have hmark' : ¬ (c = byteOrderMark ∧ p.column = 0) := fun h => hmark h.2 h.1
    rw [skipGapFrom]
    · simp [hbreak, hspace, hcomment, hmark']
    · intro _ hcr _
      exact ne_of_not_isBreak hbreak hcr

/-- Behind a line break a key may begin. -/
theorem skipGapFrom_newline :
    skipGapFrom false false keyAllowed p ('\n' :: text) =
      skipGapFrom false false true (p.nextLine 1) text := by
  rw [skipGapFrom]
  · simp [show isBreak '\n' = true from rfl, show Char.utf8Size '\n' = 1 from rfl]
  · intro _ hcr _
    exact absurd hcr (by decide)

theorem length_skipGapFrom_le (inFlow inComment : Bool) :
    (skipGapFrom inFlow inComment keyAllowed p text).rest.length ≤ text.length := by
  fun_induction skipGapFrom inFlow inComment keyAllowed p text with
  | case1 => exact Nat.le_refl _
  | case2 => simp only [List.length_cons]; omega
  | case3 => simp only [List.length_cons]; omega
  | case4 => simp only [List.length_cons]; omega
  | case5 => simp only [List.length_cons]; omega
  | case6 => simp only [List.length_cons]; omega
  | case7 => simp only [List.length_cons]; omega
  | case8 => exact Nat.le_refl _

end Gaps

section Rest

variable {text tail : List Char} {p : Position} {b : Blocks} {n : Nat} {s : Scanner}

theorem length_skipGap_le (s : Scanner) : s.skipGap.rest.length ≤ s.rest.length :=
  length_skipGapFrom_le _ _

/-- At rest, the indentation of a line is passed over. -/
theorem skipGap_resting (htail : StartsToken (p.column + n) tail) :
    (resting (List.replicate n ' ' ++ tail) p b).skipGap = resting tail (p.right n) b := by
  have hgap : skipGapFrom false false true p (List.replicate n ' ' ++ tail) =
      ⟨true, tail, p.right n⟩ := by
    rw [skipGapFrom_spaces, skipGapFrom_token htail]
  have hskip : (resting (List.replicate n ' ' ++ tail) p b).skipGap =
      resting (skipGapFrom false false true p (List.replicate n ' ' ++ tail)).rest
        (skipGapFrom false false true p (List.replicate n ' ' ++ tail)).position
        b := by
    rw [skipGap]
    simp only [resting, inFlow, behind, List.isEmpty_nil, Bool.not_true, hgap]
  rw [hskip, hgap]

/-- A token on the line of a key stands one space behind the colon. -/
theorem skipGap_behindColon (htail : StartsToken (p.column + 1) tail) :
    (behindColon (' ' :: tail) p b).skipGap = behindColon tail (p.right 1) b := by
  have hgap : skipGapFrom false false false p (' ' :: tail) = ⟨false, tail, p.right 1⟩ := by
    have hspaces := @skipGapFrom_spaces false p tail 1
    rw [skipGapFrom_token (p := p.right 1) htail] at hspaces
    exact hspaces
  rw [skipGap]
  simp only [behindColon, resting, inFlow, behind, List.isEmpty_nil, Bool.not_true, hgap]

/-- At the end of a line the next line begins. -/
theorem atLine_behindColon : (behindColon ('\n' :: text) p b).AtLine text b := by
  refine ⟨p.nextLine 1, rfl, ?_⟩
  rw [skipGap, skipGap]
  simp only [behindColon, resting, inFlow, behind, List.isEmpty_nil, Bool.not_true,
    skipGapFrom_newline]

/-- In front of the first token of a line it is the start of that line. -/
theorem atLine_resting (htail : StartsToken n tail) (hp : p.column = 0) :
    (resting tail (p.right n) b).AtLine (List.replicate n ' ' ++ tail) b := by
  have hcolumn : StartsToken (p.column + n) tail := by rwa [hp, Nat.zero_add]
  refine ⟨p, hp, ?_⟩
  rw [skipGap_resting hcolumn]
  exact @skipGap_resting tail (p.right n) b 0 hcolumn

/-- The start of a line is in front of its first token, behind its indentation. -/
theorem AtLine.skipGap_eq (h : s.AtLine (List.replicate n ' ' ++ tail) b)
    (htail : StartsToken n tail) : ∃ p : Position, p.column = n ∧ s.skipGap = resting tail p b := by
  obtain ⟨p, hp, hskip⟩ := h
  have hcolumn : StartsToken (p.column + n) tail := by rwa [hp, Nat.zero_add]
  refine ⟨p.right n, ?_, ?_⟩
  · rw [Position.column_right, hp, Nat.zero_add]
  · rw [hskip, skipGap_resting hcolumn]

end Rest

section Closing

variable {text : List Char} {p : Position} {s : Scanner}

theorem closeBlocks_resting (b : Blocks) (column : Int) :
    (resting text p b).closeBlocks column = resting text p (b.close column) := by
  have hfrom : ∀ (outer o : List Int) (ts : List Token) (indent : Int),
      closeBlocksFrom column outer { resting text p ⟨ts, indent, outer⟩ with outerIndents := o } =
        resting text p (Blocks.closeFrom column outer ⟨ts, indent, outer⟩) := by
    intro outer
    induction outer with
    | nil => intro o ts indent; rfl
    | cons next further ih =>
      intro o ts indent
      have hread : closeBlocksFrom column (next :: further)
          { resting text p ⟨ts, indent, next :: further⟩ with outerIndents := o } =
          if column < indent then
            closeBlocksFrom column further
              { resting text p ⟨.blockEnd :: ts, next, further⟩ with outerIndents := o }
          else resting text p ⟨ts, indent, next :: further⟩ := rfl
      rw [hread, Blocks.closeFrom]
      by_cases hdeep : column < indent
      · rw [if_pos hdeep, if_pos hdeep]
        exact ih o (.blockEnd :: ts) next
      · rw [if_neg hdeep, if_neg hdeep]
  exact hfrom b.outer b.outer b.tokens b.indent

theorem closeBlocks_of_le {column : Int} (h : s.indent ≤ column) : s.closeBlocks column = s := by
  have hnot : ¬ column < s.indent := by omega
  rw [closeBlocks]
  split
  · rfl
  · rcases houter : s.outerIndents with _ | ⟨next, further⟩
    · rw [closeBlocksFrom, ← houter]
    · rw [closeBlocksFrom, if_neg hnot, ← houter]

end Closing

end Scanner

/-- Reading all tokens goes on from a state that is reached, with as many readings left
as there are characters and one more. -/
theorem fetchAll_of_reads {s s' : Scanner} (h : s.Reads s') {fuel : Nat}
    (hfuel : s.rest.length < fuel) :
    ∃ fuel', s'.rest.length < fuel' ∧ fetchAll fuel s = fetchAll fuel' s' := by
  induction h generalizing fuel with
  | refl s => exact ⟨fuel, hfuel, rfl⟩
  | step hfetch hend hlength _ ih =>
    rcases fuel with _ | fuel
    · exact absurd hfuel (Nat.not_lt_zero _)
    · obtain ⟨fuel', hfuel', heq⟩ := ih (Nat.lt_of_lt_of_le hlength (Nat.le_of_lt_succ hfuel))
      refine ⟨fuel', hfuel', ?_⟩
      rw [fetchAll, hfetch]
      dsimp only
      rw [if_neg hend, heq]

end Yaml

end NetProfile
