import NetProfile.Proofs.DocumentTree
import NetProfile.Proofs.TreeScanning

/-!
# Trees told apart by their texts

A printed tree can be read in one way only: trees with the same text have the same keys
and scalars in the same places. Only the styles may differ, where a text that was to be
plain is written between quotes all the same. Nothing is asked of the texts.

## Main definitions

- `MappingTree.unstyled` — a tree without its styles
- `EndsScalar` — what may follow a scalar in a document
- `Outdents` — what may follow the entries of a mapping

## Main results

- `Scalar.written_append_inj` — a written scalar, whatever follows
- `MappingTree.printEntries_append_inj` — the entries of a mapping, whatever follows
- `MappingTree.unstyled_eq_of_print_eq` — a whole document
-/

namespace NetProfile

namespace Yaml

mutual

/-- The value without its styles. -/
def Content.unstyled : Content → Content
  | .scalar s => .scalar (.bare s.text)
  | .mapping t => .mapping (MappingTree.unstyled t)

/-- The tree without its styles. -/
def MappingTree.unstyled : MappingTree → MappingTree
  | [] => []
  | (k, c) :: rest => (.bare k.text, c.unstyled) :: MappingTree.unstyled rest

end

/-- The end of a line follows, or the colon behind a key. -/
def EndsScalar (r : List Char) : Prop :=
  ∃ more, r = '\n' :: more ∨ r = ':' :: ' ' :: more ∨ r = ':' :: '\n' :: more

/-- No line with `n` spaces in front of its text follows. -/
def Outdents (n : Nat) (r : List Char) : Prop := ∀ c more, r ≠ List.replicate n ' ' ++ c :: more

theorem Outdents.nil (n : Nat) : Outdents n [] := by
  intro c more h
  simp at h

theorem Outdents.deeper {n : Nat} {r : List Char} (h : Outdents n r) (m : Nat) :
    Outdents (n + m) r := by
  intro c more hr
  rw [List.replicate_add, List.append_assoc] at hr
  cases m with
  | zero => exact h c more hr
  | succ m => exact h ' ' (List.replicate m ' ' ++ c :: more) hr

theorem ne_newline_of_isPlainSafe {s : List Char} (h : isPlainSafe s = true) : '\n' ∉ s := by
  intro hmem
  have hcontrol := isControl_of_isPlainSafe h hmem
  exact absurd hcontrol (by decide)

theorem hasPair_append (a b : Char) (s t : List Char) : hasPair a b (s ++ a :: b :: t) = true := by
  by_contra h
  rw [Bool.not_eq_true] at h
  induction s with
  | nil => exact (hasPair_cons h).2 rfl rfl
  | cons c s ih => exact ih (hasPair_cons h).1

/-- A safe text ends where it does: it does not go on over what ends a scalar. -/
theorem eq_nil_of_isPlainSafe_append {s m r r' : List Char} (h : isPlainSafe (s ++ m) = true)
    (hr : EndsScalar r) (hm : r = m ++ r') : m = [] := by
  cases m with
  | nil => rfl
  | cons c m =>
    exfalso
    rw [List.cons_append] at hm
    have hbreak : c ≠ '\n' := by
      rintro rfl
      exact ne_newline_of_isPlainSafe h (by simp)
    obtain ⟨more, hcolon⟩ : ∃ more, c = ':' ∧ (m ++ r' = ' ' :: more ∨ m ++ r' = '\n' :: more) := by
      obtain ⟨more, rfl | rfl | rfl⟩ := hr
      · exact absurd (List.cons.inj hm).1.symm hbreak
      · exact ⟨more, (List.cons.inj hm).1.symm, Or.inl (List.cons.inj hm).2.symm⟩
      · exact ⟨more, (List.cons.inj hm).1.symm, Or.inr (List.cons.inj hm).2.symm⟩
    obtain ⟨rfl, hblank⟩ := hcolon
    -- A safe text does not end with a colon, nor has it one in front of a blank.
    cases m with
    | nil => exact (getLast_of_isPlainSafe h).2 (by simp)
    | cons d m =>
      rw [List.cons_append, List.cons.injEq, List.cons.injEq] at hblank
      obtain ⟨rfl, -⟩ | ⟨rfl, -⟩ := hblank
      · have hpair := (hasPair_of_isPlainSafe h).1
        rw [hasPair_append] at hpair
        exact absurd hpair (by decide)
      · exact ne_newline_of_isPlainSafe h (by simp)

/-- Two safe texts in front of what ends a scalar are the same text. -/
theorem isPlainSafe_append_inj {s s' r r' : List Char} (hs : isPlainSafe s = true)
    (hs' : isPlainSafe s' = true) (hr : EndsScalar r) (hr' : EndsScalar r')
    (h : s ++ r = s' ++ r') : s = s' ∧ r = r' := by
  rcases List.append_eq_append_iff.1 h with ⟨m, rfl, hm⟩ | ⟨m, rfl, hm⟩
  · obtain rfl := eq_nil_of_isPlainSafe_append hs' hr hm
    exact ⟨(List.append_nil s).symm, hm⟩
  · obtain rfl := eq_nil_of_isPlainSafe_append hs hr' hm
    exact ⟨List.append_nil s', hm.symm⟩

/-- Between quotes a text ends where it does, whatever follows: it could be read. -/
theorem quote_append_inj {s s' r r' : List Char} (h : quote s ++ r = quote s' ++ r') :
    s = s' ∧ r = r' := by
  have hread := congrArg (fun text => scanQuoted true (Position.right {} 1) (text.drop 1)) h
  simp only [scanQuoted_quote, Except.ok.injEq, Piece.mk.injEq] at hread
  exact ⟨hread.1, hread.2.1⟩

namespace Scalar

/-- A written scalar begins with a quote exactly when it is written between quotes, and
never with a space or a brace. -/
theorem exists_written (s : Scalar) :
    ∃ c more, s.written = c :: more ∧ c ≠ ' ' ∧ c ≠ '\x7b' ∧ (c = '"' ↔ s.isBare = false) := by
  cases hbare : s.isBare with
  | false =>
    refine ⟨'"', _, s.written_of_not_isBare hbare, by decide, by decide, by simp⟩
  | true =>
    rw [written_of_isBare hbare]
    have hsafe := isPlainSafe_of_isBare hbare
    cases htext : s.text.toList with
    | nil => exact absurd htext (ne_nil_of_isPlainSafe hsafe)
    | cons c more =>
      rw [htext, isPlainSafe] at hsafe
      simp only [startsSafely, Bool.and_eq_true, bne_iff_ne, Bool.not_eq_true'] at hsafe
      obtain ⟨⟨hspace, hleading⟩, -⟩ := hsafe.1.1.1.1
      refine ⟨c, more, rfl, hspace, ?_, ?_⟩
      · rintro rfl
        exact absurd hleading (by decide)
      · simp only [Bool.true_eq_false, iff_false]
        rintro rfl
        exact absurd hleading (by decide)

/-- The text of a written scalar and what follows it can be told. -/
theorem written_append_inj {s s' : Scalar} {r r' : List Char} (hr : EndsScalar r)
    (hr' : EndsScalar r') (h : s.written ++ r = s'.written ++ r') :
    s.text = s'.text ∧ r = r' := by
  have hstyle : s.isBare = s'.isBare := by
    obtain ⟨c, more, hs, -, -, hc⟩ := s.exists_written
    obtain ⟨c', more', hs', -, -, hc'⟩ := s'.exists_written
    rw [hs, hs', List.cons_append, List.cons_append, List.cons.injEq] at h
    rw [h.1, hc'] at hc
    rw [Bool.eq_iff_iff, ← not_iff_not, Bool.not_eq_true, Bool.not_eq_true]
    exact hc.symm
  cases hbare : s.isBare with
  | true =>
    have hbare' : s'.isBare = true := hstyle ▸ hbare
    rw [written_of_isBare hbare, written_of_isBare hbare'] at h
    obtain ⟨htext, hrest⟩ := isPlainSafe_append_inj (isPlainSafe_of_isBare hbare)
      (isPlainSafe_of_isBare hbare') hr hr' h
    exact ⟨String.toList_inj.1 htext, hrest⟩
  | false =>
    have hbare' : s'.isBare = false := hstyle ▸ hbare
    rw [written_of_not_isBare hbare, written_of_not_isBare hbare'] at h
    obtain ⟨htext, hrest⟩ := quote_append_inj h
    exact ⟨String.toList_inj.1 htext, hrest⟩

end Scalar

namespace Content

variable {depth : Nat} {v : Scalar} {t : MappingTree} {c : Content} {r r' : List Char}

theorem toList_print_scalar :
    (print depth (.scalar v)).toList = ' ' :: (v.written ++ ['\n']) := by
  simp [print, Scalar.token, String.toList_append]

theorem toList_print_empty :
    (print depth (.mapping [])).toList = [' ', '\x7b', '\x7d', '\n'] := by
  simp [print]

theorem toList_print_mapping (ht : t ≠ []) :
    (print depth (.mapping t)).toList = '\n' :: (MappingTree.printEntries (depth + 1) t).toList := by
  cases t with
  | nil => exact absurd rfl ht
  | cons entry t => simp [print, String.toList_append]

theorem endsScalar_print (depth : Nat) (c : Content) (r : List Char) :
    EndsScalar (':' :: ((c.print depth).toList ++ r)) := by
  rcases c with v | t
  · exact ⟨_, Or.inr (Or.inl (by rw [toList_print_scalar, List.cons_append]))⟩
  · by_cases ht : t = []
    · subst ht
      exact ⟨_, Or.inr (Or.inl (by rw [toList_print_empty, List.cons_append]))⟩
    · exact ⟨_, Or.inr (Or.inr (by rw [toList_print_mapping ht, List.cons_append]))⟩

/-- A printed scalar is no mapping, and its text can be told. -/
theorem print_scalar_append_inj
    (h : (print depth (.scalar v)).toList ++ r = (c.print depth).toList ++ r') :
    ∃ v', c = .scalar v' ∧ v.text = v'.text ∧ r = r' := by
  rw [toList_print_scalar, List.cons_append] at h
  rcases c with v' | t
  · rw [toList_print_scalar, List.cons_append, List.cons.injEq, List.append_assoc,
      List.append_assoc] at h
    obtain ⟨htext, hrest⟩ := Scalar.written_append_inj ⟨r, Or.inl rfl⟩ ⟨r', Or.inl rfl⟩ h.2
    exact ⟨v', rfl, htext, (List.cons.inj hrest).2⟩
  · exfalso
    by_cases ht : t = []
    · subst ht
      obtain ⟨d, more, hv, -, hbrace, -⟩ := v.exists_written
      rw [toList_print_empty, hv] at h
      exact hbrace (List.cons.inj (List.cons.inj h).2).1
    · rw [toList_print_mapping ht, List.cons_append] at h
      exact absurd (List.cons.inj h).1 (by decide)

end Content

namespace MappingTree

variable {depth : Nat} {k k' : Scalar} {c c' : Content} {t u rest rest' : MappingTree}
  {r r' : List Char}

theorem toList_printEntries_cons :
    (printEntries depth ((k, c) :: rest)).toList =
      List.replicate (2 * depth) ' ' ++ (k.written ++ ':' ::
        ((c.print depth).toList ++ (printEntries depth rest).toList)) := by
  simp [printEntries, margin, Scalar.token, String.toList_append]

theorem eq_nil_of_outdents (hr : Outdents (2 * depth) r)
    (h : r = (printEntries depth t).toList ++ r') : t = [] := by
  rcases t with _ | ⟨⟨k, c⟩, rest⟩
  · rfl
  · obtain ⟨d, more, hk, -⟩ := k.exists_written
    rw [toList_printEntries_cons, hk, List.append_assoc] at h
    exact absurd h (hr d _)

/-- What follows the entries of an inner mapping are lines that are indented less. -/
theorem outdents_printEntries (t : MappingTree) (hr : Outdents (2 * depth) r) :
    Outdents (2 * (depth + 1)) ((printEntries depth t).toList ++ r) := by
  rcases t with _ | ⟨⟨k, c⟩, rest⟩
  · exact hr.deeper 2
  · intro d more h
    obtain ⟨d', more', hk, hspace, -⟩ := k.exists_written
    rw [toList_printEntries_cons, hk, Nat.mul_add, List.replicate_add, List.append_assoc,
      List.append_assoc (List.replicate (2 * depth) ' ')] at h
    exact hspace (List.cons.inj (List.append_cancel_left h)).1

/-- The key of the first entry can be told from what is printed behind it. -/
theorem printEntries_cons_append_inj
    (h : (printEntries depth ((k, c) :: rest)).toList ++ r =
      (printEntries depth ((k', c') :: rest')).toList ++ r') :
    k.text = k'.text ∧
      (c.print depth).toList ++ ((printEntries depth rest).toList ++ r) =
        (c'.print depth).toList ++ ((printEntries depth rest').toList ++ r') := by
  rw [toList_printEntries_cons, toList_printEntries_cons] at h
  simp only [List.append_assoc, List.cons_append, List.append_cancel_left_eq] at h
  obtain ⟨hkey, hrest⟩ := Scalar.written_append_inj (Content.endsScalar_print depth c _)
    (Content.endsScalar_print depth c' _) h
  exact ⟨hkey, (List.cons.inj hrest).2⟩

/-- The entries of a mapping can be told from its lines, and so can what follows them. -/
theorem printEntries_append_inj (hr : Outdents (2 * depth) r) (hr' : Outdents (2 * depth) r')
    (h : (printEntries depth t).toList ++ r = (printEntries depth u).toList ++ r') :
    t.unstyled = u.unstyled ∧ r = r' := by
  induction t using MappingTree.induction generalizing u depth r r' with
  | nil =>
    obtain rfl := eq_nil_of_outdents hr h
    exact ⟨rfl, h⟩
  | scalar k v rest ih =>
    rcases u with _ | ⟨⟨k', c'⟩, rest'⟩
    · exact absurd (eq_nil_of_outdents hr' h.symm) (List.cons_ne_nil _ _)
    · obtain ⟨hkey, hbehind⟩ := printEntries_cons_append_inj h
      obtain ⟨v', rfl, hvalue, hrest⟩ := Content.print_scalar_append_inj hbehind
      obtain ⟨htree, hr⟩ := ih hr hr' hrest
      exact ⟨by simp only [unstyled, Content.unstyled, hkey, hvalue, htree], hr⟩
  | mapping k t rest iht ih =>
    rcases u with _ | ⟨⟨k', v' | t'⟩, rest'⟩
    · exact absurd (eq_nil_of_outdents hr' h.symm) (List.cons_ne_nil _ _)
    · obtain ⟨-, hbehind⟩ := printEntries_cons_append_inj h
      obtain ⟨v, hscalar, -⟩ := Content.print_scalar_append_inj hbehind.symm
      exact absurd hscalar (by simp)
    · obtain ⟨hkey, hbehind⟩ := printEntries_cons_append_inj h
      -- The mapping behind the key ends where lines are indented less.
      obtain ⟨hinner, hrest⟩ : t.unstyled = unstyled t' ∧
          (printEntries depth rest).toList ++ r = (printEntries depth rest').toList ++ r' := by
        by_cases ht : t = []
        · by_cases ht' : t' = []
          · subst ht ht'
            exact ⟨rfl, List.append_cancel_left hbehind⟩
          · rw [ht, Content.toList_print_empty, Content.toList_print_mapping ht'] at hbehind
            exact absurd (List.cons.inj hbehind).1 (by decide)
        · by_cases ht' : t' = []
          · rw [ht', Content.toList_print_empty, Content.toList_print_mapping ht] at hbehind
            exact absurd (List.cons.inj hbehind).1 (by decide)
          · rw [Content.toList_print_mapping ht, Content.toList_print_mapping ht'] at hbehind
            exact iht (outdents_printEntries rest hr) (outdents_printEntries rest' hr')
              (List.cons.inj hbehind).2
      obtain ⟨htree, hr⟩ := ih hr hr' hrest
      exact ⟨by simp only [unstyled, Content.unstyled, hkey, hinner, htree], hr⟩

theorem toList_print (ht : t ≠ []) : t.print.toList = (printEntries 0 t).toList := by
  cases t with
  | nil => exact absurd rfl ht
  | cons entry t => rfl

/-- Printed entries are not the text of a document without any. -/
theorem print_ne_of_ne_nil (ht : t ≠ []) : t.print ≠ print [] := by
  intro h
  rcases t with _ | ⟨⟨k, c⟩, rest⟩
  · exact ht rfl
  · obtain ⟨d, more, hk, -, hbrace, -⟩ := k.exists_written
    have hlist := congrArg String.toList h
    rw [toList_print ht, toList_printEntries_cons, hk] at hlist
    exact hbrace (List.cons.inj hlist).1

/-- Documents with the same text are the same apart from styles. -/
theorem unstyled_eq_of_print_eq (h : t.print = u.print) : t.unstyled = u.unstyled := by
  by_cases ht : t = []
  · by_cases hu : u = []
    · rw [ht, hu]
    · exact absurd (ht ▸ h).symm (print_ne_of_ne_nil hu)
  · by_cases hu : u = []
    · exact absurd (hu ▸ h) (print_ne_of_ne_nil ht)
    · have hlist := congrArg String.toList h
      rw [toList_print ht, toList_print hu] at hlist
      exact (printEntries_append_inj (.nil 0) (.nil 0)
        (by rw [List.append_nil, List.append_nil, hlist])).1

end MappingTree

end Yaml

end NetProfile
