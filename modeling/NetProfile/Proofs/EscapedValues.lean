import Mathlib.Data.List.Induction
import NetProfile.Keyfile

/-!
# Values with escapes

A value is read from the left in units: a backslash together with the character behind it,
and any other character on its own. So a run of backslashes is taken two by two, and only
its last one can make an escape of what follows. The ways to write a text and the malformed
values are described here without the reader, and every value is one of the two.

## Main definitions

- `Keyfile.Writes`, `Keyfile.WritesText` — the ways to write a character and a text
- `Keyfile.InUnits` — what is read in whole units
- `Keyfile.IsMalformed` — values with a backslash that makes no escape

## Main results

- `Keyfile.exists_writesText_or_isMalformed` — every value is a written text or malformed
- `Keyfile.WritesText.unescape_append` — reading on behind a written text
- `Keyfile.unescape_undoes_writing` — what is read, and what is refused
-/

namespace NetProfile

namespace Keyfile

/-- A unit that writes a character. A space, a newline, a tab and a carriage return stand
for themselves or have an escape, a backslash has an escape only, and all else stands for
itself. -/
inductive Writes : List Char → Char → Prop where
  | itself {c : Char} : c ≠ '\\' → Writes [c] c
  | space : Writes ['\\', 's'] ' '
  | newline : Writes ['\\', 'n'] '\n'
  | tab : Writes ['\\', 't'] '\t'
  | carriageReturn : Writes ['\\', 'r'] '\r'
  | backslash : Writes ['\\', '\\'] '\\'

/-- A value that writes a text, each character in a way of its own. -/
inductive WritesText : List Char → List Char → Prop where
  | nil : WritesText [] []
  | cons {unit value text : List Char} {c : Char} :
      Writes unit c → WritesText value text → WritesText (unit ++ value) (c :: text)

/-- Values that end where a unit ends. Any character may stand behind a backslash. -/
inductive InUnits : List Char → Prop where
  | nil : InUnits []
  | single {c : Char} {value : List Char} : c ≠ '\\' → InUnits value → InUnits (c :: value)
  | pair {e : Char} {value : List Char} : InUnits value → InUnits ('\\' :: e :: value)

/-- The characters that make an escape of a backslash in front of them. -/
def escapeLetters : List Char := ['s', 'n', 't', 'r', '\\']

/-- Values in which a unit begins with a backslash that is the last character or is followed
by one that makes no escape. -/
def IsMalformed (value : List Char) : Prop :=
  ∃ before after, InUnits before ∧ value = before ++ '\\' :: after ∧
    (after = [] ∨ ∃ e rest, after = e :: rest ∧ e ∉ escapeLetters)

variable {value text rest unit : List Char} {c e : Char}

/-! ### Written and malformed values -/

theorem exists_writes_pair (he : e ∈ escapeLetters) : ∃ c, Writes ['\\', e] c := by
  simp only [escapeLetters, List.mem_cons, List.not_mem_nil, or_false] at he
  obtain rfl | rfl | rfl | rfl | rfl := he
  · exact ⟨' ', .space⟩
  · exact ⟨'\n', .newline⟩
  · exact ⟨'\t', .tab⟩
  · exact ⟨'\r', .carriageReturn⟩
  · exact ⟨'\\', .backslash⟩

theorem Writes.exists_writesText_append (hunit : Writes unit c)
    (h : ∃ text, WritesText value text) : ∃ text, WritesText (unit ++ value) text := by
  obtain ⟨text, htext⟩ := h
  exact ⟨c :: text, .cons hunit htext⟩

theorem IsMalformed.single (hc : c ≠ '\\') (h : IsMalformed value) :
    IsMalformed (c :: value) := by
  obtain ⟨before, after, hbefore, rfl, hafter⟩ := h
  exact ⟨c :: before, after, .single hc hbefore, rfl, hafter⟩

theorem IsMalformed.pair (h : IsMalformed value) : IsMalformed ('\\' :: e :: value) := by
  obtain ⟨before, after, hbefore, rfl, hafter⟩ := h
  exact ⟨'\\' :: e :: before, after, .pair hbefore, rfl, hafter⟩

/-- Every value writes a text or is malformed. -/
theorem exists_writesText_or_isMalformed (value : List Char) :
    (∃ text, WritesText value text) ∨ IsMalformed value := by
  -- A unit takes one character or two, so both shorter rests are needed.
  induction value using List.twoStepInduction with
  | nil => exact Or.inl ⟨[], .nil⟩
  | singleton c =>
    by_cases hc : c = '\\'
    · subst hc
      exact Or.inr ⟨[], [], .nil, rfl, Or.inl rfl⟩
    · exact Or.inl ⟨[c], .cons (.itself hc) .nil⟩
  | cons_cons c e rest ihpair ihsingle =>
    by_cases hc : c = '\\'
    · subst hc
      by_cases he : e ∈ escapeLetters
      · obtain ⟨x, hunit⟩ := exists_writes_pair he
        exact ihpair.imp hunit.exists_writesText_append IsMalformed.pair
      · exact Or.inr ⟨[], e :: rest, .nil, rfl, Or.inr ⟨e, rest, rfl, he⟩⟩
    · exact (ihsingle e).imp (Writes.itself hc).exists_writesText_append (IsMalformed.single hc)

/-! ### Reading -/

theorem unescape_single (hc : c ≠ '\\') :
    unescape (c :: rest) = (unescape rest).map (c :: ·) := by
  rw [unescape.eq_def]
  exact if_neg hc

theorem unescape_pair :
    unescape ('\\' :: e :: rest) =
      (escapedChar? e).bind (fun c => (unescape rest).map (c :: ·)) := by
  rw [unescape, if_pos rfl]
  cases escapedChar? e with
  | none => rfl
  | some c =>
    cases unescape rest with
    | none => rfl
    | some text => rfl

theorem escapedChar?_eq_none (he : e ∉ escapeLetters) : escapedChar? e = none := by
  rw [escapedChar?]
  all_goals
    rintro rfl
    exact he (by decide)

theorem Writes.unescape_append (h : Writes unit c) (rest : List Char) :
    unescape (unit ++ rest) = (unescape rest).map (c :: ·) := by
  cases h with
  | itself hc => exact unescape_single hc
  | space => exact unescape_pair
  | newline => exact unescape_pair
  | tab => exact unescape_pair
  | carriageReturn => exact unescape_pair
  | backslash => exact unescape_pair

/-- Behind a written text the reading starts afresh. -/
theorem WritesText.unescape_append (h : WritesText value text) (rest : List Char) :
    unescape (value ++ rest) = (unescape rest).map (text ++ ·) := by
  induction h with
  | nil => exact Option.map_id'.symm
  | cons hunit _ ih =>
    rw [List.append_assoc, hunit.unescape_append, ih, Option.map_map]
    rfl

theorem WritesText.unescape_eq (h : WritesText value text) : unescape value = some text := by
  have hread := h.unescape_append []
  rwa [List.append_nil, unescape, Option.map_some, List.append_nil] at hread

/-- Nothing in front makes up for a rest that is refused, if a unit begins there. -/
theorem InUnits.unescape_append (h : InUnits value) (hrest : unescape rest = none) :
    unescape (value ++ rest) = none := by
  induction h with
  | nil => exact hrest
  | single hc _ ih => rw [List.cons_append, unescape_single hc, ih, Option.map_none]
  | pair _ ih =>
    rw [List.cons_append, List.cons_append, unescape_pair, ih]
    exact Option.bind_eq_none_iff.2 (fun _ _ => rfl)

theorem IsMalformed.unescape_eq (h : IsMalformed value) : unescape value = none := by
  obtain ⟨before, after, hbefore, rfl, hafter⟩ := h
  apply hbefore.unescape_append
  obtain rfl | ⟨e, rest, rfl, he⟩ := hafter
  · rfl
  · rw [unescape_pair, escapedChar?_eq_none he, Option.bind_none]

theorem unescape_eq_some_iff : unescape value = some text ↔ WritesText value text := by
  refine ⟨fun h => ?_, WritesText.unescape_eq⟩
  obtain ⟨text', htext⟩ | hmalformed := exists_writesText_or_isMalformed value
  · have heq := htext.unescape_eq
    rw [h, Option.some.injEq] at heq
    rwa [heq]
  · rw [hmalformed.unescape_eq] at h
    cases h

theorem unescape_eq_none_iff : unescape value = none ↔ IsMalformed value := by
  refine ⟨fun h => ?_, IsMalformed.unescape_eq⟩
  obtain ⟨text, htext⟩ | hmalformed := exists_writesText_or_isMalformed value
  · rw [htext.unescape_eq] at h
    cases h
  · exact hmalformed

/-- A value is read as a text exactly if it writes that text, and refused exactly if it is
malformed; so a text is read back however it was written. What follows a value that is read
is read on its own. The strings of a profile are read off their values in this way. -/
theorem unescape_undoes_writing (value : List Char) :
    (∀ text, unescape value = some text ↔ WritesText value text) ∧
      (unescape value = none ↔ IsMalformed value) ∧
      (∀ text rest, unescape value = some text →
        unescape (value ++ rest) = (unescape rest).map (text ++ ·)) ∧
      ∀ (kf : Keyfile) (group key : String), kf.raw? group key = some (String.ofList value) →
        (∀ text : String, kf.string? group key = some text ↔ WritesText value text.toList) ∧
          (kf.string? group key = none ↔ IsMalformed value) := by
  refine ⟨fun _ => unescape_eq_some_iff, unescape_eq_none_iff, ?_, ?_⟩
  · intro text rest h
    exact (unescape_eq_some_iff.1 h).unescape_append rest
  · intro kf group key hraw
    have hstring : kf.string? group key = (unescape value).map String.ofList := by
      rw [string?, hraw, Option.bind_some, String.toList_ofList]
    constructor
    · intro text
      rw [hstring, Option.map_eq_some_iff, ← unescape_eq_some_iff]
      constructor
      · rintro ⟨read, hread, rfl⟩
        rwa [String.toList_ofList]
      · intro hread
        exact ⟨text.toList, hread, String.ofList_toList⟩
    · rw [hstring, Option.map_eq_none_iff, unescape_eq_none_iff]

/-- Three backslashes and an `s` write a backslash and a space. A backslash behind them is
one too many, and an `n` behind that makes it a newline. -/
theorem unescape_undoes_writing_backslashes :
    let value := ['a', '\\', '\\', '\\', 's']
    let text := ['a', '\\', ' ']
    let kf := Keyfile.put {} "wifi" "ssid" (String.ofList value)
    unescape value = some text ∧ WritesText value text ∧ IsMalformed (value ++ ['\\']) ∧
      unescape (value ++ ['\\', 'n']) = some (text ++ ['\n']) ∧
      kf.raw? "wifi" "ssid" = some (String.ofList value) ∧
      kf.string? "wifi" "ssid" = some (String.ofList text) := by
  intro value text kf
  have hread : unescape value = some text := by decide
  obtain ⟨hwrites, -, happend, hstring⟩ := unescape_undoes_writing value
  have hvalue : WritesText value text := (hwrites text).1 hread
  have hdangling : unescape (value ++ ['\\']) = none := happend text ['\\'] hread
  have hraw : kf.raw? "wifi" "ssid" = some (String.ofList value) := by
    rw [raw?_put, if_pos ⟨rfl, rfl⟩]
  refine ⟨hread, hvalue, (unescape_undoes_writing _).2.1.1 hdangling,
    happend text ['\\', 'n'] hread, hraw, ?_⟩
  apply ((hstring kf "wifi" "ssid" hraw).1 (String.ofList text)).2
  rwa [String.toList_ofList]

end Keyfile

end NetProfile
