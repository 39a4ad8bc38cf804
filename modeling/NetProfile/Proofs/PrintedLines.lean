import NetProfile.Proofs.PrintedTrees

/-!
# Lines of printed trees

A printed tree is a sequence of lines, each with a margin, a key, and what stands behind the
colon. A scalar in a line is either fixed, the same in all trees of a kind, or given. What a
line is without the given scalars is its frame; frames and given scalars together tell the
lines. Whatever characters a scalar has, it neither ends a line nor begins one.

## Main definitions

- `Line`, `LineFrame` — a line, and what is fixed in it
- `Line.givenWords` — the scalars in lines that are given
- `Draws` — lines that are the entries of a tree

## Main results

- `Line.eq_of_map_frame_eq` — what is fixed in lines and what is given in them is all there is
- `Line.isControl_of_mem_text`, `Line.indentation_text` — the text of a line
- `Draws.append`, `Draws.nested` — lines of trees put together
-/

namespace NetProfile

namespace Yaml

/-- A scalar in a line. -/
inductive Word where
  /-- One that is there in all documents with such a line. -/
  | fixed (s : Scalar)
  /-- One that the definition gives. -/
  | given (s : Scalar)
  deriving DecidableEq, Repr

namespace Word

def scalar : Word → Scalar
  | fixed s => s
  | given s => s

/-- The scalar, if the definition gives it. -/
def given? : Word → Option Scalar
  | fixed _ => none
  | given s => some s

/-- The scalar, if it is fixed. -/
def fixed? : Word → Option Scalar
  | fixed s => some s
  | given _ => none

theorem length_given? (w : Word) : w.given?.toList.length = if w.fixed? = none then 1 else 0 := by
  cases w <;> rfl

theorem eq_of_fixed?_eq {w w' : Word} (hfixed : w.fixed? = w'.fixed?)
    (hgiven : w.given?.toList = w'.given?.toList) : w = w' := by
  cases w <;> cases w' <;> simp_all [fixed?, given?]

end Word

/-- What stands behind the colon of a key. -/
inductive Ending where
  /-- Nothing: the entries of a mapping follow on lines of their own. -/
  | block
  /-- The braces of a mapping without entries. -/
  | braces
  | value (w : Word)
  deriving DecidableEq, Repr

namespace Ending

def text : Ending → List Char
  | block => []
  | braces => [' ', '\x7b', '\x7d']
  | value w => ' ' :: w.scalar.written

def word? : Ending → Option Word
  | value w => some w
  | _ => none

theorem length_given? (e : Ending) :
    (e.word?.bind Word.given?).toList.length =
      if e.word?.map Word.fixed? = some none then 1 else 0 := by
  rcases e with _ | _ | w
  · rfl
  · rfl
  · cases w <;> rfl

theorem eq_of_word?_eq {e e' : Ending} (hbraces : (e == .braces) = (e' == .braces))
    (hfixed : e.word?.map Word.fixed? = e'.word?.map Word.fixed?)
    (hgiven : (e.word?.bind Word.given?).toList = (e'.word?.bind Word.given?).toList) : e = e' := by
  rcases e with _ | _ | w <;> rcases e' with _ | _ | w' <;> simp [word?] at hbraces hfixed ⊢
  exact Word.eq_of_fixed?_eq hfixed hgiven

end Ending

/-- A line of a document, without the newline at its end. -/
structure Line where
  /-- The number of mappings around that of the key. -/
  depth : Nat
  key : Word
  ending : Ending
  deriving DecidableEq, Repr

/-- What is left of a line without the scalars that are given: its depth, and for the key
and the value whether they are there and what they are if they are fixed. -/
structure LineFrame where
  depth : Nat
  key : Option Scalar
  hasBraces : Bool
  value : Option (Option Scalar)
  deriving DecidableEq, Repr

/-- The number of places for scalars that are given. -/
def LineFrame.places (f : LineFrame) : Nat :=
  (if f.key = none then 1 else 0) + (if f.value = some none then 1 else 0)

namespace Line

def text (l : Line) : List Char :=
  List.replicate (2 * l.depth) ' ' ++ (l.key.scalar.written ++ ':' :: l.ending.text)

def deeper (n : Nat) (l : Line) : Line := { l with depth := n + l.depth }

def frame (l : Line) : LineFrame :=
  ⟨l.depth, l.key.fixed?, l.ending == .braces, l.ending.word?.map Word.fixed?⟩

/-- The scalars in the line that are given. -/
def words (l : Line) : List Scalar :=
  l.key.given?.toList ++ (l.ending.word?.bind Word.given?).toList

/-- The scalars in the lines that are given, in order. -/
def givenWords (ls : List Line) : List Scalar := ls.flatMap words

/-- A line with a value. -/
def entry (key value : Word) : List Line := [⟨0, key, .value value⟩]

/-- The lines of a mapping below its key. -/
def nested (key : Word) (body : List Line) : List Line :=
  if body = [] then [⟨0, key, .braces⟩] else ⟨0, key, .block⟩ :: body.map (deeper 1)

/-- A flag, which has a line only when it is set. -/
def flag (key : String) (value : Bool) : List Line :=
  if value then entry (.fixed (.bare key)) (.fixed (.bare "true")) else []

/-- A setting, which has a line only when it is set. -/
def setting (key : String) (scalar : String → Scalar) (value : Option String) : List Line :=
  match value with
  | some text => entry (.fixed (.bare key)) (.given (scalar text))
  | none => []

@[simp]
theorem givenWords_nil : givenWords [] = [] := rfl

@[simp]
theorem givenWords_append (ls ms : List Line) :
    givenWords (ls ++ ms) = givenWords ls ++ givenWords ms :=
  List.flatMap_append

/-- What a line has is moved to the right as a whole. -/
theorem deeper_deeper (m n : Nat) (l : Line) : (l.deeper n).deeper m = l.deeper (m + n) := by
  simp only [deeper, Nat.add_assoc]

theorem frame_deeper (n : Nat) (l : Line) :
    (l.deeper n).frame = { l.frame with depth := n + l.frame.depth } := rfl

theorem givenWords_flatMap {α : Type} (xs : List α) (lines : α → List Line) :
    givenWords (xs.flatMap lines) = xs.flatMap (fun x => givenWords (lines x)) :=
  List.flatMap_assoc

theorem givenWords_deeper (n : Nat) (ls : List Line) :
    givenWords (ls.map (deeper n)) = givenWords ls :=
  List.flatMap_map ..

@[simp]
theorem givenWords_nested (key : Word) (body : List Line) :
    givenWords (nested key body) = key.given?.toList ++ givenWords body := by
  rw [nested]
  split
  · next hbody =>
    rw [hbody, givenWords_nil]
    exact List.append_nil _
  · rw [← givenWords_deeper 1 body]
    exact congrArg (· ++ _) (List.append_nil _)

@[simp]
theorem givenWords_flag (key : String) (b : Bool) : givenWords (flag key b) = [] := by
  cases b <;> rfl

@[simp]
theorem givenWords_setting (key : String) (scalar : String → Scalar) (v : Option String) :
    givenWords (setting key scalar v) = (v.map scalar).toList := by
  cases v <;> rfl

/-- Lines with the same frames stay so below keys with the same frame. -/
theorem map_frame_nested {key key' : Word} {body body' : List Line}
    (hkey : key.fixed? = key'.fixed?) (h : body.map frame = body'.map frame) :
    (nested key body).map frame = (nested key' body').map frame := by
  have hnil : body = [] ↔ body' = [] := by
    rw [← @List.map_eq_nil_iff _ _ frame, h, List.map_eq_nil_iff]
  have hdeeper : (body.map (deeper 1)).map frame = (body'.map (deeper 1)).map frame := by
    rw [List.map_map, List.map_map]
    have hcomp : frame ∘ deeper 1 =
        (fun f : LineFrame => { f with depth := 1 + f.depth }) ∘ frame :=
      funext (frame_deeper 1)
    rw [hcomp, ← List.map_map, ← List.map_map, h]
  rw [nested, nested]
  by_cases hbody : body = []
  · rw [if_pos hbody, if_pos (hnil.1 hbody), List.map_singleton, List.map_singleton, frame, frame,
      hkey]
  · rw [if_neg hbody, if_neg (fun hbody' => hbody (hnil.2 hbody')), List.map_cons, List.map_cons,
      hdeeper, frame, frame, hkey]

theorem map_frame_setting (key : String) (scalar : String → Scalar) {v v' : Option String}
    (h : v.isSome = v'.isSome) :
    (setting key scalar v).map frame = (setting key scalar v').map frame := by
  cases v <;> cases v' <;> first | rfl | cases h

/-- The frames of many parts, where those of one part depend on its shape only. -/
theorem map_frame_flatMap {α β : Type} {lines : α → List Line} {shape : α → β}
    (hone : ∀ x y, shape x = shape y → (lines x).map frame = (lines y).map frame)
    {xs ys : List α} (h : xs.map shape = ys.map shape) :
    (xs.flatMap lines).map frame = (ys.flatMap lines).map frame := by
  induction xs generalizing ys with
  | nil => rw [List.map_eq_nil_iff.1 h.symm]
  | cons x xs ih =>
    obtain ⟨y, rest, rfl, hy, hrest⟩ := List.map_eq_cons_iff.1 h.symm
    rw [List.flatMap_cons, List.flatMap_cons, List.map_append, List.map_append,
      hone x y hy.symm, ih hrest.symm]

theorem length_words (l : Line) : l.words.length = l.frame.places := by
  rw [words, List.length_append, Word.length_given?, Ending.length_given?]
  rfl

/-- A line is what is fixed in it, with the given scalars in the places left for them. -/
theorem eq_of_frame_eq {l m : Line} (hframe : l.frame = m.frame) (hwords : l.words = m.words) :
    l = m := by
  obtain ⟨depth, key, ending⟩ := l
  obtain ⟨depth', key', ending'⟩ := m
  rw [frame, frame, LineFrame.mk.injEq] at hframe
  obtain ⟨rfl : depth = depth', hkey, hbraces, hvalue⟩ := hframe
  have hlength : key.given?.toList.length = key'.given?.toList.length := by
    rw [Word.length_given?, Word.length_given?, hkey]
  obtain ⟨hgiven, hgiven'⟩ := List.append_inj hwords hlength
  obtain rfl : key = key' := Word.eq_of_fixed?_eq hkey hgiven
  obtain rfl : ending = ending' := Ending.eq_of_word?_eq hbraces hvalue hgiven'
  rfl

/-- Lines can be told by what is fixed in them and by what is given in them all together. -/
theorem eq_of_map_frame_eq {ls ms : List Line} (hframe : ls.map frame = ms.map frame)
    (hwords : givenWords ls = givenWords ms) : ls = ms := by
  induction ls generalizing ms with
  | nil => exact (List.map_eq_nil_iff.1 hframe.symm).symm
  | cons l ls ih =>
    obtain ⟨m, rest, rfl, hm, hrest⟩ := List.map_eq_cons_iff.1 hframe.symm
    have hlength : l.words.length = m.words.length := by
      rw [length_words, length_words, hm]
    obtain ⟨hl, hls⟩ := List.append_inj hwords hlength
    rw [eq_of_frame_eq hm.symm hl, ih hrest.symm hls]

/-! ### The text of a line -/

theorem text_block (depth : Nat) (key : Word) :
    (deeper depth ⟨0, key, .block⟩).text =
      List.replicate (2 * depth) ' ' ++ (key.scalar.written ++ [':']) := rfl

theorem isControl_of_mem_written {s : Scalar} {c : Char} (hc : c ∈ s.written) :
    Text.isControl c = false := by
  cases hbare : s.isBare with
  | true =>
    rw [Scalar.written_of_isBare hbare] at hc
    exact isControl_of_isPlainSafe (Scalar.isPlainSafe_of_isBare hbare) hc
  | false =>
    rw [Scalar.written_of_not_isBare hbare, quote, List.mem_cons, List.mem_append,
      List.mem_singleton, List.mem_flatMap] at hc
    obtain rfl | ⟨x, -, hx⟩ | rfl := hc
    · decide
    · exact (isControl_of_mem_quoteChar hx).1
    · decide

theorem isControl_of_mem_text {l : Line} {c : Char} (hc : c ∈ l.text) :
    Text.isControl c = false := by
  have hending : c ∈ l.ending.text → Text.isControl c = false := by
    intro hc
    cases hl : l.ending with
    | block =>
      rw [hl] at hc
      exact absurd hc List.not_mem_nil
    | braces =>
      rw [hl, Ending.text, List.mem_cons, List.mem_cons, List.mem_singleton] at hc
      obtain rfl | rfl | rfl := hc <;> decide
    | value w =>
      rw [hl] at hc
      obtain rfl | hc := List.mem_cons.1 hc
      · decide
      · exact isControl_of_mem_written hc
  rw [text, List.mem_append, List.mem_append, List.mem_cons] at hc
  obtain hc | hc | rfl | hc := hc
  · rw [List.eq_of_mem_replicate hc]
    decide
  · exact isControl_of_mem_written hc
  · decide
  · exact hending hc

/-- The number of spaces in front of a line. -/
def indentation (line : List Char) : Nat := (line.takeWhile (· == ' ')).length

theorem indentation_text (l : Line) : indentation l.text = 2 * l.depth := by
  obtain ⟨c, more, hkey, hspace, -⟩ := l.key.scalar.exists_written
  have hstop : (c == ' ') = false := by simpa using hspace
  rw [indentation, text, hkey, List.takeWhile_append_of_pos (by simp), List.cons_append,
    List.takeWhile_cons_of_neg (by simp [hstop])]
  simp

end Line

theorem MappingTree.toList_printEntries_append (depth : Nat) (t u : MappingTree) :
    (MappingTree.printEntries depth (t ++ u)).toList =
      (t.printEntries depth).toList ++ (u.printEntries depth).toList := by
  induction t with
  | nil => rfl
  | cons entry rest ih =>
    obtain ⟨k, c⟩ := entry
    rw [List.cons_append, toList_printEntries_cons, toList_printEntries_cons, ih]
    simp

/-- The entries of the tree are printed as the lines, at any depth. -/
structure Draws (ls : List Line) (t : MappingTree) : Prop where
  nil_iff : ls = [] ↔ t = []
  print_eq : ∀ depth, (t.printEntries depth).toList =
    ls.flatMap (fun l => (l.deeper depth).text ++ ['\n'])

namespace Draws

variable {ls ms : List Line} {t u : MappingTree}

theorem nil : Draws [] [] := ⟨by simp, fun _ => rfl⟩

theorem append (h : Draws ls t) (h' : Draws ms u) : Draws (ls ++ ms) (t ++ u) := by
  constructor
  · rw [List.append_eq_nil_iff, List.append_eq_nil_iff, h.nil_iff, h'.nil_iff]
  · intro depth
    rw [MappingTree.toList_printEntries_append, h.print_eq, h'.print_eq, List.flatMap_append]

theorem flatMap {α : Type} {xs : List α} {lines : α → List Line} {tree : α → MappingTree}
    (h : ∀ x ∈ xs, Draws (lines x) (tree x)) : Draws (xs.flatMap lines) (xs.flatMap tree) := by
  induction xs with
  | nil => exact nil
  | cons x xs ih =>
    rw [List.flatMap_cons, List.flatMap_cons]
    exact (h x List.mem_cons_self).append (ih (fun y hy => h y (List.mem_cons_of_mem x hy)))

theorem entry (key value : Word) :
    Draws (Line.entry key value) [(key.scalar, .scalar value.scalar)] := by
  refine ⟨by simp [Line.entry], fun depth => ?_⟩
  rw [MappingTree.toList_printEntries_cons, Content.toList_print_scalar]
  simp [Line.entry, Line.text, Line.deeper, Ending.text, MappingTree.printEntries]

/-- The entries of a mapping are drawn one level deeper, below its key. -/
theorem nested (key : Word) (h : Draws ls t) :
    Draws (Line.nested key ls) [(key.scalar, .mapping t)] := by
  rw [Line.nested]
  split
  · next hls =>
    rw [h.nil_iff] at hls
    subst hls
    refine ⟨by simp, fun depth => ?_⟩
    rw [MappingTree.toList_printEntries_cons, Content.toList_print_empty]
    simp [Line.text, Line.deeper, Ending.text, MappingTree.printEntries]
  · next hls =>
    rw [h.nil_iff] at hls
    refine ⟨by simp, fun depth => ?_⟩
    rw [MappingTree.toList_printEntries_cons, Content.toList_print_mapping hls, h.print_eq,
      List.flatMap_cons, List.flatMap_map]
    simp [Line.deeper_deeper, Line.text_block, MappingTree.printEntries]

theorem flag (key : String) (b : Bool) :
    Draws (Line.flag key b) (MappingTree.flagEntry key b) := by
  cases b with
  | false => exact nil
  | true => exact entry (.fixed (.bare key)) (.fixed (.bare "true"))

theorem setting (key : String) (v : Option String) :
    Draws (Line.setting key .quoted v) (MappingTree.optionalEntry key v) := by
  cases v with
  | none => exact nil
  | some text => exact entry (.fixed (.bare key)) (.given (.quoted text))

theorem bareSetting (key : String) (v : Option String) :
    Draws (Line.setting key .bare v) (MappingTree.optionalBareEntry key v) := by
  cases v with
  | none => exact nil
  | some text => exact entry (.fixed (.bare key)) (.given (.bare text))

end Draws

end Yaml

end NetProfile
