import NetProfile.Proofs.CanonicalProfiles
import NetProfile.Proofs.PrintedLines
import NetProfile.Proofs.RenderedDefinitions

/-!
# The lines of a document

Which lines a document has, how far each is indented and what is fixed in it depends on the
shape of the definition only: on its kind, its flags, and which settings there are and how
many. Its texts stand in places of their own, one behind the other, whatever characters
they have.

## Main definitions

- `Definition.lines`, `Definition.givenWords` — the lines of a document, and what is given
- `Definition.shape` — what the lines depend on

## Main results

- `Definition.draws_tree` — the lines are those of the document
- `Definition.givenWords_lines`, `Definition.frames_lines` — what is given, what is fixed
- `Definition.lines_render` — documents line by line
-/

namespace NetProfile

open Yaml (Draws Line MappingTree Scalar)
open Yaml.Line (entry flag givenWords_append givenWords_flag givenWords_flatMap givenWords_nested
  givenWords_setting isControl_of_mem_text map_frame_flatMap map_frame_nested map_frame_setting
  nested setting)

/-! ### Settings -/

namespace Settings

/-- A line for each passed-through pair. -/
def pairLines (pairs : List (String × String)) : List Line :=
  pairs.flatMap (fun pair => entry (.given (.bare pair.1)) (.given (.quoted pair.2)))

def passthroughLines (p : Passthrough) : List Line :=
  if p.isEmpty then [] else nested (.fixed (.bare "passthrough")) (pairLines p.toList)

def lines (s : Settings) : List Line :=
  if s.isEmpty then []
  else
    nested (.fixed (.bare "networkmanager"))
      (setting "uuid" .bare s.uuid ++ setting "name" .quoted s.name
      ++ passthroughLines s.passthrough)

def pairWords (pairs : List (String × String)) : List Scalar :=
  pairs.flatMap (fun pair => [.bare pair.1, .quoted pair.2])

def givenWords (s : Settings) : List Scalar :=
  (s.uuid.map Scalar.bare).toList ++ (s.name.map Scalar.quoted).toList
  ++ pairWords s.passthrough.toList

/-- What the lines of settings depend on. -/
structure Shape where
  hasUuid : Bool
  hasName : Bool
  pairs : Nat
  deriving DecidableEq, Repr

def shape (s : Settings) : Shape := ⟨s.uuid.isSome, s.name.isSome, s.passthrough.toList.length⟩

theorem draws_pairs (p : Passthrough) : Draws (pairLines p.toList) (Passthrough.tree p) := by
  rw [Passthrough.tree, List.map_eq_flatMap]
  exact Draws.flatMap (fun pair _ => Draws.entry (.given (.bare pair.1)) (.given (.quoted pair.2)))

theorem draws (s : Settings) : Draws s.lines s.tree := by
  rw [lines, tree, passthroughLines]
  split
  · exact .nil
  · refine .nested _ (((Draws.bareSetting "uuid" s.uuid).append (.setting "name" s.name)).append ?_)
    split
    · exact .nil
    · exact .nested _ (draws_pairs s.passthrough)

theorem givenWords_pairLines (pairs : List (String × String)) :
    Line.givenWords (pairLines pairs) = pairWords pairs := by
  rw [pairLines, givenWords_flatMap]
  rfl

theorem givenWords_passthroughLines (p : Passthrough) :
    Line.givenWords (passthroughLines p) = pairWords p.toList := by
  rw [passthroughLines]
  split
  · next hp =>
    rw [List.isEmpty_iff.1 hp]
    rfl
  · rw [givenWords_nested, givenWords_pairLines]
    rfl

theorem givenWords_lines (s : Settings) : Line.givenWords s.lines = s.givenWords := by
  rw [lines]
  split
  · next hs =>
    rw [eq_of_isEmpty hs]
    rfl
  · rw [givenWords_nested, givenWords_append, givenWords_append, givenWords_setting,
      givenWords_setting, givenWords_passthroughLines]
    rfl

section Passthrough

variable {p p' : Passthrough} (h : p.toList.length = p'.toList.length)
include h

theorem passthrough_isEmpty_eq : p.isEmpty = p'.isEmpty := by
  rw [OrderedMap.isEmpty, OrderedMap.isEmpty, Bool.eq_iff_iff, List.isEmpty_iff_length_eq_zero,
    List.isEmpty_iff_length_eq_zero, h]

theorem map_frame_passthroughLines :
    (passthroughLines p).map Line.frame = (passthroughLines p').map Line.frame := by
  rw [passthroughLines, passthroughLines, passthrough_isEmpty_eq h]
  split
  · rfl
  · have hlength : p.toList.map (fun _ => ()) = p'.toList.map (fun _ => ()) := by
      rw [List.map_const', List.map_const', h]
    exact map_frame_nested rfl (map_frame_flatMap (fun _ _ _ => rfl) hlength)

end Passthrough

theorem frames_lines {s s' : Settings} (h : s.shape = s'.shape) :
    s.lines.map Line.frame = s'.lines.map Line.frame := by
  rw [shape, shape, Shape.mk.injEq] at h
  obtain ⟨huuid, hname, hpairs⟩ := h
  have hempty : s.isEmpty = s'.isEmpty := by
    rw [isEmpty, isEmpty, ← Option.not_isSome, ← Option.not_isSome, ← Option.not_isSome,
      ← Option.not_isSome, huuid, hname, passthrough_isEmpty_eq hpairs]
  rw [lines, lines, hempty]
  split
  · rfl
  · refine map_frame_nested rfl ?_
    rw [List.map_append, List.map_append, List.map_append, List.map_append,
      map_frame_setting "uuid" _ huuid, map_frame_setting "name" _ hname,
      map_frame_passthroughLines hpairs]

end Settings

/-! ### Access points and modems -/

namespace AccessPoint

def lines (ap : AccessPoint) : List Line :=
  nested (.given (.quoted ap.ssid))
    (flag "hidden" ap.hidden
    ++ entry (.fixed (.bare "mode")) (.given (.bare (ap.modeName)))
    ++ ap.settings.lines)

def givenWords (ap : AccessPoint) : List Scalar :=
  [.quoted ap.ssid, .bare (ap.modeName)] ++ ap.settings.givenWords

structure Shape where
  hidden : Bool
  settings : Settings.Shape
  deriving DecidableEq, Repr

def shape (ap : AccessPoint) : Shape := ⟨ap.hidden, ap.settings.shape⟩

theorem draws (ap : AccessPoint) : Draws ap.lines ap.tree :=
  .nested (.given (.quoted ap.ssid)) (((Draws.flag "hidden" ap.hidden).append
    (.entry (.fixed (.bare "mode")) (.given (.bare (ap.modeName))))).append
      ap.settings.draws)

theorem givenWords_lines (ap : AccessPoint) : Line.givenWords ap.lines = ap.givenWords := by
  rw [lines, givenWords_nested, givenWords_append, givenWords_append, givenWords_flag,
    ap.settings.givenWords_lines]
  rfl

theorem frames_lines {ap ap' : AccessPoint} (h : ap.shape = ap'.shape) :
    ap.lines.map Line.frame = ap'.lines.map Line.frame := by
  rw [shape, shape, Shape.mk.injEq] at h
  refine map_frame_nested rfl ?_
  rw [List.map_append, List.map_append, List.map_append, List.map_append, h.1,
    Settings.frames_lines h.2]
  rfl

end AccessPoint

namespace Modem

/-- The texts of a modem under the keys that they have in documents. -/
def keyedTexts (m : Modem) : List (String × Option String) :=
  [("apn", m.apn), ("device-id", m.deviceId), ("network-id", m.networkId), ("pin", m.pin),
    ("sim-id", m.simId), ("sim-operator-id", m.simOperatorId)]

def lines (m : Modem) : List Line :=
  flag "auto-config" m.autoConfig
  ++ m.keyedTexts.flatMap (fun field => setting field.1 .quoted field.2)

def givenWords (m : Modem) : List Scalar :=
  m.keyedTexts.flatMap (fun field => (field.2.map Scalar.quoted).toList)

structure Shape where
  autoConfig : Bool
  /-- Which of the texts are there. -/
  texts : List (String × Bool)
  deriving DecidableEq, Repr

def shape (m : Modem) : Shape :=
  ⟨m.autoConfig, m.keyedTexts.map (fun field => (field.1, field.2.isSome))⟩

theorem tree_eq (m : Modem) :
    m.tree = MappingTree.flagEntry "auto-config" m.autoConfig
      ++ m.keyedTexts.flatMap (fun field => MappingTree.optionalEntry field.1 field.2) := by
  simp [tree, keyedTexts]

theorem draws (m : Modem) : Draws m.lines m.tree := by
  rw [tree_eq]
  exact (Draws.flag "auto-config" m.autoConfig).append
    (.flatMap (fun field _ => .setting field.1 field.2))

theorem givenWords_lines (m : Modem) : Line.givenWords m.lines = m.givenWords := by
  rw [lines, givenWords_append, givenWords_flag, List.nil_append, givenWords_flatMap, givenWords]
  apply congrArg (m.keyedTexts.flatMap ·)
  funext field
  exact givenWords_setting field.1 _ field.2

theorem frames_lines {m m' : Modem} (h : m.shape = m'.shape) :
    m.lines.map Line.frame = m'.lines.map Line.frame := by
  rw [shape, shape, Shape.mk.injEq] at h
  obtain ⟨hauto, hfields⟩ := h
  have hone : ∀ field field' : String × Option String,
      (field.1, field.2.isSome) = (field'.1, field'.2.isSome) →
        (setting field.1 .quoted field.2).map Line.frame =
          (setting field'.1 .quoted field'.2).map Line.frame := by
    intro field field' hfield
    rw [Prod.mk.injEq] at hfield
    rw [hfield.1, map_frame_setting field'.1 _ hfield.2]
  rw [lines, lines, List.map_append, List.map_append, hauto, map_frame_flatMap hone hfields]

end Modem

/-! ### Definitions -/

namespace Definition

def selectorLines (d : Definition) : List Line :=
  match d.selector with
  | some selector => nested (.fixed (.bare "match")) (setting "name" .quoted selector.name)
  | none => []

def accessPointLines (d : Definition) : List Line :=
  if d.kind = .wifi then
    nested (.fixed (.bare "access-points")) (d.accessPoints.values.flatMap AccessPoint.lines)
  else []

/-- The lines for what only a modelled kind has. -/
def fieldLines (d : Definition) : List Line :=
  d.selectorLines ++ flag "wakeonlan" d.wakeOnLan ++ d.modem.lines ++ d.accessPointLines

def bodyLines (d : Definition) : List Line :=
  entry (.fixed (.bare "renderer")) (.given (.bare d.backend.name))
  ++ (if d.kind = .other then [] else d.fieldLines)
  ++ d.settings.lines

/-- The lines of the document. -/
def lines (d : Definition) : List Line :=
  nested (.fixed (.bare "network"))
    (entry (.fixed (.bare "version")) (.fixed (.bare formatVersion))
    ++ nested (.fixed (.bare d.kind.keyword)) (nested (.given (.bare d.id)) d.bodyLines))

def fieldWords (d : Definition) : List Scalar :=
  ((d.selector.bind Selector.name).map Scalar.quoted).toList
  ++ d.modem.givenWords
  ++ (if d.kind = .wifi then d.accessPoints.values.flatMap AccessPoint.givenWords else [])

/-- The texts of the definition that are in its document, in order, and the names of its
backend and of the modes of its access points. -/
def givenWords (d : Definition) : List Scalar :=
  [.bare d.id, .bare d.backend.name]
  ++ (if d.kind = .other then [] else d.fieldWords)
  ++ d.settings.givenWords

/-- What a definition is apart from its texts and the names that stand for its backend
and the modes of its access points. -/
structure Shape where
  kind : Kind
  /-- Whether there is a selector, and if so, whether it has a name. -/
  selector : Option Bool
  wakeOnLan : Bool
  modem : Modem.Shape
  settings : Settings.Shape
  accessPoints : List AccessPoint.Shape
  deriving DecidableEq, Repr

def shape (d : Definition) : Shape where
  kind := d.kind
  selector := d.selector.map (fun selector => selector.name.isSome)
  wakeOnLan := d.wakeOnLan
  modem := d.modem.shape
  settings := d.settings.shape
  accessPoints := d.accessPoints.values.map AccessPoint.shape

/-! #### The lines are the document -/

theorem draws_selectorTree (d : Definition) : Draws d.selectorLines d.selectorTree := by
  rw [selectorLines, selectorTree]
  cases d.selector with
  | none => exact .nil
  | some selector => exact .nested _ (.setting "name" selector.name)

theorem draws_fieldTree (d : Definition) : Draws d.fieldLines d.fieldTree := by
  refine ((d.draws_selectorTree.append (.flag "wakeonlan" d.wakeOnLan)).append
    d.modem.draws).append ?_
  rw [accessPointLines]
  split
  · exact .nested _ (.flatMap (fun ap _ => ap.draws))
  · exact .nil

theorem draws_bodyTree (d : Definition) : Draws d.bodyLines d.bodyTree := by
  refine ((Draws.entry (.fixed (.bare "renderer")) (.given (.bare d.backend.name))).append
    ?_).append d.settings.draws
  split
  · exact .nil
  · exact d.draws_fieldTree

theorem draws_tree (d : Definition) : Draws d.lines d.tree :=
  .nested (.fixed (.bare "network"))
    ((Draws.entry (.fixed (.bare "version")) (.fixed (.bare formatVersion))).append
      (.nested (.fixed (.bare d.kind.keyword)) (.nested (.given (.bare d.id)) d.draws_bodyTree)))

theorem toList_print_tree (d : Definition) :
    d.tree.print.toList = d.lines.flatMap (fun l => l.text ++ ['\n']) := by
  have hdeeper : ∀ l : Line, l.deeper 0 = l := fun l => by rw [Line.deeper, Nat.zero_add]
  have htree : d.tree ≠ [] := List.cons_ne_nil _ _
  rw [MappingTree.toList_print htree, d.draws_tree.print_eq]
  simp only [hdeeper]

/-! #### What is given -/

theorem givenWords_selectorLines (d : Definition) :
    Line.givenWords d.selectorLines =
      ((d.selector.bind Selector.name).map Scalar.quoted).toList := by
  rw [selectorLines]
  cases d.selector with
  | none => rfl
  | some selector =>
    rw [givenWords_nested, givenWords_setting]
    rfl

theorem givenWords_accessPointLines (d : Definition) :
    Line.givenWords d.accessPointLines =
      if d.kind = .wifi then d.accessPoints.values.flatMap AccessPoint.givenWords else [] := by
  rw [accessPointLines]
  split
  · rw [givenWords_nested, givenWords_flatMap]
    exact congrArg (d.accessPoints.values.flatMap ·) (funext AccessPoint.givenWords_lines)
  · rfl

theorem givenWords_lines (d : Definition) : Line.givenWords d.lines = d.givenWords := by
  have hfields : Line.givenWords (if d.kind = .other then [] else d.fieldLines) =
      if d.kind = .other then [] else d.fieldWords := by
    split
    · rfl
    · rw [fieldLines, givenWords_append, givenWords_append, givenWords_append, givenWords_flag,
        givenWords_selectorLines, d.modem.givenWords_lines, givenWords_accessPointLines,
        List.append_nil, fieldWords]
  rw [lines, givenWords_nested, givenWords_append, givenWords_nested, givenWords_nested, bodyLines,
    givenWords_append, givenWords_append, hfields, d.settings.givenWords_lines]
  rfl

/-! #### What the shape fixes -/

section Shape

variable {d d' : Definition}

theorem frames_selectorLines (h : d.shape = d'.shape) :
    d.selectorLines.map Line.frame = d'.selectorLines.map Line.frame := by
  have hselector : d.selector.map (fun selector => selector.name.isSome) =
      d'.selector.map (fun selector => selector.name.isSome) := congrArg Shape.selector h
  rw [selectorLines, selectorLines]
  cases hd : d.selector with
  | none =>
    rw [hd] at hselector
    rw [Option.map_eq_none_iff.1 hselector.symm]
  | some selector =>
    rw [hd] at hselector
    obtain ⟨selector', hd', hname⟩ := Option.map_eq_some_iff.1 hselector.symm
    rw [hd']
    exact map_frame_nested rfl (map_frame_setting "name" _ hname.symm)

theorem frames_accessPointLines (h : d.shape = d'.shape) :
    d.accessPointLines.map Line.frame = d'.accessPointLines.map Line.frame := by
  have hkind : d.kind = d'.kind := congrArg Shape.kind h
  rw [accessPointLines, accessPointLines, hkind]
  split
  · exact map_frame_nested rfl (map_frame_flatMap (fun _ _ => AccessPoint.frames_lines)
      (congrArg Shape.accessPoints h))
  · rfl

theorem frames_fieldLines (h : d.shape = d'.shape) :
    d.fieldLines.map Line.frame = d'.fieldLines.map Line.frame := by
  have hwake : d.wakeOnLan = d'.wakeOnLan := congrArg Shape.wakeOnLan h
  rw [fieldLines, fieldLines, List.map_append, List.map_append, List.map_append, List.map_append,
    List.map_append, List.map_append, frames_selectorLines h, hwake,
    Modem.frames_lines (congrArg Shape.modem h), frames_accessPointLines h]

/-- Definitions of the same shape have the same lines apart from what is given. -/
theorem frames_lines (h : d.shape = d'.shape) :
    d.lines.map Line.frame = d'.lines.map Line.frame := by
  have hkind : d.kind = d'.kind := congrArg Shape.kind h
  have hfields : (if d.kind = .other then [] else d.fieldLines).map Line.frame =
      (if d'.kind = .other then [] else d'.fieldLines).map Line.frame := by
    rw [hkind]
    split
    · rfl
    · exact frames_fieldLines h
  have hbody : d.bodyLines.map Line.frame = d'.bodyLines.map Line.frame := by
    rw [bodyLines, bodyLines, List.map_append, List.map_append, List.map_append, List.map_append,
      hfields, Settings.frames_lines (congrArg Shape.settings h)]
    rfl
  rw [lines, lines, hkind]
  refine map_frame_nested rfl ?_
  rw [List.map_append, List.map_append]
  exact congrArg (_ ++ ·) (map_frame_nested rfl (map_frame_nested rfl hbody))

end Shape

/-! #### Documents line by line -/

theorem lines_toList_print_tree (d : Definition) :
    Text.lines d.tree.print.toList = d.lines.map Line.text := by
  have hnewline : ∀ line ∈ d.lines.map Line.text, '\n' ∉ line := by
    intro line hline hmem
    obtain ⟨l, -, rfl⟩ := List.mem_map.1 hline
    exact absurd (isControl_of_mem_text hmem) (by decide)
  rw [toList_print_tree, ← Text.lines_flatMap hnewline, List.flatMap_map]

theorem isControl_of_mem_print_tree {d : Definition} {c : Char} (hc : c ∈ d.tree.print.toList)
    (hcontrol : Text.isControl c = true) : c = '\n' := by
  rw [toList_print_tree, List.mem_flatMap] at hc
  obtain ⟨l, -, hc⟩ := hc
  obtain hc | hc := List.mem_append.1 hc
  · exact absurd hcontrol (by simp [isControl_of_mem_text hc])
  · exact List.mem_singleton.1 hc

theorem getLast?_print_tree (d : Definition) : d.tree.print.toList.getLast? = some '\n' := by
  have hlines : d.lines ≠ [] := fun hnil => List.cons_ne_nil _ _ (d.draws_tree.nil_iff.1 hnil)
  rw [toList_print_tree, ← List.dropLast_append_getLast hlines, List.flatMap_append,
    List.flatMap_singleton, ← List.append_assoc, List.getLast?_concat]

theorem indentations_lines {d d' : Definition} (h : d.shape = d'.shape) :
    (d.lines.map Line.text).map Line.indentation =
      (d'.lines.map Line.text).map Line.indentation := by
  have hframe : ∀ ls : List Line, (ls.map Line.text).map Line.indentation =
      (ls.map Line.frame).map (fun f => 2 * f.depth) := by
    intro ls
    rw [List.map_map, List.map_map]
    exact List.map_congr_left (fun l _ => l.indentation_text)
  rw [hframe, hframe, frames_lines h]

/-- Every document ends with a newline and has no other control characters than newlines,
whatever the texts of the definition are. Its lines are those of the definition, with the
texts in places of their own; a definition of the same shape has as many lines, indented
alike, with the same in them apart from what is given. -/
theorem lines_render (d : Definition) :
    ∃ r, d.render = .ok r ∧
      r.text.toList.getLast? = some '\n' ∧
      (∀ c ∈ r.text.toList, Text.isControl c = true → c = '\n') ∧
      Text.lines r.text.toList = d.lines.map Line.text ∧
      Line.givenWords d.lines = d.givenWords ∧
      ∀ d' : Definition, d.shape = d'.shape → ∃ r', d'.render = .ok r' ∧
        Text.lines r'.text.toList = d'.lines.map Line.text ∧
        (Text.lines r.text.toList).length = (Text.lines r'.text.toList).length ∧
        (Text.lines r.text.toList).map Line.indentation =
          (Text.lines r'.text.toList).map Line.indentation ∧
        d.lines.map Line.frame = d'.lines.map Line.frame ∧
        (d.givenWords = d'.givenWords → r.text = r'.text) := by
  refine ⟨_, d.render_eq, d.getLast?_print_tree, fun c => isControl_of_mem_print_tree,
    d.lines_toList_print_tree, d.givenWords_lines, fun d' h => ?_⟩
  have hframes := frames_lines h
  refine ⟨_, d'.render_eq, d'.lines_toList_print_tree, ?_, ?_, hframes, ?_⟩
  · rw [lines_toList_print_tree, lines_toList_print_tree, List.length_map, List.length_map,
      ← List.length_map Line.frame, hframes, List.length_map]
  · rw [lines_toList_print_tree, lines_toList_print_tree]
    exact indentations_lines h
  · intro hwords
    rw [← d.givenWords_lines, ← d'.givenWords_lines] at hwords
    refine String.toList_inj.1 ?_
    rw [toList_print_tree, toList_print_tree, Line.eq_of_map_frame_eq hframes hwords]

/-- Texts that look like further lines, like a comment or like the end of a quoted text, in
all places where a text can be: there are as many lines as with single letters. -/
theorem lines_render_breaks :
    let wifi (a b : String) : Definition :=
      { id := a, kind := .wifi, backend := .networkd
        settings := { uuid := some b, passthrough := OrderedMap.ofList [(a, b)] }
        accessPoints := OrderedMap.ofList [(b, { ssid := b, hidden := true })] }
    (wifi "w:\n  x: 1" "\r\x00\" #").shape = (wifi "a" "b").shape ∧
      ∃ r r', (wifi "w:\n  x: 1" "\r\x00\" #").render = .ok r ∧ (wifi "a" "b").render = .ok r' ∧
        (Text.lines r.text.toList).length = 13 ∧
        (Text.lines r.text.toList).map Line.indentation =
          (Text.lines r'.text.toList).map Line.indentation := by
  intro wifi
  have hshape : (wifi "w:\n  x: 1" "\r\x00\" #").shape = (wifi "a" "b").shape := by decide
  obtain ⟨r, hr, -, -, hlines, -, hall⟩ := lines_render (wifi "w:\n  x: 1" "\r\x00\" #")
  obtain ⟨r', hr', -, -, hindentation, -⟩ := hall _ hshape
  refine ⟨hshape, r, r', hr, hr', ?_, hindentation⟩
  rw [hlines, List.length_map]
  decide

end Definition

end NetProfile
