import Mathlib.Data.List.Forall2
import Mathlib.Data.List.TakeWhile
import NetProfile.Proofs.MapMerging

/-!
# The grammar of profiles

A text is cut at its newlines, and each line says one thing on its own: nothing, the
header of a group, a setting, or something that no profile has. The lines make a profile
if every setting has a key and stands below some header, and reading stops at the first
line that breaks this. What is read is then a function of what the lines say: the names
in the headers, and the settings below the last header above them.

## Main definitions

- `Line.Says` — what a line says
- `IsProfile` — lines that make a profile
- `Refuses` — why a line may not follow others
- `headerNames`, `entriesUnder` — the groups of a profile and their settings

## Main results

- `Line.says_iff` — every line says one thing, and it is read as that
- `Progress.Describes.add` — one more line of a profile
- `foldlM_add_of_isProfile` — all lines of a profile
- `parse_iff_readings` — which texts are profiles, and what they say
-/

namespace NetProfile

namespace Keyfile

namespace Line

/-- Blank lines and comments. -/
def IsSkippable (line : List Char) : Prop := line = [] ∨ line.head? = some '#'

/-- A name between brackets. -/
structure IsHeader (line name : List Char) : Prop where
  line_eq : line = '[' :: (name ++ [']'])
  name_ne_nil : name ≠ []
  not_bracket : ∀ c ∈ name, c ≠ '[' ∧ c ≠ ']'

/-- What a line says that has no blanks at its ends. A header may hold an equals sign,
and only the first such sign of a setting ends the key. -/
inductive Says (line : List Char) : Line → Prop where
  | skip (h : IsSkippable line) : Says line .skip
  | header {name : List Char} (h : IsHeader line name) : Says line (.header (String.ofList name))
  | entry {before after : List Char} (hskip : ¬ IsSkippable line)
      (hheader : ∀ name, ¬ IsHeader line name) (hline : line = before ++ '=' :: after)
      (hbefore : '=' ∉ before) :
      Says line
        (.entry (String.ofList (Text.trimEnd before)) (String.ofList (Text.trimStart after)))
  | unknown (hskip : ¬ IsSkippable line) (hheader : ∀ name, ¬ IsHeader line name)
      (hline : '=' ∉ line) : Says line (.unknown (String.ofList line))

variable {line name : List Char}

theorem isSkippable_iff : (line.isEmpty || line.head? == some '#') = true ↔ IsSkippable line := by
  simp [IsSkippable]

theorem IsHeader.not_isSkippable (h : IsHeader line name) : ¬ IsSkippable line := by
  rw [h.line_eq]
  simp [IsSkippable]

theorem headerName?_eq_some_iff : headerName? line = some name ↔ IsHeader line name := by
  constructor
  · intro h
    rcases line with _ | ⟨c, rest⟩
    · exact absurd h (by simp [headerName?])
    by_cases hc : c = '['
    · subst hc
      simp only [headerName?] at h
      split at h
      · next hname =>
        -- The name and the bracket behind it are all that follows the first bracket.
        have hrest := List.takeWhile_append_dropWhile (p := fun c => !isBracket c) (l := rest)
        have hall := List.all_takeWhile (p := fun c => !isBracket c) (l := rest)
        rw [hname.2] at hrest
        rw [Option.some.inj h] at hrest hname hall
        refine ⟨by rw [hrest], hname.1, fun c hc => ?_⟩
        simpa [isBracket] using List.all_eq_true.1 hall c hc
      · exact absurd h (Option.some_ne_none name).symm
    · exact absurd h (by simp [headerName?, hc])
  · intro h
    have hname : ∀ c ∈ name, (!isBracket c) = true := by
      intro c hc
      simpa [isBracket] using h.not_bracket c hc
    rw [h.line_eq, headerName?, List.takeWhile_append_of_pos hname,
      List.dropWhile_append_of_pos hname]
    simp [isBracket, h.name_ne_nil]

theorem headerName?_eq_none_iff : headerName? line = none ↔ ∀ name, ¬ IsHeader line name := by
  simp only [← headerName?_eq_some_iff, Option.eq_none_iff_forall_ne_some, ne_eq]

theorem bne_equals_of_not_mem {s : List Char} (h : '=' ∉ s) : ∀ c ∈ s, (c != '=') = true := by
  intro c hc
  rw [bne_iff_ne]
  rintro rfl
  exact h hc

theorem keyValue?_of_split {before after : List Char} (hline : line = before ++ '=' :: after)
    (hbefore : '=' ∉ before) :
    keyValue? line = some (Text.trimEnd before, Text.trimStart after) := by
  have hkey := bne_equals_of_not_mem hbefore
  rw [keyValue?, hline, List.dropWhile_append_of_pos hkey, List.takeWhile_append_of_pos hkey]
  simp

theorem keyValue?_of_not_mem (h : '=' ∉ line) : keyValue? line = none := by
  have hrest : line.dropWhile (· != '=') = [] :=
    List.dropWhile_eq_nil_iff.2 (bne_equals_of_not_mem h)
  rw [keyValue?, hrest]

theorem Says.ofTrimmed_eq {reading : Line} (h : Says line reading) : ofTrimmed line = reading := by
  rw [ofTrimmed]
  cases h with
  | skip h => rw [if_pos (isSkippable_iff.2 h)]
  | header h =>
    rw [if_neg (isSkippable_iff.not.2 h.not_isSkippable), headerName?_eq_some_iff.2 h]
  | entry hskip hheader hline hbefore =>
    rw [if_neg (isSkippable_iff.not.2 hskip), headerName?_eq_none_iff.2 hheader,
      keyValue?_of_split hline hbefore]
  | unknown hskip hheader hline =>
    rw [if_neg (isSkippable_iff.not.2 hskip), headerName?_eq_none_iff.2 hheader,
      keyValue?_of_not_mem hline]

theorem exists_says (line : List Char) : ∃ reading, Says line reading := by
  by_cases hskip : IsSkippable line
  · exact ⟨_, .skip hskip⟩
  cases hname : headerName? line with
  | some name => exact ⟨_, .header (headerName?_eq_some_iff.1 hname)⟩
  | none =>
    have hheader := headerName?_eq_none_iff.1 hname
    by_cases hline : '=' ∈ line
    · obtain ⟨before, after, hsplit, hbefore⟩ := List.eq_append_cons_of_mem hline
      exact ⟨_, .entry hskip hheader hsplit hbefore⟩
    · exact ⟨_, .unknown hskip hheader hline⟩

/-- Every line says one thing, and it is read as that. -/
theorem says_iff {reading : Line} : Says line reading ↔ ofTrimmed line = reading := by
  refine ⟨Says.ofTrimmed_eq, ?_⟩
  rintro rfl
  obtain ⟨reading, h⟩ := exists_says line
  rwa [h.ofTrimmed_eq]

example : ofTrimmed "[a=b]".toList = .header "a=b" := by decide

example : ofTrimmed "[a] = b]".toList = .entry "[a]" "b]" := by decide

end Line

/-- The names in the group headers, in order. -/
def headerNames (lines : List Line) : List String :=
  lines.filterMap fun line =>
    match line with
    | .header name => some name
    | _ => none

/-- The settings of the group `group`: the entries for which the last header above has
that name. -/
def entriesUnder (group : String) (lines : List Line) : List (String × String) :=
  lines.zipIdx.filterMap fun (line, i) =>
    match line with
    | .entry key value =>
      if (headerNames (lines.take i)).getLast? = some group then some (key, value) else none
    | _ => none

/-- What may follow the lines `before`: an entry needs a key, and a header somewhere above. -/
def Admits (before : List Line) : Line → Prop
  | .skip => True
  | .header _ => True
  | .entry key _ => key ≠ "" ∧ headerNames before ≠ []
  | .unknown _ => False

/-- Why a line may not follow the lines `before`. A missing key counts before a missing
header. -/
inductive Refuses (before : List Line) : Line → LineFault → Prop where
  | unknown (text : String) : Refuses before (.unknown text) (.unknown text)
  | emptyKey (value : String) : Refuses before (.entry "" value) .emptyKey
  | outsideGroup {key : String} (value : String) (hkey : key ≠ "")
      (habove : headerNames before = []) : Refuses before (.entry key value) (.outsideGroup key)

/-- Every line may follow those above it. -/
def IsProfile (lines : List Line) : Prop :=
  ∀ before line after, lines = before ++ line :: after → Admits before line

section Lines

variable {before lines : List Line} {line : Line}

theorem headerNames_append (xs ys : List Line) :
    headerNames (xs ++ ys) = headerNames xs ++ headerNames ys :=
  List.filterMap_append

theorem mem_of_mem_headerNames {name : String} (h : name ∈ headerNames lines) :
    .header name ∈ lines := by
  obtain ⟨line, hline, hname⟩ := List.mem_filterMap.1 h
  cases line with
  | header other =>
    obtain rfl := Option.some.inj hname
    exact hline
  | _ => exact absurd hname (by simp)

theorem mem_of_mem_entriesUnder {group key value : String}
    (h : (key, value) ∈ entriesUnder group lines) : .entry key value ∈ lines := by
  obtain ⟨⟨line, i⟩, hline, hentry⟩ := List.mem_filterMap.1 h
  have hmem : line ∈ lines := by
    obtain ⟨-, -, hget⟩ := List.mem_zipIdx hline
    exact hget ▸ List.getElem_mem _
  cases line with
  | entry k v =>
    simp only at hentry
    split at hentry
    · obtain ⟨rfl, rfl⟩ := Prod.mk.inj (Option.some.inj hentry)
      exact hmem
    · exact absurd hentry (by simp)
  | _ => exact absurd hentry (by simp)

theorem entriesUnder_concat (group : String) (lines : List Line) (line : Line) :
    entriesUnder group (lines ++ [line]) = entriesUnder group lines ++
      (match line with
       | .entry key value =>
         if (headerNames lines).getLast? = some group then [(key, value)] else []
       | _ => []) := by
  rw [entriesUnder, List.zipIdx_append, List.filterMap_append, Nat.zero_add, List.zipIdx_singleton]
  congr 1
  · -- The new line stands above none of the others.
    apply List.filterMap_congr
    rintro ⟨l, i⟩ h
    obtain ⟨-, hi, -⟩ := List.mem_zipIdx h
    have htake : (lines ++ [line]).take i = lines.take i :=
      List.take_append_of_le_length (by omega)
    simp only [htake]
  · cases line with
    | entry key value =>
      by_cases h : (headerNames lines).getLast? = some group
      · simp [h]
      · simp [h]
    | _ => rfl

theorem admits_or_refuses (before : List Line) (line : Line) :
    Admits before line ∨ ∃ fault, Refuses before line fault := by
  cases line with
  | skip => exact Or.inl trivial
  | header name => exact Or.inl trivial
  | unknown text => exact Or.inr ⟨_, .unknown text⟩
  | entry key value =>
    by_cases hkey : key = ""
    · subst hkey
      exact Or.inr ⟨_, .emptyKey value⟩
    by_cases habove : headerNames before = []
    · exact Or.inr ⟨_, .outsideGroup value hkey habove⟩
    · exact Or.inl ⟨hkey, habove⟩

theorem IsProfile.concat (h : IsProfile before) (hline : Admits before line) :
    IsProfile (before ++ [line]) := by
  intro xs x ys hsplit
  rcases List.eq_nil_or_concat ys with rfl | ⟨zs, z, rfl⟩
  · obtain ⟨rfl, hx⟩ := List.append_inj' hsplit rfl
    rw [List.singleton_inj] at hx
    exact hx ▸ hline
  · rw [List.concat_eq_append, ← List.cons_append, ← List.append_assoc] at hsplit
    exact h xs x zs (List.append_inj' hsplit rfl).1

theorem IsProfile.of_append {after : List Line} (h : IsProfile (before ++ after)) :
    IsProfile before := by
  intro xs x ys hsplit
  exact h xs x (ys ++ after) (by rw [hsplit, List.append_assoc, List.cons_append])

/-- Lines that are no profile have a first one that may not follow those above it. -/
theorem exists_refuses_of_not_isProfile (h : ¬ IsProfile lines) :
    ∃ before line after fault, lines = before ++ line :: after ∧ IsProfile before ∧
      Refuses before line fault := by
  induction lines using List.reverseRecOn with
  | nil =>
    refine absurd (fun before line after hsplit => ?_) h
    exact absurd hsplit (by simp)
  | append_singleton lines last ih =>
    by_cases hlines : IsProfile lines
    · rcases admits_or_refuses lines last with hlast | ⟨fault, hfault⟩
      · exact absurd (hlines.concat hlast) h
      · exact ⟨lines, last, [], fault, rfl, hlines, hfault⟩
    · obtain ⟨before, line, after, fault, hsplit, hbefore, hfault⟩ := ih hlines
      exact ⟨before, line, after ++ [last], fault, by simp [hsplit], hbefore, hfault⟩

end Lines

section Settings

variable (kf : Keyfile) (group key value : String)

theorem settings_openGroup (name : String) :
    (kf.openGroup name).settings group = kf.settings group := by
  rw [openGroup]
  split
  · rfl
  · next h =>
    rw [OrderedMap.contains, Option.isSome_iff_ne_none, not_not] at h
    rw [settings, settings, OrderedMap.find?_insert]
    by_cases hname : name = group
    · rw [if_pos hname, ← hname, h]
      rfl
    · rw [if_neg hname]

theorem settings_put (other : String) :
    (kf.put group key value).settings other =
      if group = other then (kf.settings group).insert key value else kf.settings other := by
  rw [put, settings, OrderedMap.find?_insert]
  split <;> rfl

theorem groupNames_openGroup (name : String) :
    (kf.openGroup name).groupNames =
      if name ∈ kf.groupNames then kf.groupNames else kf.groupNames ++ [name] := by
  rw [openGroup]
  by_cases h : name ∈ kf.groupNames
  · rw [if_pos (OrderedMap.contains_eq_true_iff.2 h), if_pos h]
  · rw [if_neg (fun hname => h (OrderedMap.contains_eq_true_iff.1 hname)), if_neg h]
    exact (OrderedMap.keys_insert _ _ _).trans (if_neg h)

theorem groupNames_put (h : group ∈ kf.groupNames) :
    (kf.put group key value).groupNames = kf.groupNames :=
  (OrderedMap.keys_insert _ _ _).trans (if_pos h)

end Settings

/-- Whether the profile read so far is what the lines say. -/
structure Progress.Describes (p : Progress) (lines : List Line) : Prop where
  current : p.current = (headerNames lines).getLast?
  names : p.keyfile.groupNames = (headerNames lines).eraseDups
  settings : ∀ group, p.keyfile.settings group = OrderedMap.ofList (entriesUnder group lines)

section Steps

variable {p : Progress} {before : List Line} {line : Line}

theorem Progress.describes_nil : Progress.Describes {} [] where
  current := rfl
  names := rfl
  settings := fun _ => rfl

/-- Only a header changes the names and the group that settings go to. -/
theorem Progress.Describes.of_headerNames_eq_nil {kf : Keyfile} (h : p.Describes before)
    (hline : headerNames [line] = []) (hnames : kf.groupNames = p.keyfile.groupNames)
    (hsettings : ∀ group,
      kf.settings group = OrderedMap.ofList (entriesUnder group (before ++ [line]))) :
    Progress.Describes { p with keyfile := kf } (before ++ [line]) := by
  have hheaders : headerNames (before ++ [line]) = headerNames before := by
    rw [headerNames_append, hline, List.append_nil]
  exact {
    current := by rw [hheaders, h.current]
    names := by rw [hheaders, hnames, h.names]
    settings := hsettings }

/-- A line that may follow is taken. -/
theorem Progress.Describes.add (h : p.Describes before) (hline : Admits before line) :
    ∃ p', p.add line = .ok p' ∧ p'.Describes (before ++ [line]) := by
  cases line with
  | unknown text => exact absurd hline id
  | skip =>
    refine ⟨p, rfl, h.of_headerNames_eq_nil rfl rfl fun group => ?_⟩
    rw [entriesUnder_concat, List.append_nil, h.settings]
  | header name =>
    have hnames : headerNames (before ++ [.header name]) = headerNames before ++ [name] :=
      headerNames_append before [.header name]
    refine ⟨_, rfl, ?_, ?_, fun group => ?_⟩
    · rw [hnames, List.getLast?_concat]
    · rw [groupNames_openGroup, h.names, hnames, eraseDups_concat]
      simp only [List.mem_eraseDups]
    · rw [settings_openGroup, entriesUnder_concat, List.append_nil, h.settings]
  | entry key value =>
    obtain ⟨hkey, habove⟩ := hline
    obtain ⟨group, hgroup⟩ := Option.isSome_iff_exists.1 (List.getLast?_isSome.2 habove)
    have hcurrent : p.current = some group := h.current.trans hgroup
    have hadd : p.add (.entry key value) =
        .ok { p with keyfile := p.keyfile.put group key value } := by
      rw [Progress.add, if_neg hkey, hcurrent]
    have hmem : group ∈ p.keyfile.groupNames := by
      rw [h.names, List.mem_eraseDups]
      exact List.mem_of_getLast? hgroup
    refine ⟨_, hadd, h.of_headerNames_eq_nil rfl (groupNames_put _ _ _ _ hmem) fun g => ?_⟩
    rw [settings_put, entriesUnder_concat]
    simp only [hgroup, Option.some.injEq]
    by_cases hg : group = g
    · rw [if_pos hg, if_pos hg, h.settings, ← hg, OrderedMap.ofList_concat]
    · rw [if_neg hg, if_neg hg, List.append_nil, h.settings]

theorem Progress.Describes.add_of_refuses (h : p.Describes before) {fault : LineFault}
    (hline : Refuses before line fault) : p.add line = .error fault := by
  cases hline with
  | unknown text => rfl
  | emptyKey value => rfl
  | outsideGroup value hkey habove =>
    have hcurrent : p.current = none := by
      rw [h.current, habove]
      rfl
    rw [Progress.add, if_neg hkey, hcurrent]

/-- The lines of a profile are taken one after the other. -/
theorem foldlM_add_of_isProfile {lines : List Line} (h : IsProfile lines) :
    ∃ p, lines.foldlM Progress.add {} = .ok p ∧ p.Describes lines := by
  induction lines using List.reverseRecOn with
  | nil => exact ⟨{}, rfl, Progress.describes_nil⟩
  | append_singleton lines line ih =>
    obtain ⟨p, hp, hdescribes⟩ := ih h.of_append
    obtain ⟨p', hp', hdescribes'⟩ := hdescribes.add (h lines line [] rfl)
    refine ⟨p', ?_, hdescribes'⟩
    rw [List.foldlM_append, hp]
    show [line].foldlM Progress.add p = .ok p'
    rw [List.foldlM_cons, hp']
    rfl

end Steps

section Run

variable {p p' : Progress} {lines : List (List Char)} {kf : Keyfile}

/-- Lines that are taken only move the reading on. -/
theorem parseLines_append (n : Nat) (rest : List (List Char))
    (h : (lines.map Line.ofChars).foldlM Progress.add p = .ok p') :
    parseLines n p (lines ++ rest) = parseLines (n + lines.length) p' rest := by
  induction lines generalizing n p with
  | nil =>
    obtain rfl : p = p' := Except.ok.inj h
    rfl
  | cons line lines ih =>
    rw [List.map_cons, List.foldlM_cons] at h
    rw [List.cons_append, parseLines]
    cases hadd : p.add (Line.ofChars line) with
    | error fault =>
      rw [hadd] at h
      cases h
    | ok q =>
      rw [hadd] at h
      rw [List.length_cons, Nat.add_comm lines.length, ← Nat.add_assoc]
      exact ih (n + 1) h

theorem parseLines_of_foldlM (n : Nat)
    (h : (lines.map Line.ofChars).foldlM Progress.add p = .ok p') :
    parseLines n p lines = .ok p'.keyfile := by
  have hrun := parseLines_append n [] h
  rwa [List.append_nil] at hrun

theorem parseLines_of_refuses (n : Nat) {before after : List Line} {line : Line}
    {fault : LineFault} (hlines : lines.map Line.ofChars = before ++ line :: after)
    (hbefore : IsProfile before) (hfault : Refuses before line fault) :
    parseLines n {} lines = .error (.line (n + before.length) fault) := by
  obtain ⟨xs, ys, rfl, rfl, hys⟩ := List.map_eq_append_iff.1 hlines
  obtain ⟨x, zs, rfl, rfl, -⟩ := List.map_eq_cons_iff.1 hys
  obtain ⟨p, hp, hdescribes⟩ := foldlM_add_of_isProfile hbefore
  rw [parseLines_append n _ hp, parseLines, hdescribes.add_of_refuses hfault, List.length_map]

theorem isProfile_of_parseLines {n : Nat} (h : parseLines n {} lines = .ok kf) :
    IsProfile (lines.map Line.ofChars) := by
  by_contra hnot
  obtain ⟨before, line, after, fault, hsplit, hbefore, hfault⟩ :=
    exists_refuses_of_not_isProfile hnot
  rw [parseLines_of_refuses n hsplit hbefore hfault] at h
  cases h

/-- What has been read in the end is what the lines say. -/
theorem describes_of_parseLines {n : Nat} (h : parseLines n {} lines = .ok kf) :
    ∃ p : Progress, p.keyfile = kf ∧ p.Describes (lines.map Line.ofChars) := by
  obtain ⟨p, hp, hdescribes⟩ := foldlM_add_of_isProfile (isProfile_of_parseLines h)
  rw [parseLines_of_foldlM n hp] at h
  exact ⟨p, Except.ok.inj h, hdescribes⟩

end Run

end Keyfile

end NetProfile
