import NetProfile.Proofs.ProfileGrammar

/-!
# Profiles written out

A profile that has been read can be written back line by line, and reading the text gives
the same profile: its groups in their order, those without settings as well, and the
settings of each as they were written. This rests on what a parsed line leaves behind: a
key may start and a value may end with a bracket, but not both unless another bracket
stands between them, since the whole line would otherwise have been a header.

## Main definitions

- `Keyfile.print` — a profile as a text
- `Keyfile.WellFormed` — profiles whose lines say what they should

## Main results

- `Keyfile.wellFormed_parse` — everything that is read can be written
- `Keyfile.WellFormed.clearAll` — and so can what is left of it
- `Keyfile.parse_print_of_wellFormed` — what is written is read back
- `Keyfile.parse_print_clearAll` — the three together
-/

namespace NetProfile

namespace Text

/-- A text without blanks at its ends. -/
structure IsTrimmed (s : List Char) : Prop where
  head : ∀ c, s.head? = some c → isBlank c = false
  getLast : ∀ c, s.getLast? = some c → isBlank c = false

section Trim

variable {s : List Char}

theorem head_trimStart {c : Char} (h : (trimStart s).head? = some c) : isBlank c = false := by
  have hnot := List.head?_dropWhile_not isBlank s
  rw [trimStart] at h
  rw [h] at hnot
  exact hnot

theorem exists_trimStart (s : List Char) :
    ∃ blanks, s = blanks ++ trimStart s ∧ ∀ c ∈ blanks, isBlank c = true := by
  refine ⟨s.takeWhile isBlank, List.takeWhile_append_dropWhile.symm, ?_⟩
  exact List.all_eq_true.1 List.all_takeWhile

theorem exists_trimEnd (s : List Char) :
    ∃ blanks, s = trimEnd s ++ blanks ∧ ∀ c ∈ blanks, isBlank c = true := by
  obtain ⟨blanks, hsplit, hblanks⟩ := exists_trimStart s.reverse
  refine ⟨blanks.reverse, ?_, fun c hc => hblanks c (List.mem_reverse.1 hc)⟩
  rw [trimEnd, ← List.reverse_append, ← trimStart, ← hsplit, List.reverse_reverse]

theorem getLast_trimEnd {c : Char} (h : (trimEnd s).getLast? = some c) : isBlank c = false := by
  rw [trimEnd, List.getLast?_reverse] at h
  exact head_trimStart h

theorem trimStart_eq_self (h : ∀ c, s.head? = some c → isBlank c = false) : trimStart s = s := by
  rcases s with _ | ⟨c, rest⟩
  · rfl
  · rw [trimStart, List.dropWhile_cons, h c rfl, if_neg Bool.false_ne_true]

theorem trimEnd_eq_self (h : ∀ c, s.getLast? = some c → isBlank c = false) : trimEnd s = s := by
  have hreverse : trimStart s.reverse = s.reverse :=
    trimStart_eq_self (fun c hc => h c (by rwa [List.head?_reverse] at hc))
  rw [trimEnd, ← trimStart, hreverse, List.reverse_reverse]

theorem isTrimmed_trim (s : List Char) : IsTrimmed (trim s) := by
  refine ⟨fun c hc => ?_, fun c hc => getLast_trimEnd hc⟩
  obtain ⟨blanks, hsplit, -⟩ := exists_trimEnd (trimStart s)
  apply head_trimStart (s := s)
  rw [hsplit, List.head?_append]
  exact (congrArg (Option.or · blanks.head?) hc).trans rfl

theorem IsTrimmed.trim_eq (h : IsTrimmed s) : trim s = s := by
  rw [trim, trimStart_eq_self h.head, trimEnd_eq_self h.getLast]

theorem mem_of_mem_trim {c : Char} (h : c ∈ trim s) : c ∈ s := by
  obtain ⟨blanks, hstart, -⟩ := exists_trimStart s
  obtain ⟨blanks', hend, -⟩ := exists_trimEnd (trimStart s)
  rw [hstart, hend]
  exact List.mem_append_right _ (List.mem_append_left _ h)

end Trim

theorem not_mem_newline_of_mem_lines {s line : List Char} (h : line ∈ lines s) : '\n' ∉ line := by
  induction s generalizing line with
  | nil => exact absurd h List.not_mem_nil
  | cons c s ih =>
    rw [lines] at h
    by_cases hc : c = '\n'
    · rw [if_pos hc] at h
      rcases List.mem_cons.1 h with rfl | h
      · exact List.not_mem_nil
      · exact ih h
    · rw [if_neg hc] at h
      have hc' : '\n' ≠ c := fun e => hc e.symm
      cases hlines : lines s with
      | nil =>
        rw [hlines, List.mem_singleton] at h
        rw [h, List.mem_singleton]
        exact hc'
      | cons first more =>
        rw [hlines] at h
        rcases List.mem_cons.1 h with rfl | h
        · rw [List.mem_cons, not_or]
          exact ⟨hc', ih (hlines ▸ List.mem_cons_self)⟩
        · exact ih (hlines ▸ List.mem_cons_of_mem _ h)

theorem lines_append_newline {line : List Char} (h : '\n' ∉ line) (rest : List Char) :
    lines (line ++ '\n' :: rest) = line :: lines rest := by
  induction line with
  | nil => rw [List.nil_append, lines, if_pos rfl]
  | cons c line ih =>
    rw [List.mem_cons, not_or] at h
    rw [List.cons_append, lines, if_neg (fun e => h.1 e.symm), ih h.2]

theorem lines_flatMap {ls : List (List Char)} (h : ∀ line ∈ ls, '\n' ∉ line) :
    lines (ls.flatMap (fun line => line ++ ['\n'])) = ls := by
  induction ls with
  | nil => rfl
  | cons line ls ih =>
    rw [List.flatMap_cons, List.append_assoc, List.singleton_append,
      lines_append_newline (h line List.mem_cons_self),
      ih (fun l hl => h l (List.mem_cons_of_mem _ hl))]

end Text

namespace Keyfile

def headerLine (name : String) : List Char := '[' :: (name.toList ++ [']'])

def settingLine (key value : String) : List Char := key.toList ++ '=' :: value.toList

/-- The lines of a profile: each group in order, its settings below its header. -/
def writtenLines (kf : Keyfile) : List (List Char) :=
  kf.groups.toList.flatMap fun group =>
    headerLine group.1 :: group.2.toList.map (fun entry => settingLine entry.1 entry.2)

/-- The profile as a text, every line ended by a newline. -/
def print (kf : Keyfile) : String :=
  String.ofList (kf.writtenLines.flatMap (fun line => line ++ ['\n']))

/-- A name that stands between brackets on a line. -/
structure IsGroupName (name : String) : Prop where
  ne_empty : name ≠ ""
  chars : ∀ c ∈ name.toList, c ≠ '[' ∧ c ≠ ']' ∧ c ≠ '\n'

/-- A key and a value that stand on a line of their own. -/
structure IsSetting (key value : String) : Prop where
  key_ne_empty : key ≠ ""
  key_trimmed : Text.IsTrimmed key.toList
  key_chars : ∀ c ∈ key.toList, c ≠ '=' ∧ c ≠ '\n'
  key_head : key.toList.head? ≠ some '#'
  value_trimmed : Text.IsTrimmed value.toList
  value_chars : '\n' ∉ value.toList
  not_header : ∀ name, ¬ Line.IsHeader (settingLine key value) name

/-- All names, keys and values can be written. -/
structure WellFormed (kf : Keyfile) : Prop where
  groupName : ∀ group ∈ kf.groups.toList, IsGroupName group.1
  setting : ∀ group ∈ kf.groups.toList, ∀ entry ∈ group.2.toList, IsSetting entry.1 entry.2

section Written

variable {name key value : String}

theorem IsGroupName.isHeader (h : IsGroupName name) :
    Line.IsHeader (headerLine name) name.toList where
  line_eq := rfl
  name_ne_nil := fun hnil => h.ne_empty (String.toList_inj.1 hnil)
  not_bracket := fun c hc => ⟨(h.chars c hc).1, (h.chars c hc).2.1⟩

theorem IsGroupName.ofChars_headerLine (h : IsGroupName name) :
    Line.ofChars (headerLine name) = .header name := by
  have htrimmed : Text.IsTrimmed (headerLine name) := by
    refine ⟨fun c hc => ?_, fun c hc => ?_⟩
    · obtain rfl := Option.some.inj hc
      rfl
    · rw [headerLine, ← List.cons_append, List.getLast?_concat] at hc
      obtain rfl := Option.some.inj hc
      rfl
  rw [Line.ofChars, htrimmed.trim_eq, (Line.Says.header h.isHeader).ofTrimmed_eq,
    String.ofList_toList]

theorem IsSetting.isTrimmed (h : IsSetting key value) :
    Text.IsTrimmed (settingLine key value) := by
  obtain ⟨k, ks, hkey⟩ := List.exists_cons_of_ne_nil
    (fun hnil => h.key_ne_empty (String.toList_inj.1 hnil))
  refine ⟨fun c hc => ?_, fun c hc => ?_⟩
  · rw [settingLine, hkey] at hc
    exact h.key_trimmed.head c (by rw [hkey]; exact hc)
  · rw [settingLine, List.getLast?_append, List.getLast?_cons] at hc
    cases hvalue : value.toList.getLast? with
    | none =>
      rw [hvalue] at hc
      obtain rfl := Option.some.inj hc
      rfl
    | some d =>
      rw [hvalue] at hc
      obtain rfl := Option.some.inj hc
      exact h.value_trimmed.getLast d hvalue

theorem IsSetting.ofChars_settingLine (h : IsSetting key value) :
    Line.ofChars (settingLine key value) = .entry key value := by
  have hskip : ¬ Line.IsSkippable (settingLine key value) := by
    rintro (hnil | hhead)
    · exact absurd hnil (by simp [settingLine])
    · obtain ⟨k, ks, hkey⟩ := List.exists_cons_of_ne_nil
        (fun hnil => h.key_ne_empty (String.toList_inj.1 hnil))
      rw [settingLine, hkey] at hhead
      exact h.key_head (by rw [hkey]; exact hhead)
  have hsays := Line.Says.entry hskip h.not_header rfl (fun hmem => (h.key_chars _ hmem).1 rfl)
  rw [Line.ofChars, h.isTrimmed.trim_eq, hsays.ofTrimmed_eq,
    Text.trimEnd_eq_self h.key_trimmed.getLast, Text.trimStart_eq_self h.value_trimmed.head,
    String.ofList_toList, String.ofList_toList]

end Written

section Parsed

variable {line : List Char}

theorem isGroupName_of_ofChars {name : String} (hline : '\n' ∉ line)
    (h : Line.ofChars line = .header name) : IsGroupName name := by
  have hsays : Line.Says (Text.trim line) (.header name) := Line.says_iff.2 h
  cases hsays with
  | header hheader =>
    refine ⟨fun hnil => hheader.name_ne_nil (String.ofList_injective hnil), fun c hc => ?_⟩
    rw [String.toList_ofList] at hc
    obtain ⟨hopen, hclose⟩ := hheader.not_bracket c hc
    refine ⟨hopen, hclose, ?_⟩
    rintro rfl
    apply hline
    apply Text.mem_of_mem_trim
    rw [hheader.line_eq]
    exact List.mem_cons_of_mem _ (List.mem_append_left _ hc)

/-- Blanks around the equals sign do not decide whether the line is a header. -/
theorem isHeader_of_blanks {key blanks blanks' value name : List Char} (hkey : key ≠ [])
    (hblanks : ∀ c ∈ blanks, Text.isBlank c = true)
    (hblanks' : ∀ c ∈ blanks', Text.isBlank c = true)
    (h : Line.IsHeader (key ++ '=' :: value) name) :
    ∃ name', Line.IsHeader (key ++ blanks ++ '=' :: (blanks' ++ value)) name' := by
  have hline := h.line_eq
  obtain ⟨k, ks, rfl⟩ := List.exists_cons_of_ne_nil hkey
  rw [List.cons_append, List.cons.injEq] at hline
  obtain ⟨rfl, hline⟩ := hline
  rcases List.eq_nil_or_concat value with rfl | ⟨vs, v, rfl⟩
  · exact absurd (List.append_inj' hline rfl).2 (by decide)
  rw [List.concat_eq_append, ← List.cons_append, ← List.append_assoc] at hline
  obtain ⟨hname, hv⟩ := List.append_inj' hline rfl
  obtain rfl := List.singleton_inj.1 hv
  have hbracket : ∀ c, Text.isBlank c = true → c ≠ '[' ∧ c ≠ ']' := by
    intro c hc
    refine ⟨?_, ?_⟩
    · rintro rfl
      exact absurd hc (by decide)
    · rintro rfl
      exact absurd hc (by decide)
  refine ⟨ks ++ blanks ++ '=' :: (blanks' ++ vs), ?_, ?_, fun c hc => ?_⟩
  · simp only [List.concat_eq_append, List.cons_append, List.append_assoc]
  · exact List.append_ne_nil_of_right_ne_nil _ (List.cons_ne_nil _ _)
  · simp only [List.mem_append, List.mem_cons] at hc
    have hold : c ∈ ks ∨ c = '=' ∨ c ∈ vs → c ≠ '[' ∧ c ≠ ']' := by
      intro hmem
      apply h.not_bracket
      rw [← hname]
      simpa using hmem
    rcases hc with (hc | hc) | hc | hc | hc
    · exact hold (Or.inl hc)
    · exact hbracket c (hblanks c hc)
    · exact hold (Or.inr (Or.inl hc))
    · exact hbracket c (hblanks' c hc)
    · exact hold (Or.inr (Or.inr hc))

theorem isSetting_of_ofChars {key value : String} (hline : '\n' ∉ line) (hkey : key ≠ "")
    (h : Line.ofChars line = .entry key value) : IsSetting key value := by
  have hsays : Line.Says (Text.trim line) (.entry key value) := Line.says_iff.2 h
  have htrimmed := Text.isTrimmed_trim line
  have hnewline : '\n' ∉ Text.trim line := fun hmem => hline (Text.mem_of_mem_trim hmem)
  cases hsays with
  | @entry before after hskip hheader hsplit hbefore =>
    obtain ⟨blanks, hend, hblanks⟩ := Text.exists_trimEnd before
    obtain ⟨blanks', hstart, hblanks'⟩ := Text.exists_trimStart after
    have hne : Text.trimEnd before ≠ [] := fun hnil => hkey (congrArg String.ofList hnil)
    have hwhole : Text.trim line =
        Text.trimEnd before ++ blanks ++ '=' :: (blanks' ++ Text.trimStart after) := by
      rw [← hend, ← hstart]
      exact hsplit
    -- Key and value stand at the ends of the line, which has no blanks there.
    have hhead : (Text.trim line).head? = (Text.trimEnd before).head? := by
      obtain ⟨c, cs, hcs⟩ := List.exists_cons_of_ne_nil hne
      rw [hwhole, hcs]
      rfl
    have hlast : ∀ c, (Text.trimStart after).getLast? = some c →
        (Text.trim line).getLast? = some c := by
      intro c hc
      rw [hwhole, List.getLast?_append, List.getLast?_cons, List.getLast?_append, hc]
      rfl
    constructor
    case key_ne_empty => exact hkey
    case key_trimmed =>
      rw [String.toList_ofList]
      exact ⟨fun c hc => htrimmed.head c (hhead.trans hc), fun c hc => Text.getLast_trimEnd hc⟩
    case key_chars =>
      intro c hc
      rw [String.toList_ofList] at hc
      have hmem : c ∈ before := by
        rw [hend]
        exact List.mem_append_left _ hc
      refine ⟨?_, ?_⟩
      · rintro rfl
        exact hbefore hmem
      · rintro rfl
        apply hnewline
        rw [hsplit]
        exact List.mem_append_left _ hmem
    case key_head =>
      rw [String.toList_ofList, ← hhead]
      exact fun hcomment => hskip (Or.inr hcomment)
    case value_trimmed =>
      rw [String.toList_ofList]
      exact ⟨fun c hc => Text.head_trimStart hc, fun c hc => htrimmed.getLast c (hlast c hc)⟩
    case value_chars =>
      rw [String.toList_ofList]
      intro hmem
      apply hnewline
      rw [hwhole]
      simp [hmem]
    case not_header =>
      intro name hname
      rw [settingLine, String.toList_ofList, String.toList_ofList] at hname
      obtain ⟨name', hname'⟩ := isHeader_of_blanks hne hblanks hblanks' hname
      exact hheader name' (hwhole ▸ hname')

end Parsed

theorem wellFormed_parse {content : String} {kf : Keyfile} (h : parse content = .ok kf) :
    kf.WellFormed := by
  have hprofile := isProfile_of_parseLines h
  obtain ⟨p, rfl, hdescribes⟩ := describes_of_parseLines h
  have hreads : ∀ reading, reading ∈ (Text.lines content.toList).map Line.ofChars →
      ∃ line, '\n' ∉ line ∧ Line.ofChars line = reading := by
    intro reading hmem
    obtain ⟨line, hline, rfl⟩ := List.mem_map.1 hmem
    exact ⟨line, Text.not_mem_newline_of_mem_lines hline, rfl⟩
  constructor
  · intro group hgroup
    have hname : group.1 ∈ p.keyfile.groupNames := List.mem_map_of_mem hgroup
    rw [hdescribes.names, List.mem_eraseDups] at hname
    obtain ⟨line, hnewline, hline⟩ := hreads _ (mem_of_mem_headerNames hname)
    exact isGroupName_of_ofChars hnewline hline
  · rintro group hgroup ⟨key, value⟩ hentry
    have hsettings : p.keyfile.settings group.1 = group.2 := by
      rw [settings, OrderedMap.find?_of_mem hgroup]
      rfl
    rw [← hsettings, hdescribes.settings] at hentry
    have hunder : (key, value) ∈ entriesUnder group.1 ((Text.lines content.toList).map Line.ofChars) :=
      (OrderedMap.mem_of_mem_insertMany hentry).resolve_left List.not_mem_nil
    have hmem := mem_of_mem_entriesUnder hunder
    obtain ⟨before, after, hsplit⟩ := List.append_of_mem hmem
    obtain ⟨hkey, -⟩ := hprofile before _ after hsplit
    obtain ⟨line, hnewline, hline⟩ := hreads _ hmem
    exact isSetting_of_ofChars hnewline hkey hline

theorem WellFormed.clearAll {kf : Keyfile} (h : kf.WellFormed) (settings : List (String × String)) :
    (kf.clearAll settings).WellFormed := by
  have hfrom : ∀ group ∈ (kf.clearAll settings).groups.toList,
      ∃ old ∈ kf.groups.toList, group.1 = old.1 ∧ group.2.toList ⊆ old.2.toList := by
    intro group hgroup
    rw [groups_clearAll] at hgroup
    obtain ⟨old, hold, hsurvivor⟩ := List.mem_filterMap.1 hgroup
    rw [survivor?] at hsurvivor
    split at hsurvivor
    · exact absurd hsurvivor (by simp)
    · obtain rfl := Option.some.inj hsurvivor
      exact ⟨old, hold, rfl, fun entry hentry => (List.mem_filter.1 hentry).1⟩
  constructor
  · intro group hgroup
    obtain ⟨old, hold, hname, -⟩ := hfrom group hgroup
    exact hname ▸ h.groupName old hold
  · intro group hgroup entry hentry
    obtain ⟨old, hold, -, hentries⟩ := hfrom group hgroup
    exact h.setting old hold entry (hentries hentry)

section Reread

variable {kf : Keyfile} {done : List Group} {name : String}

/-- New settings go behind those of the last group. -/
theorem foldlM_add_entries {old : OrderedMap String String}
    (hgroups : kf.groups.toList = done ++ [(name, old)]) (hname : name ∉ done.map Prod.fst)
    {entries : List (String × String)} (hkeys : ∀ entry ∈ entries, entry.1 ≠ "")
    (hnodup : ((old.toList ++ entries).map Prod.fst).Nodup) :
    ∃ (kf' : Keyfile) (new : OrderedMap String String),
      (entries.map (fun entry => Line.entry entry.1 entry.2)).foldlM Progress.add ⟨kf, some name⟩ =
        .ok ⟨kf', some name⟩ ∧
      kf'.groups.toList = done ++ [(name, new)] ∧ new.toList = old.toList ++ entries := by
  -- Each setting moves from those to be read to the end of those that the group has.
  induction entries generalizing kf old with
  | nil => exact ⟨kf, old, rfl, hgroups, (List.append_nil _).symm⟩
  | cons entry rest ih =>
    rcases entry with ⟨key, value⟩
    have hnew : key ∉ old.toList.map Prod.fst := by
      rw [List.map_append, List.nodup_append] at hnodup
      exact fun hmem => hnodup.2.2 key hmem key List.mem_cons_self rfl
    have hold : kf.settings name = old := by
      have hmem : (name, old) ∈ kf.groups.toList := by
        rw [hgroups]
        exact List.mem_append_right _ List.mem_cons_self
      rw [settings, OrderedMap.find?_of_mem hmem]
      rfl
    have hinsert : (old.insert key value).toList = old.toList ++ [(key, value)] :=
      OrderedMap.putEntry_of_not_mem value hnew
    have hput : (kf.put name key value).groups.toList =
        done ++ [(name, old.insert key value)] := by
      rw [put, hold, OrderedMap.toList_insert, hgroups, OrderedMap.putEntry_concat _ _ hname]
    have hadd : Progress.add ⟨kf, some name⟩ (.entry key value) =
        .ok ⟨kf.put name key value, some name⟩ := by
      rw [Progress.add, if_neg (hkeys (key, value) List.mem_cons_self)]
    obtain ⟨kf', new, hrun, hgroups', hnew'⟩ := ih hput
      (fun entry hentry => hkeys entry (List.mem_cons_of_mem _ hentry))
      (by rw [hinsert, List.append_assoc]; exact hnodup)
    refine ⟨kf', new, ?_, hgroups', ?_⟩
    · rw [List.map_cons, List.foldlM_cons, hadd]
      exact hrun
    · rw [hnew', hinsert, List.append_assoc]
      rfl

/-- What the lines of the groups say. -/
def readings (groups : List Group) : List Line :=
  groups.flatMap fun group =>
    .header group.1 :: group.2.toList.map (fun entry => .entry entry.1 entry.2)

/-- Groups with new names go behind those that are there. -/
theorem foldlM_add_readings (kf : Keyfile) (current : Option String) (groups : List Group)
    (hnodup : ((kf.groups.toList ++ groups).map Prod.fst).Nodup)
    (hkeys : ∀ group ∈ groups, ∀ entry ∈ group.2.toList, entry.1 ≠ "") :
    ∃ p : Progress, (readings groups).foldlM Progress.add ⟨kf, current⟩ = .ok p ∧
      p.keyfile.groups.toList = kf.groups.toList ++ groups := by
  induction groups generalizing kf current with
  | nil => exact ⟨_, rfl, (List.append_nil _).symm⟩
  | cons group rest ih =>
    rcases group with ⟨name, entries⟩
    have hname : name ∉ kf.groups.toList.map Prod.fst := by
      rw [List.map_append, List.nodup_append] at hnodup
      exact fun hmem => hnodup.2.2 name hmem name List.mem_cons_self rfl
    have hopened : (kf.openGroup name).groups.toList = kf.groups.toList ++ [(name, ∅)] := by
      rw [openGroup, if_neg (fun h => hname (OrderedMap.contains_eq_true_iff.1 h))]
      exact OrderedMap.putEntry_of_not_mem ∅ hname
    -- The group is opened at the end and takes its own settings before the next is opened.
    obtain ⟨kf', new, hrun, hgroups, hnew⟩ := foldlM_add_entries hopened hname
      (hkeys (name, entries) List.mem_cons_self) entries.nodup_keys
    obtain rfl : new = entries := OrderedMap.ext hnew
    have hsplit : kf'.groups.toList ++ rest = kf.groups.toList ++ (name, new) :: rest := by
      rw [hgroups, List.append_assoc, List.singleton_append]
    obtain ⟨p, hrest, hp⟩ := ih kf' (some name) (hsplit ▸ hnodup)
      (fun group hgroup => hkeys group (List.mem_cons_of_mem _ hgroup))
    refine ⟨p, ?_, hp.trans hsplit⟩
    rw [readings, List.flatMap_cons, List.foldlM_append, List.foldlM_cons]
    show (List.foldlM Progress.add ⟨kf.openGroup name, some name⟩ _ >>= fun q =>
      (readings rest).foldlM Progress.add q) = _
    rw [hrun]
    exact hrest

theorem map_ofChars_writtenLines (h : kf.WellFormed) :
    kf.writtenLines.map Line.ofChars = readings kf.groups.toList := by
  rw [writtenLines, readings, List.map_flatMap]
  apply List.flatMap_congr
  intro group hgroup
  rw [List.map_cons, (h.groupName group hgroup).ofChars_headerLine, List.map_map]
  congr 1
  apply List.map_congr_left
  intro entry hentry
  exact (h.setting group hgroup entry hentry).ofChars_settingLine

theorem not_mem_newline_of_mem_writtenLines (h : kf.WellFormed) {line : List Char}
    (hline : line ∈ kf.writtenLines) : '\n' ∉ line := by
  obtain ⟨group, hgroup, hmem⟩ := List.mem_flatMap.1 hline
  have hname := h.groupName group hgroup
  rcases List.mem_cons.1 hmem with rfl | hmem
  · intro hnewline
    have : '\n' ∈ group.1.toList := by simpa [headerLine] using hnewline
    exact (hname.chars _ this).2.2 rfl
  · obtain ⟨entry, hentry, rfl⟩ := List.mem_map.1 hmem
    have hsetting := h.setting group hgroup entry hentry
    intro hnewline
    have : '\n' ∈ entry.1.toList ∨ '\n' ∈ entry.2.toList := by
      simpa [settingLine] using hnewline
    rcases this with hkey | hvalue
    · exact (hsetting.key_chars _ hkey).2 rfl
    · exact hsetting.value_chars hvalue

theorem parse_print_of_wellFormed (h : kf.WellFormed) : parse kf.print = .ok kf := by
  have hlines : Text.lines kf.print.toList = kf.writtenLines := by
    rw [print, String.toList_ofList]
    exact Text.lines_flatMap (fun line hline => not_mem_newline_of_mem_writtenLines h hline)
  obtain ⟨p, hrun, hp⟩ := foldlM_add_readings {} none kf.groups.toList kf.groups.nodup_keys
    (fun group hgroup entry hentry => (h.setting group hgroup entry hentry).key_ne_empty)
  rw [← map_ofChars_writtenLines h] at hrun
  rw [parse, hlines]
  refine (parseLines_of_foldlM 1 hrun).trans (congrArg Except.ok ?_)
  have hgroups : p.keyfile.groups = kf.groups := OrderedMap.ext hp
  rcases kf with ⟨groups⟩
  rcases p with ⟨⟨groups'⟩, current⟩
  exact congrArg Keyfile.mk hgroups

end Reread

/-- Whatever is cleared of a profile that has been read, the rest can be written, and it is
read back from its text: the same groups in the same order, and in them the same keys with
the same written values. -/
theorem parse_print_clearAll {content : String} {kf : Keyfile} (h : parse content = .ok kf)
    (settings : List (String × String)) :
    (kf.clearAll settings).WellFormed ∧
      parse (kf.clearAll settings).print = .ok (kf.clearAll settings) := by
  have hwell := (wellFormed_parse h).clearAll settings
  exact ⟨hwell, parse_print_of_wellFormed hwell⟩

/-- A group whose name has an equals sign, a key and a value that start and end like a
header, and a group that goes with its only setting. -/
theorem parse_print_clearAll_brackets :
    ∃ kf, parse "[a=b]\r\n [k] = =v ] \nk= \n[gone]\nx=1\n[empty]" = .ok kf ∧
      (kf.clearAll [("gone", "x"), ("a=b", "none")]).print =
        "[a=b]\n[k]==v ]\nk=\n[empty]\n" ∧
      parse "[a=b]\n[k]==v ]\nk=\n[empty]\n" =
        .ok (kf.clearAll [("gone", "x"), ("a=b", "none")]) := by
  let kf : Keyfile := ⟨OrderedMap.ofList
    [("a=b", OrderedMap.ofList [("[k]", "=v ]"), ("k", "")]),
      ("gone", OrderedMap.ofList [("x", "1")]), ("empty", ∅)]⟩
  have hparse : parse "[a=b]\r\n [k] = =v ] \nk= \n[gone]\nx=1\n[empty]" = .ok kf := by
    decide +kernel
  have hprint : (kf.clearAll [("gone", "x"), ("a=b", "none")]).print =
      "[a=b]\n[k]==v ]\nk=\n[empty]\n" := by
    decide +kernel
  have h := (parse_print_clearAll hparse [("gone", "x"), ("a=b", "none")]).2
  rw [hprint] at h
  exact ⟨kf, hparse, hprint, h⟩

end Keyfile

end NetProfile
