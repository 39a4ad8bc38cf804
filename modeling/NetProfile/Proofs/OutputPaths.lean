import NetProfile.Proofs.PrintedAndWritten

/-!
# Where documents are put

The path of a document is that of its directory with the file name behind it. The file name
is made of a text that a definition gives, which may have slashes in it; only without them
is the file name one name, and the file an entry of the directory.

## Main definitions

- `Definition.StaysIn` — a document that belongs into the directory itself

## Main results

- `FileTree.locate_below` — a path with one more name leads into the directory before it
- `Definition.staysIn_iff_slash_not_mem` — which documents stay, and what writing them changes
-/

namespace NetProfile

namespace FilePath

variable {base name : List Char}

theorem not_mem_of_mem_pieces {s piece : List Char} (h : piece ∈ pieces s) : '/' ∉ piece := by
  induction s generalizing piece with
  | nil =>
    rw [pieces, List.mem_singleton] at h
    rw [h]
    exact List.not_mem_nil
  | cons c rest ih =>
    rw [pieces] at h
    split at h
    · obtain rfl | h := List.mem_cons.1 h
      · exact List.not_mem_nil
      · exact ih h
    · next hc =>
      split at h
      · next hpieces => exact absurd hpieces (pieces_ne_nil rest)
      · next first more hpieces =>
        rw [hpieces] at ih
        obtain rfl | h := List.mem_cons.1 h
        · rw [List.mem_cons, not_or]
          exact ⟨fun he => hc he.symm, ih List.mem_cons_self⟩
        · exact ih (List.mem_cons_of_mem first h)

theorem not_mem_of_mem_names {path name : String} (h : name ∈ names path) : '/' ∉ name.toList := by
  have hfound : ∀ name ∈ ((pieces path.toList).filter (fun piece => !piece.isEmpty)).map
      String.ofList, '/' ∉ name.toList := by
    intro name hname
    obtain ⟨piece, hpiece, rfl⟩ := List.mem_map.1 hname
    rw [String.toList_ofList]
    exact not_mem_of_mem_pieces (List.mem_of_mem_filter hpiece)
  rw [names] at h
  split at h
  · obtain h | h := List.mem_append.1 h
    · exact hfound name h
    · rw [List.mem_singleton.1 h]
      decide
  · exact hfound name h

/-- A text with a last character that is no slash. -/
def EndsProper (s : List Char) : Prop := ∃ before c, s = before ++ [c] ∧ c ≠ '/'

theorem EndsProper.getLast?_ne (h : EndsProper name) : name.getLast? ≠ some '/' := by
  obtain ⟨before, c, rfl, hc⟩ := h
  simpa using hc

theorem EndsProper.append (h : EndsProper name) (base : List Char) : EndsProper (base ++ name) := by
  obtain ⟨before, c, rfl, hc⟩ := h
  exact ⟨base ++ before, c, by simp, hc⟩

theorem EndsProper.trimSlashes_eq (h : EndsProper name) : trimSlashes name = name := by
  obtain ⟨before, c, rfl, hc⟩ := h
  simp [trimSlashes, hc]

theorem EndsProper.trimSlashes_append_slash (h : EndsProper base) :
    trimSlashes (base ++ ['/']) = base := by
  obtain ⟨before, c, rfl, hc⟩ := h
  simp [trimSlashes, hc]

theorem EndsProper.isEmpty_eq (h : EndsProper name) : name.isEmpty = false := by
  obtain ⟨before, c, rfl, -⟩ := h
  simp

theorem names_eq {path : String} (h : EndsProper path.toList) :
    names path = ((pieces path.toList).filter (fun piece => !piece.isEmpty)).map String.ofList := by
  rw [names, if_neg h.getLast?_ne]

section Below

variable {path dir file : String} (hpath : path.toList = dir.toList ++ '/' :: file.toList)
  (hdir : EndsProper dir.toList) (hfile : EndsProper file.toList)

include hpath hfile in
theorem endsProper_below : EndsProper path.toList := by
  rw [hpath, ← List.singleton_append, ← List.append_assoc]
  exact hfile.append _

include hpath hdir hfile

theorem names_below : names path = names dir ++ names file := by
  have hproper := endsProper_below hpath hfile
  rw [names_eq hproper, names_eq hdir, names_eq hfile, hpath, pieces_append_slash,
    List.filter_append, List.map_append]

theorem names_of_not_mem (hslash : '/' ∉ file.toList) : names path = names dir ++ [file] := by
  rw [names_below hpath hdir hfile, names_eq hfile, pieces_of_not_mem hslash]
  simp [hfile.isEmpty_eq]

theorem parent?_of_not_mem (hslash : '/' ∉ file.toList) : parent? path = some dir := by
  have hproper := endsProper_below hpath hfile
  have haround : (path.toList.reverse.dropWhile (· != '/')).reverse = dir.toList ++ ['/'] := by
    have hall : ∀ c ∈ file.toList.reverse, (c != '/') = true := by
      intro c hc
      simpa using fun he : c = '/' => hslash (he ▸ List.mem_reverse.1 hc)
    rw [hpath, List.reverse_append, List.reverse_cons, List.append_assoc,
      List.dropWhile_append_of_pos hall]
    simp
  simp [parent?, hproper.trimSlashes_eq, haround, hdir.trimSlashes_append_slash,
    List.isEmpty_eq_false_iff.1 hproper.isEmpty_eq, List.isEmpty_eq_false_iff.1 hdir.isEmpty_eq]

end Below

end FilePath

namespace FileTree

theorem checkPath_eq_ok_iff {path : String} :
    checkPath path = .ok () ↔
      '\x00' ∉ path.toList ∧ path ≠ "" ∧ path.utf8ByteSize ≤ maxPath := by
  rw [checkPath]
  by_cases hnul : path.toList.contains '\x00' = true
  · rw [if_pos hnul]
    simpa using fun h => absurd (List.contains_iff_mem.1 hnul) h
  rw [if_neg hnul]
  by_cases hempty : path = ""
  · rw [if_pos hempty]
    simpa using fun _ h => absurd hempty h
  rw [if_neg hempty]
  by_cases hlong : maxPath < path.utf8ByteSize
  · rw [if_pos hlong]
    simpa using fun _ _ => hlong
  · rw [if_neg hlong]
    simpa [hempty, Nat.not_lt.1 hlong] using fun h => hnul (List.contains_iff_mem.2 h)

/-- Where a destination is. -/
def Destination.place : Destination → Place
  | .entry place _ => place
  | .vacant place => place

/-- Whether walks that end with the name `last` enter a directory before it, which the same
names without `last` lead to. They end in that directory, unless a link stands there. -/
def EntersAround (t : FileTree) (last : String)
    (follow follow' : Place → List String → Except FileError Destination) : Prop :=
  ∀ here names d, follow' here (names ++ [last]) = .ok d →
    ∃ around, follow here names = .ok (.entry around .directory) ∧
      (d.place = around ++ [last] ∨ ∃ target, t.get? (around ++ [last]) = some (.link target))

section Below

variable {t : FileTree} {last : String} {purpose : Purpose}
  {follow follow' : Place → List String → Except FileError Destination}

theorem EntersAround.walkNames (hproper : last ∉ ["", ".", ".."])
    (hfollow : t.EntersAround last follow follow') :
    t.EntersAround last (t.walkNames .use follow) (t.walkNames purpose follow') := by
  intro here names d h
  induction names generalizing here with
  | nil =>
    refine ⟨here, by rw [FileTree.walkNames], ?_⟩
    obtain ⟨s, hs, hd⟩ := exists_stride h
    obtain ⟨hmem, -⟩ | ⟨-, rfl, -⟩ := stride_cases hs
    · exact absurd hmem hproper
    · cases hget : t.get? (here ++ [last]) with
      | none =>
        rw [hget] at hd
        obtain ⟨-, rfl⟩ := Stride.proceed_upon hd
        exact Or.inl rfl
      | some e =>
        rw [hget] at hd
        cases e with
        | link target => exact Or.inr ⟨target, rfl⟩
        | directory =>
          rw [Stride.towards, Stride.proceed, FileTree.walkNames] at hd
          cases hd
          exact Or.inl rfl
        | file bytes =>
          obtain ⟨-, rfl⟩ := Stride.proceed_upon hd
          exact Or.inl rfl
        | device device =>
          obtain ⟨-, rfl⟩ := Stride.proceed_upon hd
          exact Or.inl rfl
  | cons name rest ih =>
    rw [List.cons_append] at h
    obtain ⟨s, hs, hd⟩ := exists_stride h
    rw [walkNames_of_stride hs]
    cases s with
    | inside here' => exact ih here' hd
    | away here' names =>
      rw [Stride.proceed, ← List.append_assoc] at hd
      exact hfollow here' (names ++ rest) d hd
    | upon d' => exact absurd (Stride.proceed_upon hd).1 (by simp)

theorem entersAround_walk (hproper : last ∉ ["", ".", ".."]) (n : Nat) :
    t.EntersAround last (t.walk .use n) (t.walk purpose n) := by
  induction n with
  | zero => exact EntersAround.walkNames hproper (fun _ _ _ h => nomatch h)
  | succ n ih => exact ih.walkNames hproper

/-- A path with one more name leads into the directory that the path before it leads to:
to the entry of that name, unless it is a link. -/
theorem locate_below {path dir file : String}
    (hpath : path.toList = dir.toList ++ '/' :: file.toList)
    (hdir : FilePath.EndsProper dir.toList) (hfile : FilePath.EndsProper file.toList)
    (hslash : '/' ∉ file.toList) (hproper : file ∉ ["", ".", ".."]) {d : Destination}
    (h : t.locate purpose path = .ok d) :
    ∃ around, t.locate .use dir = .ok (.entry around .directory) ∧
      (d.place = around ++ [file] ∨ ∃ target, t.get? (around ++ [file]) = some (.link target)) := by
  obtain ⟨hcheck, hwalk⟩ := locate_eq_ok_iff.1 h
  have hsplit : path = dir ++ "/" ++ file := by
    refine String.toList_inj.1 ?_
    rw [hpath, String.toList_append, String.toList_append, List.append_assoc]
    rfl
  have hstart : start path t.current = start dir t.current := by
    obtain ⟨before, c, hlast, -⟩ := hdir
    rw [start, start, FilePath.isAbsolute, FilePath.isAbsolute, hpath, hlast]
    cases before <;> rfl
  have hcheckDir : checkPath dir = .ok () := by
    rw [checkPath_eq_ok_iff] at hcheck ⊢
    obtain ⟨hnul, -, hsize⟩ := hcheck
    refine ⟨fun hmem => hnul (hpath ▸ List.mem_append_left _ hmem), ?_, ?_⟩
    · rintro rfl
      exact absurd hdir.isEmpty_eq (by simp)
    · rw [hsplit, String.utf8ByteSize_append, String.utf8ByteSize_append] at hsize
      omega
  rw [FilePath.names_of_not_mem hpath hdir hfile hslash, hstart] at hwalk
  obtain ⟨around, haround, hplace⟩ := entersAround_walk hproper maxLinks _ _ _ hwalk
  exact ⟨around, locate_eq_ok_iff.2 ⟨hcheckDir, haround⟩, hplace⟩

end Below

/-- What is filled into the file at a path stands where the path leads, and nothing else
is touched. -/
theorem replace_cases {α : Type} (t : FileTree) (path : String) (fill : Sink → Sink × α) :
    (t.replace path fill).1 = t ∨
      ∃ d, t.locate .create path = .ok d ∧
        (t.replace path fill).1 = t.put d.place (.file (fill {}).1.bytes) := by
  rw [replace]
  cases hlocate : t.locate .create path with
  | error e => exact Or.inl rfl
  | ok d =>
    cases d with
    | vacant place => exact Or.inr ⟨_, rfl, rfl⟩
    | entry place e =>
      cases e with
      | file bytes => exact Or.inr ⟨_, rfl, rfl⟩
      | directory => exact Or.inl rfl
      | link target => exact Or.inl rfl
      | device device => exact Or.inl rfl

end FileTree

namespace Definition

/-- The text that the file name is made of: the uuid, or the id of a definition without one. -/
def fileText (d : Definition) : String := d.settings.uuid.getD d.id

/-- Whether the document is a file in the directory of documents itself, under the file
name as it is. -/
structure StaysIn (d : Definition) (root : String) : Prop where
  last_eq : (FilePath.names (d.outputPath root)).getLast? = some d.fileName
  parent_eq : FilePath.parent? (d.outputPath root) = some (directoryPath root)

section OutputPath

variable (d : Definition) (root : String)

theorem toList_fileName :
    ∃ c front, c.isDigit = true ∧ '/' ∉ c :: front ∧
      d.fileName.toList = c :: front ++ d.fileText.toList ++ ".yaml".toList := by
  rw [fileName, fileText]
  cases d.settings.uuid with
  | none => exact ⟨'1', "0-netplan-".toList, by decide, by decide, by simp [String.toList_append]⟩
  | some uuid => exact ⟨'9', "0-NM-".toList, by decide, by decide, by simp [String.toList_append]⟩

theorem endsProper_fileName : FilePath.EndsProper d.fileName.toList := by
  obtain ⟨c, front, -, -, hname⟩ := d.toList_fileName
  rw [hname]
  exact FilePath.EndsProper.append ⟨".yam".toList, 'l', by decide, by decide⟩ _

theorem slash_mem_fileName : '/' ∈ d.fileName.toList ↔ '/' ∈ d.fileText.toList := by
  obtain ⟨c, front, -, hfront, hname⟩ := d.toList_fileName
  have hend : '/' ∉ ".yaml".toList := by decide
  rw [hname, List.mem_append, List.mem_append, or_iff_left hend, or_iff_right hfront]

theorem fileName_not_marker : d.fileName ∉ ["", ".", ".."] := by
  obtain ⟨c, front, hdigit, -, hname⟩ := d.toList_fileName
  intro hmem
  have hhead : d.fileName.toList.head? = some c := by rw [hname]; rfl
  simp only [List.mem_cons, List.not_mem_nil, or_false] at hmem
  obtain hmem | hmem | hmem := hmem <;> rw [hmem] at hhead <;> cases hhead <;> cases hdigit

theorem endsProper_directoryPath : FilePath.EndsProper (directoryPath root).toList := by
  obtain ⟨front, hfront⟩ := FilePath.exists_toList_join root directory
  rw [directoryPath, hfront]
  exact FilePath.EndsProper.append ⟨"etc/netpla".toList, 'n', by decide, by decide⟩ _

/-- The path is that of the directory with the file name behind it, whatever is in the
file name. -/
theorem toList_outputPath :
    (d.outputPath root).toList = (directoryPath root).toList ++ '/' :: d.fileName.toList := by
  obtain ⟨c, front, hdigit, -, hname⟩ := d.toList_fileName
  have hdirectory := endsProper_directoryPath root
  have hrelative : FilePath.isAbsolute d.fileName = false := by
    rw [FilePath.isAbsolute, hname]
    refine decide_eq_false fun h => ?_
    cases h
    cases hdigit
  have hne : directoryPath root ≠ "" := by
    intro hempty
    rw [hempty] at hdirectory
    exact absurd hdirectory.isEmpty_eq (by simp)
  rw [outputPath, FilePath.join, hrelative, if_neg (by simpa using hne),
    if_neg hdirectory.getLast?_ne, String.toList_append, String.toList_append, List.append_assoc]
  rfl

theorem staysIn_iff : d.StaysIn root ↔ '/' ∉ d.fileText.toList := by
  have hpath := d.toList_outputPath root
  have hdirectory := endsProper_directoryPath root
  rw [← slash_mem_fileName]
  constructor
  · intro h
    exact FilePath.not_mem_of_mem_names (List.mem_of_getLast? h.last_eq)
  · intro hslash
    refine ⟨?_, FilePath.parent?_of_not_mem hpath hdirectory d.endsProper_fileName hslash⟩
    rw [FilePath.names_of_not_mem hpath hdirectory d.endsProper_fileName hslash,
      List.getLast?_concat]

theorem run_save_left (t : FileTree) :
    ((Transfer.save d root : StateM FileTree _).run t).2 =
      (t.replace (d.outputPath root) (Transfer.fill d)).1 := by
  rw [Transfer.save, FileTree.run_bind, FileTree.run_replace]
  cases (t.replace (d.outputPath root) (Transfer.fill d)).2 with
  | error e => rfl
  | ok out => cases hresult : out.result <;> simp [hresult] <;> rfl

/-- Writing a document that stays changes nothing but the entry under the file name in the
directory of documents, unless a link stands there. -/
theorem StaysIn.run_save {d : Definition} {root : String} (h : d.StaysIn root) (t : FileTree) :
    ((Transfer.save d root : StateM FileTree _).run t).2 = t ∨
      ∃ directory, t.locate .use (directoryPath root) = .ok (.entry directory .directory) ∧
        (((Transfer.save d root : StateM FileTree _).run t).2 =
            t.put (directory ++ [d.fileName]) (.file d.tree.print.toUTF8) ∨
          ∃ target, t.get? (directory ++ [d.fileName]) = some (.link target)) := by
  rw [run_save_left]
  obtain hsame | ⟨destination, hlocate, hput⟩ :=
    t.replace_cases (d.outputPath root) (Transfer.fill d)
  · exact Or.inl hsame
  · have hslash := (slash_mem_fileName d).not.2 ((d.staysIn_iff root).1 h)
    obtain ⟨directory, hdirectory, hplace⟩ := FileTree.locate_below (d.toList_outputPath root)
      (endsProper_directoryPath root) d.endsProper_fileName hslash d.fileName_not_marker hlocate
    have hbytes : (Transfer.fill d {}).1.bytes = d.tree.print.toUTF8 := by
      rw [Transfer.fill, d.writeTo_default, bytes_extend_default]
    refine Or.inr ⟨directory, hdirectory, ?_⟩
    rw [hput, hbytes]
    exact hplace.imp_left (fun hplace => by rw [hplace])

/-- The names on the path of a document are those of the directory and then those in the
file name. The file name is one name, and the document a file in the directory, exactly if
the uuid, or the id of a definition without one, has no slash. Then nothing is written but
the entry of that name in the directory, in any tree in which that entry is no link. -/
theorem staysIn_iff_slash_not_mem (d : Definition) (root : String) :
    FilePath.names (d.outputPath root) =
        FilePath.names (directoryPath root) ++ FilePath.names d.fileName ∧
      (d.StaysIn root ↔ '/' ∉ (d.settings.uuid.getD d.id).toList) ∧
      (d.StaysIn root → ∀ t : FileTree,
        ((Transfer.save d root : StateM FileTree _).run t).2 = t ∨
          ∃ directory, t.locate .use (directoryPath root) = .ok (.entry directory .directory) ∧
            (((Transfer.save d root : StateM FileTree _).run t).2 =
                t.put (directory ++ [d.fileName]) (.file d.tree.print.toUTF8) ∨
              ∃ target, t.get? (directory ++ [d.fileName]) = some (.link target))) :=
  ⟨FilePath.names_below (d.toList_outputPath root) (endsProper_directoryPath root)
    d.endsProper_fileName, d.staysIn_iff root, fun h t => h.run_save t⟩

end OutputPath

/-- A tree in which the directory of documents has a directory in it, and a profile whose
uuid climbs out of that. -/
def climbingTree : FileTree :=
  { entries := OrderedMap.ofList
      [(["root"], .directory), (["root", "etc"], .directory),
        (["root", "etc", "netplan"], .directory),
        (["root", "etc", "netplan", "90-NM-x"], .directory),
        (["profile"], .file "[connection]\nuuid=x/../../../../evil\ntype=ethernet\n".toUTF8)] }

/-- A uuid with dots only, which are names of directories elsewhere. -/
theorem staysIn_iff_slash_not_mem_dots :
    let d : Definition :=
      { id := "a/b", kind := .ethernet, backend := .networkd, settings := { uuid := some ".." } }
    d.StaysIn "root" ∧
      ((Transfer.save d "root" : StateM FileTree _).run climbingTree).2 =
        climbingTree.put ["root", "etc", "netplan", "90-NM-...yaml"] (.file d.tree.print.toUTF8) := by
  intro d
  obtain ⟨-, hstays, hwritten⟩ := staysIn_iff_slash_not_mem d "root"
  have hd : d.StaysIn "root" := hstays.2 (by decide)
  refine ⟨hd, ?_⟩
  have hdirectory : climbingTree.locate .use (directoryPath "root") =
      .ok (.entry ["root", "etc", "netplan"] .directory) := by
    rfl
  obtain hsame | ⟨directory, hlocate, hput⟩ := hwritten hd climbingTree
  · have hthere : (((Transfer.save d "root" : StateM FileTree _).run climbingTree).2.get?
        ["root", "etc", "netplan", "90-NM-...yaml"]).isSome = true := by
      decide +kernel
    rw [hsame] at hthere
    exact absurd hthere (by decide +kernel)
  · rw [hdirectory] at hlocate
    cases hlocate
    obtain hput | ⟨target, hlink⟩ := hput
    · exact hput
    · cases hlink

theorem not_staysIn_climbing :
    ∃ d, climbingTree.selected? (.importProfile "profile" none) = some d ∧
      ¬ d.StaysIn "root" ∧
      (climbingTree.get? ["evil.yaml"]).isNone = true ∧
      (((Command.run ["import", "keyfile", "profile", "--root-dir", "root"] :
        StateM FileTree _).run climbingTree).2.get? ["evil.yaml"]).isSome = true := by
  have hselected : (climbingTree.selected? (.importProfile "profile" none)).map fileText =
      some "x/../../../../evil" := by
    decide +kernel
  obtain ⟨d, hd, htext⟩ := Option.map_eq_some_iff.1 hselected
  refine ⟨d, hd, ?_, by decide +kernel, by decide +kernel⟩
  rw [staysIn_iff, htext]
  decide

end Definition

end NetProfile
