import Mathlib.Data.List.Basic
import NetProfile.Files.Tree

/-!
# Walks through file trees

What is at the end of a path, seen from the path without its last name, and from the
tree with a file put there. Both are shown for the names of one path first and then for
any number of links, since a link only puts other names in front of those that are left.

## Main definitions

- `FileTree.Destination.AtFile` — a place that a file can be put in
- `FileTree.TakesFile` — a path that leads to such a place

## Main results

- `FileTree.makeDirectories_of_isDirectory` — nothing is made where a directory is
- `FileTree.TakesFile.replace_eq`, `FileTree.TakesFile.readBytes_put` — a file is replaced
-/

namespace NetProfile

namespace FilePath

variable {base name : List Char}

theorem pieces_of_not_mem (h : '/' ∉ name) : pieces name = [name] := by
  induction name with
  | nil => rfl
  | cons c rest ih =>
    rw [List.mem_cons, not_or] at h
    rw [pieces, if_neg (fun e => h.1 e.symm), ih h.2]

theorem pieces_ne_nil (s : List Char) : pieces s ≠ [] := by
  cases s with
  | nil => exact List.cons_ne_nil _ _
  | cons c rest =>
    rw [pieces]
    split
    · exact List.cons_ne_nil _ _
    · split <;> exact List.cons_ne_nil _ _

theorem pieces_append_slash (base name : List Char) :
    pieces (base ++ '/' :: name) = pieces base ++ pieces name := by
  induction base with
  | nil => simp [pieces]
  | cons c rest ih =>
    rw [List.cons_append, pieces, pieces, ih]
    by_cases hc : c = '/'
    · simp [hc]
    · rw [if_neg hc, if_neg hc]
      cases hpieces : pieces rest with
      | nil => exact absurd hpieces (pieces_ne_nil rest)
      | cons piece more => rfl

/-- Whether the path ends in a name that stands for an entry of a directory. -/
structure EndsIn (path name : String) : Prop where
  names_eq : ∃ around, names path = around ++ [name]
  trimSlashes_eq : trimSlashes path.toList = path.toList
  not_marker : name ∉ ["", ".", ".."]

theorem endsIn_of_toList {path name : String} (hpath : path.toList = base ++ '/' :: name.toList)
    (hslash : '/' ∉ name.toList) (hname : name ∉ ["", ".", ".."]) : EndsIn path name := by
  have hne : name.toList ≠ [] := by
    intro hnil
    exact hname (by rw [String.toList_inj.1 (hnil.trans String.toList_empty.symm)]; decide)
  obtain ⟨before, c, hlast⟩ := (List.eq_nil_or_concat' name.toList).resolve_left hne
  have hc : c ≠ '/' := by
    rintro rfl
    exact hslash (by simp [hlast])
  refine ⟨⟨((pieces base).filter (fun piece => !piece.isEmpty)).map String.ofList, ?_⟩, ?_, hname⟩
  · have hend : path.toList.getLast? ≠ some '/' := by
      rw [hpath, hlast, ← List.cons_append, ← List.append_assoc, List.getLast?_concat]
      simpa using hc
    rw [names, if_neg hend, hpath, pieces_append_slash, pieces_of_not_mem hslash,
      List.filter_append, List.map_append]
    simp [hne]
  · rw [hpath, hlast, trimSlashes]
    simp [hc]

end FilePath

namespace FileTree

/-! ### One name -/

/-- What following one name comes to. -/
inductive Stride where
  /-- The walk goes on in a directory. -/
  | inside (here : Place)
  /-- The walk goes on along a link. -/
  | away (here : Place) (names : List String)
  /-- Nothing can follow. -/
  | upon (d : Destination)

/-- What a name comes to that has the entry `e?` under it. -/
def Stride.towards (here place : Place) (e? : Option Entry) : Stride :=
  match e? with
  | some .directory => .inside place
  | some (.link target) => .away (start target here) (FilePath.names target)
  | some e => .upon (.entry place e)
  | none => .upon (.vacant place)

/-- Follows one name from the directory `here`. -/
def stride (t : FileTree) (here : Place) (name : String) : Except FileError Stride :=
  if name = "" ∨ name = "." then .ok (.inside here)
  else if name = ".." then .ok (.inside here.dropLast)
  else if maxName < name.utf8ByteSize then .error .nameTooLong
  else .ok (.towards here (here ++ [name]) (t.get? (here ++ [name])))

/-- Why a walk cannot go on from its end. -/
def Destination.obstacle : Destination → FileError
  | .entry .. => .notDirectory
  | .vacant _ => .notFound

/-- The rest of a walk that has come so far. -/
def Stride.proceed (walk follow : Place → List String → Except FileError Destination)
    (rest : List String) : Stride → Except FileError Destination
  | .inside here => walk here rest
  | .away here names => follow here (names ++ rest)
  | .upon d => if rest.isEmpty then .ok d else .error d.obstacle

section Strides

variable {t : FileTree} {purpose : Purpose} {here : Place} {name : String} {rest : List String}
  {follow walk : Place → List String → Except FileError Destination} {d d' : Destination}
  {s : Stride}

/-- A walk takes its first name first, unless it is to make a file under a path that asks
for a directory. -/
theorem walkNames_cons :
    t.walkNames purpose follow here (name :: rest) =
      if name ∉ ["", ".", ".."] ∧ purpose = .create ∧ rest = [""] then .error .isDirectory
      else (t.stride here name).bind (Stride.proceed (t.walkNames purpose follow) follow rest) := by
  rw [walkNames, stride]
  by_cases hdot : name = "" ∨ name = "."
  · have hmem : name ∈ ["", ".", ".."] := by
      obtain rfl | rfl := hdot <;> decide
    rw [if_pos hdot, if_pos hdot, if_neg (fun h => h.1 hmem)]
    rfl
  by_cases hup : name = ".."
  · have hmem : name ∈ ["", ".", ".."] := by
      rw [hup]
      decide
    rw [if_neg hdot, if_neg hdot, if_pos hup, if_pos hup, if_neg (fun h => h.1 hmem)]
    rfl
  have hproper : name ∉ ["", ".", ".."] := by
    simpa [and_assoc, hup] using hdot
  rw [if_neg hdot, if_neg hdot, if_neg hup, if_neg hup]
  simp only [hproper, not_false_eq_true, true_and]
  by_cases hmake : purpose = .create ∧ rest = [""]
  · rw [if_pos hmake, if_pos hmake]
  rw [if_neg hmake, if_neg hmake]
  by_cases hlong : maxName < name.utf8ByteSize
  · rw [if_pos hlong, if_pos hlong]
    rfl
  rw [if_neg hlong, if_neg hlong]
  cases t.get? (here ++ [name]) with
  | none => rfl
  | some e => cases e <;> rfl

/-- A name either leads to the same directory in every tree, or to what stands under it. -/
theorem stride_cases (hs : t.stride here name = .ok s) :
    (name ∈ ["", ".", ".."] ∧ (∃ here', s = .inside here') ∧ ∀ t' : FileTree, t'.stride here name = .ok s) ∨
      (name ∉ ["", ".", ".."] ∧ s = .towards here (here ++ [name]) (t.get? (here ++ [name])) ∧
        ∀ t' : FileTree, t'.stride here name =
          .ok (.towards here (here ++ [name]) (t'.get? (here ++ [name])))) := by
  simp only [stride] at hs ⊢
  by_cases hdot : name = "" ∨ name = "."
  · have hmem : name ∈ ["", ".", ".."] := by
      obtain rfl | rfl := hdot <;> decide
    simp only [if_pos hdot] at hs ⊢
    cases hs
    exact Or.inl ⟨hmem, ⟨_, rfl⟩, fun _ => rfl⟩
  by_cases hup : name = ".."
  · have hmem : name ∈ ["", ".", ".."] := by
      rw [hup]
      decide
    simp only [if_neg hdot, if_pos hup] at hs ⊢
    cases hs
    exact Or.inl ⟨hmem, ⟨_, rfl⟩, fun _ => rfl⟩
  have hproper : name ∉ ["", ".", ".."] := by
    simpa [and_assoc, hup] using hdot
  simp only [if_neg hdot, if_neg hup] at hs ⊢
  by_cases hlong : maxName < name.utf8ByteSize
  · rw [if_pos hlong] at hs
    cases hs
  · rw [if_neg hlong] at hs
    exact Or.inr ⟨hproper, (Except.ok.inj hs).symm, fun _ => if_neg hlong⟩

theorem exists_stride (h : t.walkNames purpose follow here (name :: rest) = .ok d) :
    ∃ s, t.stride here name = .ok s ∧
      s.proceed (t.walkNames purpose follow) follow rest = .ok d := by
  rw [walkNames_cons] at h
  split at h
  · cases h
  · cases hs : t.stride here name with
    | error e =>
      rw [hs] at h
      cases h
    | ok s =>
      rw [hs] at h
      exact ⟨s, rfl, h⟩

theorem walkNames_of_stride (hs : t.stride here name = .ok s) :
    t.walkNames .use follow here (name :: rest) =
      s.proceed (t.walkNames .use follow) follow rest := by
  rw [walkNames_cons, if_neg (fun h => Purpose.noConfusion h.2.1), hs]
  rfl

theorem Stride.proceed_upon (h : (Stride.upon d').proceed walk follow rest = .ok d) :
    rest = [] ∧ d' = d := by
  rw [proceed] at h
  split at h
  · next hrest => exact ⟨List.isEmpty_iff.1 hrest, Except.ok.inj h⟩
  · cases h

end Strides

/-! ### The directory around an entry -/

/-- Whether a walk to an entry under the name `last` passes through a directory that has
such an entry. -/
def PassesAround (t : FileTree) (last : String)
    (follow : Place → List String → Except FileError Destination) : Prop :=
  ∀ here names place e, follow here (names ++ [last]) = .ok (.entry place e) →
    ∃ around, follow here (names ++ [""]) = .ok (.entry around .directory) ∧
      (t.get? (around ++ [last])).isSome = true

section Around

variable {t : FileTree} {last : String}
  {follow : Place → List String → Except FileError Destination}

theorem PassesAround.walkNames (hproper : last ∉ ["", ".", ".."])
    (hfollow : t.PassesAround last follow) : t.PassesAround last (t.walkNames .use follow) := by
  intro here names place e h
  induction names generalizing here with
  | nil =>
    refine ⟨here, by simp [FileTree.walkNames], ?_⟩
    obtain ⟨s, hs, hd⟩ := exists_stride h
    obtain ⟨hmem, -⟩ | ⟨-, rfl, -⟩ := stride_cases hs
    · exact absurd hmem hproper
    · cases hget : t.get? (here ++ [last]) with
      | some e' => rfl
      | none =>
        rw [hget] at hd
        cases (Stride.proceed_upon hd).2
  | cons name rest ih =>
    rw [List.cons_append] at h ⊢
    obtain ⟨s, hs, hd⟩ := exists_stride h
    rw [walkNames_of_stride hs]
    cases s with
    | inside here' => exact ih here' hd
    | away here' names =>
      rw [Stride.proceed, ← List.append_assoc] at hd ⊢
      exact hfollow here' (names ++ rest) place e hd
    | upon d => exact absurd (Stride.proceed_upon hd).1 (by simp)

theorem passesAround_walk (hproper : last ∉ ["", ".", ".."]) (n : Nat) :
    t.PassesAround last (t.walk .use n) := by
  induction n with
  | zero => exact PassesAround.walkNames hproper (fun _ _ _ _ h => nomatch h)
  | succ n ih => exact ih.walkNames hproper

theorem locate_eq_ok_iff {purpose : Purpose} {path : String} {d : Destination} :
    t.locate purpose path = .ok d ↔
      checkPath path = .ok () ∧
        t.walk purpose maxLinks (start path t.current) (FilePath.names path) = .ok d := by
  rw [locate]
  cases checkPath path with
  | error e => exact iff_of_false (fun h => nomatch h) (fun h => nomatch h.1)
  | ok u => exact (and_iff_right rfl).symm

theorem exists_of_isDirectory {path : String} (h : t.isDirectory path = true) :
    ∃ place, t.locate .use path = .ok (.entry place .directory) := by
  rw [isDirectory] at h
  split at h
  · next place hlocate => exact ⟨place, hlocate⟩
  · cases h

theorem makeAt_of_isSome {here : Place} {name : String}
    (h : (t.get? (here ++ [name])).isSome = true) :
    ∃ e, t.makeAt here name = .error e ∧ e ≠ .notFound := by
  obtain ⟨entry, hentry⟩ := Option.isSome_iff_exists.1 h
  rw [makeAt]
  split
  · exact ⟨_, rfl, FileError.noConfusion⟩
  · split
    · exact ⟨_, rfl, FileError.noConfusion⟩
    · rw [hentry]
      exact ⟨_, rfl, FileError.noConfusion⟩

/-- What is there already is not made, and not for want of a directory around it. -/
theorem makeDirectory_of_isDirectory {path : String} (hlast : FilePath.EndsIn path last)
    (h : t.isDirectory path = true) : ∃ e, t.makeDirectory path = .error e ∧ e ≠ .notFound := by
  obtain ⟨place, hlocate⟩ := exists_of_isDirectory h
  obtain ⟨hcheck, hwalk⟩ := locate_eq_ok_iff.1 hlocate
  obtain ⟨around, hnames⟩ := hlast.names_eq
  rw [hnames] at hwalk
  obtain ⟨here, hhere, hthere⟩ := passesAround_walk hlast.not_marker maxLinks _ _ _ _ hwalk
  rw [makeDirectory, hcheck]
  simp only [hlast.trimSlashes_eq, String.ofList_toList, hnames, List.getLast?_concat,
    List.dropLast_concat]
  rw [hhere]
  exact makeAt_of_isSome hthere

/-- Nothing is made where a directory is. -/
theorem makeDirectories_of_isDirectory {path : String} (hlast : FilePath.EndsIn path last)
    (h : t.isDirectory path = true) : t.makeDirectories path = (t, .ok ()) := by
  have hne : path ≠ "" := by
    rintro rfl
    obtain ⟨place, hlocate⟩ := exists_of_isDirectory h
    cases (locate_eq_ok_iff.1 hlocate).1
  obtain ⟨e, hmake, hfound⟩ := makeDirectory_of_isDirectory hlast h
  unfold makeDirectories makeDirectoriesUpTo
  rw [if_neg hne, hmake]
  cases e with
  | notFound => exact absurd rfl hfound
  | _ => exact if_pos h

end Around

/-! ### A file that is replaced -/

/-- Whether a file can be put in the place: it is vacant or holds one. -/
def Destination.AtFile (place : Place) (d : Destination) : Prop :=
  d = .vacant place ∨ ∃ bytes, d = .entry place (.file bytes)

/-- Whether a file may stand in the place without a directory or link giving way. -/
def IsFree (t : FileTree) (place : Place) : Prop :=
  t.get? place = none ∨ ∃ bytes, t.get? place = some (.file bytes)

/-- Whether a file can be made at the path, or replaced there, in the given place. -/
def TakesFile (t : FileTree) (path : String) (place : Place) : Prop :=
  ∃ d, t.locate .create path = .ok d ∧ d.AtFile place

/-- The place in which a file can be made or replaced at the path. -/
def filePlace? (t : FileTree) (path : String) : Option Place :=
  match t.locate .create path with
  | .ok (.vacant place) => some place
  | .ok (.entry place (.file _)) => some place
  | _ => none

theorem takesFile_iff {t : FileTree} {path : String} {place : Place} :
    t.TakesFile path place ↔ t.filePlace? path = some place := by
  rw [TakesFile, filePlace?]
  constructor
  · rintro ⟨d, hlocate, rfl | ⟨bytes, rfl⟩⟩
    · rw [hlocate]
    · rw [hlocate]
  · intro h
    split at h
    · next hlocate =>
      cases h
      exact ⟨_, hlocate, Or.inl rfl⟩
    · next hlocate =>
      cases h
      exact ⟨_, hlocate, Or.inr ⟨_, rfl⟩⟩
    · cases h

section Replaced

variable {t : FileTree} {place here : Place} {name : String} {bytes : ByteArray} {s : Stride}
  {follow follow' : Place → List String → Except FileError Destination} {d : Destination}

/-- A name that ends at a place for a file is the last of that place. -/
theorem eq_of_stride_upon (hs : t.stride here name = .ok (.upon d)) (hd : d.AtFile place) :
    place = here ++ [name] ∧ t.IsFree place := by
  obtain ⟨-, ⟨_, hinside⟩, -⟩ | ⟨-, hentry, -⟩ := stride_cases hs
  · cases hinside
  cases hget : t.get? (here ++ [name]) with
  | none =>
    rw [hget] at hentry
    cases hentry
    obtain h | ⟨_, h⟩ := hd <;> cases h
    exact ⟨rfl, Or.inl hget⟩
  | some e =>
    rw [hget] at hentry
    cases e <;> cases hentry <;> obtain h | ⟨old, h⟩ := hd <;> cases h
    exact ⟨rfl, Or.inr ⟨_, hget⟩⟩

theorem stride_put_of_upon (hs : t.stride here name = .ok (.upon d)) (hd : d.AtFile place) :
    (t.put place (.file bytes)).stride here name = .ok (.upon (.entry place (.file bytes))) := by
  obtain ⟨hplace, -⟩ := eq_of_stride_upon hs hd
  obtain ⟨-, ⟨_, hinside⟩, -⟩ | ⟨-, -, hentry⟩ := stride_cases hs
  · cases hinside
  · rw [hentry, ← hplace, get?_put, if_pos rfl]
    rfl

/-- A file in a free place is in the way of no walk. -/
theorem stride_put_of_ne_upon (hfree : t.IsFree place) (hs : t.stride here name = .ok s)
    (hgo : ∀ d, s ≠ .upon d) : (t.put place (.file bytes)).stride here name = .ok s := by
  obtain ⟨-, -, hsame⟩ | ⟨-, rfl, hentry⟩ := stride_cases hs
  · exact hsame _
  · have hplace : place ≠ here ++ [name] := by
      rintro rfl
      obtain hget | ⟨old, hget⟩ := hfree <;> rw [hget] at hgo <;> exact hgo _ rfl
    rw [hentry, get?_put, if_neg hplace]

/-- Whether walks to a place for a file have the place free. -/
def EndsFree (t : FileTree) (place : Place)
    (follow : Place → List String → Except FileError Destination) : Prop :=
  ∀ here names d, follow here names = .ok d → d.AtFile place → t.IsFree place

theorem EndsFree.walkNames {purpose : Purpose} (hfollow : t.EndsFree place follow) :
    t.EndsFree place (t.walkNames purpose follow) := by
  intro here names d h hd
  induction names generalizing here with
  | nil =>
    cases h
    obtain h | ⟨_, h⟩ := hd <;> cases h
  | cons name rest ih =>
    obtain ⟨s, hs, hrest⟩ := exists_stride h
    cases s with
    | inside here' => exact ih here' hrest
    | away here' names => exact hfollow here' (names ++ rest) d hrest hd
    | upon d' =>
      obtain ⟨-, rfl⟩ := Stride.proceed_upon hrest
      exact (eq_of_stride_upon hs hd).2

theorem endsFree_walk {purpose : Purpose} (n : Nat) : t.EndsFree place (t.walk purpose n) := by
  induction n with
  | zero => exact EndsFree.walkNames (fun _ _ _ h => nomatch h)
  | succ n ih => exact ih.walkNames

/-- Whether walks to a free place end at the file that has been put there. -/
def EndsAt (place : Place) (bytes : ByteArray)
    (follow follow' : Place → List String → Except FileError Destination) : Prop :=
  ∀ here names d, follow here names = .ok d → d.AtFile place →
    follow' here names = .ok (.entry place (.file bytes))

theorem EndsAt.walkNames {purpose : Purpose} (hfree : t.IsFree place)
    (hfollow : EndsAt place bytes follow follow') :
    EndsAt place bytes (t.walkNames purpose follow)
      ((t.put place (.file bytes)).walkNames .use follow') := by
  intro here names d h hd
  induction names generalizing here with
  | nil =>
    cases h
    obtain h | ⟨_, h⟩ := hd <;> cases h
  | cons name rest ih =>
    obtain ⟨s, hs, hrest⟩ := exists_stride h
    cases s with
    | inside here' =>
      rw [walkNames_of_stride (stride_put_of_ne_upon hfree hs (fun _ e => nomatch e))]
      exact ih here' hrest
    | away here' names =>
      rw [walkNames_of_stride (stride_put_of_ne_upon hfree hs (fun _ e => nomatch e))]
      exact hfollow here' (names ++ rest) d hrest hd
    | upon d' =>
      obtain ⟨rfl, rfl⟩ := Stride.proceed_upon hrest
      rw [walkNames_of_stride (stride_put_of_upon hs hd)]
      rfl

theorem endsAt_walk {purpose : Purpose} (hfree : t.IsFree place) (n : Nat) :
    EndsAt place bytes (t.walk purpose n) ((t.put place (.file bytes)).walk .use n) := by
  induction n with
  | zero => exact EndsAt.walkNames hfree (fun _ _ _ h => nomatch h)
  | succ n ih => exact ih.walkNames hfree

theorem TakesFile.replace_eq {path : String} (h : t.TakesFile path place) {α : Type}
    (fill : Sink → Sink × α) :
    t.replace path fill = (t.put place (.file (fill {}).1.bytes), .ok (fill {}).2) := by
  obtain ⟨d, hlocate, rfl | ⟨old, rfl⟩⟩ := h
  · rw [replace, hlocate]
  · rw [replace, hlocate]

/-- A file that has been put where a path leads is what is read there. -/
theorem TakesFile.readBytes_put {path : String} (h : t.TakesFile path place) (bytes : ByteArray) :
    (t.put place (.file bytes)).readBytes path = .ok bytes := by
  obtain ⟨d, hlocate, hd⟩ := h
  obtain ⟨hcheck, hwalk⟩ := locate_eq_ok_iff.1 hlocate
  have hfree := endsFree_walk maxLinks _ _ _ hwalk hd
  have hput : (t.put place (.file bytes)).locate .use path = .ok (.entry place (.file bytes)) :=
    locate_eq_ok_iff.2 ⟨hcheck, endsAt_walk hfree maxLinks _ _ _ hwalk hd⟩
  rw [readBytes, hput]
  rfl

end Replaced

end FileTree

end NetProfile
