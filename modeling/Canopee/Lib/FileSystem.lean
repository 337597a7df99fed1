import Mathlib.Data.List.AList

/-!
This module contains a tree of directories and files, the paths that lead through it and the calls of
an operating system that read and change its files. There are no links in the tree, and a process
always works in the same directory.
-/

namespace FileSystem

/--
What is at a place of the tree.
-/
inductive Entry where
  | file (bytes : List UInt8)
  | directory
  deriving DecidableEq

/--
The names on the way from the top of the tree, the innermost first.
-/
abbrev Place := List (List Char)

/--
The top of the tree is a directory, whatever the table says.
-/
def entryIn (entries : AList fun _ : Place => Entry) : Place → Option Entry
  | [] => some .directory
  | place => entries.lookup place

/--
Where a component of a path leads from a directory.
-/
def next (place : Place) (component : List Char) : Place :=
  if component = [] ∨ component = ['.'] then
    place
  else if component = ['.', '.'] then
    place.tail
  else
    component :: place

theorem next_of_plain {component : List Char} (place : Place) (hnil : component ≠ [])
    (hdot : component ≠ ['.']) (hdots : component ≠ ['.', '.']) :
    next place component = component :: place := by
  simp [next, hnil, hdot, hdots]

end FileSystem

structure FileSystem where
  entries : AList fun _ : FileSystem.Place => FileSystem.Entry
  -- every entry is in a directory
  closed : ∀ name place, (entries.lookup (name :: place)).isSome →
    FileSystem.entryIn entries place = some .directory
  -- where the process works
  cwd : FileSystem.Place

namespace FileSystem

variable {fs other : FileSystem} {place : Place}

def entry (fs : FileSystem) (place : Place) : Option Entry :=
  entryIn fs.entries place

def isDirectory (fs : FileSystem) (place : Place) : Bool :=
  fs.entry place == some .directory

theorem isDirectory_iff : fs.isDirectory place = true ↔ fs.entry place = some .directory := by
  simp [isDirectory]

/--
A path leads on from directories only.
-/
def walk (fs : FileSystem) (place : Place) : List (List Char) → Option Place
  | [] => some place
  | component :: components =>
    if fs.isDirectory place then walk fs (next place component) components else none

def resolve (fs : FileSystem) (path : List Char) : Option Place :=
  match path with
  | [] => none
  | '/' :: _ => fs.walk [] (path.splitOn '/')
  | _ => fs.walk fs.cwd (path.splitOn '/')

theorem walk_append (components rest : List (List Char)) :
    fs.walk place (components ++ rest) =
      (fs.walk place components).bind fun place => fs.walk place rest := by
  induction components generalizing place with
  | nil => rfl
  | cons component components ih =>
    simp only [List.cons_append, walk]
    split
    . exact ih
    . rfl

/--
A path goes on from where its beginning leads.
-/
theorem resolve_join {root : List Char} (h : fs.resolve root = some place) (rest : List Char) :
    fs.resolve (root ++ '/' :: rest) = fs.walk place (rest.splitOn '/') := by
  cases root with
  | nil => contradiction
  | cons c cs =>
    have hsplit := List.splitOn_append_cons_self (a := '/') (c :: cs) rest
    unfold resolve at h ⊢
    by_cases hc : c = '/'
    . subst hc
      simp only [List.cons_append] at h hsplit ⊢
      rw [hsplit, walk_append, h]
      rfl
    . simp only [List.cons_append] at h hsplit ⊢
      split at h
      . contradiction
      . simp_all
      . split
        . contradiction
        . simp_all
        . rw [hsplit, walk_append, h]
          rfl

theorem splitOn_append {suffix : List Char} (h : '/' ∉ suffix) (path : List Char) :
    ∃ front last, (path ++ suffix).splitOn '/' = front ++ [last ++ suffix] := by
  induction path with
  | nil => exact ⟨[], [], List.splitOn_eq_singleton h⟩
  | cons c cs ih =>
    obtain ⟨front, last, hsplit⟩ := ih
    rw [List.cons_append, List.splitOn_cons_eq_if_modifyHead, hsplit]
    split
    . exact ⟨[] :: front, last, rfl⟩
    . cases front with
      | nil => exact ⟨[], c :: last, rfl⟩
      | cons piece front => exact ⟨(c :: piece) :: front, last, rfl⟩

theorem exists_of_walk_append {components : List (List Char)} {component : List Char} {there : Place}
    (hlength : 2 < component.length) (h : fs.walk place (components ++ [component]) = some there) :
    ∃ parent, there = component :: parent := by
  rw [walk_append, Option.bind_eq_some_iff] at h
  obtain ⟨parent, _, hwalk⟩ := h
  refine ⟨parent, ?_⟩
  have hnext : next parent component = component :: parent := by
    apply next_of_plain <;> intro heq <;> simp [heq] at hlength
  simp only [walk, hnext] at hwalk
  split at hwalk
  . exact (Option.some.inj hwalk).symm
  . contradiction

/--
A path that ends in `suffix` leads to a place with a name that ends in it.
-/
theorem exists_of_resolve_append {path suffix : List Char} (hlength : 2 < suffix.length)
    (hsep : '/' ∉ suffix) (h : fs.resolve (path ++ suffix) = some place) :
    ∃ last parent, place = (last ++ suffix) :: parent := by
  obtain ⟨front, last, hsplit⟩ := splitOn_append hsep path
  have hlast : 2 < (last ++ suffix).length := by
    rw [List.length_append]
    omega
  unfold resolve at h
  split at h
  . contradiction
  . rw [hsplit] at h
    obtain ⟨parent, hparent⟩ := exists_of_walk_append hlast h
    exact ⟨last, parent, hparent⟩
  . rw [hsplit] at h
    obtain ⟨parent, hparent⟩ := exists_of_walk_append hlast h
    exact ⟨last, parent, hparent⟩

/--
The path from a directory to a plain name in it.
-/
theorem walk_plain {name : List Char} (h : fs.isDirectory place = true) (hsep : '/' ∉ name)
    (hnil : name ≠ []) (hdot : name ≠ ['.']) (hdots : name ≠ ['.', '.']) :
    fs.walk place (name.splitOn '/') = some (name :: place) := by
  rw [List.splitOn_eq_singleton hsep, walk, if_pos h, next_of_plain place hnil hdot hdots]
  rfl

/--
The file at `place` is written anew.
-/
def insertFile (fs : FileSystem) (place : Place) (bytes : List UInt8)
    (h : fs.isDirectory place.tail = true ∧ fs.isDirectory place = false) : FileSystem where
  entries := fs.entries.insert place (.file bytes)
  cwd := fs.cwd
  closed := by
    intro name parent hsome
    have hparent : fs.entry parent = some .directory := by
      by_cases hplace : name :: parent = place
      . rw [← isDirectory_iff]
        rw [← hplace] at h
        exact h.1
      . rw [AList.lookup_insert_ne hplace] at hsome
        exact fs.closed name parent hsome
    cases parent with
    | nil => rfl
    | cons inner outer =>
      have hne : inner :: outer ≠ place := by
        intro heq
        rw [heq, ← isDirectory_iff, h.2] at hparent
        contradiction
      rw [entryIn, AList.lookup_insert_ne hne]
      . exact hparent
      . simp

/--
The file at `place` is removed, if there is one.
-/
def eraseFile (fs : FileSystem) (place : Place) (h : fs.isDirectory place = false) : FileSystem where
  entries := fs.entries.erase place
  cwd := fs.cwd
  closed := by
    intro name parent hsome
    have hold : (fs.entries.lookup (name :: parent)).isSome = true := by
      by_cases hplace : name :: parent = place
      . rw [hplace, AList.lookup_erase] at hsome
        contradiction
      . rwa [AList.lookup_erase_ne hplace] at hsome
    have hparent : fs.entry parent = some .directory := fs.closed name parent hold
    cases parent with
    | nil => rfl
    | cons inner outer =>
      have hne : inner :: outer ≠ place := by
        intro heq
        rw [heq, ← isDirectory_iff, h] at hparent
        contradiction
      rw [entryIn, AList.lookup_erase_ne hne]
      . exact hparent
      . simp

theorem ne_nil_of_not_directory (h : fs.isDirectory place = false) : place ≠ [] := by
  intro hnil
  subst hnil
  contradiction

theorem entry_insertFile_self {bytes : List UInt8}
    (h : fs.isDirectory place.tail = true ∧ fs.isDirectory place = false) :
    (fs.insertFile place bytes h).entry place = some (.file bytes) := by
  cases place with
  | nil => exact absurd rfl (ne_nil_of_not_directory h.2)
  | cons name parent => exact AList.lookup_insert fs.entries

theorem entry_insertFile_of_ne {bytes : List UInt8} {there : Place}
    (h : fs.isDirectory place.tail = true ∧ fs.isDirectory place = false) (hne : there ≠ place) :
    (fs.insertFile place bytes h).entry there = fs.entry there := by
  cases there with
  | nil => rfl
  | cons name parent => exact AList.lookup_insert_ne hne

theorem entry_eraseFile_self (h : fs.isDirectory place = false) :
    (fs.eraseFile place h).entry place = none := by
  cases place with
  | nil => exact absurd rfl (ne_nil_of_not_directory h)
  | cons name parent => exact AList.lookup_erase _ fs.entries

theorem entry_eraseFile_of_ne {there : Place} (h : fs.isDirectory place = false) (hne : there ≠ place) :
    (fs.eraseFile place h).entry there = fs.entry there := by
  cases there with
  | nil => rfl
  | cons name parent => exact AList.lookup_erase_ne hne

/--
The two trees have the same directories, so that every path leads to the same place in both.
-/
structure SameDirectories (fs other : FileSystem) : Prop where
  isDirectory : ∀ place, fs.isDirectory place = other.isDirectory place
  cwd : fs.cwd = other.cwd

namespace SameDirectories

variable {third : FileSystem}

theorem refl (fs : FileSystem) : SameDirectories fs fs where
  isDirectory _ := rfl
  cwd := rfl

theorem trans (h : SameDirectories fs other) (h' : SameDirectories other third) :
    SameDirectories fs third where
  isDirectory place := (h.isDirectory place).trans (h'.isDirectory place)
  cwd := h.cwd.trans h'.cwd

theorem walk (h : SameDirectories fs other) (components : List (List Char)) :
    fs.walk place components = other.walk place components := by
  induction components generalizing place with
  | nil => rfl
  | cons component components ih =>
    unfold FileSystem.walk
    rw [h.isDirectory place, ih]

theorem resolve (h : SameDirectories fs other) (path : List Char) :
    fs.resolve path = other.resolve path := by
  unfold FileSystem.resolve
  split
  . rfl
  . exact h.walk _
  . rw [h.cwd]
    exact h.walk _

end SameDirectories

/--
`other` is `fs` with the entry at `place` replaced; neither that entry nor the new one is a directory.
-/
structure Replaced (fs other : FileSystem) (place : Place) (new : Option Entry) : Prop where
  here : other.entry place = new
  elsewhere : ∀ there, there ≠ place → other.entry there = fs.entry there
  sameDirectories : SameDirectories other fs

theorem replaced_insertFile {bytes : List UInt8}
    (h : fs.isDirectory place.tail = true ∧ fs.isDirectory place = false) :
    Replaced fs (fs.insertFile place bytes h) place (some (.file bytes)) where
  here := entry_insertFile_self h
  elsewhere _ := entry_insertFile_of_ne h
  sameDirectories := by
    constructor
    . intro there
      by_cases hthere : there = place
      . rw [hthere, h.2]
        simp [isDirectory, entry_insertFile_self h]
      . unfold isDirectory
        rw [entry_insertFile_of_ne h hthere]
    . rfl

theorem replaced_eraseFile (h : fs.isDirectory place = false) :
    Replaced fs (fs.eraseFile place h) place none where
  here := entry_eraseFile_self h
  elsewhere _ := entry_eraseFile_of_ne h
  sameDirectories := by
    constructor
    . intro there
      by_cases hthere : there = place
      . rw [hthere, h]
        simp [isDirectory, entry_eraseFile_self h]
      . unfold isDirectory
        rw [entry_eraseFile_of_ne h hthere]
    . rfl

section Calls

/--
`fs::read`
-/
def read (fs : FileSystem) (path : List Char) : Except String (List UInt8) :=
  match fs.resolve path with
  | none => .error "No such file or directory"
  | some place =>
    match fs.entry place with
    | none => .error "No such file or directory"
    | some .directory => .error "Is a directory"
    | some (.file bytes) => .ok bytes

/--
`fs::try_exists(path).unwrap_or(false)`
-/
def tryExists (fs : FileSystem) (path : List Char) : Bool :=
  match fs.resolve path with
  | none => false
  | some place => (fs.entry place).isSome

/--
`fs::write`
-/
def write (fs : FileSystem) (path : List Char) (bytes : List UInt8) : Except String FileSystem :=
  match fs.resolve path with
  | none => .error "No such file or directory"
  | some place =>
    if h : fs.isDirectory place.tail = true ∧ fs.isDirectory place = false then
      .ok (fs.insertFile place bytes h)
    else
      .error "Is a directory"

/--
`fs::remove_file`
-/
def removeFile (fs : FileSystem) (path : List Char) : Except String FileSystem :=
  match fs.resolve path with
  | none => .error "No such file or directory"
  | some place =>
    if (fs.entry place).isNone then
      .error "No such file or directory"
    else if h : fs.isDirectory place = false then
      .ok (fs.eraseFile place h)
    else
      .error "Is a directory"

/--
`fs::rename` of a file
-/
def rename (fs : FileSystem) (src dst : List Char) : Except String FileSystem := do
  let bytes ← fs.read src
  let fs ← fs.removeFile src
  fs.write dst bytes

/--
The names in the directory that a path leads to, as `fs::read_dir` yields them.
-/
def readDir (fs : FileSystem) (path : List Char) : Except String (List (List Char)) :=
  match fs.resolve path with
  | none => .error "No such file or directory"
  | some place =>
    if fs.isDirectory place then
      .ok (fs.entries.keys.filterMap fun there =>
        match there with
        | [] => none
        | name :: parent => if parent = place then some name else none)
    else
      .error "Not a directory"

variable {path : List Char} {bytes : List UInt8}

theorem read_eq_ok_iff : fs.read path = .ok bytes ↔
    ∃ place, fs.resolve path = some place ∧ fs.entry place = some (.file bytes) := by
  unfold read
  cases fs.resolve path with
  | none => simp
  | some place =>
    cases hentry : fs.entry place with
    | none => simp [hentry]
    | some entry => cases entry <;> simp [hentry]

theorem tryExists_of_resolve (h : fs.resolve path = some place) :
    fs.tryExists path = (fs.entry place).isSome := by
  unfold tryExists
  rw [h]

theorem write_spec (bytes : List UInt8) (hpath : fs.resolve path = some place)
    (hparent : fs.isDirectory place.tail = true) (h : fs.isDirectory place = false) :
    ∃ other, fs.write path bytes = .ok other ∧ Replaced fs other place (some (.file bytes)) := by
  unfold write
  rw [hpath]
  simp only
  rw [dif_pos ⟨hparent, h⟩]
  exact ⟨_, rfl, replaced_insertFile _⟩

theorem removeFile_spec (hpath : fs.resolve path = some place)
    (hentry : fs.entry place = some (.file bytes)) :
    ∃ other, fs.removeFile path = .ok other ∧ Replaced fs other place none := by
  have h : fs.isDirectory place = false := by
    simp [isDirectory, hentry]
  unfold removeFile
  rw [hpath]
  simp only [hentry, Option.isNone_some, Bool.false_eq_true, if_false]
  rw [dif_pos h]
  exact ⟨_, rfl, replaced_eraseFile h⟩

/--
What a call of `remove_file` that fails leaves is the tree as it was; one that succeeds has removed a
file.
-/
theorem removeFile_eq_ok (h : fs.removeFile path = .ok other) :
    ∃ place, fs.resolve path = some place ∧ Replaced fs other place none := by
  unfold removeFile at h
  cases hpath : fs.resolve path with
  | none => simp [hpath] at h
  | some place =>
    simp only [hpath] at h
    split at h
    . contradiction
    . split at h
      . next hplace =>
        rw [Except.ok.injEq] at h
        rw [← h]
        exact ⟨place, rfl, replaced_eraseFile hplace⟩
      . contradiction

theorem rename_spec {src dst : List Char} {there : Place} (hsrc : fs.resolve src = some place)
    (hentry : fs.entry place = some (.file bytes)) (hdst : fs.resolve dst = some there)
    (hparent : fs.isDirectory there.tail = true) (h : fs.isDirectory there = false) :
    ∃ middle other, fs.rename src dst = .ok other ∧ Replaced fs middle place none ∧
      Replaced middle other there (some (.file bytes)) := by
  obtain ⟨middle, hremove, hmiddle⟩ := removeFile_spec hsrc hentry
  have hsame := hmiddle.sameDirectories
  obtain ⟨other, hwrite, hother⟩ := write_spec bytes ((hsame.resolve dst).trans hdst)
    ((hsame.isDirectory there.tail).trans hparent) ((hsame.isDirectory there).trans h)
  refine ⟨middle, other, ?_, hmiddle, hother⟩
  unfold rename
  rw [read_eq_ok_iff.mpr ⟨place, hsrc, hentry⟩]
  show (fs.removeFile src >>= fun fs => fs.write dst bytes) = .ok other
  rw [hremove]
  exact hwrite

theorem exists_readDir (hpath : fs.resolve path = some place) (h : fs.isDirectory place = true) :
    ∃ names, fs.readDir path = .ok names := by
  unfold readDir
  rw [hpath]
  simp only
  rw [if_pos h]
  exact ⟨_, rfl⟩

theorem mem_readDir {names : List (List Char)} (hpath : fs.resolve path = some place)
    (h : fs.readDir path = .ok names) (name : List Char) :
    name ∈ names ↔ (fs.entry (name :: place)).isSome = true := by
  unfold readDir at h
  rw [hpath] at h
  simp only at h
  split at h
  . rw [Except.ok.injEq] at h
    rw [← h, List.mem_filterMap]
    show _ ↔ (fs.entries.lookup (name :: place)).isSome = true
    rw [AList.lookup_isSome, AList.mem_keys]
    constructor
    . intro ⟨there, hmem, hthere⟩
      cases there with
      | nil => contradiction
      | cons inner parent =>
        simp only [Option.ite_none_right_eq_some, Option.some.injEq] at hthere
        rw [hthere.1, hthere.2] at hmem
        exact hmem
    . intro hmem
      exact ⟨name :: place, hmem, by simp⟩
  . contradiction

theorem nodup_readDir {names : List (List Char)} (h : fs.readDir path = .ok names) :
    names.Nodup := by
  unfold readDir at h
  split at h
  . contradiction
  . split at h
    . rw [Except.ok.injEq] at h
      rw [← h]
      apply List.Nodup.filterMap
      . intro a b name ha hb
        cases a <;> cases b <;> simp_all
      . exact AList.keys_nodup fs.entries
    . contradiction

end Calls

end FileSystem
