import Mathlib.Data.List.AList

/-!
This module contains the files of a directory that several processes work on. A name refers to a
file, and a process that has opened a file goes on with that file when the name moves to another one.
-/

theorem AList.lookup_insert_eq_some {names : AList fun _ : String => Nat} {name a : String}
    {file i : Nat} (h : (names.insert name file).lookup a = some i) :
    a = name ∧ i = file ∨ a ≠ name ∧ names.lookup a = some i := by
  by_cases ha : a = name
  . rw [ha, AList.lookup_insert, Option.some.injEq] at h
    exact .inl ⟨ha, h.symm⟩
  . rw [AList.lookup_insert_ne ha] at h
    exact .inr ⟨ha, h⟩

theorem AList.lookup_erase_eq_some {names : AList fun _ : String => Nat} {name a : String} {i : Nat}
    (h : (names.erase name).lookup a = some i) : a ≠ name ∧ names.lookup a = some i := by
  by_cases ha : a = name
  . rw [ha, AList.lookup_erase] at h
    contradiction
  . rw [AList.lookup_erase_ne ha] at h
    exact ⟨ha, h⟩

structure Disk where
  -- which file a name refers to
  names : AList fun _ : String => Nat
  files : List (List UInt8)
  bounded : ∀ name file, names.lookup name = some file → file < files.length
  -- there are no hard links
  separate : ∀ name other file, names.lookup name = some file → names.lookup other = some file →
    name = other

namespace Disk

variable {disk : Disk} {name other dst : String} {file : Nat}

def empty : Disk where
  names := ∅
  files := []
  bounded := by
    intro name file h
    simp at h
  separate := by
    intro name other file h
    simp at h

def contents (disk : Disk) (file : Nat) : List UInt8 :=
  disk.files[file]?.getD []

/--
The bytes of the file that `name` refers to.
-/
def read (disk : Disk) (name : String) : Option (List UInt8) :=
  (disk.names.lookup name).map disk.contents

theorem read_of_lookup (h : disk.names.lookup name = some file) :
    disk.read name = some (disk.contents file) := by
  unfold read
  rw [h]
  rfl

/--
The names with the bytes that they stand for.
-/
def listing (disk : Disk) : AList fun _ : String => List UInt8 where
  entries := disk.names.entries.map (.map id fun _ file => disk.contents file)
  nodupKeys := by
    unfold List.NodupKeys
    rw [List.map₂_keys]
    exact disk.names.nodupKeys

@[simp]
theorem lookup_listing : disk.listing.lookup name = disk.read name :=
  List.dlookup_map₂ name

def setContents (disk : Disk) (file : Nat) (bytes : List UInt8) : Disk where
  names := disk.names
  files := disk.files.set file bytes
  bounded := by
    intro name i h
    rw [List.length_set]
    exact disk.bounded name i h
  separate := disk.separate

@[simp]
theorem names_setContents (bytes : List UInt8) :
    (disk.setContents file bytes).names = disk.names := rfl

theorem contents_setContents_self (bytes : List UInt8) (h : file < disk.files.length) :
    (disk.setContents file bytes).contents file = bytes := by
  simp [contents, setContents, h]

theorem contents_setContents_of_ne {i : Nat} (bytes : List UInt8) (h : i ≠ file) :
    (disk.setContents file bytes).contents i = disk.contents i := by
  simp [contents, setContents, List.getElem?_set_ne (Ne.symm h)]

/--
What is written to a file leaves those of the other names alone.
-/
theorem read_setContents_of_ne (bytes : List UInt8) (h : disk.names.lookup name = some file)
    (hne : other ≠ name) : (disk.setContents file bytes).read other = disk.read other := by
  unfold read
  rw [names_setContents]
  cases hother : disk.names.lookup other with
  | none => rfl
  | some i =>
    have hi : i ≠ file := by
      intro hi
      exact hne (disk.separate other name file (hi ▸ hother) h)
    rw [Option.map_some, Option.map_some, contents_setContents_of_ne bytes hi]

/--
A new file under a name, in place of the one that the name referred to.
-/
def create (disk : Disk) (name : String) : Disk where
  names := disk.names.insert name disk.files.length
  files := disk.files ++ [[]]
  bounded := by
    intro a i h
    rw [List.length_append, List.length_singleton]
    rcases AList.lookup_insert_eq_some h with ⟨_, hi⟩ | ⟨_, ha⟩
    . omega
    . have hbounded := disk.bounded a i ha
      omega
  separate := by
    intro a b i ha hb
    rcases AList.lookup_insert_eq_some ha with ⟨haname, hi⟩ | ⟨_, ha⟩
    . rcases AList.lookup_insert_eq_some hb with ⟨hbname, _⟩ | ⟨_, hb⟩
      . rw [haname, hbname]
      -- the new file has a number that no name refers to yet
      . have hbounded := disk.bounded b i hb
        omega
    . rcases AList.lookup_insert_eq_some hb with ⟨_, hi⟩ | ⟨_, hb⟩
      . have hbounded := disk.bounded a i ha
        omega
      . exact disk.separate a b i ha hb

@[simp]
theorem lookup_create : (disk.create name).names.lookup name = some disk.files.length := by
  simp [create]

@[simp]
theorem contents_create : (disk.create name).contents disk.files.length = [] := by
  simp [create, contents]

theorem read_create_of_ne (hne : other ≠ name) : (disk.create name).read other = disk.read other := by
  unfold read
  rw [create, AList.lookup_insert_ne hne]
  cases hother : disk.names.lookup other with
  | none => rfl
  | some i =>
    rw [Option.map_some, Option.map_some]
    simp [contents, List.getElem?_append_left (disk.bounded other i hother)]

/--
Open a file for writing: an existing one is truncated.
-/
def openTruncate (disk : Disk) (name : String) : Nat × Disk :=
  match disk.names.lookup name with
  | some file => (file, disk.setContents file [])
  | none => (disk.files.length, disk.create name)

theorem lookup_openTruncate :
    (disk.openTruncate name).2.names.lookup name = some (disk.openTruncate name).1 := by
  unfold openTruncate
  cases hfile : disk.names.lookup name with
  | none => exact lookup_create
  | some file => exact hfile

theorem contents_openTruncate :
    (disk.openTruncate name).2.contents (disk.openTruncate name).1 = [] := by
  unfold openTruncate
  cases hfile : disk.names.lookup name with
  | none => exact contents_create
  | some file => exact contents_setContents_self [] (disk.bounded name file hfile)

theorem read_openTruncate_of_ne (hne : other ≠ name) :
    (disk.openTruncate name).2.read other = disk.read other := by
  unfold openTruncate
  cases hfile : disk.names.lookup name with
  | none => exact read_create_of_ne hne
  | some file => exact read_setContents_of_ne [] hfile hne

/--
Open a file for writing that must not be there yet.
-/
def openNew (disk : Disk) (name : String) : Option (Nat × Disk) :=
  match disk.names.lookup name with
  | some _ => none
  | none => some (disk.files.length, disk.create name)

theorem openNew_of_none (h : disk.names.lookup name = none) :
    disk.openNew name = some (disk.files.length, disk.create name) := by
  unfold openNew
  rw [h]

theorem openNew_of_some (h : disk.names.lookup name = some file) : disk.openNew name = none := by
  unfold openNew
  rw [h]

/--
`bytes` over what `old` has from `offset` on; a gap before them is filled with zeros.
-/
def splice (old : List UInt8) (offset : Nat) (bytes : List UInt8) : List UInt8 :=
  (old ++ List.replicate (offset - old.length) 0).take offset ++ bytes ++
    old.drop (offset + bytes.length)

theorem splice_length (old bytes : List UInt8) : splice old old.length bytes = old ++ bytes := by
  unfold splice
  rw [Nat.sub_self, List.replicate_zero, List.append_nil, List.take_length,
    List.drop_eq_nil_of_le (Nat.le_add_right _ _), List.append_nil]

def writeAt (disk : Disk) (file offset : Nat) (bytes : List UInt8) : Disk :=
  disk.setContents file (splice (disk.contents file) offset bytes)

@[simp]
theorem names_writeAt (offset : Nat) (bytes : List UInt8) :
    (disk.writeAt file offset bytes).names = disk.names := rfl

theorem contents_writeAt_end (bytes : List UInt8) (h : disk.names.lookup name = some file) :
    (disk.writeAt file (disk.contents file).length bytes).contents file =
      disk.contents file ++ bytes := by
  unfold writeAt
  rw [contents_setContents_self _ (disk.bounded name file h), splice_length]

/--
A file that has the first bytes of a text gets the next piece of it.
-/
theorem contents_writeAt_take {bytes : List UInt8} {written : Nat} (n : Nat)
    (h : disk.names.lookup name = some file) (hle : written ≤ bytes.length)
    (hcontents : disk.contents file = bytes.take written) :
    let piece := (bytes.drop written).take n
    written + piece.length ≤ bytes.length ∧
      (disk.writeAt file written piece).contents file = bytes.take (written + piece.length) := by
  intro piece
  have hpiece : piece = (bytes.drop written).take piece.length :=
    List.prefix_iff_eq_take.mp (List.take_prefix _ _)
  have hlength : piece.length ≤ bytes.length - written := by
    rw [← List.length_drop]
    exact List.length_take_le' _ _
  have hend : (disk.contents file).length = written := by
    rw [hcontents, List.length_take]
    omega
  have happended := contents_writeAt_end piece h
  rw [hend, hcontents] at happended
  refine ⟨by omega, ?_⟩
  rw [List.take_add, ← hpiece]
  exact happended

theorem read_writeAt_of_ne (offset : Nat) (bytes : List UInt8)
    (h : disk.names.lookup name = some file) (hne : other ≠ name) :
    (disk.writeAt file offset bytes).read other = disk.read other :=
  read_setContents_of_ne _ h hne

/--
At most `n` bytes of a file from `offset` on.
-/
def readAt (disk : Disk) (file offset n : Nat) : List UInt8 :=
  ((disk.contents file).drop offset).take n

/--
A piece read behind a prefix of the file gives a longer prefix.
-/
theorem append_readAt_prefix {bytes : List UInt8} (n : Nat) (h : bytes <+: disk.contents file) :
    bytes ++ disk.readAt file bytes.length n <+: disk.contents file := by
  obtain ⟨rest, hrest⟩ := h
  unfold readAt
  rw [← hrest, List.drop_left]
  exact (List.prefix_append_right_inj bytes).mpr (List.take_prefix n rest)

/--
Nothing more is read only at the end of the file.
-/
theorem eq_contents_of_readAt {bytes : List UInt8} {n : Nat} (h : bytes <+: disk.contents file)
    (hempty : disk.readAt file bytes.length (n + 1) = []) : bytes = disk.contents file := by
  obtain ⟨rest, hrest⟩ := h
  unfold readAt at hempty
  rw [← hrest, List.drop_left, List.take_eq_nil_iff] at hempty
  rcases hempty with hzero | hnil
  . contradiction
  . rw [← hrest, hnil, List.append_nil]

/--
Make `dst` refer to the file of `name`, which refers to none afterwards.
-/
def rename (disk : Disk) (name dst : String) : Option Disk :=
  match h : disk.names.lookup name with
  | none => none
  | some file =>
    some {
      names := (disk.names.erase name).insert dst file
      files := disk.files
      bounded := by
        intro a i ha
        rcases AList.lookup_insert_eq_some ha with ⟨_, hi⟩ | ⟨_, ha⟩
        . exact hi ▸ disk.bounded name file h
        . exact disk.bounded a i (AList.lookup_erase_eq_some ha).2
      separate := by
        intro a b i ha hb
        rcases AList.lookup_insert_eq_some ha with ⟨hadst, hi⟩ | ⟨_, ha⟩
        . rcases AList.lookup_insert_eq_some hb with ⟨hbdst, _⟩ | ⟨_, hb⟩
          . rw [hadst, hbdst]
          . obtain ⟨hbname, hb⟩ := AList.lookup_erase_eq_some hb
            exact absurd (disk.separate b name file (hi ▸ hb) h) hbname
        -- another name of the renamed file would be a hard link
        . obtain ⟨haname, ha⟩ := AList.lookup_erase_eq_some ha
          rcases AList.lookup_insert_eq_some hb with ⟨_, hi⟩ | ⟨_, hb⟩
          . exact absurd (disk.separate a name file (hi ▸ ha) h) haname
          . exact disk.separate a b i ha (AList.lookup_erase_eq_some hb).2 }

theorem rename_eq_none_iff : disk.rename name dst = none ↔ disk.names.lookup name = none := by
  unfold rename
  split
  . next h => simp [h]
  . next file h => simp [h]

theorem rename_eq_some {renamed : Disk} (h : disk.rename name dst = some renamed)
    (hne : name ≠ dst) : renamed.names.lookup name = none ∧ renamed.read dst = disk.read name := by
  unfold rename at h
  split at h
  . contradiction
  . next file hfile =>
    rw [Option.some.injEq] at h
    subst h
    constructor
    . rw [AList.lookup_insert_ne hne, AList.lookup_erase]
    . rw [read_of_lookup hfile]
      exact read_of_lookup (AList.lookup_insert _)

end Disk
