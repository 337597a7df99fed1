import Canopee.Lib.Run
import Canopee.Storage.Directory

/-!
This module contains the object store as a map from ids to valid objects: what the calls on its
directory leave for the readers.
-/

namespace Canopee

open Primitives

namespace Directory

variable {storage : Directory} {fs fs' : FileSystem} {home : FileSystem.Place} {id : ObjectId}
variable {objects : Storage}

/--
The root of the store is the directory `home`, and there are no directories in it.
-/
structure Opened (storage : Directory) (fs : FileSystem) (home : FileSystem.Place) : Prop where
  resolve : fs.resolve storage.root.toList = some home
  isDirectory : fs.isDirectory home = true
  flat : ∀ name, fs.isDirectory (name :: home) = false

theorem Opened.of_same (h : Opened storage fs home) (hsame : fs'.SameDirectories fs) :
    Opened storage fs' home where
  resolve := (hsame.resolve _).trans h.resolve
  isDirectory := (hsame.isDirectory home).trans h.isDirectory
  flat name := (hsame.isDirectory _).trans (h.flat name)

/--
The text can be the name of a file.
-/
structure Plain (name : List Char) : Prop where
  separator : '/' ∉ name
  nonempty : name ≠ []
  dot : name ≠ ['.']
  dots : name ≠ ['.', '.']

theorem Opened.resolve_plain (h : Opened storage fs home) {name : List Char} (hname : Plain name) :
    fs.resolve (storage.root.toList ++ '/' :: name) = some (name :: home) := by
  rw [FileSystem.resolve_join h.resolve]
  exact FileSystem.walk_plain h.isDirectory hname.separator hname.nonempty hname.dot hname.dots

/--
What every id of an object is: a text without separators and without dots.
-/
structure Digest (id : ObjectId) : Prop where
  nonempty : id.text.toList ≠ []
  chars : ∀ c ∈ id.text.toList, c ≠ '/' ∧ c ≠ '.'

theorem Digest.plain (h : Digest id) : Plain id.text.toList where
  separator hmem := (h.chars _ hmem).1 rfl
  nonempty := h.nonempty
  dot heq := (h.chars '.' (by simp [heq])).2 rfl
  dots heq := (h.chars '.' (by simp [heq])).2 rfl

theorem Digest.head (h : Digest id) : id.text.toList.head? ≠ some '.' := by
  intro hhead
  exact (h.chars '.' (List.mem_of_head? hhead)).2 rfl

theorem toList_tmp (id : ObjectId) :
    id.tmp.toList = '.' :: (id.text.toList ++ ".canopee-tmp".toList) := by
  simp [ObjectId.tmp]

theorem Digest.plain_tmp (h : Digest id) : Plain id.tmp.toList := by
  rw [toList_tmp]
  refine ⟨?_, by simp, ?_, ?_⟩
  rotate_left
  . intro heq
    have hlength := congrArg List.length heq
    simp at hlength
  . intro heq
    have hlength := congrArg List.length heq
    simp at hlength
  simp only [List.mem_cons, List.mem_append, not_or]
  exact ⟨by decide, h.plain.separator, by decide⟩

theorem toList_name (id : ObjectId) : ("." ++ id.text ++ ".name").toList =
    ('.' :: id.text.toList) ++ ".name".toList := by
  simp

theorem ne_of_resolve_namePath {place : FileSystem.Place}
    (h : fs.resolve (storage.namePath id) = some place) {name : List Char}
    (hname : '.' ∉ name) : place ≠ name :: home := by
  have hpath : ∃ path, storage.namePath id = path ++ ".name".toList := by
    unfold namePath join
    rw [toList_name]
    split
    . exact ⟨_, rfl⟩
    . exact ⟨_, (List.append_assoc ..).symm⟩
    . exact ⟨storage.root.toList ++ '/' :: '.' :: id.text.toList, by simp⟩
  obtain ⟨path, hpath⟩ := hpath
  rw [hpath] at h
  obtain ⟨last, parent, hplace⟩ := FileSystem.exists_of_resolve_append (by decide) (by decide) h
  intro heq
  rw [hplace, List.cons.injEq] at heq
  apply hname
  rw [← heq.1]
  simp

/--
Apart from the hidden files, the directory `home` has the files of the object store.
-/
def Shows (fs : FileSystem) (home : FileSystem.Place) (objects : Storage) : Prop :=
  ∀ name : List Char, name.head? ≠ some '.' →
    fs.entry (name :: home) = (objects.files.lookup (String.ofList name)).map .file

theorem Shows.entry_of_digest (h : Shows fs home objects) (hid : Digest id) :
    fs.entry (id.text.toList :: home) = (objects.files.lookup id.text).map .file := by
  rw [h _ hid.head, String.ofList_toList]

theorem Shows.read (h : Shows fs home objects) (hopen : Opened storage fs home) (hid : Digest id)
    (bytes : Bytes) :
    fs.read (storage.path id) = .ok bytes ↔ objects.files.lookup id.text = some bytes := by
  rw [FileSystem.read_eq_ok_iff, path, hopen.resolve_plain hid.plain]
  simp only [Option.some.injEq, exists_eq_left']
  rw [h.entry_of_digest hid]
  simp

theorem removeIfExists_cases (path : List Char) (fs : FileSystem) :
    (removeIfExists path fs).2 = fs ∨
      ∃ place, fs.resolve path = some place ∧
        fs.Replaced (removeIfExists path fs).2 place none := by
  unfold removeIfExists
  split
  . cases hremove : fs.removeFile path with
    | error e => exact .inl rfl
    | ok fs' => exact .inr (FileSystem.removeFile_eq_ok hremove)
  . exact .inl rfl

theorem sameDirectories_removeIfExists (path : List Char) (fs : FileSystem) :
    (removeIfExists path fs).2.SameDirectories fs := by
  cases removeIfExists_cases path fs with
  | inl hsame =>
    rw [hsame]
    exact .refl fs
  | inr hremoved =>
    obtain ⟨_, _, hreplaced⟩ := hremoved
    exact hreplaced.sameDirectories

theorem removeIfExists_absent {path : List Char} {place : FileSystem.Place}
    (hpath : fs.resolve path = some place) (h : fs.isDirectory place = false) :
    (removeIfExists path fs).1 = .ok () ∧ (removeIfExists path fs).2.entry place = none := by
  unfold removeIfExists
  rw [FileSystem.tryExists_of_resolve hpath]
  cases hentry : fs.entry place with
  | none => exact ⟨rfl, hentry⟩
  | some entry =>
    cases entry with
    | directory =>
      rw [← FileSystem.isDirectory_iff, h] at hentry
      contradiction
    | file bytes =>
      obtain ⟨fs', hremove, hreplaced⟩ := FileSystem.removeFile_spec hpath hentry
      simp only [Option.isSome_some, if_true, hremove, true_and]
      exact hreplaced.here

theorem lookup_erase_eq_some {name : String} {bytes : Bytes}
    (h : (objects.erase id).files.lookup name = some bytes) :
    name ≠ id.text ∧ objects.files.lookup name = some bytes := by
  by_cases hname : name = id.text
  . rw [hname, Storage.erase, AList.lookup_erase] at h
    contradiction
  . rw [Storage.erase, AList.lookup_erase_ne hname] at h
    exact ⟨hname, h⟩

theorem Shows.of_replaced_tmp {new : Option FileSystem.Entry} (h : Shows fs home objects)
    (hreplaced : fs.Replaced fs' (id.tmp.toList :: home) new) : Shows fs' home objects := by
  intro name hname
  rw [hreplaced.elsewhere]
  . exact h name hname
  . intro heq
    rw [List.cons.injEq] at heq
    apply hname
    rw [heq.1, toList_tmp]
    rfl

theorem Shows.write {object : Object} (h : Shows fs home objects)
    (hreplaced : fs.Replaced fs' (object.id.text.toList :: home)
      (some (.file (Object.codec.serialize object)))) :
    Shows fs' home (objects.write object) := by
  intro name hname
  by_cases heq : name = object.id.text.toList
  . rw [heq, hreplaced.here, String.ofList_toList, Storage.write, AList.lookup_insert]
    rfl
  . have htext : String.ofList name ≠ object.id.text := by
      intro htext
      apply heq
      rw [← htext, String.toList_ofList]
    rw [hreplaced.elsewhere _ (by simp [heq]), Storage.write, AList.lookup_insert_ne htext]
    exact h name hname

section Files

variable [Primitives] {object : Object}

theorem digest_of_verify (digest : ∀ data, (sha256 data).length = 32) (h : object.verify = true) :
    Digest object.id := by
  rw [Object.id_of_verify h]
  obtain ⟨hnonempty, hchars⟩ := digestHex_spec digest (ObjectPayload.codec.serialize object.payload)
  exact ⟨hnonempty, hchars⟩

theorem getVerified_eq_ok : storage.getVerified fs id = .ok object ↔
    ∃ bytes, fs.read (storage.path id) = .ok bytes ∧
      Object.codec.deserialize bytes = some object ∧ object.id = id ∧ object.verify = true := by
  unfold getVerified
  cases hread : fs.read (storage.path id) with
  | error e => simp
  | ok bytes =>
    cases hdecode : Object.codec.deserialize bytes with
    | none => simp [hdecode]
    | some o =>
      simp only [Except.ok.injEq, exists_eq_left', hdecode, Option.some.injEq]
      constructor
      . intro h
        split at h
        . contradiction
        . next hid =>
          split at h
          . contradiction
          . next hverify =>
            rw [Except.ok.injEq] at h
            subst h
            simp at hid hverify
            exact ⟨rfl, hid, hverify⟩
      . intro ⟨ho, hid, hverify⟩
        subst ho
        simp [hid, hverify]

theorem Shows.getVerified (digest : ∀ data, (sha256 data).length = 32)
    (h : Shows fs home objects) (hopen : Opened storage fs home) :
    storage.getVerified fs id = .ok object ↔ objects.getVerified id = .ok object := by
  rw [getVerified_eq_ok, Storage.getVerified_eq_ok]
  constructor
  . intro ⟨bytes, hread, hdecode, hid, hverify⟩
    have hdigest : Digest id := by
      rw [← hid]
      exact digest_of_verify digest hverify
    exact ⟨bytes, (h.read hopen hdigest bytes).mp hread, hdecode, hid, hverify⟩
  . intro ⟨bytes, hlookup, hdecode, hid, hverify⟩
    have hdigest : Digest id := by
      rw [← hid]
      exact digest_of_verify digest hverify
    exact ⟨bytes, (h.read hopen hdigest bytes).mpr hlookup, hdecode, hid, hverify⟩

/--
Every file of the store holds a valid object under its own id.
-/
def Sound (objects : Storage) : Prop :=
  ∀ name bytes, objects.files.lookup name = some bytes →
    ∃ object : Object, object.id.text = name ∧ object.verify = true ∧
      bytes = Object.codec.serialize object

theorem Sound.digest (digest : ∀ data, (sha256 data).length = 32) (h : Sound objects)
    {bytes : Bytes} (hlookup : objects.files.lookup id.text = some bytes) : Digest id := by
  obtain ⟨object, hid, hverify, _⟩ := h _ _ hlookup
  rw [ObjectId.text_inj] at hid
  rw [← hid]
  exact digest_of_verify digest hverify

theorem Sound.write (h : Sound objects) (hverify : object.verify = true) :
    Sound (objects.write object) := by
  intro name bytes hlookup
  by_cases hname : name = object.id.text
  . rw [hname, Storage.write, AList.lookup_insert, Option.some.injEq] at hlookup
    exact ⟨object, hname.symm, hverify, hlookup.symm⟩
  . rw [Storage.write, AList.lookup_insert_ne hname] at hlookup
    exact h name bytes hlookup

theorem Sound.erase (h : Sound objects) (id : ObjectId) : Sound (objects.erase id) := by
  intro name bytes hlookup
  exact h name bytes (lookup_erase_eq_some hlookup).2

theorem Shows.putVerified (digest : ∀ data, (sha256 data).length = 32)
    (h : Shows fs home objects) (hopen : Opened storage fs home) (hverify : object.verify = true) :
    ∃ fs', storage.putVerified object none fs = (.ok (), fs') ∧ fs'.SameDirectories fs ∧
      Shows fs' home (objects.write object) := by
  have hid := digest_of_verify digest hverify
  have htmp := hopen.resolve_plain hid.plain_tmp
  obtain ⟨written, hwrite, hwritten⟩ := FileSystem.write_spec (Object.codec.serialize object) htmp
    hopen.isDirectory (hopen.flat _)
  have hopened := hopen.of_same hwritten.sameDirectories
  obtain ⟨middle, renamed, hrename, hmiddle, hrenamed⟩ := FileSystem.rename_spec
    (hopened.resolve_plain hid.plain_tmp) hwritten.here (hopened.resolve_plain hid.plain)
    hopened.isDirectory (hopened.flat _)
  refine ⟨renamed, ?_, ?_, ?_⟩
  . simp only [Directory.putVerified, hverify, Bool.not_true, Bool.false_eq_true, if_false]
    rw [tmpPath, hwrite]
    simp only
    rw [path, hrename]
  . exact (hrenamed.sameDirectories.trans hmiddle.sameDirectories).trans hwritten.sameDirectories
  . exact ((h.of_replaced_tmp hwritten).of_replaced_tmp hmiddle).write hrenamed

theorem Shows.putVerified_fault (digest : ∀ data, (sha256 data).length = 32)
    (h : Shows fs home objects) (hopen : Opened storage fs home) (hverify : object.verify = true)
    (n : Nat) :
    ∃ e fs', storage.putVerified object (some n) fs = (.error e, fs') ∧ fs'.SameDirectories fs ∧
      Shows fs' home objects := by
  have hid := digest_of_verify digest hverify
  have htmp := hopen.resolve_plain hid.plain_tmp
  obtain ⟨written, hwrite, hwritten⟩ := FileSystem.write_spec
    ((Object.codec.serialize object).take n) htmp hopen.isDirectory (hopen.flat _)
  refine ⟨"No space left on device", written, ?_, hwritten.sameDirectories, h.of_replaced_tmp hwritten⟩
  simp only [Directory.putVerified, hverify, Bool.not_true, Bool.false_eq_true, if_false]
  rw [tmpPath, hwrite]

/--
The path of the id leads to the file of no object of the store but its own.
-/
def Unaliased (storage : Directory) (fs : FileSystem) (id : ObjectId) : Prop :=
  ∀ other object, storage.getVerified fs other = .ok object →
    fs.resolve (storage.path id) = fs.resolve (storage.path other) → other = id

/--
What the removal of the object's own file leaves, if there is one.
-/
theorem Shows.removeIfExists (digest : ∀ data, (sha256 data).length = 32)
    (h : Shows fs home objects) (hopen : Opened storage fs home) (hsound : Sound objects)
    (hunaliased : Unaliased storage fs id) :
    Shows (removeIfExists (storage.path id) fs).2 home (objects.erase id) := by
  have hown : ∀ bytes, objects.files.lookup id.text = some bytes →
      (Directory.removeIfExists (storage.path id) fs).2.entry (id.text.toList :: home) = none := by
    intro bytes hlookup
    have hpath := hopen.resolve_plain (hsound.digest digest hlookup).plain
    exact (removeIfExists_absent hpath (hopen.flat _)).2
  have hothers : ∀ other : ObjectId, other ≠ id → ∀ bytes,
      objects.files.lookup other.text = some bytes →
      fs.resolve (storage.path id) ≠ some (other.text.toList :: home) := by
    intro other hne bytes hlookup hpath
    obtain ⟨object, hobject, hverify, hbytes⟩ := hsound _ _ hlookup
    rw [ObjectId.text_inj] at hobject
    have hother := hopen.resolve_plain (hsound.digest digest hlookup).plain
    apply hne
    apply hunaliased other object
    . rw [h.getVerified digest hopen, Storage.getVerified_eq_ok]
      rw [hbytes] at hlookup
      exact ⟨_, hlookup, Codec.deserialize_serialize _ _, hobject, hverify⟩
    . exact hpath.trans hother.symm
  have hlookup : ∀ name : List Char, name ≠ id.text.toList →
      (objects.erase id).files.lookup (String.ofList name) =
        objects.files.lookup (String.ofList name) := by
    intro name hname
    apply AList.lookup_erase_ne
    intro htext
    apply hname
    rw [← htext, String.toList_ofList]
  cases removeIfExists_cases (storage.path id) fs with
  | inl hsame =>
    rw [hsame] at hown ⊢
    intro name hname
    by_cases heq : name = id.text.toList
    . rw [heq, String.ofList_toList, Storage.erase, AList.lookup_erase]
      cases hfile : objects.files.lookup id.text with
      | some bytes => exact hown bytes hfile
      | none =>
        rw [heq] at hname
        rw [h _ hname, String.ofList_toList, hfile]
    . rw [hlookup name heq]
      exact h name hname
  | inr hremoved =>
    obtain ⟨place, hpath, hreplaced⟩ := hremoved
    intro name hname
    by_cases heq : name = id.text.toList
    . rw [heq, String.ofList_toList, Storage.erase, AList.lookup_erase]
      cases hfile : objects.files.lookup id.text with
      | some bytes => exact hown bytes hfile
      | none =>
        by_cases hplace : id.text.toList :: home = place
        . rw [hplace]
          exact hreplaced.here
        . rw [heq] at hname
          rw [hreplaced.elsewhere _ hplace, h _ hname, String.ofList_toList, hfile]
    . rw [hlookup name heq]
      by_cases hplace : name :: home = place
      . rw [hplace, hreplaced.here]
        cases hfile : objects.files.lookup (String.ofList name) with
        | none => rfl
        | some bytes =>
          have hne : (⟨String.ofList name⟩ : ObjectId) ≠ id := by
            intro hid
            apply heq
            rw [← hid, String.toList_ofList]
          rw [← hplace, ← String.toList_ofList (l := name)] at hpath
          exact absurd hpath (hothers ⟨String.ofList name⟩ hne bytes hfile)
      . rw [hreplaced.elsewhere _ hplace]
        exact h name hname

theorem Shows.removeIfExists_namePath (digest : ∀ data, (sha256 data).length = 32)
    (h : Shows fs home objects) (hsound : Sound objects) (id : ObjectId) :
    Shows (Directory.removeIfExists (storage.namePath id) fs).2 home objects := by
  cases removeIfExists_cases (storage.namePath id) fs with
  | inl hsame =>
    rw [hsame]
    exact h
  | inr hremoved =>
    obtain ⟨place, hpath, hreplaced⟩ := hremoved
    intro name hname
    by_cases hplace : name :: home = place
    . rw [hplace, hreplaced.here]
      cases hfile : objects.files.lookup (String.ofList name) with
      | none => rfl
      | some bytes =>
        have hdigest : Digest ⟨String.ofList name⟩ := hsound.digest digest hfile
        have hdot : '.' ∉ name := by
          intro hmem
          rw [← String.toList_ofList (l := name)] at hmem
          exact (hdigest.chars '.' hmem).2 rfl
        exact absurd hplace.symm (ne_of_resolve_namePath hpath hdot)
    . rw [hreplaced.elsewhere _ hplace]
      exact h name hname

theorem Shows.delete (digest : ∀ data, (sha256 data).length = 32)
    (h : Shows fs home objects) (hopen : Opened storage fs home) (hsound : Sound objects)
    (hunaliased : Unaliased storage fs id) :
    (storage.delete id fs).2.SameDirectories fs ∧
      Shows (storage.delete id fs).2 home (objects.erase id) := by
  have hsame := sameDirectories_removeIfExists (storage.path id) fs
  have hremoved := h.removeIfExists digest hopen hsound hunaliased
  unfold Directory.delete
  rcases hremove : Directory.removeIfExists (storage.path id) fs with ⟨result, middle⟩
  rw [hremove] at hsame hremoved
  cases result with
  | error e => exact ⟨hsame, hremoved⟩
  | ok done =>
    have hnamed := sameDirectories_removeIfExists (storage.namePath id) middle
    exact ⟨hnamed.trans hsame, hremoved.removeIfExists_namePath digest (hsound.erase id) id⟩

/--
Deleting an id of which the path leads to the file of another object removes that object.
-/
theorem not_getVerified_delete {other : ObjectId} (hopen : Opened storage fs home)
    (hother : Digest other)
    (halias : fs.resolve (storage.path id) = fs.resolve (storage.path other)) :
    ¬ storage.getVerified (storage.delete id fs).2 other = .ok object := by
  have hpath := hopen.resolve_plain hother.plain
  have hid := halias.trans hpath
  obtain ⟨hresult, habsent⟩ := removeIfExists_absent hid (hopen.flat _)
  have hmiddle := sameDirectories_removeIfExists (storage.path id) fs
  rcases hremove : Directory.removeIfExists (storage.path id) fs with ⟨result, middle⟩
  rw [hremove] at hresult habsent hmiddle
  subst hresult
  have hdelete : storage.delete id fs =
      Directory.removeIfExists (storage.namePath id) middle := by
    unfold Directory.delete
    rw [hremove]
  rw [hdelete, getVerified_eq_ok]
  intro ⟨bytes, hread, _⟩
  rw [FileSystem.read_eq_ok_iff] at hread
  obtain ⟨place, hplace, hentry⟩ := hread
  cases removeIfExists_cases (storage.namePath id) middle with
  | inl hsame =>
    rw [hsame] at hplace hentry
    rw [hmiddle.resolve, path, hpath, Option.some.injEq] at hplace
    rw [← hplace, habsent] at hentry
    contradiction
  | inr hremoved =>
    obtain ⟨named, _, hreplaced⟩ := hremoved
    rw [hreplaced.sameDirectories.resolve, hmiddle.resolve, path, hpath,
      Option.some.injEq] at hplace
    by_cases hnamed : place = named
    . rw [hnamed, hreplaced.here] at hentry
      contradiction
    . rw [hreplaced.elsewhere place hnamed, ← hplace, habsent] at hentry
      contradiction

theorem Shows.list (digest : ∀ data, (sha256 data).length = 32) (h : Shows fs home objects)
    (hopen : Opened storage fs home) (hsound : Sound objects) :
    ∃ ids, storage.list fs = .ok ids ∧ ids.Nodup ∧
      ∀ id, id ∈ ids ↔ (objects.files.lookup id.text).isSome = true := by
  obtain ⟨names, hnames⟩ := FileSystem.exists_readDir hopen.resolve hopen.isDirectory
  have hlist : storage.list fs = .ok ((names.filter (·.head? ≠ some '.')).map fun name =>
      ⟨String.ofList name⟩) := by
    unfold Directory.list
    rw [hnames]
  refine ⟨_, hlist, ?_, ?_⟩
  . apply List.Nodup.map
    . intro a b hab
      simpa [String.ofList_inj] using hab
    . exact (FileSystem.nodup_readDir hnames).filter _
  . intro id
    simp only [List.mem_map, List.mem_filter, decide_eq_true_eq]
    constructor
    . intro ⟨name, ⟨hmem, hname⟩, hid⟩
      rw [FileSystem.mem_readDir hopen.resolve hnames, h name hname, Option.isSome_map] at hmem
      rw [← hid]
      exact hmem
    . intro hsome
      obtain ⟨bytes, hlookup⟩ := Option.isSome_iff_exists.mp hsome
      have hid := hsound.digest digest hlookup
      refine ⟨id.text.toList, ⟨?_, hid.head⟩, by simp⟩
      rw [FileSystem.mem_readDir hopen.resolve hnames, h.entry_of_digest hid, Option.isSome_map]
      exact hsome

end Files

section Runs

variable [Primitives]

/--
The file system, and what the calls so far should have left in the store.
-/
structure Kept where
  fs : FileSystem
  expected : ObjectId → Option Object

inductive Call where
  | put (object : Object) (fault : Option Nat)
  | importObject (object : Object) (fault : Option Nat)
  | delete (id : ObjectId)

/--
An object is expected in the store when it is valid and its file could be written.
-/
def Kept.afterPut (s : Kept) (object : Object) (fault : Option Nat) : ObjectId → Option Object :=
  if object.verify = true ∧ fault = none then
    Function.update s.expected object.id (some object)
  else
    s.expected

def Kept.perform (storage : Directory) (call : Call) (s : Kept) : Kept :=
  match call with
  | .put object fault =>
    { fs := (storage.putVerified object fault s.fs).2, expected := s.afterPut object fault }
  | .importObject object fault =>
    { fs := (storage.importObject object fault s.fs).2, expected := s.afterPut object fault }
  | .delete id =>
    { fs := (storage.delete id s.fs).2, expected := Function.update s.expected id none }

/--
The store reads and lists what is expected.
-/
structure IsMap (storage : Directory) (s : Kept) : Prop where
  getVerified : ∀ id object,
    storage.getVerified s.fs id = .ok object ↔ s.expected id = some object
  list : ∃ ids, storage.list s.fs = .ok ids ∧ ids.Nodup ∧
    ∀ id, id ∈ ids ↔ (s.expected id).isSome = true

/--
The directory of the store is there and has nothing in it.
-/
structure Fresh (storage : Directory) (fs : FileSystem) (home : FileSystem.Place) : Prop where
  resolve : fs.resolve storage.root.toList = some home
  isDirectory : fs.isDirectory home = true
  empty : ∀ name, fs.entry (name :: home) = none

def Kept.begin (fs : FileSystem) : Kept where
  fs := fs
  expected _ := none

/--
The call deletes nothing through a path that leads to the file of another object.
-/
def Call.Unaliased (storage : Directory) (call : Call) (s : Kept) : Prop :=
  match call with
  | .delete id => storage.Unaliased s.fs id
  | _ => True

/--
The invariant: the directory shows a map of files, each of which holds the object expected there.
-/
def Mirrors (storage : Directory) (home : FileSystem.Place) (s : Kept) : Prop :=
  Opened storage s.fs home ∧ ∃ objects, Shows s.fs home objects ∧ Sound objects ∧
    ∀ id object, objects.getVerified id = .ok object ↔ s.expected id = some object

variable {storage : Directory} {home : FileSystem.Place} {s : Kept}

theorem Sound.lookup_isSome {objects : Storage} (hsound : Sound objects)
    (hexpected : ∀ id object, objects.getVerified id = .ok object ↔ s.expected id = some object)
    (id : ObjectId) :
    (objects.files.lookup id.text).isSome = true ↔ (s.expected id).isSome = true := by
  rw [Option.isSome_iff_exists, Option.isSome_iff_exists]
  constructor
  . intro ⟨bytes, hlookup⟩
    obtain ⟨object, hid, hverify, hbytes⟩ := hsound _ _ hlookup
    refine ⟨object, ?_⟩
    rw [← hexpected, Storage.getVerified_eq_ok]
    rw [hbytes] at hlookup
    exact ⟨_, hlookup, Codec.deserialize_serialize _ _, ObjectId.text_inj.mp hid, hverify⟩
  . intro ⟨object, hobject⟩
    rw [← hexpected, Storage.getVerified_eq_ok] at hobject
    obtain ⟨bytes, hlookup, _⟩ := hobject
    exact ⟨bytes, hlookup⟩

theorem Mirrors.isMap (digest : ∀ data, (sha256 data).length = 32)
    (h : Mirrors storage home s) : IsMap storage s := by
  obtain ⟨hopen, objects, hshows, hsound, hexpected⟩ := h
  constructor
  . intro id object
    rw [hshows.getVerified digest hopen]
    exact hexpected id object
  . obtain ⟨ids, hlist, hnodup, hmem⟩ := hshows.list digest hopen hsound
    refine ⟨ids, hlist, hnodup, ?_⟩
    intro id
    rw [hmem]
    exact hsound.lookup_isSome hexpected id

theorem mirrors_begin {fs : FileSystem} (h : Fresh storage fs home) :
    Mirrors storage home (.begin fs) := by
  have hflat : ∀ name, fs.isDirectory (name :: home) = false := by
    intro name
    simp [FileSystem.isDirectory, h.empty]
  refine ⟨⟨h.resolve, h.isDirectory, hflat⟩, .empty, ?_, ?_, ?_⟩
  . intro name _
    exact h.empty name
  . intro name bytes hlookup
    contradiction
  . intro id object
    simp [Kept.begin]

theorem Mirrors.put (digest : ∀ data, (sha256 data).length = 32) (h : Mirrors storage home s)
    (object : Object) (fault : Option Nat) :
    Mirrors storage home
      { fs := (storage.putVerified object fault s.fs).2, expected := s.afterPut object fault } := by
  obtain ⟨hopen, objects, hshows, hsound, hexpected⟩ := h
  unfold Kept.afterPut
  by_cases hverify : object.verify = true
  . cases fault with
    | none =>
      rw [if_pos ⟨hverify, rfl⟩]
      obtain ⟨fs', hput, hsame, hshows'⟩ := hshows.putVerified digest hopen hverify
      rw [hput]
      refine ⟨hopen.of_same hsame, objects.write object, hshows', hsound.write hverify, ?_⟩
      intro id other
      simp only
      by_cases hid : id = object.id
      . rw [hid, Storage.getVerified_write_self objects hverify, Function.update_self]
        simp
      . rw [Storage.getVerified_write_of_ne objects hid, Function.update_of_ne hid]
        exact hexpected id other
    | some n =>
      rw [if_neg (by simp)]
      obtain ⟨e, fs', hput, hsame, hshows'⟩ := hshows.putVerified_fault digest hopen hverify n
      rw [hput]
      exact ⟨hopen.of_same hsame, objects, hshows', hsound, hexpected⟩
  . rw [if_neg (fun hvalid => hverify hvalid.1)]
    have hput : storage.putVerified object fault s.fs =
        (.error ("Invalid signature for object " ++ object.id.text), s.fs) := by
      simp [putVerified, hverify]
    rw [hput]
    exact ⟨hopen, objects, hshows, hsound, hexpected⟩

theorem Mirrors.delete (digest : ∀ data, (sha256 data).length = 32) (h : Mirrors storage home s)
    {id : ObjectId} (hunaliased : storage.Unaliased s.fs id) :
    Mirrors storage home
      { fs := (storage.delete id s.fs).2, expected := Function.update s.expected id none } := by
  obtain ⟨hopen, objects, hshows, hsound, hexpected⟩ := h
  obtain ⟨hsame, hshows'⟩ := hshows.delete digest hopen hsound hunaliased
  refine ⟨hopen.of_same hsame, objects.erase id, hshows', hsound.erase id, ?_⟩
  intro other object
  simp only
  by_cases hother : other = id
  . rw [hother, Function.update_self]
    simp [Storage.getVerified_erase_self]
  . rw [Storage.getVerified_erase_of_ne objects hother, Function.update_of_ne hother]
    exact hexpected other object

theorem Mirrors.perform (digest : ∀ data, (sha256 data).length = 32) {call : Call}
    (h : Mirrors storage home s) (hcall : call.Unaliased storage s) :
    Mirrors storage home (s.perform storage call) := by
  cases call with
  | put object fault => exact h.put digest object fault
  | importObject object fault => exact h.put digest object fault
  | delete id => exact h.delete digest hcall

theorem Mirrors.not_isMap (digest : ∀ data, (sha256 data).length = 32) {call : Call}
    (h : Mirrors storage home s) (hcall : ¬ call.Unaliased storage s) :
    ¬ IsMap storage (s.perform storage call) := by
  cases call with
  | put object fault => exact absurd trivial hcall
  | importObject object fault => exact absurd trivial hcall
  | delete id =>
    intro hmap
    apply hcall
    intro other object hget halias
    by_contra hne
    have hopen := h.1
    have hdigest : Digest other := by
      obtain ⟨_, _, _, hid, hverify⟩ := getVerified_eq_ok.mp hget
      rw [← hid]
      exact digest_of_verify digest hverify
    have hexpected := ((h.isMap digest).getVerified other object).mp hget
    have hgone : ¬ storage.getVerified (storage.delete id s.fs).2 other = .ok object :=
      not_getVerified_delete hopen hdigest halias
    apply hgone
    rw [Kept.perform] at hmap
    rw [hmap.getVerified other object]
    simp only
    rw [Function.update_of_ne hne]
    exact hexpected

/--
Whatever the files hold, the store yields only valid objects under their own ids; and from an empty
directory on, it is a map from ids to objects exactly as long as no call deletes through a path that
leads to the file of another object.
-/
theorem isMap_iff (digest : ∀ data, (sha256 data).length = 32) (storage : Directory)
    (fs : FileSystem) {home : FileSystem.Place} (h : Fresh storage fs home) (calls : List Call) :
    (∀ (fs : FileSystem) id object, storage.getVerified fs id = .ok object →
      object.id = id ∧ object.verify = true) ∧
    (Run.Always (Kept.perform storage) (IsMap storage) (.begin fs) calls ↔
      Run.Along (Kept.perform storage) (Call.Unaliased storage) (.begin fs) calls) := by
  constructor
  . intro fs id object hget
    obtain ⟨_, _, _, hid, hverify⟩ := getVerified_eq_ok.mp hget
    exact ⟨hid, hverify⟩
  . have hbegin := mirrors_begin h
    rw [Run.always_iff, and_iff_right (hbegin.isMap digest)]
    apply Run.along_iff (I := Mirrors storage home) (A := fun _ _ => True)
    . exact Run.along_of_forall (fun _ _ _ => trivial) _
    . exact hbegin
    . intro call s _ hs
      constructor
      . intro hmap
        by_contra hcall
        exact hs.not_isMap digest hcall hmap
      . intro hcall
        exact (hs.perform digest hcall).isMap digest
    . intro call s _ hs hcall
      exact hs.perform digest hcall

theorem not_unaliased_dot (digest : ∀ data, (sha256 data).length = 32) {fs : FileSystem}
    {object : Object} (hopen : Opened storage fs home)
    (h : storage.getVerified fs object.id = .ok object) :
    ¬ Unaliased storage fs ⟨"./" ++ object.id.text⟩ := by
  obtain ⟨_, _, _, _, hverify⟩ := getVerified_eq_ok.mp h
  have hid := digest_of_verify digest hverify
  have hdot : fs.resolve (storage.path ⟨"./" ++ object.id.text⟩) =
      some (object.id.text.toList :: home) := by
    have htext : ("./" ++ object.id.text).toList = ['.'] ++ '/' :: object.id.text.toList := by
      simp
    unfold path
    rw [FileSystem.resolve_join hopen.resolve, htext, List.splitOn_append_cons_self,
      FileSystem.walk_append]
    have hhere : fs.walk home (['.'].splitOn '/') = some home := by
      rw [List.splitOn_eq_singleton (by decide), FileSystem.walk, if_pos hopen.isDirectory]
      rfl
    rw [hhere]
    exact FileSystem.walk_plain hopen.isDirectory hid.plain.separator hid.plain.nonempty
      hid.plain.dot hid.plain.dots
  intro hunaliased
  have heq := hunaliased object.id object h (hdot.trans (hopen.resolve_plain hid.plain).symm)
  have hlength := congrArg (·.text.length) heq
  simp only [String.length_append] at hlength
  have hdots : "./".length = 2 := rfl
  omega

end Runs

namespace Padded

/--
A digest of 32 bytes, of which the first two are a checksum.
-/
scoped instance primitives : Primitives :=
  Transparent.withDigest fun data => Compact.checksum data ++ List.replicate 30 0

theorem digest (data : Bytes) : (sha256 data).length = 32 := rfl

theorem signatureLaws : SignatureLaws :=
  Transparent.signatureLaws_withDigest _

def notes : Object :=
  .new (Transparent.aliceWith _) 3 [1, 2, 3] .blob

/--
A disk on which there is nothing but the directory of the store.
-/
def disk : FileSystem where
  entries := .singleton ["objects".toList] .directory
  closed := by
    intro name place hsome
    rw [AList.lookup_isSome, AList.mem_keys, AList.keys_singleton, List.mem_singleton,
      List.cons.injEq] at hsome
    rw [hsome.2]
    rfl
  cwd := []

theorem fresh_disk : Fresh ⟨"/objects"⟩ disk ["objects".toList] where
  resolve := by decide +kernel
  isDirectory := by decide +kernel
  empty := by
    intro name
    show disk.entries.lookup _ = none
    rw [AList.lookup_eq_none, AList.mem_keys, disk, AList.keys_singleton, List.mem_singleton]
    simp

theorem isMap_iff_notes :
    (∀ (fs : FileSystem) id object, getVerified ⟨"/objects"⟩ fs id = .ok object →
      object.id = id ∧ object.verify = true) ∧
    (Run.Always (Kept.perform ⟨"/objects"⟩) (IsMap ⟨"/objects"⟩) (.begin disk)
        [.put notes none, .delete notes.id] ↔
      Run.Along (Kept.perform ⟨"/objects"⟩) (Call.Unaliased ⟨"/objects"⟩) (.begin disk)
        [.put notes none, .delete notes.id]) :=
  isMap_iff digest _ disk fresh_disk _

/--
After the object has been put, `./` before its id deletes it.
-/
theorem not_isMap_notes :
    ¬ Run.Always (Kept.perform ⟨"/objects"⟩) (IsMap ⟨"/objects"⟩) (.begin disk)
      [.put notes none, .delete ⟨"./" ++ notes.id.text⟩] := by
  have hverify : notes.verify = true := Object.verify_new signatureLaws _ _ _ _
  have hput := (mirrors_begin fresh_disk).put digest notes none
  have hget := ((hput.isMap digest).getVerified notes.id notes).mpr (by
    simp [Kept.afterPut, hverify])
  have haliased : ¬ Call.Unaliased ⟨"/objects"⟩ (.delete ⟨"./" ++ notes.id.text⟩) _ :=
    not_unaliased_dot digest hput.1 hget
  intro halways
  exact hput.not_isMap digest haliased halways.2.2

end Padded

end Directory

end Canopee
