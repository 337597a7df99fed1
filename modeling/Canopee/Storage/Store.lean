import Canopee.Storage.Object
import Mathlib.Data.List.AList

/-!
This module contains the object store on disk: a directory of files, each named by the id of the
object it should hold, and the reads that check what they find.
-/

namespace Canopee

open Primitives

variable [Primitives]

abbrev Files := AList fun _ : String => Bytes

structure Storage where
  files : Files
  -- the name sidecars
  names : AList fun _ : String => String

namespace Storage

def empty : Storage where
  files := ∅
  names := ∅

def existsObject (storage : Storage) (id : ObjectId) : Bool :=
  (storage.files.lookup id.text).isSome

def getVerified (storage : Storage) (id : ObjectId) : Except String Object :=
  match storage.files.lookup id.text with
  | none => .error "No such file or directory"
  | some bytes =>
    match Object.codec.deserialize bytes with
    | none => .error "the file is not an object"
    | some object =>
      if object.id ≠ id then
        .error ("Object id mismatch: file holds " ++ object.id.text ++ ", requested " ++ id.text)
      else if !object.verify then
        .error ("Invalid signature for object " ++ id.text)
      else
        .ok object

/--
The object's file, as `put_verified` leaves it.
-/
def write (storage : Storage) (object : Object) : Storage :=
  { storage with files := storage.files.insert object.id.text (Object.codec.serialize object) }

def erase (storage : Storage) (id : ObjectId) : Storage where
  files := storage.files.erase id.text
  names := storage.names.erase id.text

theorem getVerified_eq_ok {storage : Storage} {id : ObjectId} {object : Object} :
    storage.getVerified id = .ok object ↔
      ∃ bytes, storage.files.lookup id.text = some bytes ∧
        Object.codec.deserialize bytes = some object ∧ object.id = id ∧ object.verify = true := by
  unfold getVerified
  cases hlookup : storage.files.lookup id.text with
  | none => simp
  | some bytes =>
    cases hdecode : Object.codec.deserialize bytes with
    | none => simp [hdecode]
    | some o =>
      simp only [Option.some.injEq, exists_eq_left', hdecode]
      constructor
      . intro h
        split at h
        . contradiction
        . next hid =>
          split at h
          . contradiction
          . next hverify =>
            simp only [Except.ok.injEq] at h
            subst h
            simp at hid hverify
            exact ⟨rfl, hid, hverify⟩
      . intro ⟨ho, hid, hverify⟩
        subst ho
        simp [hid, hverify]

theorem id_of_getVerified {storage : Storage} {id : ObjectId} {object : Object}
    (h : storage.getVerified id = .ok object) : object.id = id := by
  obtain ⟨_, _, _, hid, _⟩ := getVerified_eq_ok.mp h
  exact hid

theorem verify_of_getVerified {storage : Storage} {id : ObjectId} {object : Object}
    (h : storage.getVerified id = .ok object) : object.verify = true := by
  obtain ⟨_, _, _, _, hverify⟩ := getVerified_eq_ok.mp h
  exact hverify

theorem getVerified_congr {s t : Storage} {id : ObjectId}
    (h : s.files.lookup id.text = t.files.lookup id.text) : s.getVerified id = t.getVerified id := by
  unfold getVerified
  rw [h]

@[simp]
theorem getVerified_write_self (storage : Storage) {object : Object}
    (h : object.verify = true) : (storage.write object).getVerified object.id = .ok object := by
  rw [getVerified_eq_ok]
  refine ⟨Object.codec.serialize object, ?_, Codec.deserialize_serialize _ _, rfl, h⟩
  simp [write]

theorem getVerified_write_of_ne (storage : Storage) {object : Object} {id : ObjectId}
    (h : id ≠ object.id) : (storage.write object).getVerified id = storage.getVerified id := by
  apply getVerified_congr
  have : id.text ≠ object.id.text := by
    intro htext
    apply h
    cases id
    simp_all
  simp [write, AList.lookup_insert_ne this]

theorem getVerified_erase {storage : Storage} {id gone : ObjectId} {object : Object}
    (h : (storage.erase gone).getVerified id = .ok object) : storage.getVerified id = .ok object := by
  rw [getVerified_eq_ok] at h ⊢
  obtain ⟨bytes, hlookup, rest⟩ := h
  refine ⟨bytes, ?_, rest⟩
  by_cases hid : id.text = gone.text
  . simp only [erase, ← hid, AList.lookup_erase] at hlookup
    contradiction
  . simpa [erase, AList.lookup_erase_ne hid] using hlookup

theorem getVerified_erase_of_ne (storage : Storage) {id gone : ObjectId} (h : id ≠ gone) :
    (storage.erase gone).getVerified id = storage.getVerified id := by
  apply getVerified_congr
  have : id.text ≠ gone.text := by
    rw [ne_eq, ObjectId.text_inj]
    exact h
  simp [erase, AList.lookup_erase_ne this]

theorem getVerified_erase_self (storage : Storage) (id : ObjectId) (object : Object) :
    ¬ (storage.erase id).getVerified id = .ok object := by
  simp [getVerified, erase, AList.lookup_erase]

@[simp]
theorem getVerified_empty (id : ObjectId) (object : Object) :
    ¬ empty.getVerified id = .ok object := by
  simp [getVerified, empty]

end Storage

end Canopee
