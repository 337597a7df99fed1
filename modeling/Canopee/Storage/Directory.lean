import Canopee.Lib.FileSystem
import Canopee.Storage.Writers

/-!
This module contains the calls of the object store as they reach the file system: each builds the
path of an object, of its temporary file or of its name sidecar from the text of the id.
-/

namespace Canopee

open Primitives

variable [Primitives]

theorem digestHex_spec (digest : ∀ data, (sha256 data).length = 32) (data : Bytes) :
    (digestHex data).toList ≠ [] ∧ ∀ c ∈ (digestHex data).toList, c ≠ '/' ∧ c ≠ '.' := by
  constructor
  . intro h
    have hlength := Codec.length_utf8_hex (sha256 data)
    have hempty : digestHex data = "" := String.toList_inj.mp h
    rw [digestHex] at hempty
    rw [hempty, digest] at hlength
    contradiction
  . intro c hc
    obtain ⟨k, hk⟩ := Codec.mem_hex hc
    have hdigits : ∀ k : Fin 16, Nat.digitChar k ≠ '/' ∧ Nat.digitChar k ≠ '.' := by
      decide
    rw [hk]
    exact hdigits k

/--
`Storage` of the source.
-/
structure Directory where
  root : String

namespace Directory

def path (storage : Directory) (id : ObjectId) : List Char :=
  storage.root.toList ++ '/' :: id.text.toList

def tmpPath (storage : Directory) (id : ObjectId) : List Char :=
  storage.root.toList ++ '/' :: id.tmp.toList

/--
`Path::join`, which separates the two parts only where they are not separated yet.
-/
def join (root name : List Char) : List Char :=
  match root.getLast? with
  | none => name
  | some '/' => root ++ name
  | some _ => root ++ '/' :: name

def namePath (storage : Directory) (id : ObjectId) : List Char :=
  join storage.root.toList ("." ++ id.text ++ ".name").toList

/--
`fault` says how many bytes of the temporary file are written before `fs::write` fails, if it does.
-/
def putVerified (storage : Directory) (object : Object) (fault : Option Nat) (fs : FileSystem) :
    Except String Unit × FileSystem :=
  if !object.verify then
    (.error ("Invalid signature for object " ++ object.id.text), fs)
  else
    let bytes := Object.codec.serialize object
    match fault with
    | some n =>
      match fs.write (storage.tmpPath object.id) (bytes.take n) with
      | .error e => (.error e, fs)
      | .ok fs => (.error "No space left on device", fs)
    | none =>
      match fs.write (storage.tmpPath object.id) bytes with
      | .error e => (.error e, fs)
      | .ok fs =>
        match fs.rename (storage.tmpPath object.id) (storage.path object.id) with
        | .error e => (.error e, fs)
        | .ok fs => (.ok (), fs)

def importObject (storage : Directory) (object : Object) (fault : Option Nat) (fs : FileSystem) :
    Except String Unit × FileSystem :=
  storage.putVerified object fault fs

def getVerified (storage : Directory) (fs : FileSystem) (id : ObjectId) : Except String Object :=
  match fs.read (storage.path id) with
  | .error e => .error e
  | .ok bytes =>
    match Object.codec.deserialize bytes with
    | none => .error "the file is not an object"
    | some object =>
      if object.id ≠ id then
        .error ("Object id mismatch: file holds " ++ object.id.text ++ ", requested " ++ id.text)
      else if !object.verify then
        .error ("Invalid signature for object " ++ id.text)
      else
        .ok object

def list (storage : Directory) (fs : FileSystem) : Except String (List ObjectId) :=
  match fs.readDir storage.root.toList with
  | .error e => .error e
  | .ok names =>
    .ok ((names.filter (·.head? ≠ some '.')).map fun name => ⟨String.ofList name⟩)

def removeIfExists (path : List Char) (fs : FileSystem) : Except String Unit × FileSystem :=
  if fs.tryExists path then
    match fs.removeFile path with
    | .error e => (.error e, fs)
    | .ok fs => (.ok (), fs)
  else
    (.ok (), fs)

def delete (storage : Directory) (id : ObjectId) (fs : FileSystem) :
    Except String Unit × FileSystem :=
  match removeIfExists (storage.path id) fs with
  | (.error e, fs) => (.error e, fs)
  | (.ok _, fs) => removeIfExists (storage.namePath id) fs

end Directory

end Canopee
