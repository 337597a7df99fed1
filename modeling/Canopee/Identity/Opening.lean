import Canopee.Identity.AtRest
import Canopee.Lib.Disk
import Mathlib.Logic.Function.Basic

/-!
This module contains concurrent starts of the node on one identity directory: each finds the key file
or creates it, and files are read and written in any number of pieces.
-/

namespace Canopee

variable [Primitives]

/--
How far the start of a node has come with its identity.
-/
inductive Opening where
  | start
  -- `create_encrypted` has not opened the file yet
  | creating
  -- the file is open, and this many bytes of the new key are written
  | writing (file written : Nat)
  -- `create_if_absent` is about to `load` for the time after these many
  | adopting (attempt : Nat)
  | loading (attempt file : Nat) (bytes : Bytes)
  -- `load_encrypted`
  | opening
  | reading (file : Nat) (bytes : Bytes)
  -- the `load` of a file that `load_encrypted` found to be no envelope
  | reopening
  | rereading (file : Nat) (bytes : Bytes)
  | ok (identity : Identity)
  | error (e : String)

/--
The key that a node generates if it creates one, and the draws for its encryption.
-/
structure Generated where
  identity : Identity
  random : Envelope.Random

/--
The directory and the nodes.
-/
structure Openings (ι : Type) where
  disk : Disk
  calls : ι → Opening

def keyName : String := "identity.key"

/--
`create_if_absent` after a `load` that failed.
-/
def Opening.retry (attempt : Nat) (e : String) : Opening :=
  if attempt < 24 then .adopting (attempt + 1) else .error e

namespace Openings

variable {ι : Type} [DecidableEq ι]

def begin : Openings ι where
  disk := .empty
  calls _ := .start

def moved (s : Openings ι) (i : ι) (p : Opening) (disk : Disk) : Openings ι where
  disk := disk
  calls := Function.update s.calls i p

theorem calls_moved_self {s : Openings ι} {i : ι} {p : Opening} {disk : Disk} :
    (s.moved i p disk).calls i = p := by
  simp [moved]

theorem calls_moved_of_ne {s : Openings ι} {i j : ι} {p : Opening} {disk : Disk} (h : j ≠ i) :
    (s.moved i p disk).calls j = s.calls j := by
  simp [moved, h]

/--
Open the key file and go on with `next`, or with `absent`.
-/
def openKey (s : Openings ι) (i : ι) (next : Nat → Opening) (absent : Opening) : Openings ι :=
  match s.disk.names.lookup keyName with
  | some file => s.moved i (next file) s.disk
  | none => s.moved i absent s.disk

/--
Read another piece of at most `n + 1` bytes behind `bytes`, or go on with `done` at the end of the
file.
-/
def readKey (s : Openings ι) (i : ι) (n file : Nat) (bytes : Bytes) (next : Bytes → Opening)
    (done : Opening) : Openings ι :=
  let piece := s.disk.readAt file bytes.length (n + 1)
  if piece.isEmpty then s.moved i done s.disk else s.moved i (next (bytes ++ piece)) s.disk

/--
Write another piece of the new key, or return when it is all written.
-/
def writeKey (s : Openings ι) (i : ι) (n file written : Nat) (identity : Identity) (bytes : Bytes) :
    Openings ι :=
  if written < bytes.length then
    let piece := (bytes.drop written).take (n + 1)
    s.moved i (.writing file (written + piece.length)) (s.disk.writeAt file written piece)
  else
    s.moved i (.ok identity) s.disk

/--
`Identity::load`, from the bytes of the file.
-/
def loaded (failed : String → Opening) (bytes : Bytes) : Opening :=
  match Identity.importBytes bytes with
  | some identity => .ok identity
  | none => failed "invalid keypair file"

/--
`Identity::load_encrypted`, from the bytes of the file.
-/
def loadedEncrypted (passphrase : String) (bytes : Bytes) : Opening :=
  if AtRest.isEncryptedEnvelope bytes then
    match AtRest.decryptKeyEnvelope bytes (Codec.utf8 passphrase) with
    | .error e => .error e
    | .ok plaintext =>
      match Identity.importBytes plaintext with
      | some identity => .ok identity
      | none => .error "decrypted identity is not a valid keypair"
  else
    .reopening

/--
The next step of one of the nodes towards its identity in `open_with_config`; a piece that it reads or
writes has at most one byte more than the second component of the label.
-/
def openIdentity (passphrase : Option String) (generated : ι → Generated) (l : ι × Nat)
    (s : Openings ι) : Openings ι :=
  let (i, n) := l
  let new := generated i
  match s.calls i with
  | .start =>
    match passphrase with
    | none =>
      match s.disk.openNew keyName with
      | some (file, disk) => s.moved i (.writing file 0) disk
      | none => s.moved i (.adopting 0) s.disk
    | some _ => s.openKey i (fun _ => .opening) .creating
  | .creating =>
    match new.identity.exportAtRest new.random passphrase with
    | .error e => s.moved i (.error e) s.disk
    | .ok _ =>
      let (file, disk) := s.disk.openTruncate keyName
      s.moved i (.writing file 0) disk
  | .writing file written =>
    match new.identity.exportAtRest new.random passphrase with
    | .error e => s.moved i (.error e) s.disk
    | .ok bytes => s.writeKey i n file written new.identity bytes
  | .adopting attempt =>
    s.openKey i (fun file => .loading attempt file []) (.retry attempt "No such file or directory")
  | .loading attempt file bytes =>
    s.readKey i n file bytes (.loading attempt file) (loaded (.retry attempt) bytes)
  | .opening => s.openKey i (fun file => .reading file []) (.error "No such file or directory")
  | .reading file bytes =>
    -- only with a passphrase
    s.readKey i n file bytes (.reading file) (loadedEncrypted (passphrase.getD "") bytes)
  | .reopening => s.openKey i (fun file => .rereading file []) (.error "No such file or directory")
  | .rereading file bytes => s.readKey i n file bytes (.rereading file) (loaded .error bytes)
  | .ok _ => s
  | .error _ => s

end Openings

end Canopee
