import Canopee.Storage.Object

/-!
This module contains pointer records: signed statements of which object an owner's `(owner, name)`
pair currently stands for.
-/

namespace Canopee

open Primitives

variable [Primitives]

structure AppPointerRecord where
  name : String
  owner : IdentityId
  manifest : ObjectId
  publishedAt : UInt64
  publicKey : Bytes
  signature : Bytes
  deriving DecidableEq

namespace AppPointerRecord

def codec : Codec AppPointerRecord :=
  (Codec.text.pair (IdentityId.codec.pair (ObjectId.codec.pair (Codec.u64.pair
    (Codec.bytes.pair Codec.bytes))))).iso
    (fun r => (r.name, r.owner, r.manifest, r.publishedAt, r.publicKey, r.signature))
    (fun (name, owner, manifest, publishedAt, publicKey, signature) =>
      ⟨name, owner, manifest, publishedAt, publicKey, signature⟩)
    (by intro r; rfl)

def signingBytes (name : String) (owner : IdentityId) (manifest : ObjectId)
    (publishedAt : UInt64) : Bytes :=
  Codec.utf8 (name ++ ":" ++ owner.text ++ ":" ++ manifest.text ++ ":" ++ publishedAt.toNat.repr)

/--
The key under which the record of `(owner, name)` is stored and looked up.
-/
def key (owner : IdentityId) (name : String) : Bytes :=
  sha256 (Codec.utf8 "canopee-app-pointer:" ++ Codec.utf8 owner.text ++ Codec.utf8 ":" ++
    Codec.utf8 name)

theorem key_inj (hash : CollisionFree) {owner : IdentityId} {n m : String} :
    key owner n = key owner m ↔ n = m := by
  constructor
  . intro h
    exact Codec.utf8_inj.mp (List.append_cancel_left (hash h))
  . intro h
    rw [h]

/--
`AppPointerRecord::sign` at unix time `now`.
-/
def sign (identity : Identity) (now : Int) (name : String) (manifest : ObjectId) :
    AppPointerRecord where
  name := name
  owner := identity.id
  manifest := manifest
  publishedAt := asU64 now
  publicKey := identity.publicKeyBytes
  signature := identity.sign (signingBytes name identity.id manifest (asU64 now))

def verify (record : AppPointerRecord) : Bool :=
  if !derives record.publicKey record.owner then
    false
  else
    signatureValid record.publicKey
      (signingBytes record.name record.owner record.manifest record.publishedAt) record.signature

@[simp]
theorem sign_name (identity : Identity) (now : Int) (name : String) (manifest : ObjectId) :
    (sign identity now name manifest).name = name := rfl

@[simp]
theorem sign_owner (identity : Identity) (now : Int) (name : String) (manifest : ObjectId) :
    (sign identity now name manifest).owner = identity.id := rfl

@[simp]
theorem sign_manifest (identity : Identity) (now : Int) (name : String) (manifest : ObjectId) :
    (sign identity now name manifest).manifest = manifest := rfl

theorem verify_iff (record : AppPointerRecord) :
    record.verify = true ↔ derives record.publicKey record.owner = true ∧
      signatureValid record.publicKey
        (signingBytes record.name record.owner record.manifest record.publishedAt)
        record.signature = true := by
  simp [verify]

theorem verify_sign (laws : SignatureLaws) (identity : Identity) (now : Int) (name : String)
    (manifest : ObjectId) : (sign identity now name manifest).verify = true := by
  rw [verify_iff]
  exact ⟨derives_publicKeyBytes laws identity, signatureValid_sign laws identity _⟩

end AppPointerRecord

end Canopee
