import Canopee.Identity.Basic

/-!
This module contains objects: signed, content-addressed payloads, their binary form and the check
that makes one valid.
-/

namespace Canopee

open Primitives

variable [Primitives]

structure ObjectId where
  text : String
  deriving DecidableEq, Repr

def ObjectId.codec : Codec ObjectId :=
  Codec.text.iso ObjectId.text ObjectId.mk (by intro id; rfl)

omit [Primitives] in
theorem ObjectId.text_inj {a b : ObjectId} : a.text = b.text ↔ a = b := by
  cases a
  cases b
  simp

inductive ObjectType where
  | blob
  | appManifest
  | appPointer
  | profile
  | contactList
  | homeIndex
  | capability
  | capabilityIndex
  deriving DecidableEq, Repr

namespace ObjectType

/--
The variant's tag in binary form.
-/
def tag : ObjectType → UInt32
  | blob => 0
  | appManifest => 1
  | appPointer => 2
  | profile => 3
  | contactList => 4
  | homeIndex => 5
  | capability => 6
  | capabilityIndex => 7

def ofTag (n : UInt32) : Option ObjectType :=
  [blob, appManifest, appPointer, profile, contactList, homeIndex, capability,
    capabilityIndex][n.toNat]?

def codec : Codec ObjectType :=
  Codec.u32.refine tag ofTag (by intro t; cases t <;> rfl)

end ObjectType

structure ObjectMetadata where
  createdAt : UInt64
  size : UInt64
  contentType : Option String
  deriving DecidableEq

def ObjectMetadata.codec : Codec ObjectMetadata :=
  (Codec.u64.pair (Codec.u64.pair Codec.text.option)).iso
    (fun m => (m.createdAt, m.size, m.contentType))
    (fun (createdAt, size, contentType) => ⟨createdAt, size, contentType⟩)
    (by intro m; rfl)

structure ObjectPayload where
  owner : IdentityId
  metadata : ObjectMetadata
  objectType : ObjectType
  data : Bytes
  deriving DecidableEq

def ObjectPayload.codec : Codec ObjectPayload :=
  (IdentityId.codec.pair (ObjectMetadata.codec.pair (ObjectType.codec.pair Codec.bytes))).iso
    (fun p => (p.owner, p.metadata, p.objectType, p.data))
    (fun (owner, metadata, objectType, data) => ⟨owner, metadata, objectType, data⟩)
    (by intro p; rfl)

structure Object where
  id : ObjectId
  payload : ObjectPayload
  publicKey : Bytes
  signature : Bytes
  deriving DecidableEq

def Object.codec : Codec Object :=
  (ObjectId.codec.pair (ObjectPayload.codec.pair (Codec.bytes.pair Codec.bytes))).iso
    (fun o => (o.id, o.payload, o.publicKey, o.signature))
    (fun (id, payload, publicKey, signature) => ⟨id, payload, publicKey, signature⟩)
    (by intro o; rfl)

/--
`hex(sha256(data))`
-/
def digestHex (data : Bytes) : String :=
  Codec.hex (sha256 data)

def ObjectId.fromPayload (payload : ObjectPayload) : ObjectId :=
  ⟨digestHex (ObjectPayload.codec.serialize payload)⟩

/--
`x as u64` of a signed 64-bit count of seconds.
-/
def asU64 (t : Int) : UInt64 :=
  UInt64.ofInt t

namespace Object

/--
The object that `identity` signs over `payload`; both `Object::new` and `Runtime::reseal` end in it.
-/
def signed (identity : Identity) (payload : ObjectPayload) : Object where
  id := ObjectId.fromPayload payload
  payload := payload
  publicKey := identity.publicKeyBytes
  signature := identity.sign (ObjectPayload.codec.serialize payload)

/--
`Object::new` at unix time `now`.
-/
def new (identity : Identity) (now : Int) (bytes : Bytes) (objectType : ObjectType) : Object :=
  signed identity {
    owner := identity.id
    metadata := {
      createdAt := asU64 now
      size := UInt64.ofNat bytes.length
      contentType := none
    }
    objectType := objectType
    data := bytes
  }

def decode {α : Type} (c : Codec α) (object : Object) : Option α :=
  c.deserialize object.payload.data

def objectType (object : Object) : ObjectType :=
  object.payload.objectType

def verifyId (object : Object) : Bool :=
  ObjectId.fromPayload object.payload == object.id

def verify (object : Object) : Bool :=
  if !object.verifyId then
    false
  else
    signatureValid object.publicKey (ObjectPayload.codec.serialize object.payload) object.signature

@[simp]
theorem signed_id (identity : Identity) (payload : ObjectPayload) :
    (signed identity payload).id = ObjectId.fromPayload payload := rfl

@[simp]
theorem signed_payload (identity : Identity) (payload : ObjectPayload) :
    (signed identity payload).payload = payload := rfl

@[simp]
theorem new_owner (identity : Identity) (now : Int) (bytes : Bytes) (objectType : ObjectType) :
    (new identity now bytes objectType).payload.owner = identity.id := rfl

@[simp]
theorem new_data (identity : Identity) (now : Int) (bytes : Bytes) (objectType : ObjectType) :
    (new identity now bytes objectType).payload.data = bytes := rfl

theorem verify_iff (object : Object) :
    object.verify = true ↔ ObjectId.fromPayload object.payload = object.id ∧
      signatureValid object.publicKey (ObjectPayload.codec.serialize object.payload)
        object.signature = true := by
  simp [verify, verifyId]

theorem id_of_verify {object : Object} (h : object.verify = true) :
    object.id = ObjectId.fromPayload object.payload :=
  ((verify_iff object).mp h).1.symm

theorem verify_signed (laws : SignatureLaws) (identity : Identity) (payload : ObjectPayload) :
    (signed identity payload).verify = true := by
  rw [verify_iff]
  exact ⟨rfl, signatureValid_sign laws identity _⟩

theorem verify_new (laws : SignatureLaws) (identity : Identity) (now : Int) (bytes : Bytes)
    (objectType : ObjectType) : (new identity now bytes objectType).verify = true :=
  verify_signed laws identity _

end Object

theorem ObjectId.fromPayload_inj (hash : CollisionFree) {p q : ObjectPayload} :
    ObjectId.fromPayload p = ObjectId.fromPayload q ↔ p = q := by
  constructor
  . intro h
    simp only [ObjectId.fromPayload, digestHex, ObjectId.mk.injEq, Codec.hex_inj] at h
    exact (Codec.serialize_inj _).mp (hash h)
  . intro h
    rw [h]

structure ExportBundle where
  version : UInt32
  object : Object
  deriving DecidableEq

def Object.export (object : Object) : Except String ExportBundle :=
  if !object.verify then
    .error "Cannot export invalid object"
  else
    .ok { version := 1, object := object }

theorem Object.object_of_export_ok {object : Object} {bundle : ExportBundle}
    (h : object.export = .ok bundle) : bundle.object = object := by
  unfold Object.export at h
  split at h
  . contradiction
  . rw [Except.ok.injEq] at h
    rw [← h]

theorem Object.object_of_export {object : Object} {bundle : ExportBundle}
    (h : object.export.toOption = some bundle) : bundle.object = object := by
  cases hexport : object.export with
  | error e => simp [hexport, Except.toOption] at h
  | ok exported =>
    simp only [hexport, Except.toOption, Option.some.injEq] at h
    rw [← h]
    exact Object.object_of_export_ok hexport

structure AppManifest where
  name : String
  owner : IdentityId
  entrypoint : ObjectId
  -- the `HashMap` of assets, in the order in which it is iterated
  assets : List (String × ObjectId)

def AppManifest.codec : Codec AppManifest :=
  (Codec.text.pair (IdentityId.codec.pair (ObjectId.codec.pair
    (Codec.text.pair ObjectId.codec).list))).iso
    (fun m => (m.name, m.owner, m.entrypoint, m.assets))
    (fun (name, owner, entrypoint, assets) => ⟨name, owner, entrypoint, assets⟩)
    (by intro m; rfl)

end Canopee
