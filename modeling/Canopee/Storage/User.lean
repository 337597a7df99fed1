import Canopee.Storage.Object

/-!
This module contains the records of a person: profile, username, contacts, home index and device
list, each stored as a signed object that a pointer record names.
-/

namespace Canopee

open Primitives

variable [Primitives]

def RECORD_PROFILE : String := "profile"
def RECORD_CONTACTS : String := "contacts"
def RECORD_HOME : String := "home"
def RECORD_USERNAME : String := "username"
def RECORD_DEVICES : String := "devices"
def USERNAME_REGISTRY_PREFIX : String := "username:"
def DEVICE_REGISTRY_PREFIX : String := "device:"

/--
What `to_object` of a record type does at unix time `now`.
-/
def toObject {α : Type} (c : Codec α) (objectType : ObjectType) (a : α) (identity : Identity)
    (now : Int) : Object :=
  Object.new identity now (c.serialize a) objectType

@[simp]
theorem decode_toObject {α : Type} (c : Codec α) (objectType : ObjectType) (a : α)
    (identity : Identity) (now : Int) : (toObject c objectType a identity now).decode c = some a := by
  simp [toObject, Object.decode]

structure Profile where
  displayName : String
  dhPublicKey : Key32
  avatar : Option ObjectId
  version : UInt64

namespace Profile

def codec : Codec Profile :=
  (Codec.text.pair ((Codec.array 32).pair (ObjectId.codec.option.pair Codec.u64))).iso
    (fun p => (p.displayName, p.dhPublicKey, p.avatar, p.version))
    (fun (displayName, dhPublicKey, avatar, version) => ⟨displayName, dhPublicKey, avatar, version⟩)
    (by intro p; rfl)

def toObject : Profile → Identity → Int → Object :=
  Canopee.toObject codec .profile

end Profile

structure UsernameRecord where
  username : String
  version : UInt64
  deriving DecidableEq

namespace UsernameRecord

def codec : Codec UsernameRecord :=
  (Codec.text.pair Codec.u64).iso (fun u => (u.username, u.version))
    (fun (username, version) => ⟨username, version⟩) (by intro u; rfl)

def toObject : UsernameRecord → Identity → Int → Object :=
  Canopee.toObject codec .profile

end UsernameRecord

structure Contact where
  name : String
  peerId : String
  dhPublicKey : Key32
  note : Option String

def Contact.codec : Codec Contact :=
  (Codec.text.pair (Codec.text.pair ((Codec.array 32).pair Codec.text.option))).iso
    (fun c => (c.name, c.peerId, c.dhPublicKey, c.note))
    (fun (name, peerId, dhPublicKey, note) => ⟨name, peerId, dhPublicKey, note⟩)
    (by intro c; rfl)

structure ContactList where
  contacts : List Contact
  version : UInt64

namespace ContactList

def codec : Codec ContactList :=
  (Contact.codec.list.pair Codec.u64).iso (fun l => (l.contacts, l.version))
    (fun (contacts, version) => ⟨contacts, version⟩) (by intro l; rfl)

def toObject : ContactList → Identity → Int → Object :=
  Canopee.toObject codec .contactList

end ContactList

structure HomeEntry where
  name : String
  object : ObjectId
  objectType : ObjectType
  shared : Bool
  app : Option String

def HomeEntry.codec : Codec HomeEntry :=
  (Codec.text.pair (ObjectId.codec.pair (ObjectType.codec.pair (Codec.bool.pair
    Codec.text.option)))).iso
    (fun e => (e.name, e.object, e.objectType, e.shared, e.app))
    (fun (name, object, objectType, shared, app) => ⟨name, object, objectType, shared, app⟩)
    (by intro e; rfl)

structure HomeIndex where
  profile : Option ObjectId
  contacts : Option ObjectId
  entries : List HomeEntry
  version : UInt64

namespace HomeIndex

def codec : Codec HomeIndex :=
  (ObjectId.codec.option.pair (ObjectId.codec.option.pair (HomeEntry.codec.list.pair
    Codec.u64))).iso
    (fun h => (h.profile, h.contacts, h.entries, h.version))
    (fun (profile, contacts, entries, version) => ⟨profile, contacts, entries, version⟩)
    (by intro h; rfl)

def toObject : HomeIndex → Identity → Int → Object :=
  Canopee.toObject codec .homeIndex

def empty : HomeIndex where
  profile := none
  contacts := none
  entries := []
  version := 0

end HomeIndex

structure DeviceEntry where
  deviceId : String
  deviceName : String
  addedAt : Option OffsetDateTime

def DeviceEntry.codec : Codec DeviceEntry :=
  (Codec.text.pair (Codec.text.pair dateTimeCodec.option)).iso
    (fun d => (d.deviceId, d.deviceName, d.addedAt))
    (fun (deviceId, deviceName, addedAt) => ⟨deviceId, deviceName, addedAt⟩)
    (by intro d; rfl)

structure DeviceList where
  devices : List DeviceEntry
  version : UInt64

namespace DeviceList

def codec : Codec DeviceList :=
  (DeviceEntry.codec.list.pair Codec.u64).iso (fun l => (l.devices, l.version))
    (fun (devices, version) => ⟨devices, version⟩) (by intro l; rfl)

def toObject : DeviceList → Identity → Int → Object :=
  Canopee.toObject codec .profile

def empty : DeviceList where
  devices := []
  version := 0

def byDeviceId (list : DeviceList) (deviceId : String) : Option DeviceEntry :=
  list.devices.find? (·.deviceId == deviceId)

def hasDevice (list : DeviceList) (deviceId : String) : Bool :=
  list.devices.any (·.deviceId == deviceId)

end DeviceList

end Canopee
