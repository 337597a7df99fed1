import Canopee.Lib.Utf8
import Canopee.Storage.User

/-!
This module contains the views of objects and user records that a gateway hands to a browser, and how
they are read back: ids and object types are texts, and bytes are base64.
-/

namespace Canopee

namespace Gateway

/--
The base64 engine.
-/
structure Base64Engine where
  encode : Bytes → String
  decode : String → Except String Bytes

/--
What `{:?}` prints of an object type.
-/
def debugName : ObjectType → String
  | .blob => "Blob"
  | .appManifest => "AppManifest"
  | .appPointer => "AppPointer"
  | .profile => "Profile"
  | .contactList => "ContactList"
  | .homeIndex => "HomeIndex"
  | .capability => "Capability"
  | .capabilityIndex => "CapabilityIndex"

/--
`parse_object_type`
-/
def parseObjectType (s : String) : Except String ObjectType :=
  match s with
  | "Blob" => .ok .blob
  | "AppManifest" => .ok .appManifest
  | "AppPointer" => .ok .appPointer
  | "Profile" => .ok .profile
  | "ContactList" => .ok .contactList
  | "HomeIndex" => .ok .homeIndex
  | "Capability" => .ok .capability
  | "CapabilityIndex" => .ok .capabilityIndex
  | other => .error ("unknown object type \"" ++ other ++ "\"")

section Objects

structure ObjectView where
  id : String
  owner : String
  objectType : String
  size : UInt64
  createdAt : UInt64
  contentType : Option String
  text : String
  dataB64 : String
  publicKeyB64 : String
  signatureB64 : String

namespace ObjectView

/--
`ObjectView::from_parts`
-/
def fromParts (b64 : Base64Engine) (id : ObjectId) (payload : ObjectPayload)
    (publicKey signature : Bytes) : ObjectView where
  id := id.text
  owner := payload.owner.text
  objectType := debugName payload.objectType
  size := payload.metadata.size
  createdAt := payload.metadata.createdAt
  contentType := payload.metadata.contentType
  text := Codec.fromUtf8Lossy payload.data
  dataB64 := b64.encode payload.data
  publicKeyB64 := b64.encode publicKey
  signatureB64 := b64.encode signature

/--
`ObjectView::from`
-/
def ofObject (b64 : Base64Engine) (object : Object) : ObjectView :=
  fromParts b64 object.id object.payload object.publicKey object.signature

/--
`ObjectView::reconstruct`
-/
def reconstruct (b64 : Base64Engine) (view : ObjectView) : Except String Object := do
  let objectType ← parseObjectType view.objectType
  let data ← b64.decode view.dataB64
  let publicKey ← b64.decode view.publicKeyB64
  let signature ← b64.decode view.signatureB64
  return {
    id := ⟨view.id⟩
    payload := {
      owner := ⟨view.owner⟩
      metadata := {
        createdAt := view.createdAt
        size := view.size
        contentType := view.contentType
      }
      objectType := objectType
      data := data
    }
    publicKey := publicKey
    signature := signature
  }

end ObjectView

end Objects

section UserRecords

/--
A DH key from its base64.
-/
def decodeKey (b64 : Base64Engine) (text : String) : Except String Key32 := do
  let bytes ← b64.decode text
  if h : bytes.length = 32 then
    return ⟨bytes, h⟩
  else
    .error "dhPublicKeyB64 must decode to exactly 32 bytes"

structure ProfileView where
  displayName : String
  dhPublicKeyB64 : String
  avatar : Option String
  version : UInt64

namespace ProfileView

def ofProfile (b64 : Base64Engine) (profile : Profile) : ProfileView where
  displayName := profile.displayName
  dhPublicKeyB64 := b64.encode profile.dhPublicKey.toList
  avatar := profile.avatar.map ObjectId.text
  version := profile.version

/--
`Profile::try_from`
-/
def toProfile (b64 : Base64Engine) (view : ProfileView) : Except String Profile := do
  let dhPublicKey ← decodeKey b64 view.dhPublicKeyB64
  return {
    displayName := view.displayName
    dhPublicKey := dhPublicKey
    avatar := view.avatar.map ObjectId.mk
    version := view.version
  }

end ProfileView

structure ContactView where
  name : String
  peerId : String
  dhPublicKeyB64 : String
  note : Option String

namespace ContactView

def ofContact (b64 : Base64Engine) (c : Contact) : ContactView where
  name := c.name
  peerId := c.peerId
  dhPublicKeyB64 := b64.encode c.dhPublicKey.toList
  note := c.note

def toContact (b64 : Base64Engine) (c : ContactView) : Except String Contact := do
  let dhPublicKey ← decodeKey b64 c.dhPublicKeyB64
  return {
    name := c.name
    peerId := c.peerId
    dhPublicKey := dhPublicKey
    note := c.note
  }

end ContactView

structure ContactListView where
  contacts : List ContactView
  version : UInt64

namespace ContactListView

def ofContactList (b64 : Base64Engine) (list : ContactList) : ContactListView where
  contacts := list.contacts.map (ContactView.ofContact b64)
  version := list.version

/--
`ContactList::try_from`, which ends at the first contact that fails.
-/
def toContactList (b64 : Base64Engine) (view : ContactListView) : Except String ContactList := do
  let contacts ← view.contacts.mapM (ContactView.toContact b64)
  return {
    contacts := contacts
    version := view.version
  }

end ContactListView

structure HomeEntryView where
  name : String
  object : String
  objectType : String
  shared : Bool
  app : Option String

namespace HomeEntryView

def ofEntry (e : HomeEntry) : HomeEntryView where
  name := e.name
  object := e.object.text
  objectType := debugName e.objectType
  shared := e.shared
  app := e.app

def toEntry (e : HomeEntryView) : Except String HomeEntry := do
  let objectType ← parseObjectType e.objectType
  return {
    name := e.name
    object := ⟨e.object⟩
    objectType := objectType
    shared := e.shared
    app := e.app
  }

end HomeEntryView

structure HomeIndexView where
  version : UInt64
  profile : Option String
  contacts : Option String
  entries : List HomeEntryView

namespace HomeIndexView

def ofHomeIndex (index : HomeIndex) : HomeIndexView where
  version := index.version
  profile := index.profile.map ObjectId.text
  contacts := index.contacts.map ObjectId.text
  entries := index.entries.map HomeEntryView.ofEntry

/--
`HomeIndex::try_from`, which ends at the first entry that fails.
-/
def toHomeIndex (view : HomeIndexView) : Except String HomeIndex := do
  let entries ← view.entries.mapM HomeEntryView.toEntry
  return {
    profile := view.profile.map ObjectId.mk
    contacts := view.contacts.map ObjectId.mk
    entries := entries
    version := view.version
  }

end HomeIndexView

end UserRecords

end Gateway

end Canopee
