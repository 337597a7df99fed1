import Canopee.Runtime.Objects
import Canopee.Storage.User

/-!
This module contains the record methods of the runtime: publishing and resolving signed pointers,
and the profile, username and contact records behind them.
-/

namespace Canopee

open Primitives

variable [Primitives]

namespace Runtime

section Pointers

/--
`Runtime::cache_record`
-/
def cacheRecord (key value : Bytes) : RunM Unit :=
  writeAtomic (storeRecord (recordFile key) value)

theorem exec_cacheRecord (env : Env) (key value : Bytes) (w : Runtime) :
    Prog.exec (cacheRecord key value) env w =
      match env.fault w.tick with
      | none => (.ok (), storeRecord (recordFile key) value { w with tick := w.tick + 1 })
      | some _ => (.error "write failed", { w with tick := w.tick + 1 }) := by
  unfold cacheRecord
  cases hfault : env.fault w.tick with
  | none => rw [exec_writeAtomic_of_none hfault]
  | some fault => rw [exec_writeAtomic_of_some hfault]

/--
`Runtime::push_pointer_record`
-/
def pushPointerRecord (bytes : Bytes) : RunM Unit := do
  let object ← newObject bytes .appPointer
  putVerified object
  let bundle ← ofExcept object.export
  replicateObject bundle

/--
`Runtime::publish_pointer`
-/
def publishPointer (name : String) (target : ObjectId) : RunM Unit := do
  let time ← now
  let w ← get
  let record := AppPointerRecord.sign w.identity time name target
  let key := AppPointerRecord.key record.owner name
  let bytes := AppPointerRecord.codec.serialize record
  cacheRecord key bytes
  let _ ← Prog.attempt (pushPointerRecord bytes)
  putRecord key bytes

/--
The pass of `latest_pointer_record` over the listed ids, with the newest record so far. A file that
cannot be read or decoded ends the whole scan.
-/
def scanPointers (storage : Storage) (owner : IdentityId) (name : String) :
    List ObjectId → Option AppPointerRecord → Option AppPointerRecord
  | [], newest => newest
  | id :: ids, newest =>
    match storage.getVerified id with
    | .error _ => none
    | .ok object =>
      if object.payload.owner ≠ owner ∨ object.objectType ≠ .appPointer then
        scanPointers storage owner name ids newest
      else
        match object.decode AppPointerRecord.codec with
        | none => none
        | some record =>
          if record.name ≠ name ∨ record.verify = false then
            scanPointers storage owner name ids newest
          else
            match newest with
            | none => scanPointers storage owner name ids (some record)
            | some current =>
              if record.publishedAt ≤ current.publishedAt then
                scanPointers storage owner name ids newest
              else
                scanPointers storage owner name ids (some record)

/--
`Runtime::latest_pointer_record`
-/
def latestPointerRecord (owner : IdentityId) (name : String) : RunM (Option AppPointerRecord) := do
  match ← Prog.attempt list with
  | .error _ => pure none
  | .ok ids =>
    let w ← get
    pure (scanPointers w.storage owner name ids none)

/--
The check on a record that comes from the record cache or the DHT.
-/
def acceptRecord (owner : IdentityId) (name : String) (bytes : Bytes) : Option AppPointerRecord :=
  match AppPointerRecord.codec.deserialize bytes with
  | none => none
  | some record =>
    if record.owner = owner ∧ record.name = name ∧ record.verify = true then some record else none

/--
The pointer that the record cache holds for `(owner, name)`.
-/
def cachedPointer (w : Runtime) (owner : IdentityId) (name : String) : Option AppPointerRecord :=
  (w.records.lookup (recordFile (AppPointerRecord.key owner name))).bind (acceptRecord owner name)

/--
The best-effort cache write of `resolve_pointer`, which is in place.
-/
def rememberPointer (key : Bytes) (record : AppPointerRecord) : RunM Unit := do
  let _ ← Prog.attempt (writeInPlace (storeRecord (recordFile key))
    (AppPointerRecord.codec.serialize record))
  pure ()

/--
The DHT part of `resolve_pointer`: an error counts as no record.
-/
def dhtPointer (owner : IdentityId) (name : String) : RunM (Option AppPointerRecord) := do
  match ← Prog.attempt (getRecord (AppPointerRecord.key owner name)) with
  | .error _ => pure none
  | .ok bytes => pure (bytes.bind (acceptRecord owner name))

/--
`Runtime::resolve_pointer`: the record cache, then the pointer objects in the store, then the DHT.
-/
def resolvePointer (owner : IdentityId) (name : String) : RunM (Option AppPointerRecord) := do
  let key := AppPointerRecord.key owner name
  let w ← get
  match cachedPointer w owner name with
  | some record => pure (some record)
  | none =>
    match ← latestPointerRecord owner name with
    | some record =>
      rememberPointer key record
      pure (some record)
    | none =>
      match ← dhtPointer owner name with
      | some record =>
        rememberPointer key record
        pure (some record)
      | none => pure none

/--
The object labelled with `owner` under `manifest`: the stored one, or one that the network yields.
-/
def ownedObject (owner : IdentityId) (manifest : ObjectId) : RunM (Option Object) := do
  match ← Prog.attempt (getVerified manifest) with
  | .ok object =>
    if object.payload.owner = owner then pure (some object) else pure none
  | .error _ =>
    match ← Prog.attempt (fetchObject manifest (ownerPeerId owner)) with
    | .ok object =>
      if object.payload.owner = owner then pure (some object) else pure none
    | .error _ => pure none

/--
`Runtime::resolve_owner_object`
-/
def resolveOwnerObject (owner : IdentityId) (name : String) : RunM (Option Object) := do
  match ← resolvePointer owner name with
  | none => pure none
  | some record => ownedObject owner record.manifest

def decodeObject {α : Type} (c : Codec α) (object : Object) : RunM α :=
  ofOption "the object does not decode" (object.decode c)

/--
The shape of `resolve_username`, `resolve_profile`, `load_device_list` and `load_capability_index`.
-/
def resolveOwnerRecord {α : Type} (c : Codec α) (owner : IdentityId) (name : String) :
    RunM (Option α) := do
  match ← resolveOwnerObject owner name with
  | none => pure none
  | some object =>
    let a ← decodeObject c object
    pure (some a)

/--
The shape of `load_profile`, `load_contact_list` and `load_home_index`, which read this identity's
own record from the local store only.
-/
def loadOwnRecord {α : Type} (c : Codec α) (name : String) : RunM (Option α) := do
  let w ← get
  match ← resolvePointer w.identity.id name with
  | none => pure none
  | some record =>
    let object ← getVerified record.manifest
    let a ← decodeObject c object
    pure (some a)

/--
`previous.map(|p| p.version + 1).unwrap_or(1)`
-/
def nextVersion : Option UInt64 → UInt64
  | some version => version + 1
  | none => 1

/--
The shape of the methods that publish a record: store the object, then repoint the record.
-/
def publishObject (name : String) (object : Object) : RunM ObjectId := do
  putVerified object
  publishPointer name object.id
  pure object.id

/--
The same with an announcement in between.
-/
def announceObject (name : String) (object : Object) : RunM ObjectId := do
  putVerified object
  announce object.id
  publishPointer name object.id
  pure object.id

end Pointers

section Profiles

def loadProfile : RunM (Option Profile) :=
  loadOwnRecord Profile.codec RECORD_PROFILE

def saveProfile (profile : Profile) : RunM ObjectId := do
  let previous ← loadProfile
  let w ← get
  let profile := { profile with
    version := nextVersion (previous.map Profile.version)
    dhPublicKey := w.identity.dhPublicKey }
  let time ← now
  announceObject RECORD_PROFILE (profile.toObject w.identity time)

def resolveProfile (owner : IdentityId) : RunM (Option Profile) :=
  resolveOwnerRecord Profile.codec owner RECORD_PROFILE

def loadContactList : RunM (Option ContactList) :=
  loadOwnRecord ContactList.codec RECORD_CONTACTS

def saveContactList (contacts : ContactList) : RunM ObjectId := do
  let previous ← loadContactList
  let contacts := { contacts with version := nextVersion (previous.map ContactList.version) }
  let time ← now
  let w ← get
  publishObject RECORD_CONTACTS (contacts.toObject w.identity time)

end Profiles

section Usernames

def resolveUsername (owner : IdentityId) : RunM (Option UsernameRecord) :=
  resolveOwnerRecord UsernameRecord.codec owner RECORD_USERNAME

def usernameRegistryKey (username : String) : Bytes :=
  Codec.utf8 (USERNAME_REGISTRY_PREFIX ++ username)

/--
`Runtime::claim_username`
-/
def claimUsername (username : String) : RunM Unit := do
  let username ← ofExcept (normalizeUsername username)
  let w ← get
  let previous ← resolveUsername w.identity.id
  let record : UsernameRecord := {
    username := username
    version := nextVersion (previous.map UsernameRecord.version)
  }
  let time ← now
  let _ ← announceObject RECORD_USERNAME (record.toObject w.identity time)
  putRecord (usernameRegistryKey username) (Codec.utf8 w.identity.id.text)

/--
The pass of `owner_claiming_username` over the listed ids, with the owners found so far.
-/
def scanUsernameOwners (storage : Storage) : List ObjectId → List IdentityId →
    Option (List IdentityId)
  | [], owners => some owners
  | id :: ids, owners =>
    match storage.getVerified id with
    | .error _ => none
    | .ok object =>
      if object.objectType ≠ .appPointer then
        scanUsernameOwners storage ids owners
      else
        match object.decode AppPointerRecord.codec with
        | none => none
        | some record =>
          if record.name ≠ RECORD_USERNAME ∨ record.verify = false then
            scanUsernameOwners storage ids owners
          else if record.owner ∈ owners then
            scanUsernameOwners storage ids owners
          else
            scanUsernameOwners storage ids (owners ++ [record.owner])

/--
The first of `owners` whose username record says `username`.
-/
def firstClaiming (username : String) : List IdentityId → RunM (Option IdentityId)
  | [] => pure none
  | owner :: owners => do
    match ← Prog.attempt (resolveUsername owner) with
    | .ok (some record) =>
      if record.username = username then pure (some owner) else firstClaiming username owners
    | .ok none => firstClaiming username owners
    | .error _ => firstClaiming username owners

/--
`Runtime::owner_claiming_username`
-/
def ownerClaimingUsername (username : String) : RunM (Option IdentityId) := do
  match ← Prog.attempt list with
  | .error _ => pure none
  | .ok ids =>
    let w ← get
    match scanUsernameOwners w.storage ids [] with
    | none => pure none
    | some owners => firstClaiming username owners

/--
`Runtime::resolve_owner_from_username`
-/
def resolveOwnerFromUsername (username : String) : RunM (Option IdentityId) := do
  let username ← ofExcept (normalizeUsername username)
  match ← ownerClaimingUsername username with
  | some owner => pure (some owner)
  | none =>
    match ← Prog.attempt (getRecord (usernameRegistryKey username)) with
    | .error e => throw ("username lookup failed: " ++ e)
    | .ok none => pure none
    | .ok (some bytes) =>
      let idString ← ofOption "username registry record is not valid utf-8" (Codec.ofUtf8 bytes)
      let owner : IdentityId := ⟨idString⟩
      match ← resolveUsername owner with
      | some record => if record.username = username then pure (some owner) else pure none
      | none => pure none

end Usernames

end Runtime

end Canopee
