import Canopee.Runtime.Capabilities
import Canopee.Runtime.Maintenance
import Canopee.Runtime.Sharing
import Canopee.Runtime.Sync

/-!
This module contains a node as the sequence of requests that it carries out: each request runs one
runtime method in an environment of its own.
-/

namespace Canopee

variable [Primitives]

namespace Runtime

/--
`Runtime::reshare_public_user_records`, for one record.
-/
def reshareRecord (name : String) : RunM Unit := do
  let w ← get
  match (w.records.lookup (recordFile (AppPointerRecord.key w.identity.id name))).bind
      AppPointerRecord.codec.deserialize with
  | none => pure ()
  | some record =>
    if record.verify = true ∧ w.storage.existsObject record.manifest = true then
      let _ ← Prog.attempt (announce record.manifest)
      pure ()
    else
      pure ()

/--
`Runtime::open_with_config` on the disk of this node: the identity is the one in the key file, and
what lives in memory starts anew.
-/
def reopen : RunM Unit := do
  let w ← get
  let env ← read
  let bytes ← ofOption "no identity key" w.keyFile
  let identity ← ofOption "invalid keypair file" (Identity.loadAtRest bytes env.passphrase)
  modify fun w => { w with
    identity := identity
    cache := w.sidecar
    shared := ∅
    pairing := none }
  match ← Prog.attempt loadHomeIndex with
  | .ok index => reconcileShared none index
  | .error _ => pure ()
  reshareRecord RECORD_PROFILE
  reshareRecord RECORD_USERNAME
  reshareRecord RECORD_DEVICES
  registerDevice

end Runtime

open Canopee.Runtime

/--
The requests of users, peers and timers.
-/
inductive NodeOp where
  | putObjectFor (data : Bytes) (objectType : ObjectType) (name : Option String)
      (recipients : List Key32)
  | putObjectPublic (data : Bytes) (objectType : ObjectType) (name : Option String)
  | concatObjects (ids : List ObjectId) (name : Option String)
  | importBundle (bundle : ExportBundle)
  | fetchObject (id : ObjectId) (source : Option PeerId)
  | readObject (id : ObjectId)
  | objectRequest (request : ObjectRequest)
  | announce (id : ObjectId)
  | markShared (id : ObjectId)
  | evict (id : ObjectId)
  | evictIfOverCap (cap : UInt64)
  | deleteObject (id : ObjectId)
  | publishPointer (name : String) (target : ObjectId)
  | resolvePointer (owner : IdentityId) (name : String)
  | saveProfile (profile : Profile)
  | resolveProfile (owner : IdentityId)
  | resolveUsername (owner : IdentityId)
  | saveContactList (contacts : ContactList)
  | claimUsername (username : String)
  | resolveOwnerFromUsername (username : String)
  | loadDeviceList (owner : IdentityId)
  | saveDeviceList (list : DeviceList)
  | addDevice (deviceId deviceName : String)
  | removeDevice (deviceId : String)
  | reconcileDeviceList
  | resolveDeviceIdentity (device : PeerId)
  | resolveDevicePeerId (owner : IdentityId)
  | saveHomeIndex (index : HomeIndex)
  | setHomeEntryShared (name : String) (shared : Bool)
  | shareObjectFor (name : String) (id : ObjectId) (app : Option String) (recipients : List Key32)
  | grantCapability (subject : IdentityId) (resource : Resource) (permissions : List Permission)
      (expiresAt : Option UInt64)
  | revokeCapability (id : CapabilityId)
  | checkCapability (capability : Capability)
  | checkAccess (subject : IdentityId) (permission : Permission) (resource : Resource)
  | syncWithAllDevices
  | initiatePairing
  | acceptPairing (incoming : InboundPairing)
  | importIdentity (bytes : Bytes) (transferPassphrase : String) (overwrite : Bool)
  | reopen

namespace NodeOp

def discard {α : Type} (m : RunM α) : RunM Unit := do
  let _ ← m
  pure ()

theorem exec_discard {α : Type} (m : RunM α) (env : Env) (w : Runtime) :
    (Prog.exec (discard m) env w).2 = (Prog.exec m env w).2 := by
  rw [discard, Prog.exec_bind]
  rcases Prog.exec m env w with ⟨_ | _, t⟩
  . rfl
  . rfl

def perform : NodeOp → RunM Unit
  | putObjectFor data objectType name recipients =>
    discard (Runtime.putObjectFor data objectType name recipients)
  | putObjectPublic data objectType name => discard (Runtime.putObjectPublic data objectType name)
  | concatObjects ids name => discard (Runtime.concatObjects ids name)
  | importBundle bundle => Runtime.importBundle bundle
  | fetchObject id source => discard (Runtime.fetchObject id source)
  | readObject id => discard (Runtime.readObject id)
  | objectRequest request => discard (handleObjectRequest request)
  | announce id => Runtime.announce id
  | markShared id => Runtime.markShared id
  | evict id => Runtime.evict id
  | evictIfOverCap cap => Runtime.evictIfOverCap cap
  | deleteObject id => Runtime.deleteObject id
  | publishPointer name target => Runtime.publishPointer name target
  | resolvePointer owner name => discard (Runtime.resolvePointer owner name)
  | saveProfile profile => discard (Runtime.saveProfile profile)
  | resolveProfile owner => discard (Runtime.resolveProfile owner)
  | resolveUsername owner => discard (Runtime.resolveUsername owner)
  | saveContactList contacts => discard (Runtime.saveContactList contacts)
  | claimUsername username => Runtime.claimUsername username
  | resolveOwnerFromUsername username => discard (Runtime.resolveOwnerFromUsername username)
  | loadDeviceList owner => discard (Runtime.loadDeviceList owner)
  | saveDeviceList list => discard (Runtime.saveDeviceList list)
  | addDevice deviceId deviceName => discard (Runtime.addDevice deviceId deviceName)
  | removeDevice deviceId => discard (Runtime.removeDevice deviceId)
  | reconcileDeviceList => discard Runtime.reconcileDeviceList
  | resolveDeviceIdentity device => discard (Runtime.resolveDeviceIdentity device)
  | resolveDevicePeerId owner => discard (Runtime.resolveDevicePeerId owner)
  | saveHomeIndex index => discard (Runtime.saveHomeIndex index)
  | setHomeEntryShared name shared => discard (Runtime.setHomeEntryShared name shared)
  | shareObjectFor name id app recipients => discard (Runtime.shareObjectFor name id app recipients)
  | grantCapability subject resource permissions expiresAt =>
    discard (Runtime.grantCapability subject resource permissions expiresAt)
  | revokeCapability id => Runtime.revokeCapability id
  | checkCapability capability => discard (Runtime.checkCapability capability)
  | checkAccess subject permission resource =>
    discard (Runtime.checkAccess subject permission resource)
  | syncWithAllDevices => discard Runtime.syncWithAllDevices
  | initiatePairing => discard Runtime.initiatePairing
  | acceptPairing incoming => discard (Runtime.acceptPairing incoming)
  | importIdentity bytes transferPassphrase overwrite =>
    discard (Runtime.importIdentity bytes transferPassphrase overwrite)
  | reopen => Runtime.reopen

/--
One request, in the environment `l.2`: its outcome goes to whoever asked, the state stays.
-/
def step (l : NodeOp × Env) (w : Runtime) : Runtime :=
  (Prog.exec l.1.perform l.2 w).2

end NodeOp

end Canopee
