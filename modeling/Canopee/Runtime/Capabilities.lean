import Canopee.Runtime.Records
import Canopee.Storage.Capability

/-!
This module contains the capability methods of the runtime: granting, revoking and checking.
-/

namespace Canopee

open Primitives

variable [Primitives]

namespace Runtime

/--
`Runtime::load_capability_index`
-/
def loadCapabilityIndex : RunM (Option CapabilityIndex) := do
  let w ← get
  resolveOwnerRecord CapabilityIndex.codec w.identity.id RECORD_CAPABILITIES

/--
`Runtime::save_capability_index`
-/
def saveCapabilityIndex (index : CapabilityIndex) : RunM ObjectId := do
  let index := { index with version := index.version + 1 }
  let time ← now
  let w ← get
  publishObject RECORD_CAPABILITIES (index.toObject w.identity time)

/--
The first part of `grant_capability`: the grant is signed and stored and the index read.
-/
def grantCapabilityLoad (subject : IdentityId) (resource : Resource)
    (permissions : List Permission) (expiresAt : Option UInt64) :
    RunM (Capability × CapabilityIndex) := do
  let time ← now
  let w ← get
  let capability := Capability.issue w.identity time subject resource permissions expiresAt
  let stamp ← now
  putVerified (capability.toObject w.identity stamp)
  let index ← loadCapabilityIndex
  pure (capability, index.getD CapabilityIndex.empty)

/--
The rest of `grant_capability`: the index with the grant in it is published.
-/
def grantCapabilityPublish (loaded : Capability × CapabilityIndex) : RunM Capability := do
  let (capability, index) := loaded
  let _ ← saveCapabilityIndex { index with
    entries := index.entries ++ [{ capability := capability, revoked := false }] }
  pure capability

/--
`Runtime::grant_capability`
-/
def grantCapability (subject : IdentityId) (resource : Resource) (permissions : List Permission)
    (expiresAt : Option UInt64) : RunM Capability := do
  let loaded ← grantCapabilityLoad subject resource permissions expiresAt
  grantCapabilityPublish loaded

/--
The first part of `revoke_capability`: the index that it read.
-/
def revokeCapabilityLoad : RunM CapabilityIndex := do
  let index ← loadCapabilityIndex
  ofOption "no capabilities issued yet" index

/--
The rest of `revoke_capability`: the index with the entry revoked is published.
-/
def revokeCapabilityPublish (id : CapabilityId) (index : CapabilityIndex) : RunM Unit := do
  let entries ← ofOption ("no capability with id " ++ id.text)
    (CapabilityIndex.revokeFirst id index.entries)
  let _ ← saveCapabilityIndex { index with entries := entries }
  pure ()

/--
`Runtime::revoke_capability`
-/
def revokeCapability (id : CapabilityId) : RunM Unit := do
  let index ← revokeCapabilityLoad
  revokeCapabilityPublish id index

/--
The revocation state that an index gives an id.
-/
def revokedIn (id : CapabilityId) (index : CapabilityIndex) : Bool :=
  match index.byId id with
  | some entry => entry.revoked
  | none => false

/--
`Runtime::check_remote_revocation`
-/
def checkRemoteRevocation (owner : IdentityId) (id : CapabilityId) : RunM Bool := do
  match ← Prog.attempt (resolveOwnerObject owner RECORD_CAPABILITIES) with
  | .ok (some object) =>
    match object.decode CapabilityIndex.codec with
    | some index => pure (revokedIn id index)
    | none => pure false
  | .ok none => pure false
  | .error _ => pure false

/--
Why a capability is not active at `now`.
-/
def inactiveReason (capability : Capability) (now : UInt64) : String :=
  match capability.expiresAt with
  | some exp => if exp < now then "expired at " ++ exp.toNat.repr else "not yet issued"
  | none => "not yet issued"

/--
The revocation part of `check_capability`.
-/
def isRevoked (capability : Capability) : RunM Bool := do
  let w ← get
  if capability.issuer = w.identity.id then
    match ← loadCapabilityIndex with
    | some index => pure (revokedIn capability.id index)
    | none => pure false
  else
    checkRemoteRevocation capability.issuer capability.id

/--
`Runtime::check_capability`
-/
def checkCapability (capability : Capability) : RunM (Bool × String) := do
  let time ← now
  let time := Capability.nowTs time
  if !capability.verify then
    pure (false, "signature or content id invalid")
  else if !capability.isActiveAt time then
    pure (false, inactiveReason capability time)
  else
    let revoked ← isRevoked capability
    if revoked then
      pure (false, "revoked by the issuer")
    else
      pure (true, "grant verified")

/--
`Runtime::check_access`
-/
def checkAccess (subject : IdentityId) (permission : Permission) (resource : Resource) :
    RunM Bool := do
  match ← loadCapabilityIndex with
  | none => pure false
  | some index =>
    let time ← now
    pure (index.grants subject resource permission (Capability.nowTs time))

end Runtime

end Canopee
