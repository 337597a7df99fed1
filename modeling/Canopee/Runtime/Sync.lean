import Canopee.Runtime.Devices

/-!
This module contains the synchronization of this identity's records from other devices.
-/

namespace Canopee

variable [Primitives]

namespace Runtime

/--
`record` is newer than what the record cache holds.
-/
def isNewer (cached : Option AppPointerRecord) (record : AppPointerRecord) : Bool :=
  match cached with
  | some current => decide (current.publishedAt < record.publishedAt)
  | none => true

/--
Fetch what `record` names and cache `record`.
-/
def adoptPointer (name : String) (record : AppPointerRecord) : RunM Unit := do
  let w ← get
  let _ ← fetchObject record.manifest none
  cacheRecord (AppPointerRecord.key w.identity.id name) (AppPointerRecord.codec.serialize record)

/--
The DHT part of `sync_record`.
-/
def syncFromDht (name : String) (cached : Option AppPointerRecord) : RunM Bool := do
  let w ← get
  match ← dhtPointer w.identity.id name with
  | none => pure false
  | some record =>
    if isNewer cached record then
      adoptPointer name record
      pure true
    else
      pure false

/--
`Runtime::sync_record`
-/
def syncRecord (name : String) : RunM Bool := do
  let w ← get
  let cached := cachedPointer w w.identity.id name
  match ← latestPointerRecord w.identity.id name with
  | some pushed =>
    if isNewer cached pushed then
      adoptPointer name pushed
      pure true
    else
      syncFromDht name cached
  | none => syncFromDht name cached

structure SyncResult where
  profileUpdated : Bool
  contactsUpdated : Bool
  devicesUpdated : Bool

/--
`Runtime::sync_records`
-/
def syncRecords : RunM SyncResult := do
  let profile ← syncRecord RECORD_PROFILE
  let contacts ← syncRecord RECORD_CONTACTS
  let devices ← syncRecord RECORD_DEVICES
  pure { profileUpdated := profile, contactsUpdated := contacts, devicesUpdated := devices }

/--
`Runtime::sync_with_all_devices`
-/
def syncWithAllDevices : RunM SyncResult := do
  let w ← get
  let _ ← loadDeviceList w.identity.id
  syncRecords

end Runtime

end Canopee
