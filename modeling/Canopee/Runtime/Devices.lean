import Canopee.Runtime.Records
import Mathlib.Data.List.Sort

/-!
This module contains the device methods of the runtime: the device list of an identity, its merge
with the copies that peers hold, and the registry from devices to identities.
-/

namespace Canopee

open Primitives

variable [Primitives]

namespace Runtime

section Registry

/--
`Runtime::publish_record`
-/
def publishRecord (key value : Bytes) : RunM Unit := do
  let _ ← Prog.attempt (cacheRecord key value)
  putRecord key value

/--
`Runtime::resolve_record`
-/
def resolveRecord (key : Bytes) : RunM (Option Bytes) := do
  let w ← get
  match w.records.lookup (recordFile key) with
  | some bytes => pure (some bytes)
  | none =>
    match ← Prog.attempt (getRecord key) with
    | .ok (some value) =>
      let _ ← Prog.attempt (cacheRecord key value)
      pure (some value)
    | .ok none => pure none
    | .error _ => pure none

def deviceRegistryKey (device : PeerId) : Bytes :=
  Codec.utf8 (DEVICE_REGISTRY_PREFIX ++ device.base58)

/--
`Runtime::publish_device_registry`
-/
def publishDeviceRegistry : RunM Unit := do
  let w ← get
  publishRecord (deviceRegistryKey w.deviceKey.peerId) (Codec.utf8 w.identity.id.text)

/--
`Runtime::resolve_device_identity`
-/
def resolveDeviceIdentity (device : PeerId) : RunM (Option IdentityId) := do
  match ← resolveRecord (deviceRegistryKey device) with
  | none => pure none
  | some bytes =>
    let idString ← ofOption "device registry record is not valid utf-8" (Codec.ofUtf8 bytes)
    pure (some ⟨idString⟩)

end Registry

section Lists

/--
`Runtime::load_device_list`
-/
def loadDeviceList (owner : IdentityId) : RunM (Option DeviceList) :=
  resolveOwnerRecord DeviceList.codec owner RECORD_DEVICES

/--
`Vec::dedup`
-/
def dedupAdjacent {α : Type} [DecidableEq α] : List α → List α
  | [] => []
  | [a] => [a]
  | a :: b :: rest => if a = b then dedupAdjacent (b :: rest) else a :: dedupAdjacent (b :: rest)

/--
The manifests to ask for, in the order of their ids.
-/
def sortManifests (manifests : List ObjectId) : List ObjectId :=
  dedupAdjacent (manifests.insertionSort fun a b => a.text ≤ b.text)

/--
The peers to ask, in the order of their ids and without this device.
-/
def sortPeers (self : PeerId) (peers : List PeerId) : List PeerId :=
  (dedupAdjacent (peers.insertionSort fun a b => peerIdBytes a ≤ peerIdBytes b)).filter
    fun peer => peer ≠ self

/--
The best list so far, after the answer to one request.
-/
def betterList (owner : IdentityId) (best : Option DeviceList)
    (answer : Except String ExportBundle) : Option DeviceList :=
  match answer with
  | .error _ => best
  | .ok bundle =>
    if bundle.object.payload.owner ≠ owner then
      best
    else
      match bundle.object.decode DeviceList.codec with
      | none => best
      | some list =>
        match best with
        | none => some list
        | some b => if b.version < list.version then some list else best

/--
The requests of `fetch_freshest_device_list`, one after the other.
-/
def askForLists (owner : IdentityId) :
    List (ObjectId × PeerId) → Option DeviceList → RunM (Option DeviceList)
  | [], best => pure best
  | (manifest, peer) :: rest, best => do
    let answer ← Prog.attempt (getObject peer manifest)
    askForLists owner rest (betterList owner best answer)

/--
The providers of each manifest, one after the other; a failed lookup adds none.
-/
def providersOf : List ObjectId → RunM (List PeerId)
  | [] => pure []
  | manifest :: manifests => do
    let found ← Prog.attempt (findProviders manifest)
    let rest ← providersOf manifests
    match found with
    | .ok providers => pure (providers ++ rest)
    | .error _ => pure rest

/--
The manifests that this node knows of: the resolved pointer, the newest pointer object in the store
and the DHT's pointer.
-/
def knownManifests (owner : IdentityId) : RunM (List ObjectId) := do
  let resolved ← Prog.attempt (resolvePointer owner RECORD_DEVICES)
  let pushed ← latestPointerRecord owner RECORD_DEVICES
  let dht ← dhtPointer owner RECORD_DEVICES
  pure ((resolved.toOption.join.toList ++ pushed.toList ++ dht.toList).map (·.manifest))

/--
Which manifests to ask which peers for: the connected ones and the providers of each manifest.
-/
def listRequests (owner : IdentityId) : RunM (List (ObjectId × PeerId)) := do
  let known ← knownManifests owner
  let manifests := sortManifests known
  let connected ← Prog.attempt connectedPeers
  let providers ← providersOf manifests
  let w ← get
  let peers := sortPeers w.deviceKey.peerId (connected.toOption.getD [] ++ providers)
  pure (manifests.flatMap fun manifest => peers.map fun peer => (manifest, peer))

/--
`Runtime::fetch_freshest_device_list`
-/
def fetchFreshestDeviceList : RunM (Option DeviceList) := do
  let w ← get
  let requests ← listRequests w.identity.id
  askForLists w.identity.id requests none

/--
The union of `list` with the entries of `remote` whose device it does not have.
-/
def mergeEntries (devices : List DeviceEntry) : List DeviceEntry → List DeviceEntry
  | [] => devices
  | entry :: remote =>
    if devices.any (·.deviceId == entry.deviceId) then
      mergeEntries devices remote
    else
      mergeEntries (devices ++ [entry]) remote

def mergeLists (list : DeviceList) : Option DeviceList → DeviceList
  | none => list
  | some remote => {
      devices := mergeEntries list.devices remote.devices
      version := max list.version remote.version
    }

/--
`Runtime::load_device_list_merged`
-/
def loadDeviceListMerged : RunM DeviceList := do
  let w ← get
  let localList ← loadDeviceList w.identity.id
  match ← Prog.attempt fetchFreshestDeviceList with
  | .ok remote => pure (mergeLists (localList.getD DeviceList.empty) remote)
  | .error _ => pure (localList.getD DeviceList.empty)

/--
`Runtime::save_device_list`
-/
def saveDeviceList (list : DeviceList) : RunM ObjectId := do
  let w ← get
  let previous ← loadDeviceList w.identity.id
  let list := { list with version := nextVersion (previous.map DeviceList.version) }
  let time ← now
  announceObject RECORD_DEVICES (list.toObject w.identity time)

/--
The first entry of the device gets the name, and a time if it has none.
-/
def refreshEntry (deviceId deviceName : String) (time : OffsetDateTime) :
    List DeviceEntry → List DeviceEntry
  | [] => []
  | entry :: entries =>
    if entry.deviceId = deviceId then
      { entry with
        deviceName := deviceName
        addedAt := some (entry.addedAt.getD time) } :: entries
    else
      entry :: refreshEntry deviceId deviceName time entries

/--
What `add_device` saves, given the merged list.
-/
def withDevice (list : DeviceList) (deviceId deviceName : String) (time : OffsetDateTime) :
    DeviceList :=
  if list.hasDevice deviceId then
    { list with devices := refreshEntry deviceId deviceName time list.devices }
  else
    { list with devices := list.devices ++ [{
        deviceId := deviceId
        deviceName := deviceName
        addedAt := some time }] }

/--
`Runtime::add_device`
-/
def addDevice (deviceId deviceName : String) : RunM DeviceList := do
  let list ← loadDeviceListMerged
  let time ← now
  let list := withDevice list deviceId deviceName (dateTimeAt time)
  let _ ← saveDeviceList list
  pure list

/--
`Runtime::remove_device`
-/
def removeDevice (deviceId : String) : RunM DeviceList := do
  let w ← get
  if deviceId = w.deviceKey.peerId.base58 ∨ parsePeerId deviceId = some w.deviceKey.peerId then
    throw "the current device cannot be removed"
  else
    let list ← loadDeviceListMerged
    let list := { list with devices := list.devices.filter fun d => d.deviceId ≠ deviceId }
    let _ ← saveDeviceList list
    pure list

/--
`Runtime::register_device`
-/
def registerDevice : RunM Unit := do
  let w ← get
  let _ ← Prog.attempt (addDevice w.deviceKey.peerId.base58 w.deviceKey.deviceName)
  publishDeviceRegistry

def sortedIds (list : DeviceList) : List String :=
  (list.devices.map (·.deviceId)).insertionSort (· ≤ ·)

/--
The merged list with this device in it, as `reconcile_device_list` wants it.
-/
def withSelf (merged : DeviceList) (device : DeviceKey) (time : OffsetDateTime) : DeviceList :=
  if merged.hasDevice device.peerId.base58 then
    merged
  else
    { merged with devices := merged.devices ++ [{
        deviceId := device.peerId.base58
        deviceName := device.deviceName
        addedAt := some time }] }

def sameIds (a b : DeviceList) : Bool :=
  sortedIds a == sortedIds b

/--
`Runtime::reconcile_device_list`; returns the list that it saved, if any.
-/
def reconcileDeviceList : RunM (Option DeviceList) := do
  let w ← get
  let merged ← loadDeviceListMerged
  let localList ← loadDeviceList w.identity.id
  let time ← now
  let wanted := withSelf merged w.deviceKey (dateTimeAt time)
  if localList.any (sameIds wanted) then
    pure none
  else
    let _ ← saveDeviceList wanted
    pure (some wanted)

/--
`Runtime::resolve_device_peer_id`
-/
def resolveDevicePeerId (owner : IdentityId) : RunM (Option PeerId) := do
  let w ← get
  if owner = w.identity.id then
    pure (some w.deviceKey.peerId)
  else
    match ← loadDeviceList owner with
    | none => pure none
    | some list => pure (list.devices.findSome? fun d => parsePeerId d.deviceId)

end Lists

end Runtime

end Canopee
