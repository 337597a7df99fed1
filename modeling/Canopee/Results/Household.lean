import Canopee.Results.DeviceVersions
import Canopee.Results.RecordSync

/-!
This module contains the device lists of several devices of one identity, over every interleaving of
their registrations, reconciliations and synchronizations.
-/

namespace Canopee

open Primitives
open Canopee.Runtime
open Prog (Keeps Triple exec exec_bind_ok exec_bind_error exec_bind_eq_ok)

variable [Primitives]

namespace DeviceList

def ids (list : DeviceList) : List String :=
  list.devices.map (·.deviceId)

end DeviceList

namespace Runtime

section Ids

variable {list : DeviceList}

theorem devices_mergeLists (list : DeviceList) (remote : Option DeviceList) :
    list.devices ⊆ (mergeLists list remote).devices := by
  cases remote with
  | none => exact List.Subset.refl _
  | some remote => exact fun _ hentry => mem_mergeEntries_of_mem remote.devices hentry

theorem devices_withSelf (merged : DeviceList) (device : DeviceKey) (time : OffsetDateTime) :
    merged.devices ⊆ (withSelf merged device time).devices := by
  unfold withSelf
  split
  . exact List.Subset.refl _
  . exact List.subset_append_left _ _

theorem ids_mergeLists (list : DeviceList) (remote : Option DeviceList) :
    list.ids ⊆ (mergeLists list remote).ids :=
  List.map_subset _ (devices_mergeLists list remote)

theorem ids_refreshEntry (deviceId deviceName : String) (time : OffsetDateTime)
    (entries : List DeviceEntry) :
    (refreshEntry deviceId deviceName time entries).map (·.deviceId) =
      entries.map (·.deviceId) := by
  induction entries with
  | nil => rfl
  | cons entry entries ih =>
    rw [refreshEntry]
    split
    . rfl
    . rw [List.map_cons, List.map_cons, ih]

theorem ids_withDevice (list : DeviceList) (deviceId deviceName : String) (time : OffsetDateTime) :
    list.ids ⊆ (withDevice list deviceId deviceName time).ids := by
  unfold withDevice
  split
  . rw [DeviceList.ids, DeviceList.ids, ids_refreshEntry]
    exact List.Subset.refl _
  . rw [DeviceList.ids, DeviceList.ids, List.map_append]
    exact List.subset_append_left _ _

theorem ids_withSelf (merged : DeviceList) (device : DeviceKey) (time : OffsetDateTime) :
    merged.ids ⊆ (withSelf merged device time).ids :=
  List.map_subset _ (devices_withSelf merged device time)

end Ids

section Registered

variable {env : Env} {self : Identity} {list : DeviceList} {w : Runtime}

/--
The local list of the node, which its cached pointer names, is `list`.
-/
def Registered (self : Identity) (list : DeviceList) (w : Runtime) : Prop :=
  w.identity = self ∧ Records DeviceList.codec RECORD_DEVICES list w

theorem fetches_registered (hash : CollisionFree) (env : Env) (self : Identity)
    (list : DeviceList) : Fetches env (Registered self list) (fun _ => True) where
  toPushes := (pushes_identity env self).and (pushes_records hash env _ _ list)
  answered _ _ _ _ := trivial
  own _ _ _ := trivial

theorem registered_remembers (w : Runtime) (hw : Registered self list w) :
    Remembers (Registered self list) w.identity.id RECORD_DEVICES := by
  intro v bytes hv hnone
  obtain ⟨payload, hpublishes, _⟩ := hv.2
  obtain ⟨record, hcached, _⟩ := hpublishes.cached
  rw [hv.1, ← hw.1, hnone] at hcached
  cases hcached

theorem exec_loadDeviceList (hw : Registered self list w) (env : Env) :
    exec (loadDeviceList w.identity.id) env w = (.ok (some list), w) :=
  hw.2.exec_resolveOwnerRecord env

theorem localList_registered (hw : Registered self list w) (env : Env) :
    localList env w = list := by
  rw [localList, exec_loadDeviceList hw env]
  rfl

theorem ids_merged (hw : Registered self list w) {merged : DeviceList}
    (h : (exec loadDeviceListMerged env w).1 = .ok merged) : list.ids ⊆ merged.ids := by
  obtain ⟨best, rfl, _⟩ := loadDeviceListMerged_eq_ok h
  rw [localList_registered hw env]
  exact ids_mergeLists list best

/--
A device list is saved, or the old one is left.
-/
theorem saveDeviceList_triple (laws : SignatureLaws) (hash : CollisionFree) (next : DeviceList) :
    Triple env (Registered self list) (saveDeviceList next)
      (fun _ w => ∃ saved, saved.devices = next.devices ∧ Registered self saved w)
      (Registered self list) := by
  have hI := fetches_registered hash env self list
  have hany : Spared env (AppPointerRecord.key self.id RECORD_DEVICES) (fun _ => True) := {
    toPushes := .ofDisk (fun _ _ _ _ => trivial) (fun _ _ _ _ _ => trivial) (fun _ _ _ _ => trivial)
    record := fun _ _ _ => trivial
  }
  have hshares : Shares (Registered self list) :=
    fun w _ hw => ⟨hw.1, hw.2.congr ⟨rfl, rfl, rfl⟩⟩
  unfold saveDeviceList
  apply Triple.bind (Q := fun a w => a.identity = self ∧ a = w ∧ Registered self list w)
  . exact Triple.get fun w hw => ⟨hw.1, rfl, hw⟩
  . intro a
    apply Triple.of_and
    intro hself
    apply Triple.bind (Q := fun found w => found = some list ∧ Registered self list w)
    . constructor
      intro w ⟨ha, hw⟩
      rw [ha, exec_loadDeviceList hw env]
      exact ⟨rfl, hw⟩
    . intro found
      apply Triple.of_and
      intro hfound
      rw [hfound, hself]
      dsimp only
      apply Triple.bind (Q := fun _ => Registered self list)
      . exact hI.keeps_now.triple
      . intro time
        apply (announceObject_triple laws hash hI.toPushes hshares hany (fun _ _ _ => trivial)
          rfl rfl).conseq
        . intro w hw
          exact ⟨hw.1, hw, trivial⟩
        . intro _ w ⟨hw, _, hpublishes⟩
          refine ⟨{ next with version := nextVersion (some list.version) }, rfl, hw, _, hpublishes, ?_⟩
          exact decode_toObject DeviceList.codec _ _ _ _
        . intro w hw
          exact hw.2.1

theorem keeps_prepare (hash : CollisionFree) (op : DeviceOp) :
    Keeps env (Registered self list) op.prepare := by
  have hI := fetches_registered hash env self list
  have hmerged := hI.keeps_loadDeviceListMerged registered_remembers
  cases op with
  | add deviceId deviceName =>
    apply Keeps.bind hmerged
    intro merged _
    apply Keeps.bind hI.keeps_now
    intro time _
    exact Keeps.pure trivial
  | remove deviceId =>
    apply Keeps.bind_get
    intro a _
    split
    . exact Keeps.throw
    . apply Keeps.bind hmerged
      intro merged _
      exact Keeps.pure trivial
  | reconcile =>
    apply Keeps.bind_get
    intro a ha
    apply Keeps.bind hmerged
    intro merged _
    apply Keeps.bind (hI.keeps_resolveOwnerRecord _ (registered_remembers a ha))
    intro localList _
    apply Keeps.bind hI.keeps_now
    intro time _
    dsimp only
    split
    . exact Keeps.pure trivial
    . exact Keeps.pure trivial

theorem perform_registered (laws : SignatureLaws) (hash : CollisionFree) (op : DeviceOp)
    (hw : Registered self list w) (env : Env) :
    ((exec op.perform env w).1.toOption.join = none ∧
        Registered self list (exec op.perform env w).2) ∨
      ∃ next saved, (exec op.perform env w).1 = .ok (some next) ∧ saved.devices = next.devices ∧
        Registered self saved (exec op.perform env w).2 := by
  have hkeeps : Keeps env (Registered self list) op.prepare := keeps_prepare hash op
  have hprepare := hkeeps.state hw
  rw [DeviceOp.perform_eq]
  generalize hprepared : exec op.prepare env w = prepared at hprepare
  rcases prepared with ⟨e | none | next, w'⟩
  . rw [exec_bind_error hprepared]
    exact .inl ⟨rfl, hprepare⟩
  . rw [exec_bind_ok hprepared]
    exact .inl ⟨rfl, hprepare⟩
  . rw [exec_bind_ok hprepared, DeviceOp.save]
    have htriple : Triple env (Registered self list) (saveDeviceList next)
        (fun _ w => ∃ saved, saved.devices = next.devices ∧ Registered self saved w)
        (Registered self list) := saveDeviceList_triple laws hash next
    have hsave := htriple.spec w' hprepare
    generalize hres : exec (saveDeviceList next) env w' = res at hsave
    rcases res with ⟨e | id, w''⟩
    . rw [exec_bind_error hres]
      exact .inl ⟨rfl, hsave⟩
    . rw [exec_bind_ok hres]
      obtain ⟨saved, hdevices, hsaved⟩ := hsave
      exact .inr ⟨next, saved, rfl, hdevices, hsaved⟩

theorem addDevice_registered (laws : SignatureLaws) (hash : CollisionFree)
    (hw : Registered self list w) (deviceId deviceName : String) :
    ∃ saved, list.ids ⊆ saved.ids ∧
      Registered self saved (exec (addDevice deviceId deviceName) env w).2 := by
  have hstate : (exec (DeviceOp.add deviceId deviceName).perform env w).2 =
      (exec (addDevice deviceId deviceName) env w).2 := by
    rw [DeviceOp.perform, Prog.exec_bind]
    rcases exec (addDevice deviceId deviceName) env w with ⟨_ | _, t⟩
    . rfl
    . rfl
  rw [← hstate]
  rcases perform_registered laws hash (.add deviceId deviceName) hw env with
    ⟨_, hkept⟩ | ⟨next, saved, hreturned, hdevices, hsaved⟩
  . exact ⟨list, List.Subset.refl _, hkept⟩
  . obtain ⟨added, hadded, hreturned⟩ := exec_bind_eq_ok hreturned
    cases hreturned
    obtain ⟨merged, time, hmerged, rfl⟩ := addDevice_eq_ok hadded
    have hids : saved.ids = (withDevice merged deviceId deviceName time).ids :=
      congrArg (List.map _) hdevices
    refine ⟨saved, ?_, hsaved⟩
    rw [hids]
    exact List.Subset.trans (ids_merged hw hmerged) (ids_withDevice merged _ _ time)

theorem reconcileDeviceList_registered (laws : SignatureLaws) (hash : CollisionFree)
    (hw : Registered self list w) :
    ∃ saved, list.ids ⊆ saved.ids ∧
      Registered self saved (exec reconcileDeviceList env w).2 := by
  rcases perform_registered laws hash .reconcile hw env with
    ⟨_, hkept⟩ | ⟨next, saved, hreturned, hdevices, hsaved⟩
  . exact ⟨list, List.Subset.refl _, hkept⟩
  . obtain ⟨merged, time, hmerged, rfl⟩ := reconcileDeviceList_eq_ok hreturned
    have hids : saved.ids = (withSelf merged w.deviceKey time).ids :=
      congrArg (List.map _) hdevices
    refine ⟨saved, ?_, hsaved⟩
    rw [hids]
    exact List.Subset.trans (ids_merged hw hmerged) (ids_withSelf merged w.deviceKey time)

end Registered

section Local

variable {env : Env} {self : Identity} {list : DeviceList} {w : Runtime}

/--
The device list of this identity that the store has for `manifest`.
-/
def listAt (w : Runtime) (manifest : ObjectId) : Option DeviceList :=
  match w.storage.getVerified manifest with
  | .error _ => none
  | .ok object =>
    if object.payload.owner = w.identity.id then object.decode DeviceList.codec else none

/--
The local device list: what the cached pointer names, if it is in the store.
-/
def localDevices (w : Runtime) : Option DeviceList :=
  (cachedPointer w w.identity.id RECORD_DEVICES).bind fun record => listAt w record.manifest

theorem listAt_eq_some {manifest : ObjectId} :
    listAt w manifest = some list ↔ ∃ object, w.storage.getVerified manifest = .ok object ∧
      object.payload.owner = w.identity.id ∧ object.decode DeviceList.codec = some list := by
  unfold listAt
  cases w.storage.getVerified manifest with
  | error e => simp
  | ok object =>
    by_cases howner : object.payload.owner = w.identity.id
    . simp [howner]
    . simp [howner]

theorem localDevices_eq_some :
    localDevices w = some list ↔ Records DeviceList.codec RECORD_DEVICES list w := by
  simp only [localDevices, Option.bind_eq_some_iff, listAt_eq_some]
  constructor
  . intro ⟨record, hcached, object, hstored, howner, hdecode⟩
    have hid : record.manifest = ObjectId.fromPayload object.payload := by
      rw [← Storage.id_of_getVerified hstored]
      exact Object.id_of_verify (Storage.verify_of_getVerified hstored)
    refine ⟨object.payload, ⟨⟨record, hcached, hid⟩, ⟨object, ?_, rfl⟩, howner⟩, hdecode⟩
    rw [← hid]
    exact hstored
  . intro ⟨payload, hpublishes, hdecode⟩
    obtain ⟨record, hcached, hmanifest⟩ := hpublishes.cached
    obtain ⟨object, hstored, hpayload⟩ := hpublishes.stores
    refine ⟨record, hcached, object, ?_, ?_, ?_⟩
    . rw [hmanifest]
      exact hstored
    . rw [hpayload]
      exact hpublishes.owner
    . rw [Object.decode, hpayload]
      exact hdecode

/--
A device list that a synchronization adopts has all devices of the local one.
-/
def AdoptsAll (env : Env) (w : Runtime) : Prop :=
  ∀ record b, Adopts env RECORD_DEVICES w record b → record.Authentic w.identity.id RECORD_DEVICES ∧
    ∃ next, listAt b record.manifest = some next ∧
      ∀ list, localDevices w = some list → list.ids ⊆ next.ids

theorem syncRecord_registered (hash : CollisionFree) (hw : Registered self list w)
    (h : AdoptsAll env w) :
    ∃ saved, list.ids ⊆ saved.ids ∧
      Registered self saved (exec (syncRecord RECORD_DEVICES) env w).2 := by
  rcases syncRecord_cases RECORD_DEVICES (fetches_registered hash env self list) hw with
    ⟨_, hkept⟩ | hadopted
  . exact ⟨list, List.Subset.refl _, hkept⟩
  . obtain ⟨record, b, hadopts, hb, hidentity, hexec⟩ := hadopted
    obtain ⟨hauthentic, next, hnext, hids⟩ := h record b hadopts
    rw [hexec]
    refine ⟨next, hids list (localDevices_eq_some.mpr hw.2), hb.1, ?_⟩
    rw [← localDevices_eq_some]
    have hcached := cachedPointer_adopted w.identity hauthentic { b with tick := b.tick + 1 }
    have hself : (storeRecord (recordFile (AppPointerRecord.key w.identity.id RECORD_DEVICES))
        (AppPointerRecord.codec.serialize record) { b with tick := b.tick + 1 }).identity =
        w.identity := hidentity
    rw [localDevices, hself, hcached, ← hnext]
    rfl

end Local

end Runtime

/--
Devices of one identity, and the ids that have been in the local device list of each.
-/
structure Household (ι : Type) where
  nodes : ι → Runtime
  once : ι → List String

inductive HouseholdOp where
  | add (deviceId deviceName : String)
  | reconcile
  | sync

namespace Household

variable {ι : Type} [DecidableEq ι]

def perform : HouseholdOp → RunM Unit
  | .add deviceId deviceName => NodeOp.discard (addDevice deviceId deviceName)
  | .reconcile => NodeOp.discard reconcileDeviceList
  | .sync => NodeOp.discard (syncRecord RECORD_DEVICES)

/--
A request on one of the devices.
-/
def step (l : ι × HouseholdOp × Env) (s : Household ι) : Household ι :=
  let node := (exec (perform l.2.1) l.2.2 (s.nodes l.1)).2
  { nodes := Function.update s.nodes l.1 node
    once := Function.update s.once l.1
      (s.once l.1 ++ ((localDevices node).map DeviceList.ids).getD []) }

/--
A reconciliation that succeeds has every id in the local list that has been in it.
-/
def Restores : ι × HouseholdOp × Env → Household ι → Prop
  | (i, .reconcile, env), s => (exec reconcileDeviceList env (s.nodes i)).1.toBool = true →
    ∀ id ∈ s.once i, ∃ list, localDevices ((step (i, .reconcile, env) s).nodes i) = some list ∧
      id ∈ list.ids
  | _, _ => True

/--
Every other device is connected to device `i` and answers with its current list.
-/
def Reachable (env : Env) (s : Household ι) (i : ι) : Prop :=
  ∀ j, j ≠ i → ∀ record object,
    cachedPointer (s.nodes j) (s.nodes j).identity.id RECORD_DEVICES = some record →
    (s.nodes j).storage.getVerified record.manifest = .ok object → ∀ t,
    (∃ peers, env.peers t = .ok peers ∧ (s.nodes j).deviceKey.peerId ∈ peers) ∧
      env.exchange t (s.nodes j).deviceKey.peerId (.getObject record.manifest) =
        .ok (.object ⟨1, object⟩)

/--
A synchronization adopts no device list that lacks a device of the local one.
-/
def Gentle : ι × HouseholdOp × Env → Household ι → Prop
  | (i, .sync, env), s => AdoptsAll env (s.nodes i)
  | _, _ => True

/--
The invariant: the local list of each device has every id that has been in it.
-/
def Complete (s : Household ι) : Prop :=
  ∀ i, s.once i = [] ∨ ∃ list, Registered (s.nodes i).identity list (s.nodes i) ∧
    s.once i ⊆ list.ids

omit [DecidableEq ι] in
theorem perform_registered (laws : SignatureLaws) (hash : CollisionFree)
    {l : ι × HouseholdOp × Env} {s : Household ι} (h : Gentle l s) {self : Identity}
    {list : DeviceList} (hw : Registered self list (s.nodes l.1)) :
    ∃ saved, list.ids ⊆ saved.ids ∧
      Registered self saved (exec (perform l.2.1) l.2.2 (s.nodes l.1)).2 := by
  obtain ⟨i, op, env⟩ := l
  cases op with
  | add deviceId deviceName =>
    rw [perform, NodeOp.exec_discard]
    exact addDevice_registered laws hash hw deviceId deviceName
  | reconcile =>
    rw [perform, NodeOp.exec_discard]
    exact reconcileDeviceList_registered laws hash hw
  | sync =>
    rw [perform, NodeOp.exec_discard]
    exact syncRecord_registered hash hw h

theorem once_step_of_ne {l : ι × HouseholdOp × Env} {s : Household ι} {i : ι} (h : i ≠ l.1) :
    (step l s).nodes i = s.nodes i ∧ (step l s).once i = s.once i :=
  ⟨Function.update_of_ne h _ _, Function.update_of_ne h _ _⟩

theorem complete_step (laws : SignatureLaws) (hash : CollisionFree) {l : ι × HouseholdOp × Env}
    {s : Household ι} (h : Gentle l s) (hs : Complete s) : Complete (step l s) := by
  intro i
  by_cases hi : i = l.1
  . rw [hi]
    simp only [step, Function.update_self]
    generalize hnode : (exec (perform l.2.1) l.2.2 (s.nodes l.1)).2 = node
    cases hs l.1 with
    | inl hnone =>
      rw [hnone, List.nil_append]
      cases hlist : localDevices node with
      | none => exact .inl rfl
      | some list =>
        exact .inr ⟨list, ⟨rfl, localDevices_eq_some.mp hlist⟩, List.Subset.refl _⟩
    | inr hsome =>
      obtain ⟨list, hregistered, honce⟩ := hsome
      obtain ⟨saved, hids, hsaved⟩ := perform_registered laws hash h hregistered
      rw [hnode] at hsaved
      refine .inr ⟨saved, ⟨rfl, hsaved.2⟩, ?_⟩
      rw [localDevices_eq_some.mpr hsaved.2, Option.map_some, Option.getD_some]
      exact List.append_subset.mpr ⟨List.Subset.trans honce hids, List.Subset.refl _⟩
  . obtain ⟨hnode, honce⟩ := once_step_of_ne hi
    rw [hnode, honce]
    exact hs i

theorem restores_of_complete (laws : SignatureLaws) (hash : CollisionFree)
    {l : ι × HouseholdOp × Env} {s : Household ι} (hs : Complete s) : Restores l s := by
  obtain ⟨i, op, env⟩ := l
  cases op with
  | add deviceId deviceName => trivial
  | sync => trivial
  | reconcile =>
    intro _ id hid
    cases hs i with
    | inl hnone =>
      rw [hnone] at hid
      cases hid
    | inr hsome =>
      obtain ⟨list, hregistered, honce⟩ := hsome
      obtain ⟨saved, hids, hsaved⟩ := perform_registered laws hash (l := (i, .reconcile, env))
        trivial hregistered
      refine ⟨saved, ?_, hids (honce hid)⟩
      rw [localDevices_eq_some]
      simp only [step, Function.update_self]
      exact hsaved.2

end Household

end Canopee

namespace Canopee.Household

open Canopee.Runtime
open Prog (exec)

section Witness

open Canopee.Transparent

/--
Two devices register.
-/
def bothRegister : List (Bool × HouseholdOp × Env) :=
  [(false, .add "aa" "laptop", Env.quiet 0), (true, .add "bb" "desktop", Env.quiet 1),
    (false, .reconcile, Env.quiet 2)]

end Witness

section Counterexample

open Canopee.Compact

def desktop : DeviceKey where
  peerId := ⟨"bb"⟩
  deviceName := "desktop"

def household : Household Bool where
  nodes
    | false => fresh alice laptop
    | true => fresh alice desktop
  once _ := []

/--
The list of the desktop, which has registered while nobody was reachable.
-/
def desktopObject : Object :=
  DeviceList.toObject ⟨[⟨"bb", "desktop", some (Primitives.dateTimeAt 2)⟩], 1⟩ alice 2

def desktopPointer : AppPointerRecord :=
  .sign alice 2 RECORD_DEVICES desktopObject.id

/--
The desktop is connected and serves its list, and the DHT has its pointer.
-/
def withDesktop : Env :=
  { answering desktopObject with
    clock := fun _ => 3
    record := fun _ _ => .ok (some (AppPointerRecord.codec.serialize desktopPointer)) }

/--
The laptop registers itself and a phone, the desktop registers itself, then the laptop synchronizes
and reconciles.
-/
def crossing : List (Bool × HouseholdOp × Env) :=
  [(false, .add "aa" "laptop", Env.quiet 1), (false, .add "cc" "phone", Env.quiet 1),
    (true, .add "bb" "desktop", Env.quiet 2), (false, .sync, withDesktop)]

def crossed : Household Bool :=
  Run.run step household crossing

theorem crossed_evaluated :
    "cc" ∈ crossed.once false ∧
      (crossed.nodes true).identity.id = alice.id ∧
      (crossed.nodes true).deviceKey.peerId = ⟨"bb"⟩ ∧
      cachedPointer (crossed.nodes true) alice.id RECORD_DEVICES = some desktopPointer ∧
      (crossed.nodes true).storage.getVerified desktopPointer.manifest = .ok desktopObject ∧
      (exec reconcileDeviceList withDesktop (crossed.nodes false)).1.toBool = true ∧
      (localDevices ((step (false, .reconcile, withDesktop) crossed).nodes false)).map
        DeviceList.ids = some ["bb", "aa"] := by
  decide +kernel

theorem reachable_withDesktop : Reachable withDesktop crossed false := by
  obtain ⟨_, hidentity, hpeer, hcached, hstored, _⟩ := crossed_evaluated
  intro j hj record object hrecord hobject t
  cases j with
  | false => exact absurd rfl hj
  | true =>
    rw [hidentity, hcached, Option.some.injEq] at hrecord
    rw [← hrecord, hstored, Except.ok.injEq] at hobject
    rw [hpeer, ← hobject]
    exact ⟨⟨_, rfl, List.mem_singleton_self _⟩, rfl⟩

end Counterexample

end Canopee.Household
