import Canopee.Results.Household

/-!
This module contains the device list of a machine that has removed a device, over every run of the
calls that follow: which copies of lists bring the device back.
-/

namespace Canopee

open Primitives
open Canopee.Runtime
open Prog (Keeps exec exec_bind_ok exec_bind_eq_ok)

variable [Primitives]

namespace Runtime

section Ids

variable {list : DeviceList} {id : String}

theorem mem_ids : id ∈ list.ids ↔ ∃ entry ∈ list.devices, entry.deviceId = id :=
  List.mem_map

theorem mem_ids_mergeLists {remote : Option DeviceList} :
    id ∈ (mergeLists list remote).ids ↔ id ∈ list.ids ∨ ∃ r, remote = some r ∧ id ∈ r.ids := by
  constructor
  . intro h
    cases remote with
    | none => exact .inl h
    | some remote =>
      obtain ⟨entry, hentry, hid⟩ := mem_ids.mp h
      cases mem_mergeEntries hentry with
      | inl hlocal => exact .inl (mem_ids.mpr ⟨entry, hlocal, hid⟩)
      | inr hremote => exact .inr ⟨remote, rfl, mem_ids.mpr ⟨entry, hremote.1, hid⟩⟩
  . intro h
    cases h with
    | inl hlocal => exact ids_mergeLists list remote hlocal
    | inr hremote =>
      obtain ⟨remote, rfl, hid⟩ := hremote
      obtain ⟨entry, hentry, hid⟩ := mem_ids.mp hid
      obtain ⟨merged, hmerged, heq⟩ := exists_mem_mergeEntries list.devices hentry
      exact mem_ids.mpr ⟨merged, hmerged, heq.trans hid⟩

theorem mem_ids_congr {a b : DeviceList}
    (h : ∀ entry : DeviceEntry, entry.deviceId = id → (entry ∈ a.devices ↔ entry ∈ b.devices)) :
    id ∈ a.ids ↔ id ∈ b.ids := by
  rw [mem_ids, mem_ids]
  apply exists_congr
  intro entry
  apply and_congr_left
  intro hid
  exact h entry hid

theorem mem_ids_withDevice_of_ne {deviceId deviceName : String} {time : OffsetDateTime}
    (h : id ≠ deviceId) :
    id ∈ (withDevice list deviceId deviceName time).ids ↔ id ∈ list.ids := by
  apply mem_ids_congr
  intro entry hid
  rw [← hid] at h
  exact mem_withDevice_of_ne h

theorem mem_ids_withSelf_of_ne {device : DeviceKey} {time : OffsetDateTime}
    (h : id ≠ device.peerId.base58) :
    id ∈ (withSelf list device time).ids ↔ id ∈ list.ids := by
  apply mem_ids_congr
  intro entry hid
  rw [← hid] at h
  exact mem_withSelf_of_ne h

theorem not_mem_ids_filter (devices : List DeviceEntry) (version : UInt64) :
    id ∉ DeviceList.ids ⟨devices.filter fun d => d.deviceId ≠ id, version⟩ := by
  rw [mem_ids]
  intro ⟨entry, hentry, hid⟩
  have := (List.mem_filter.mp hentry).2
  simp [hid] at this

theorem mem_ids_filter_of_ne {deviceId : String} (h : id ≠ deviceId) :
    id ∈ DeviceList.ids { list with devices := list.devices.filter fun d => d.deviceId ≠ deviceId } ↔
      id ∈ list.ids := by
  apply mem_ids_congr
  intro entry hid
  rw [← hid] at h
  simp [h]

end Ids

section Machine

variable {env : Env} {self : Identity} {list : DeviceList} {w : Runtime}

theorem ingress_deviceKey (env : Env) (device : DeviceKey) :
    Ingress env (fun w => w.deviceKey = device) (fun _ => True) where
  frame _ _ hsame hw := hsame.deviceKey.trans hw
  put _ _ _ _ hw := hw
  pushed _ _ _ _ := trivial
  track _ _ _ _ _ _ hw := hw
  touch _ _ _ _ hw := hw
  flush _ hw := hw
  replicate _ _ _ hw := hw
  answered _ _ _ _ := trivial
  own _ _ _ := trivial
  erase _ _ hw := hw
  record _ _ _ hw := hw
  untrack _ _ hw := hw
  unshare _ _ hw := hw

theorem registered_spares (hash : CollisionFree) {name : String} (hname : name ≠ RECORD_DEVICES)
    (w : Runtime) (hw : Registered self list w) :
    Spares (Registered self list) (AppPointerRecord.key w.identity.id name) := by
  intro a bytes ha
  obtain ⟨payload, hpublishes, hdecode⟩ := ha.2
  obtain ⟨record, hcached, hmanifest⟩ := hpublishes.cached
  refine ⟨ha.1, payload, ⟨⟨record, ?_, hmanifest⟩, hpublishes.stores, hpublishes.owner⟩, hdecode⟩
  rw [← hcached]
  apply cachedPointer_storeRecord_of_ne
  rw [show (storeRecord (recordFile (AppPointerRecord.key w.identity.id name)) bytes a).identity =
    a.identity from rfl, hw.1, ha.1, ne_eq, AppPointerRecord.key_inj hash]
  exact hname

/--
Some answer to the requests for lists that a call makes counts, and its list has the device.
-/
def OffersDevice (env : Env) (w : Runtime) (deviceId : String) : Prop :=
  ∃ answer remote, Freshest env w answer remote ∧ deviceId ∈ remote.ids

theorem mem_ids_merged (hw : Registered self list w) {merged : DeviceList} {deviceId : String}
    (h : (exec loadDeviceListMerged env w).1 = .ok merged) (hid : deviceId ∉ list.ids) :
    deviceId ∈ merged.ids ↔ OffersDevice env w deviceId := by
  obtain ⟨best, hmerged, hfreshest⟩ := loadDeviceListMerged_eq_ok h
  rw [hmerged, mem_ids_mergeLists, localList_registered hw, or_iff_right hid]
  constructor
  . intro ⟨remote, hbest, hremote⟩
    obtain ⟨answer, hanswer⟩ := (hfreshest remote).mp hbest
    exact ⟨answer, remote, hanswer, hremote⟩
  . intro ⟨answer, remote, hanswer, hremote⟩
    exact ⟨remote, (hfreshest remote).mpr ⟨answer, hanswer⟩, hremote⟩

theorem removeDevice_eq_ok {deviceId : String} {list : DeviceList}
    (h : (exec (removeDevice deviceId) env w).1 = .ok list) :
    deviceId ≠ w.deviceKey.peerId.base58 ∧
      ∃ merged, (exec loadDeviceListMerged env w).1 = .ok merged ∧
        list = { merged with devices := merged.devices.filter fun d => d.deviceId ≠ deviceId } := by
  unfold removeDevice at h
  rw [exec_bind_ok (Prog.exec_get env w)] at h
  split at h
  . cases h
  . next hother =>
    obtain ⟨merged, hmerged, hrest⟩ := exec_bind_eq_ok h
    dsimp only at hrest
    obtain ⟨_, _, hreturned⟩ := exec_bind_eq_ok hrest
    cases hreturned
    exact ⟨fun hid => hother (.inl hid), merged, hmerged, rfl⟩

end Machine

end Runtime

namespace DeviceOp

/--
The device that the call is about: the one it adds, or the node itself.
-/
def subject : DeviceOp → Runtime → String
  | add deviceId _, _ => deviceId
  | remove deviceId, _ => deviceId
  | reconcile, w => w.deviceKey.peerId.base58

theorem mem_ids_returned {op : DeviceOp} {env : Env} {self : Identity} {list next : DeviceList}
    {w : Runtime} {deviceId : String} (hw : Registered self list w) (hid : deviceId ∉ list.ids)
    (hne : deviceId ≠ op.subject w) (h : (exec op.perform env w).1 = .ok (some next)) :
    deviceId ∈ next.ids ↔ OffersDevice env w deviceId := by
  cases op with
  | add added name =>
    obtain ⟨list, hlist, hreturned⟩ := exec_bind_eq_ok h
    cases hreturned
    obtain ⟨merged, time, hmerged, rfl⟩ := addDevice_eq_ok hlist
    have hne : deviceId ≠ added := hne
    rw [mem_ids_withDevice_of_ne hne, mem_ids_merged hw hmerged hid]
  | remove removed =>
    obtain ⟨list, hlist, hreturned⟩ := exec_bind_eq_ok h
    cases hreturned
    obtain ⟨_, merged, hmerged, rfl⟩ := removeDevice_eq_ok hlist
    have hne : deviceId ≠ removed := hne
    rw [← mem_ids_merged hw hmerged hid, mem_ids_filter_of_ne hne]
  | reconcile =>
    obtain ⟨merged, time, hmerged, rfl⟩ := reconcileDeviceList_eq_ok h
    rw [mem_ids_withSelf_of_ne hne, mem_ids_merged hw hmerged hid]

/--
After a call there is a list without the device exactly when the call has not saved what the network
offers, or has just removed the device.
-/
theorem perform_without_iff (laws : SignatureLaws) (hash : CollisionFree) {op : DeviceOp}
    {env : Env} {self : Identity} {list : DeviceList} {w : Runtime} {deviceId : String}
    (hw : Registered self list w) (hid : deviceId ∉ list.ids)
    (hne : op = .remove deviceId ∨ deviceId ≠ op.subject w) :
    (∃ next, localDevices (exec op.perform env w).2 = some next ∧ deviceId ∉ next.ids) ↔
      ((exec op.perform env w).1.toOption.join.isSome = true →
        op = .remove deviceId ∨ ¬ OffersDevice env w deviceId) := by
  rcases perform_registered laws hash op hw env with
    ⟨hnone, hkept⟩ | ⟨next, saved, hreturned, hdevices, hsaved⟩
  . constructor
    . intro _ hsome
      rw [hnone] at hsome
      cases hsome
    . intro _
      exact ⟨list, localDevices_eq_some.mpr hkept.2, hid⟩
  . have hids : saved.ids = next.ids := congrArg (List.map _) hdevices
    have hlist : (∃ next, localDevices (exec op.perform env w).2 = some next ∧
        deviceId ∉ next.ids) ↔ deviceId ∉ next.ids := by
      rw [localDevices_eq_some.mpr hsaved.2]
      simp only [Option.some.injEq, exists_eq_left', hids]
    have hsaves : (exec op.perform env w).1.toOption.join.isSome = true := by
      rw [hreturned]
      rfl
    simp only [hlist, hsaves, forall_const]
    cases hne with
    | inl hremove =>
      subst hremove
      obtain ⟨list, hremoved, hreturned⟩ := exec_bind_eq_ok hreturned
      cases hreturned
      obtain ⟨_, merged, _, rfl⟩ := removeDevice_eq_ok hremoved
      simp only [true_or, iff_true]
      exact not_mem_ids_filter _ _
    | inr hother =>
      rw [mem_ids_returned hw hid hother hreturned]
      constructor
      . intro hnot
        exact .inr hnot
      . intro h
        cases h with
        | inl hremove =>
          subst hremove
          exact absurd rfl hother
        | inr hnot => exact hnot

end DeviceOp

namespace Runtime

section Sync

variable {env : Env} {self : Identity} {list : DeviceList} {w : Runtime}

theorem Adopts.unique {name : String} {record record' : AppPointerRecord} {b b' : Runtime}
    (h : Adopts env name w record b) (h' : Adopts env name w record' b') :
    record = record' ∧ b = b' := by
  obtain ⟨a, object, hnewer, hfetch, _⟩ := h
  obtain ⟨a', object', hnewer', hfetch', _⟩ := h'
  rw [hnewer] at hnewer'
  cases hnewer'
  rw [hfetch] at hfetch'
  cases hfetch'
  exact ⟨rfl, rfl⟩

theorem localDevices_adopted {record : AppPointerRecord} (b : Runtime) :
    localDevices (storeRecord (recordFile (AppPointerRecord.key b.identity.id RECORD_DEVICES))
        (AppPointerRecord.codec.serialize record) b) = some list ↔
      record.Authentic b.identity.id RECORD_DEVICES ∧ listAt b record.manifest = some list := by
  have hself : (storeRecord (recordFile (AppPointerRecord.key b.identity.id RECORD_DEVICES))
      (AppPointerRecord.codec.serialize record) b).identity = b.identity := rfl
  rw [localDevices, hself]
  constructor
  . intro h
    obtain ⟨found, hfound, hlist⟩ := Option.bind_eq_some_iff.mp h
    simp only [cachedPointer, storeRecord, AList.lookup_insert, Option.bind_some, acceptRecord,
      Codec.deserialize_serialize, Option.ite_none_right_eq_some, Option.some.injEq] at hfound
    obtain ⟨⟨howner, hname, hverify⟩, rfl⟩ := hfound
    exact ⟨⟨howner, hname, hverify⟩, hlist⟩
  . intro h
    obtain ⟨hauthentic, hlist⟩ := h
    rw [cachedPointer_adopted b.identity hauthentic b]
    exact hlist

/--
What a synchronization adopts is a pointer of this identity to a device list without the device.
-/
def AdoptsWithout (env : Env) (w : Runtime) (deviceId : String) : Prop :=
  ∀ record b, Adopts env RECORD_DEVICES w record b →
    record.Authentic w.identity.id RECORD_DEVICES ∧
      ∃ next, listAt b record.manifest = some next ∧ deviceId ∉ next.ids

theorem syncRecord_without_iff (hash : CollisionFree) (hw : Registered self list w)
    {deviceId : String} (hid : deviceId ∉ list.ids) :
    (∃ next, localDevices (exec (syncRecord RECORD_DEVICES) env w).2 = some next ∧
      deviceId ∉ next.ids) ↔ AdoptsWithout env w deviceId := by
  rcases syncRecord_cases RECORD_DEVICES (fetches_registered hash env self list) hw with
    ⟨hnone, hkept⟩ | ⟨record, b, hadopts, _, hself, hexec⟩
  . constructor
    . intro _ record b hadopts
      exact absurd hadopts (hnone record b)
    . intro _
      exact ⟨list, localDevices_eq_some.mpr hkept.2, hid⟩
  . have hafter (next : DeviceList) :
        localDevices (exec (syncRecord RECORD_DEVICES) env w).2 = some next ↔
          record.Authentic w.identity.id RECORD_DEVICES ∧ listAt b record.manifest = some next := by
      rw [hexec, ← hself]
      exact localDevices_adopted { b with tick := b.tick + 1 }
    constructor
    . intro ⟨next, hnext, hwithout⟩ record' b' hadopts'
      obtain ⟨rfl, rfl⟩ := hadopts.unique hadopts'
      obtain ⟨hauthentic, hlist⟩ := (hafter next).mp hnext
      exact ⟨hauthentic, next, hlist, hwithout⟩
    . intro h
      obtain ⟨hauthentic, next, hlist, hwithout⟩ := h record b hadopts
      exact ⟨next, (hafter next).mpr ⟨hauthentic, hlist⟩, hwithout⟩

end Sync

end Runtime

/--
The calls that can change the device list of a node. A pass over its records synchronizes one name
after the other.
-/
inductive ListOp where
  | save (op : DeviceOp)
  | sync (name : String)

namespace ListOp

/--
The list that the call returns, if it has saved one.
-/
def perform : ListOp → RunM (Option DeviceList)
  | save op => op.perform
  | sync name => do
    let _ ← syncRecord name
    pure none

def Adds (deviceId : String) : ListOp → Prop
  | save (.add added _) => added = deviceId
  | _ => False

end ListOp

/--
A machine that has removed a device from its list, the other devices, and whether one of these has
saved a list with that device since.
-/
structure Removal (ι : Type) where
  machine : Runtime
  others : ι → Runtime
  again : Bool

/--
A call on the machine, which does not add the removed device, or on another device.
-/
inductive RemovalOp (ι : Type) (deviceId : String) where
  | machine (op : ListOp) (other : ¬ op.Adds deviceId)
  | other (i : ι) (op : ListOp)

namespace Removal

variable {ι : Type} [DecidableEq ι] {deviceId : String}

def names (deviceId : String) (result : Except String (Option DeviceList)) : Bool :=
  result.toOption.join.any fun list => decide (deviceId ∈ list.ids)

def step : RemovalOp ι deviceId × Env → Removal ι → Removal ι
  | (.machine op _, env), s => { s with machine := (exec op.perform env s.machine).2 }
  | (.other i op, env), s => { s with
      others := Function.update s.others i (exec op.perform env (s.others i)).2
      again := s.again || names deviceId (exec op.perform env (s.others i)).1 }

/--
The machine has a device list without the device, unless another device has saved one with it.
-/
def Kept (deviceId : String) (s : Removal ι) : Prop :=
  s.again = true ∨ ∃ list, localDevices s.machine = some list ∧ deviceId ∉ list.ids

/--
No call of the machine that saves a list gets one with the device from the network, apart from a
removal of the device, and no synchronization adopts one.
-/
def Clear : RemovalOp ι deviceId × Env → Removal ι → Prop
  | (.machine (.save op) _, env), s => s.again = true ∨
    ((exec op.perform env s.machine).1.toOption.join.isSome = true → op = .remove deviceId ∨
      ¬ OffersDevice env s.machine deviceId)
  | (.machine (.sync name) _, env), s => s.again = true ∨
    (name = RECORD_DEVICES → AdoptsWithout env s.machine deviceId)
  | (.other _ _, _), _ => True

/--
The invariant: what is kept, on a machine that is another device.
-/
structure Intact (deviceId : String) (s : Removal ι) : Prop where
  another : deviceId ≠ s.machine.deviceKey.peerId.base58
  kept : Kept deviceId s

variable {s : Removal ι}

omit [DecidableEq ι] in
theorem deviceKey_perform (op : ListOp) (env : Env) (w : Runtime) :
    (exec op.perform env w).2.deviceKey = w.deviceKey := by
  have h := ingress_deviceKey env w.deviceKey
  have hkeeps : Keeps env (fun a => a.deviceKey = w.deviceKey) op.perform := by
    cases op with
    | sync name =>
      apply Keeps.bind (h.keeps_syncRecord name)
      intro _ _
      exact Keeps.pure trivial
    | save op =>
      cases op with
      | add added name =>
        apply Keeps.bind (h.keeps_addDevice (fun _ _ hw => hw) added name)
        intro _ _
        exact Keeps.pure trivial
      | remove removed =>
        apply Keeps.bind (h.keeps_removeDevice (fun _ _ hw => hw) removed)
        intro _ _
        exact Keeps.pure trivial
      | reconcile => exact h.keeps_reconcileDeviceList fun _ _ hw => hw
  exact hkeeps.state rfl

/--
Without a save of another device, a call of the machine keeps what is kept exactly when it is clear.
-/
theorem kept_machine_iff (laws : SignatureLaws) (hash : CollisionFree) (hs : Intact deviceId s)
    {op : ListOp} (hop : ¬ op.Adds deviceId) (env : Env) (hagain : s.again = false) :
    Kept deviceId (step (.machine op hop, env) s) ↔ Clear (.machine op hop, env) s := by
  obtain ⟨hanother, hkept⟩ := hs
  simp only [Kept, hagain, Bool.false_eq_true, false_or] at hkept
  obtain ⟨list, hlist, hid⟩ := hkept
  have hregistered : Registered s.machine.identity list s.machine :=
    ⟨rfl, localDevices_eq_some.mp hlist⟩
  simp only [Kept, step, hagain, Bool.false_eq_true, false_or]
  cases op with
  | save op =>
    simp only [Clear, hagain, Bool.false_eq_true, false_or]
    apply DeviceOp.perform_without_iff laws hash hregistered hid
    cases op with
    | add added name => exact .inr (Ne.symm hop)
    | reconcile => exact .inr hanother
    | remove removed =>
      by_cases hremoved : removed = deviceId
      . rw [hremoved]
        exact .inl rfl
      . exact .inr (Ne.symm hremoved)
  | sync name =>
    simp only [Clear, hagain, Bool.false_eq_true, false_or]
    have hexec : (exec (ListOp.perform (.sync name)) env s.machine).2 =
        (exec (syncRecord name) env s.machine).2 := by
      simp only [ListOp.perform, Prog.exec_bind]
      generalize exec (syncRecord name) env s.machine = res
      rcases res with ⟨_ | _, w⟩
      . rfl
      . rfl
    rw [hexec]
    by_cases hname : name = RECORD_DEVICES
    . simp only [hname, forall_const]
      exact syncRecord_without_iff hash hregistered hid
    . have hsynced := ((fetches_registered hash env _ list).keeps_syncRecord
        (registered_spares hash hname)).state hregistered
      simp only [hname, false_implies, iff_true]
      exact ⟨list, localDevices_eq_some.mpr hsynced.2, hid⟩

theorem kept_step_iff (laws : SignatureLaws) (hash : CollisionFree)
    (l : RemovalOp ι deviceId × Env) (hs : Intact deviceId s) :
    Kept deviceId (step l s) ↔ Clear l s := by
  obtain ⟨op, env⟩ := l
  cases op with
  | machine op hop =>
    cases hagain : s.again with
    | false => exact kept_machine_iff laws hash hs hop env hagain
    | true =>
      have hclear : Clear (.machine op hop, env) s := by
        cases op with
        | save op => exact .inl hagain
        | sync name => exact .inl hagain
      exact iff_of_true (.inl hagain) hclear
  | other i op =>
    refine iff_of_true ?_ trivial
    cases hs.kept with
    | inl hagain => exact .inl (by simp [step, hagain])
    | inr hlist => exact .inr hlist

theorem intact_step (laws : SignatureLaws) (hash : CollisionFree)
    {l : RemovalOp ι deviceId × Env} (hs : Intact deviceId s) (hclear : Clear l s) :
    Intact deviceId (step l s) := by
  refine ⟨?_, (kept_step_iff laws hash l hs).mpr hclear⟩
  obtain ⟨op, env⟩ := l
  cases op with
  | machine op hop =>
    simp only [step]
    rw [deviceKey_perform]
    exact hs.another
  | other i op => exact hs.another

/--
The machine after the removal, next to other devices.
-/
def after (deviceId : String) (env : Env) (w : Runtime) (others : ι → Runtime) : Removal ι where
  machine := (exec (removeDevice deviceId) env w).2
  others := others
  again := false

omit [DecidableEq ι] in
theorem intact_after (laws : SignatureLaws) (hash : CollisionFree) {env : Env} {w : Runtime}
    {removed : DeviceList} (h : (exec (removeDevice deviceId) env w).1 = .ok removed)
    (others : ι → Runtime) : Intact deviceId (after deviceId env w others) := by
  obtain ⟨hanother, merged, _, hremoved⟩ := removeDevice_eq_ok h
  have hperform : exec (DeviceOp.remove deviceId).perform env w =
      (.ok (some removed), (exec (removeDevice deviceId) env w).2) := by
    rw [DeviceOp.perform, exec_bind_ok (Prod.ext h rfl)]
    rfl
  obtain ⟨_, saved, _, hrecords, hdevices, _⟩ :=
    DeviceOp.perform_advances_iff laws hash (congrArg Prod.fst hperform)
  rw [hperform] at hrecords
  have hids : saved.ids = removed.ids := congrArg (List.map _) hdevices
  refine ⟨?_, .inr ⟨saved, localDevices_eq_some.mpr hrecords, ?_⟩⟩
  . have hkey := (ingress_deviceKey env w.deviceKey).keeps_removeDevice (fun _ _ hw => hw) deviceId
    rw [after, hkey.state rfl]
    exact hanother
  . rw [hids, hremoved]
    exact not_mem_ids_filter _ _

/--
After a removal, the machine keeps the device out of its list in every state of a run exactly when
every step is clear.
-/
theorem kept_iff (laws : SignatureLaws) (hash : CollisionFree) {env : Env} {w : Runtime}
    {removed : DeviceList} (h : (exec (removeDevice deviceId) env w).1 = .ok removed)
    (others : ι → Runtime) (ls : List (RemovalOp ι deviceId × Env)) :
    Run.Always step (Kept deviceId) (after deviceId env w others) ls ↔
      Run.Along step Clear (after deviceId env w others) ls := by
  have hafter := intact_after laws hash h others
  rw [Run.always_iff, and_iff_right hafter.kept]
  apply Run.along_iff (A := fun _ _ => True) (I := Intact deviceId)
  . exact Run.along_of_forall (fun _ _ _ => trivial) _
  . exact hafter
  . intro l s _ hs
    exact kept_step_iff laws hash l hs
  . intro l s _ hs hclear
    exact intact_step laws hash hs hclear

end Removal

end Canopee

namespace Canopee.Removal

open Canopee.Runtime
open Prog (exec)

section Witness

open Canopee.Transparent

/--
The machine registers itself and synchronizes, and another device adds a phone.
-/
def laterCalls : List (RemovalOp Unit "bb" × Env) :=
  [(.machine (.save .reconcile) nofun, Env.quiet 1),
    (.other () (.save (.add "cc" "phone")), Env.quiet 2),
    (.machine (.sync RECORD_DEVICES) nofun, Env.quiet 3)]

theorem kept_iff_laterCalls :
    Run.Always step (Kept "bb")
        (after "bb" (Env.quiet 0) (fresh alice laptop) fun _ => fresh alice laptop) laterCalls ↔
      Run.Along step Clear
        (after "bb" (Env.quiet 0) (fresh alice laptop) fun _ => fresh alice laptop) laterCalls := by
  have hremoves : (exec (removeDevice "bb") (Env.quiet 0)
      (fresh alice laptop)).1.toOption.isSome = true := by decide +kernel
  obtain ⟨removed, hremoved⟩ := exists_eq_ok hremoves
  exact kept_iff signatureLaws collisionFree hremoved _ laterCalls

end Witness

section Counterexample

open Canopee.Compact

/--
The laptop before the removal: it has registered itself and a phone.
-/
def before : Runtime :=
  NodeOp.step (.addDevice "bb" "phone", Env.quiet 2) DeviceOp.registered

/--
What a peer answers that has copied the objects of `w`.
-/
def copied (w : Runtime) : ObjectRequest → Except String ObjectResponse
  | .getObject id =>
    match w.storage.getVerified id with
    | .ok object => .ok (.object ⟨1, object⟩)
    | .error _ => .ok .notFound
  | .store _ => .ok .stored

/--
The DHT still has the laptop's old pointer, and a connected peer has its old objects.
-/
def stale : Env :=
  { Env.quiet 4 with
    peers := fun _ => .ok [⟨"bb"⟩]
    exchange := fun _ _ request => copied before request
    record := fun _ _ => .ok
      ((cachedPointer before alice.id RECORD_DEVICES).map AppPointerRecord.codec.serialize) }

def removal : Removal Unit :=
  after "bb" (Env.quiet 3) before fun _ => fresh alice Household.desktop

def reconciles : List (RemovalOp Unit "bb" × Env) :=
  [(.machine (.save .reconcile) nofun, stale)]

theorem stale_evaluated :
    (exec (removeDevice "bb") (Env.quiet 3) before).1.toOption.map DeviceList.ids = some ["aa"] ∧
      (localDevices before).map DeviceList.ids = some ["aa", "bb"] ∧
      (localDevices removal.machine).map DeviceList.ids = some ["aa"] ∧
      (Run.run step removal reconciles).again = false ∧
      (localDevices (Run.run step removal reconciles).machine).map DeviceList.ids =
        some ["aa", "bb"] := by
  decide +kernel

/--
The reconciliation after the removal takes the phone back from the laptop's own old list.
-/
theorem reconcile_of_stale :
    (exec (removeDevice "bb") (Env.quiet 3) before).1.toOption.map DeviceList.ids = some ["aa"] ∧
      (localDevices removal.machine).map DeviceList.ids = some ["aa"] ∧
      (Run.run step removal reconciles).again = false ∧
      (localDevices (Run.run step removal reconciles).machine).map DeviceList.ids =
        some ["aa", "bb"] ∧
      ¬ Run.Always step (Kept "bb") removal reconciles := by
  obtain ⟨hremoved, _, hwithout, hagain, hwith⟩ := stale_evaluated
  refine ⟨hremoved, hwithout, hagain, hwith, ?_⟩
  intro halways
  cases halways.last with
  | inl hsaved => exact absurd (hsaved.symm.trans hagain) (by decide)
  | inr hlist =>
    obtain ⟨list, hlist, hid⟩ := hlist
    rw [hlist, Option.map_some, Option.some.injEq] at hwith
    rw [hwith] at hid
    exact hid (by decide)

end Counterexample

end Canopee.Removal
