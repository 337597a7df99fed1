import Canopee.Results.DeviceMerge
import Canopee.Results.Published

/-!
This module contains the versions of the device lists that a node publishes, against those of the
lists that went into them.
-/

namespace Canopee

open Primitives
open Canopee.Runtime
open Prog (Keeps Triple exec exec_bind_ok exec_bind_eq_ok)

variable [Primitives]

/--
The calls that publish a device list.
-/
inductive DeviceOp where
  | add (deviceId deviceName : String)
  | remove (deviceId : String)
  | reconcile

namespace DeviceOp

/--
The list that the call returns, if it has saved one.
-/
def perform : DeviceOp → RunM (Option DeviceList)
  | add deviceId deviceName => do
    let list ← addDevice deviceId deviceName
    pure (some list)
  | remove deviceId => do
    let list ← removeDevice deviceId
    pure (some list)
  | reconcile => reconcileDeviceList

/--
What the call does until it saves: the list to save, if any.
-/
def prepare : DeviceOp → RunM (Option DeviceList)
  | add deviceId deviceName => do
    let list ← loadDeviceListMerged
    let time ← now
    pure (some (withDevice list deviceId deviceName (dateTimeAt time)))
  | remove deviceId => do
    let w ← get
    if deviceId = w.deviceKey.peerId.base58 ∨ parsePeerId deviceId = some w.deviceKey.peerId then
      throw "the current device cannot be removed"
    else
      let list ← loadDeviceListMerged
      pure (some { list with devices := list.devices.filter fun d => d.deviceId ≠ deviceId })
  | reconcile => do
    let w ← get
    let merged ← loadDeviceListMerged
    let localList ← loadDeviceList w.identity.id
    let time ← now
    let wanted := withSelf merged w.deviceKey (dateTimeAt time)
    if localList.any (sameIds wanted) then pure none else pure (some wanted)

def save : Option DeviceList → RunM (Option DeviceList)
  | none => pure none
  | some list => do
    let _ ← saveDeviceList list
    pure (some list)

theorem perform_eq (op : DeviceOp) : op.perform = op.prepare >>= save := by
  cases op with
  | add deviceId deviceName =>
    simp only [perform, addDevice, prepare, Prog.bind_assoc, Prog.pure_bind]
    rfl
  | remove deviceId =>
    simp only [perform, removeDevice, prepare, Prog.bind_assoc]
    congr 1
    funext w
    split
    . rfl
    . simp only [Prog.bind_assoc, Prog.pure_bind]
      rfl
  | reconcile =>
    simp only [perform, reconcileDeviceList, prepare, Prog.bind_assoc]
    congr 1
    funext w
    congr 1
    funext merged
    congr 1
    funext localList
    congr 1
    funext time
    split
    . rfl
    . rfl

end DeviceOp

namespace Runtime

section Versions

variable {env : Env} {w : Runtime}

/--
The version of the list that is saved over; 0 if there is none.
-/
def baseVersion (previous : Option DeviceList) : UInt64 :=
  (previous.map DeviceList.version).getD 0

omit [Primitives] in
theorem lt_add_one_iff {v base : UInt64} :
    v < base + 1 ↔ base.toNat + 1 < UInt64.size ∧ v ≤ base := by
  have hv := UInt64.toNat_lt v
  have hbase := UInt64.toNat_lt base
  rw [UInt64.lt_iff_toNat_lt, UInt64.le_iff_toNat_le, UInt64.toNat_add, UInt64.toNat_one,
    UInt64.size]
  omega

theorem nextVersion_eq (previous : Option DeviceList) :
    nextVersion (previous.map DeviceList.version) = baseVersion previous + 1 := by
  cases previous with
  | none => rfl
  | some list => rfl

/--
`save_device_list` publishes the list under the version that follows the one of the local list.
-/
theorem saveDeviceList_publishes (laws : SignatureLaws) (hash : CollisionFree) {list : DeviceList}
    {id : ObjectId} (h : (exec (saveDeviceList list) env w).1 = .ok id) :
    ∃ previous, (exec (loadDeviceList w.identity.id) env w).1 = .ok previous ∧
      Records DeviceList.codec RECORD_DEVICES
        { list with version := baseVersion previous + 1 } (exec (saveDeviceList list) env w).2 := by
  have hany : Pushes env (fun _ => True) (fun _ => True) :=
    .ofDisk (fun _ _ _ _ => trivial) (fun _ _ _ _ _ => trivial) (fun _ _ _ _ => trivial)
  unfold saveDeviceList at h ⊢
  rw [exec_bind_ok (Prog.exec_get env w)] at h ⊢
  obtain ⟨previous, hprevious, hrest⟩ := exec_bind_eq_ok h
  have hload : exec (loadDeviceList w.identity.id) env w =
      (.ok previous, (exec (loadDeviceList w.identity.id) env w).2) := Prod.ext hprevious rfl
  have hself := identity_loadDeviceList env w w.identity.id
  generalize (exec (loadDeviceList w.identity.id) env w).2 = w₁ at hrest hload hself
  rw [exec_bind_ok hload]
  rw [exec_bind_ok (exec_now env w₁), nextVersion_eq] at hrest ⊢
  refine ⟨previous, hprevious, ?_⟩
  generalize hobject : DeviceList.toObject { list with version := baseVersion previous + 1 }
    w.identity (env.clock w₁.tick) = object at hrest ⊢
  have howner : object.payload.owner = w.identity.id := by
    rw [← hobject]
    rfl
  have hid : object.id = ObjectId.fromPayload object.payload := by
    rw [← hobject]
    rfl
  have hpublish : Triple env (fun a => a.identity = w.identity ∧ True ∧ True)
      (announceObject RECORD_DEVICES object) (fun _ a => a.identity = w.identity ∧
        (True ∧ object.id.text ∈ a.shared) ∧ Publishes RECORD_DEVICES object.payload a)
      (fun a => a.identity = w.identity ∧ True ∧ True) :=
    announceObject_triple laws hash hany (fun _ _ _ => trivial) ⟨hany, fun _ _ _ => trivial⟩
      (fun _ _ _ => trivial) howner hid
  have hpublished := hpublish.ok (s := { w₁ with tick := w₁.tick + 1 }) ⟨hself, trivial, trivial⟩
    (Prod.ext hrest rfl)
  refine ⟨object.payload, hpublished.2.2, ?_⟩
  rw [← hobject]
  exact decode_toObject DeviceList.codec _ _ _ _

/--
`saved` has a higher version than the local list, read for the merge or saved over as `previous`, and
than the list of a peer that was merged in.
-/
structure Advances (env : Env) (w : Runtime) (previous : Option DeviceList) (saved : DeviceList) :
    Prop where
  merged : (localList env w).version < saved.version
  replaced : ∀ list, previous = some list → list.version < saved.version
  remote : ∀ answer remote, Freshest env w answer remote → remote.version < saved.version

/--
The list that is saved over has a version after which there is a next one, and no list that is merged
has a higher version.
-/
structure Leads (env : Env) (w : Runtime) (previous : Option DeviceList) : Prop where
  room : (baseVersion previous).toNat + 1 < UInt64.size
  merged : (localList env w).version ≤ baseVersion previous
  remote : ∀ answer remote, Freshest env w answer remote →
    remote.version ≤ baseVersion previous

theorem advances_iff {previous : Option DeviceList} {saved : DeviceList}
    (h : saved.version = baseVersion previous + 1) :
    Advances env w previous saved ↔ Leads env w previous := by
  constructor
  . intro ⟨hmerged, _, hremote⟩
    rw [h, lt_add_one_iff] at hmerged
    refine ⟨hmerged.1, hmerged.2, ?_⟩
    intro answer remote hanswer
    have := hremote answer remote hanswer
    rw [h, lt_add_one_iff] at this
    exact this.2
  . intro ⟨hroom, hmerged, hremote⟩
    have hlt {version : UInt64} (hversion : version ≤ baseVersion previous) :
        version < saved.version := by
      rw [h, lt_add_one_iff]
      exact ⟨hroom, hversion⟩
    refine ⟨hlt hmerged, ?_, fun answer remote hanswer => hlt (hremote answer remote hanswer)⟩
    intro list hlist
    apply hlt
    rw [hlist]
    exact UInt64.le_refl _

end Versions

end Runtime

namespace DeviceOp

theorem identity_prepare (op : DeviceOp) (env : Env) (w : Runtime) :
    (exec op.prepare env w).2.identity = w.identity := by
  have h := ingress_identity env w.identity
  have hkeeps : Keeps env (fun a => a.identity = w.identity) op.prepare := by
    cases op with
    | add deviceId deviceName =>
      apply Keeps.bind h.keeps_loadDeviceListMerged
      intro list _
      apply Keeps.bind h.keeps_now
      intro time _
      exact Keeps.pure trivial
    | remove deviceId =>
      apply Keeps.bind_get
      intro a _
      split
      . exact Keeps.throw
      . apply Keeps.bind h.keeps_loadDeviceListMerged
        intro list _
        exact Keeps.pure trivial
    | reconcile =>
      apply Keeps.bind_get
      intro a _
      apply Keeps.bind h.keeps_loadDeviceListMerged
      intro merged _
      apply Keeps.bind (h.keeps_resolveOwnerRecord _ _ _)
      intro localList _
      apply Keeps.bind h.keeps_now
      intro time _
      dsimp only
      split
      . exact Keeps.pure trivial
      . exact Keeps.pure trivial
  exact hkeeps.state rfl

/--
A call that saves a list publishes it under a version past everything that went into it exactly when
the list that is saved over leads the lists that are merged.
-/
theorem perform_advances_iff (laws : SignatureLaws) (hash : CollisionFree) {op : DeviceOp}
    {env : Env} {w : Runtime} {list : DeviceList}
    (h : (exec op.perform env w).1 = .ok (some list)) :
    ∃ previous saved,
      (exec (loadDeviceList w.identity.id) env (exec op.prepare env w).2).1 = .ok previous ∧
      Records DeviceList.codec RECORD_DEVICES saved (exec op.perform env w).2 ∧
      saved.devices = list.devices ∧
      (Advances env w previous saved ↔ Leads env w previous) := by
  rw [perform_eq] at h ⊢
  obtain ⟨prepared, hprepared, hsave⟩ := exec_bind_eq_ok h
  have hprepare : exec op.prepare env w = (.ok prepared, (exec op.prepare env w).2) :=
    Prod.ext hprepared rfl
  rw [exec_bind_ok hprepare]
  cases prepared with
  | none => cases hsave
  | some prepared =>
    obtain ⟨id, hid, hreturned⟩ := exec_bind_eq_ok hsave
    have hlist : prepared = list := by
      cases hreturned
      rfl
    obtain ⟨previous, hprevious, hrecords⟩ := saveDeviceList_publishes laws hash hid
    rw [identity_prepare] at hprevious
    refine ⟨previous, { prepared with version := baseVersion previous + 1 }, hprevious, ?_,
      by rw [hlist], advances_iff rfl⟩
    rw [save, exec_bind_ok (Prod.ext hid rfl)]
    exact hrecords

end DeviceOp

end Canopee

namespace Canopee.DeviceOp

open Canopee.Runtime
open Prog (exec)

section Witness

open Canopee.Transparent

/--
A new node registers itself.
-/
theorem perform_advances_iff_registered :
    ∃ (list : DeviceList) (previous : Option DeviceList) (saved : DeviceList),
      (exec (loadDeviceList (fresh alice laptop).identity.id) (Env.quiet 0)
        (exec reconcile.prepare (Env.quiet 0) (fresh alice laptop)).2).1 = .ok previous ∧
      Records DeviceList.codec RECORD_DEVICES saved
        (exec reconcile.perform (Env.quiet 0) (fresh alice laptop)).2 ∧
      saved.devices = list.devices ∧
      (Advances (Env.quiet 0) (fresh alice laptop) previous saved ↔
        Leads (Env.quiet 0) (fresh alice laptop) previous) := by
  have hsaves : (exec reconcile.perform (Env.quiet 0)
      (fresh alice laptop)).1.toOption.join.isSome = true := by decide +kernel
  obtain ⟨list, hlist⟩ := exists_eq_ok_some hsaves
  exact ⟨list, perform_advances_iff signatureLaws collisionFree hlist⟩

end Witness

section Counterexample

open Canopee.Compact

/--
The list that another device of Alice's has come to.
-/
def siblingList : DeviceList where
  devices := [⟨"bb", "desktop", none⟩]
  version := 5

def siblingObject : Object :=
  siblingList.toObject alice 3

/--
The DHT has the sibling's pointer, and the sibling is connected and answers with its list.
-/
def sibling : Env :=
  { answering siblingObject with
    record := fun _ _ =>
      .ok (some (AppPointerRecord.codec.serialize (.sign alice 3 RECORD_DEVICES siblingObject.id))) }

def registered : Runtime :=
  NodeOp.step (.addDevice "aa" "laptop", Env.quiet 1) (fresh alice laptop)

theorem registered_evaluated :
    (exec (add "cc" "phone").perform sibling registered).1.toOption.join.isSome = true ∧
    (exec (loadDeviceList alice.id) (Env.quiet 4)
      (exec (add "cc" "phone").perform sibling registered).2).1.toOption.join.map
        DeviceList.version = some 2 ∧
    (exec fetchFreshestDeviceList sibling
      (exec (loadDeviceList registered.identity.id) sibling registered).2).1.toOption.join.map
        DeviceList.version = some 5 := by
  decide +kernel

theorem addDevice_of_sibling :
    (exec (add "cc" "phone").perform sibling registered).1.toOption.join.isSome = true ∧
      ∃ saved, (exec (loadDeviceList alice.id) (Env.quiet 4)
          (exec (add "cc" "phone").perform sibling registered).2).1 = .ok (some saved) ∧
        ∀ previous, ¬ Advances sibling registered previous saved := by
  obtain ⟨hsaves, hsaved, hremote⟩ := registered_evaluated
  refine ⟨hsaves, ?_⟩
  obtain ⟨saved, hload, hversion⟩ := exists_eq_ok_some_map hsaved
  refine ⟨saved, hload, ?_⟩
  obtain ⟨remote, hfetched, hnewer⟩ := Option.map_eq_some_iff.mp hremote
  obtain ⟨answer, hfreshest⟩ := fetchFreshestDeviceList_eq_some_iff.mp hfetched
  intro previous hadvances
  have := hadvances.remote answer remote hfreshest
  rw [hversion, hnewer] at this
  exact absurd this (by decide)

end Counterexample

end Canopee.DeviceOp
