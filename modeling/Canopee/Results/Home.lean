import Canopee.Results.Published

/-!
This module contains the home index that a node works on: how it is read, what publishing the next
one leaves behind, and what the reconciliation of the two does to the serving set.
-/

namespace Canopee

open Primitives
open Canopee.Runtime
open Prog (Keeps Triple exec exec_bind_ok)

variable [Primitives]

namespace Runtime

section Has

variable {α : Type} {c : Codec α} {name : String} {a : α} {record : AppPointerRecord} {w : Runtime}

/--
The record cache has `record` as this identity's pointer for `name`, and what it names is stored and
decodes to `a`.
-/
structure Has (c : Codec α) (name : String) (record : AppPointerRecord) (a : α) (w : Runtime) :
    Prop where
  cached : cachedPointer w w.identity.id name = some record
  stored : ∃ object, w.storage.getVerified record.manifest = .ok object ∧ object.decode c = some a

theorem Records.has (h : Records c name a w) :
    ∃ record, Has c name record a w := by
  obtain ⟨payload, hpublishes, hdecode⟩ := h
  obtain ⟨record, hcached, hmanifest⟩ := hpublishes.cached
  obtain ⟨object, hstored, hpayload⟩ := hpublishes.stores
  refine ⟨record, hcached, object, ?_, ?_⟩
  . rw [hmanifest]
    exact hstored
  . rw [Object.decode, hpayload]
    exact hdecode

theorem Has.exec_loadOwnRecord (h : Has c name record a w) (env : Env) :
    exec (loadOwnRecord c name) env w = (.ok (some a), w) := by
  obtain ⟨object, hstored, hdecode⟩ := h.stored
  have hget : exec (getVerified record.manifest) env w = (.ok object, w) := by
    simp [getVerified, exec_bind_ok (Prog.exec_get env w), hstored, ofExcept]
  unfold loadOwnRecord
  rw [exec_bind_ok (Prog.exec_get env w), exec_bind_ok (resolvePointer_of_cached h.cached)]
  simp only
  rw [exec_bind_ok hget]
  simp only [decodeObject, hdecode]
  rfl

theorem Has.congr {w' : Runtime} (h : Has c name record a w) (hdisk : SameDisk w w') :
    Has c name record a w' := by
  obtain ⟨object, hstored, hdecode⟩ := h.stored
  refine ⟨?_, object, ?_, hdecode⟩
  . rw [hdisk.identity, cachedPointer_congr hdisk.records]
    exact h.cached
  . rw [← hstored]
    apply Storage.getVerified_congr
    rw [hdisk.files]

theorem Has.storeObject (hash : CollisionFree) {object : Object} (hverify : object.verify = true)
    (h : Has c name record a w) : Has c name record a (storeObject object w) := by
  obtain ⟨stored, hstored, hdecode⟩ := h.stored
  refine ⟨h.cached, ?_⟩
  by_cases hid : record.manifest = object.id
  . -- the new object has the payload of the old one
    have hpayload : stored.payload = object.payload := by
      rw [← Storage.id_of_getVerified hstored,
        Object.id_of_verify (Storage.verify_of_getVerified hstored), Object.id_of_verify hverify,
        ObjectId.fromPayload_inj hash] at hid
      exact hid
    refine ⟨object, ?_, ?_⟩
    . rw [hid]
      exact Storage.getVerified_write_self w.storage hverify
    . rw [Object.decode, ← hpayload]
      exact hdecode
  . refine ⟨stored, ?_, hdecode⟩
    rw [← hstored]
    exact Storage.getVerified_write_of_ne w.storage hid

theorem pushes_has (hash : CollisionFree) (env : Env) (c : Codec α) (name : String)
    (record : AppPointerRecord) (a : α) : Pushes env (Has c name record a) (fun _ => True) :=
  .ofDisk (fun _ _ hdisk hw => hw.congr hdisk)
    (fun _ _ hverify _ hw => hw.storeObject hash hverify) (fun _ _ _ _ => trivial)

end Has

section Reconcile

/--
What reconciling the serving set with two home indexes makes of it.
-/
def reconciled (previous current : Option HomeIndex) (shared : Finset String) : Finset String :=
  let before := sharedIds previous
  let after := sharedIds current
  (shared ∪ ((after.filter fun id => id ∉ before).map ObjectId.text).toFinset) \
    ((before.filter fun id => id ∉ after).map ObjectId.text).toFinset

variable {env : Env} {I : Runtime → Prop} {E : Runtime → Prop}

theorem pushes_shared (env : Env) (S : Finset String) :
    Pushes env (fun w => w.shared = S) (fun _ => True) where
  frame _ _ hsame hw := hsame.shared.trans hw
  put _ _ _ _ hw := hw
  pushed _ _ _ _ := trivial
  track _ _ _ _ _ _ hw := hw
  touch _ _ _ _ hw := hw
  flush _ hw := hw
  replicate _ _ _ hw := hw

theorem shareAll_triple (h : Pushes env I (fun _ => True)) (hshares : Shares I)
    (ids : List ObjectId) (S : Finset String) :
    Triple env (fun w => I w ∧ w.shared = S) (shareAll ids)
      (fun _ w => I w ∧ w.shared = S ∪ (ids.map ObjectId.text).toFinset) E := by
  induction ids generalizing S with
  | nil =>
    apply Triple.pure
    intro w hw
    simp [hw]
  | cons id ids ih =>
    apply Triple.bind (Q := fun _ w => I w ∧ w.shared = insert id.text S)
    . apply Triple.modify
      intro w hw
      exact ⟨hshares w id hw.1, congrArg (insert id.text) hw.2⟩
    . intro _
      apply Triple.bind ((h.and (pushes_shared env _)).keeps_announceProvider id).attempted
      intro _
      apply (ih (insert id.text S)).conseq (fun _ hw => hw)
      . intro _ w hw
        refine ⟨hw.1, ?_⟩
        rw [hw.2]
        ext text
        simp [or_assoc, or_left_comm]
      . intro w hw
        exact hw

theorem unshareAll_triple (h : Pushes env I (fun _ => True))
    (hunshare : ∀ w id, I w → I (unshare id w)) (ids : List ObjectId) (S : Finset String) :
    Triple env (fun w => I w ∧ w.shared = S) (unshareAll ids)
      (fun _ w => I w ∧ w.shared = S \ (ids.map ObjectId.text).toFinset) E := by
  induction ids generalizing S with
  | nil =>
    apply Triple.pure
    intro w hw
    simp [hw]
  | cons id ids ih =>
    apply Triple.bind (Q := fun _ w => I w ∧ w.shared = S.erase id.text)
    . apply Triple.modify
      intro w hw
      exact ⟨hunshare w id hw.1, congrArg (Finset.erase · id.text) hw.2⟩
    . intro _
      apply Triple.bind ((h.and (pushes_shared env _)).keeps_unannounce id).attempted
      intro _
      apply (ih (S.erase id.text)).conseq (fun _ hw => hw)
      . intro _ w hw
        refine ⟨hw.1, ?_⟩
        rw [hw.2]
        ext text
        simp only [List.map_cons, List.toFinset_cons, Finset.mem_sdiff, Finset.mem_erase,
          Finset.mem_insert]
        tauto
      . intro w hw
        exact hw

theorem reconcileShared_triple (h : Pushes env I (fun _ => True)) (hshares : Shares I)
    (hunshare : ∀ w id, I w → I (unshare id w)) (previous current : Option HomeIndex)
    (S : Finset String) :
    Triple env (fun w => I w ∧ w.shared = S) (reconcileShared previous current)
      (fun _ w => I w ∧ w.shared = reconciled previous current S) E := by
  apply Triple.bind (shareAll_triple h hshares _ S)
  intro _
  exact unshareAll_triple h hunshare _ _

theorem triple_reconcileShared (h : Pushes env I (fun _ => True)) (hshares : Shares I)
    (hunshare : ∀ w id, I w → I (unshare id w)) (previous current : Option HomeIndex) :
    Triple env I (reconcileShared previous current) (fun _ => I) E := by
  constructor
  intro w hw
  have := (reconcileShared_triple (E := E) h hshares hunshare previous current w.shared).spec w
    ⟨hw, rfl⟩
  generalize exec (reconcileShared previous current) env w = res at this
  rcases res with ⟨_ | _, t⟩
  . exact this
  . exact this.1

omit [Primitives] in
theorem mem_sharedIds {index : HomeIndex} {id : ObjectId} :
    id ∈ sharedIds (some index) ↔ ∃ entry ∈ index.entries, entry.shared = true ∧ entry.object = id := by
  simp [sharedIds, and_assoc]

omit [Primitives] in
theorem mem_reconciled {previous current : Option HomeIndex} {S : Finset String} {id : ObjectId} :
    id.text ∈ reconciled previous current S ↔
      (id ∈ sharedIds current ∧ id ∉ sharedIds previous) ∨
        (id.text ∈ S ∧ (id ∈ sharedIds previous → id ∈ sharedIds current)) := by
  have hmem (ids : List ObjectId) : id.text ∈ (ids.map ObjectId.text).toFinset ↔ id ∈ ids := by
    simp [ObjectId.text_inj]
  unfold reconciled
  dsimp only
  rw [Finset.mem_sdiff, Finset.mem_union, hmem, hmem]
  simp only [List.mem_filter, decide_eq_true_eq]
  by_cases hbefore : id ∈ sharedIds previous
  . simp [hbefore]
  . simp [hbefore]
    by_cases hafter : id ∈ sharedIds current
    . simp [hafter]
    . simp [hafter]

end Reconcile

section SaveHome

variable {env : Env} {self : Identity} {K R : Runtime → Prop}

/--
The node has published `index` as its home index.
-/
def SavedHome (index : HomeIndex) (w : Runtime) : Prop :=
  ∃ payload, Publishes RECORD_HOME payload w ∧ payload.objectType = .homeIndex ∧
    HomeIndex.codec.deserialize payload.data = some index

theorem SavedHome.has {index : HomeIndex} {w : Runtime} (h : SavedHome index w) :
    ∃ record, Has HomeIndex.codec RECORD_HOME record index w := by
  obtain ⟨payload, hpublishes, _, hdecode⟩ := h
  exact Records.has ⟨payload, hpublishes, hdecode⟩

theorem SavedHome.congr {index : HomeIndex} {w w' : Runtime} (h : SavedHome index w)
    (hdisk : SameDisk w w') : SavedHome index w' := by
  obtain ⟨payload, hpublishes, htype, hdecode⟩ := h
  exact ⟨payload, hpublishes.congr hdisk, htype, hdecode⟩

theorem pushes_savedHome (hash : CollisionFree) (env : Env) (index : HomeIndex) :
    Pushes env (SavedHome index) (fun _ => True) := by
  apply Pushes.ofDisk
  . intro _ _ hdisk hw
    exact hw.congr hdisk
  . intro w object hverify _ ⟨payload, hpublishes, htype, hdecode⟩
    have hput := (pushes_publishes hash env RECORD_HOME payload).put w object hverify trivial
    exact ⟨payload, hput hpublishes, htype, hdecode⟩
  . intro _ _ _ _
    trivial

theorem Has.exec_loadHomeIndex {record : AppPointerRecord} {index : HomeIndex} {w : Runtime}
    (h : Has HomeIndex.codec RECORD_HOME record index w) (env : Env) :
    exec loadHomeIndex env w = (.ok (some index), w) :=
  h.exec_loadOwnRecord env

/--
What `save_home_index` does once it has read the index of before.
-/
def publishHome (previous : Option HomeIndex) (index : HomeIndex) : RunM ObjectId := do
  let index := { index with version := nextVersion (previous.map HomeIndex.version) }
  let time ← now
  let w ← get
  let id ← publishObject RECORD_HOME (index.toObject w.identity time)
  reconcileShared previous (some index)
  pure id

theorem saveHomeIndex_eq (index : HomeIndex) :
    saveHomeIndex index = loadHomeIndex >>= fun previous => publishHome previous index := rfl

/--
Publishing a home index either repoints to it, as the next version, and then reconciles the serving
set, or it leaves everything as it was.
-/
theorem publishHome_triple (laws : SignatureLaws) (hash : CollisionFree) {I : Runtime → Prop}
    (hI : Pushes env I (fun _ => True)) (hK : Spared env (AppPointerRecord.key self.id RECORD_HOME) K)
    {previous : Option HomeIndex} {index : HomeIndex}
    (hreconcile : Triple env
      (fun w => w.identity = self ∧ K w ∧
        SavedHome { index with version := nextVersion (previous.map HomeIndex.version) } w)
      (reconcileShared previous
        (some { index with version := nextVersion (previous.map HomeIndex.version) }))
      (fun _ => R) (fun _ => False)) :
    Triple env (fun w => w.identity = self ∧ I w ∧ K w) (publishHome previous index) (fun _ => R)
      (fun w => w.identity = self ∧ I w ∧ K w) := by
  have hbefore := (pushes_identity env self).and (hI.and hK.toPushes)
  unfold publishHome
  apply Triple.bind (Q := fun _ w => w.identity = self ∧ I w ∧ K w)
  . exact hbefore.keeps_now.triple
  . intro time
    apply Triple.bind (Q := fun a w => a.identity = self ∧ w.identity = self ∧ I w ∧ K w)
    . exact Triple.get fun w hw => ⟨hw.1, hw⟩
    . intro a
      apply Triple.of_and
      intro hself
      rw [hself]
      apply Triple.bind (Q := fun _ w => w.identity = self ∧ K w ∧
        SavedHome { index with version := nextVersion (previous.map HomeIndex.version) } w)
      . apply (publishObject_triple laws hash hI hK rfl rfl).conseq (fun _ hw => hw)
        . intro _ w hw
          exact ⟨hw.1, hw.2.1, _, hw.2.2, rfl,
            decode_toObject HomeIndex.codec .homeIndex _ self time⟩
        . intro w hw
          exact hw
      intro id
      apply Triple.bind (Q := fun _ => R)
      . apply hreconcile.conseq (fun _ hw => hw) (fun _ _ hw => hw)
        intro w hw
        exact hw.elim
      . intro _
        exact Triple.pure fun w hw => hw

/--
Saving a home index over the one that the node has either publishes it as the next version, and then
reconciles the serving set, or leaves everything as it was.
-/
theorem saveHomeIndex_triple (laws : SignatureLaws) (hash : CollisionFree)
    (hK : Spared env (AppPointerRecord.key self.id RECORD_HOME) K) {record : AppPointerRecord}
    {old index : HomeIndex}
    (hreconcile : Triple env
      (fun w => w.identity = self ∧ K w ∧ SavedHome { index with version := old.version + 1 } w)
      (reconcileShared (some old) (some { index with version := old.version + 1 }))
      (fun _ => R) (fun _ => False)) :
    Triple env (fun w => w.identity = self ∧ Has HomeIndex.codec RECORD_HOME record old w ∧ K w)
      (saveHomeIndex index) (fun _ => R)
      (fun w => w.identity = self ∧ Has HomeIndex.codec RECORD_HOME record old w ∧ K w) := by
  rw [saveHomeIndex_eq]
  apply Triple.bind (Q := fun previous w => previous = some old ∧ w.identity = self ∧
    Has HomeIndex.codec RECORD_HOME record old w ∧ K w)
  . constructor
    intro w hw
    rw [hw.2.1.exec_loadHomeIndex env]
    exact ⟨rfl, hw⟩
  . intro previous
    apply Triple.of_and
    intro hprevious
    rw [hprevious]
    exact publishHome_triple laws hash (pushes_has hash env HomeIndex.codec RECORD_HOME record old) hK
      hreconcile

end SaveHome

end Runtime

end Canopee
