import Canopee.Results.Resolution
import Canopee.Runtime.Methods

/-!
This module contains the records that a node keeps about itself: once one is published, the node
reads it back from its own disk, whatever others push meanwhile, until it publishes the next.
-/

namespace Canopee

open Primitives
open Canopee.Runtime
open Prog (Keeps Triple exec exec_bind_ok)

variable [Primitives]

namespace Runtime

section Stores

/--
The store has an object with this payload under its id.
-/
def Stores (payload : ObjectPayload) (w : Runtime) : Prop :=
  ∃ object, w.storage.getVerified (ObjectId.fromPayload payload) = .ok object ∧
    object.payload = payload

theorem stores_storeObject_self {object : Object} (h : object.verify = true) (w : Runtime) :
    Stores object.payload (storeObject object w) := by
  refine ⟨object, ?_, rfl⟩
  rw [← Object.id_of_verify h]
  exact Storage.getVerified_write_self w.storage h

theorem Stores.storeObject (hash : CollisionFree) {payload : ObjectPayload} {w : Runtime}
    {object : Object} (hverify : object.verify = true) (h : Stores payload w) :
    Stores payload (storeObject object w) := by
  by_cases hid : ObjectId.fromPayload payload = object.id
  . rw [Object.id_of_verify hverify, ObjectId.fromPayload_inj hash] at hid
    rw [hid]
    exact stores_storeObject_self hverify w
  . obtain ⟨stored, hstored, hpayload⟩ := h
    refine ⟨stored, ?_, hpayload⟩
    rw [← hstored]
    exact Storage.getVerified_write_of_ne w.storage hid

theorem stores_congr {payload : ObjectPayload} {w w' : Runtime}
    (hfiles : w'.storage.files = w.storage.files) (h : Stores payload w) : Stores payload w' := by
  obtain ⟨object, hstored, hpayload⟩ := h
  refine ⟨object, ?_, hpayload⟩
  rw [← hstored]
  apply Storage.getVerified_congr
  rw [hfiles]

theorem Stores.eraseObject {payload : ObjectPayload} {w : Runtime} {gone : ObjectId}
    (h : Stores payload w) (hne : gone ≠ ObjectId.fromPayload payload) :
    Stores payload (eraseObject gone w) := by
  obtain ⟨object, hstored, hpayload⟩ := h
  exact ⟨object, (Storage.getVerified_erase_of_ne w.storage hne.symm).trans hstored, hpayload⟩

theorem pushes_stores (hash : CollisionFree) (env : Env) (payload : ObjectPayload) :
    Pushes env (Stores payload) (fun _ => True) :=
  .ofDisk (fun _ _ hdisk hw => stores_congr hdisk.files hw)
    (fun _ _ hverify _ hw => hw.storeObject hash hverify) (fun _ _ _ _ => trivial)

end Stores

section Publishes

/--
The record cache has this identity's pointer for `name`, and the object that it names is stored and
has this payload.
-/
structure Publishes (name : String) (payload : ObjectPayload) (w : Runtime) : Prop where
  cached : ∃ record, cachedPointer w w.identity.id name = some record ∧
    record.manifest = ObjectId.fromPayload payload
  stores : Stores payload w
  owner : payload.owner = w.identity.id

theorem Publishes.congr {name : String} {payload : ObjectPayload} {w w' : Runtime}
    (h : Publishes name payload w) (hdisk : SameDisk w w') : Publishes name payload w' := by
  refine ⟨?_, stores_congr hdisk.files h.stores, ?_⟩
  . rw [hdisk.identity, cachedPointer_congr hdisk.records]
    exact h.cached
  . rw [hdisk.identity]
    exact h.owner

theorem pushes_publishes (hash : CollisionFree) (env : Env) (name : String)
    (payload : ObjectPayload) : Pushes env (Publishes name payload) (fun _ => True) := by
  apply Pushes.ofDisk
  . intro w w' hdisk hw
    exact hw.congr hdisk
  . intro w object hverify _ hw
    exact ⟨hw.cached, hw.stores.storeObject hash hverify, hw.owner⟩
  . intro _ _ _ _
    trivial

variable {name : String} {payload : ObjectPayload} {w : Runtime}

theorem Publishes.exec_resolveOwnerObject (h : Publishes name payload w) (env : Env) :
    ∃ object, exec (resolveOwnerObject w.identity.id name) env w = (.ok (some object), w) ∧
      object.payload = payload := by
  obtain ⟨record, hcached, hmanifest⟩ := h.cached
  obtain ⟨object, hstored, hpayload⟩ := h.stores
  refine ⟨object, ?_, hpayload⟩
  have hget : exec (Prog.attempt (getVerified record.manifest)) env w = (.ok (.ok object), w) := by
    simp [getVerified, exec_bind_ok (Prog.exec_get env w), hmanifest, hstored, ofExcept]
  have howner : object.payload.owner = w.identity.id := by
    rw [hpayload]
    exact h.owner
  unfold resolveOwnerObject
  rw [exec_bind_ok (resolvePointer_of_cached hcached)]
  simp only [ownedObject]
  rw [exec_bind_ok hget]
  simp [howner]

end Publishes

section Records

variable {α : Type} {c : Codec α} {name : String} {a : α} {w : Runtime}

/--
This node has published `a` as its record `name`.
-/
def Records (c : Codec α) (name : String) (a : α) (w : Runtime) : Prop :=
  ∃ payload, Publishes name payload w ∧ c.deserialize payload.data = some a

theorem Records.congr {w' : Runtime} (h : Records c name a w) (hdisk : SameDisk w w') :
    Records c name a w' := by
  obtain ⟨payload, hpublishes, hdecode⟩ := h
  exact ⟨payload, hpublishes.congr hdisk, hdecode⟩

theorem pushes_records (hash : CollisionFree) (env : Env) (c : Codec α) (name : String) (a : α) :
    Pushes env (Records c name a) (fun _ => True) := by
  apply Pushes.ofDisk
  . intro w w' hdisk hw
    exact hw.congr hdisk
  . intro w object hverify _ hw
    obtain ⟨payload, hpublishes, hdecode⟩ := hw
    exact ⟨payload, (pushes_publishes hash env name payload).put w object hverify trivial hpublishes,
      hdecode⟩
  . intro _ _ _ _
    trivial

theorem Records.exec_resolveOwnerRecord (h : Records c name a w) (env : Env) :
    exec (resolveOwnerRecord c w.identity.id name) env w = (.ok (some a), w) := by
  obtain ⟨payload, hpublishes, hdecode⟩ := h
  obtain ⟨object, hobject, hpayload⟩ := hpublishes.exec_resolveOwnerObject env
  have hdecoded : object.decode c = some a := by
    rw [Object.decode, hpayload]
    exact hdecode
  unfold resolveOwnerRecord
  rw [exec_bind_ok hobject]
  simp only [decodeObject, hdecoded]
  rfl

theorem Records.exec_loadOwnRecord (h : Records c name a w) (env : Env) :
    exec (loadOwnRecord c name) env w = (.ok (some a), w) := by
  obtain ⟨payload, hpublishes, hdecode⟩ := h
  obtain ⟨record, hcached, hmanifest⟩ := hpublishes.cached
  obtain ⟨object, hstored, hpayload⟩ := hpublishes.stores
  have hget : exec (getVerified record.manifest) env w = (.ok object, w) := by
    simp [getVerified, exec_bind_ok (Prog.exec_get env w), hmanifest, hstored, ofExcept]
  have hdecoded : object.decode c = some a := by
    rw [Object.decode, hpayload]
    exact hdecode
  unfold loadOwnRecord
  rw [exec_bind_ok (Prog.exec_get env w), exec_bind_ok (resolvePointer_of_cached hcached)]
  simp only
  rw [exec_bind_ok hget]
  simp only [decodeObject, hdecoded]
  rfl

end Records

section Publish

variable {env : Env} {self : Identity}

/--
A fact that lasts while objects are put and pushed and while the record under `key` is replaced.
-/
structure Spared (env : Env) (key : Bytes) (K : Runtime → Prop) : Prop
    extends Pushes env K (fun _ => True) where
  record : ∀ w bytes, K w → K (storeRecord (recordFile key) bytes w)

theorem Pushes.and {I J : Runtime → Prop} (hI : Pushes env I (fun _ => True))
    (hJ : Pushes env J (fun _ => True)) : Pushes env (fun w => I w ∧ J w) (fun _ => True) where
  frame w w' hsame hw := ⟨hI.frame w w' hsame hw.1, hJ.frame w w' hsame hw.2⟩
  put w object hverify hok hw := ⟨hI.put w object hverify hok hw.1, hJ.put w object hverify hok hw.2⟩
  pushed _ _ _ _ := trivial
  track w object time hverify hok hforeign hw := by
    obtain ⟨w₀, hw₀, hne⟩ := hforeign
    exact ⟨hI.track w object time hverify hok ⟨w₀, hw₀.1, hne⟩ hw.1,
      hJ.track w object time hverify hok ⟨w₀, hw₀.2, hne⟩ hw.2⟩
  touch w id time hcached hw := ⟨hI.touch w id time hcached hw.1, hJ.touch w id time hcached hw.2⟩
  flush w hw := ⟨hI.flush w hw.1, hJ.flush w hw.2⟩
  replicate w bundle hok hw := ⟨hI.replicate w bundle hok hw.1, hJ.replicate w bundle hok hw.2⟩

theorem pushes_identity (env : Env) (self : Identity) :
    Pushes env (fun w => w.identity = self) (fun _ => True) :=
  .ofDisk (fun _ _ hdisk hw => hdisk.identity.trans hw) (fun _ _ _ _ hw => hw)
    (fun _ _ _ _ => trivial)

theorem triple_writeAtomic {P Q : Runtime → Prop} {write : Runtime → Runtime}
    (hP : ∀ w w', SameNode w w' → P w → P w') (hwrite : ∀ w, P w → Q (write w)) :
    Triple env P (writeAtomic write) (fun _ => Q) P := by
  constructor
  intro w hw
  have htick : P { w with tick := w.tick + 1 } := hP w _ (.tick w) hw
  cases hfault : env.fault w.tick with
  | none =>
    rw [exec_writeAtomic_of_none hfault]
    exact hwrite _ htick
  | some fault =>
    rw [exec_writeAtomic_of_some hfault]
    exact htick

theorem cachedPointer_storeRecord (laws : SignatureLaws) (time : Int) (name : String)
    (target : ObjectId) (w : Runtime) :
    cachedPointer (storeRecord (recordFile (AppPointerRecord.key self.id name))
      (AppPointerRecord.codec.serialize (.sign self time name target)) w) self.id name =
      some (.sign self time name target) := by
  simp [cachedPointer, storeRecord, acceptRecord, AppPointerRecord.verify_sign laws]

/--
Repointing a record either happens or leaves everything as it was; what it leaves alone stays.
-/
theorem publishPointer_triple (laws : SignatureLaws) (hash : CollisionFree) {I K : Runtime → Prop}
    {payload : ObjectPayload} (hI : Pushes env I (fun _ => True))
    (hK : Spared env (AppPointerRecord.key self.id name) K) (howner : payload.owner = self.id) :
    Triple env (fun w => w.identity = self ∧ I w ∧ K w ∧ Stores payload w)
      (publishPointer name (ObjectId.fromPayload payload))
      (fun _ w => w.identity = self ∧ K w ∧ Publishes name payload w)
      (fun w => w.identity = self ∧ I w ∧ K w) := by
  have hbefore := (pushes_identity env self).and
    (hI.and (hK.toPushes.and (pushes_stores hash env payload)))
  have hafter := (pushes_identity env self).and
    (hK.toPushes.and (pushes_publishes hash env name payload))
  unfold publishPointer
  apply Triple.bind (Q := fun _ w => w.identity = self ∧ I w ∧ K w ∧ Stores payload w)
  . apply hbefore.keeps_now.conseq (fun _ hw => hw)
    . intro _ w hw
      exact hw.1
    . intro w hw
      exact ⟨hw.1, hw.2.1, hw.2.2.1⟩
  . intro time
    apply Triple.bind (Q := fun a w => a.identity = self ∧ w.identity = self ∧ I w ∧ K w ∧
      Stores payload w)
    . exact Triple.get fun w hw => ⟨hw.1, hw⟩
    . intro a
      apply Triple.of_and
      intro hself
      dsimp only
      rw [hself, AppPointerRecord.sign_owner]
      apply Triple.bind (Q := fun _ w => w.identity = self ∧ K w ∧ Publishes name payload w)
      . unfold cacheRecord
        apply (triple_writeAtomic hbefore.frame _).conseq (fun _ hw => hw)
        . intro _ w hw
          exact hw
        . intro w hw
          exact ⟨hw.1, hw.2.1, hw.2.2.1⟩
        . intro w hw
          refine ⟨hw.1, hK.record w _ hw.2.2.1, ?_⟩
          refine ⟨?_, stores_congr rfl hw.2.2.2, howner.trans (congrArg Identity.id hw.1.symm)⟩
          refine ⟨.sign self time name (ObjectId.fromPayload payload), ?_, rfl⟩
          have hself : (storeRecord (recordFile (AppPointerRecord.key self.id name))
              (AppPointerRecord.codec.serialize (.sign self time name
                (ObjectId.fromPayload payload))) w).identity = self := hw.1
          rw [hself]
          exact cachedPointer_storeRecord laws time name (ObjectId.fromPayload payload) w
      . intro _
        apply Triple.bind (Q := fun _ w => w.identity = self ∧ K w ∧ Publishes name payload w)
        . apply Triple.attempt
          apply (hafter.points.keeps_pushPointerRecord _).conseq (fun _ hw => hw)
          . intro _ w hw
            exact hw.1
          . intro w hw _
            exact hw
        . intro _
          apply Triple.modify
          intro w hw
          exact hafter.frame w _ (.log w nofun) hw

theorem publishObject_triple (laws : SignatureLaws) (hash : CollisionFree) {I K : Runtime → Prop}
    {object : Object} (hI : Pushes env I (fun _ => True))
    (hK : Spared env (AppPointerRecord.key self.id name) K)
    (howner : object.payload.owner = self.id)
    (hid : object.id = ObjectId.fromPayload object.payload) :
    Triple env (fun w => w.identity = self ∧ I w ∧ K w) (publishObject name object)
      (fun _ w => w.identity = self ∧ K w ∧ Publishes name object.payload w)
      (fun w => w.identity = self ∧ I w ∧ K w) := by
  have hbefore := (pushes_identity env self).and (hI.and hK.toPushes)
  unfold publishObject
  apply Triple.bind (Q := fun _ w => w.identity = self ∧ I w ∧ K w ∧ Stores object.payload w)
  . unfold putVerified
    split
    . exact Triple.throw fun w hw => hw
    . next hverify =>
      apply triple_writeAtomic hbefore.frame
      intro w hw
      have hverify : object.verify = true := by simpa using hverify
      obtain ⟨hself, hI', hK'⟩ := hbefore.put w object hverify trivial hw
      exact ⟨hself, hI', hK', stores_storeObject_self hverify w⟩
  . intro _
    apply Triple.bind (Q := fun _ w => w.identity = self ∧ K w ∧ Publishes name object.payload w)
    . rw [hid]
      exact publishPointer_triple laws hash hI hK howner
    . intro _
      exact Triple.pure fun w hw => hw

theorem publishObject_records (laws : SignatureLaws) (hash : CollisionFree) {α : Type} {c : Codec α}
    {a : α} {objectType : ObjectType} {time : Int} {I K : Runtime → Prop}
    (hI : Pushes env I (fun _ => True)) (hK : Spared env (AppPointerRecord.key self.id name) K) :
    Triple env (fun w => w.identity = self ∧ I w ∧ K w)
      (publishObject name (toObject c objectType a self time))
      (fun _ w => w.identity = self ∧ K w ∧ Records c name a w)
      (fun w => w.identity = self ∧ I w ∧ K w) := by
  apply (publishObject_triple laws hash hI hK rfl rfl).conseq (fun _ hw => hw)
  . intro _ w hw
    exact ⟨hw.1, hw.2.1, _, hw.2.2, decode_toObject c objectType a self time⟩
  . intro w hw
    exact hw

theorem spared_shared (env : Env) (key : Bytes) (id : ObjectId) :
    Spared env key (fun w => id.text ∈ w.shared) where
  frame _ _ hsame hw := hsame.shared ▸ hw
  put _ _ _ _ hw := hw
  pushed _ _ _ _ := trivial
  track _ _ _ _ _ _ hw := hw
  touch _ _ _ _ hw := hw
  flush _ hw := hw
  replicate _ _ _ hw := hw
  record _ _ hw := hw

theorem Spared.and {key : Bytes} {K L : Runtime → Prop} (hK : Spared env key K)
    (hL : Spared env key L) : Spared env key (fun w => K w ∧ L w) where
  toPushes := hK.toPushes.and hL.toPushes
  record w bytes hw := ⟨hK.record w bytes hw.1, hL.record w bytes hw.2⟩

/--
The same with the announcement of the object in between, which puts it into the serving set.
-/
theorem announceObject_triple (laws : SignatureLaws) (hash : CollisionFree) {I K : Runtime → Prop}
    {object : Object} (hI : Pushes env I (fun _ => True)) (hsharesI : Shares I)
    (hK : Spared env (AppPointerRecord.key self.id name) K) (hsharesK : Shares K)
    (howner : object.payload.owner = self.id)
    (hid : object.id = ObjectId.fromPayload object.payload) :
    Triple env (fun w => w.identity = self ∧ I w ∧ K w) (announceObject name object)
      (fun _ w => w.identity = self ∧ (K w ∧ object.id.text ∈ w.shared) ∧
        Publishes name object.payload w)
      (fun w => w.identity = self ∧ I w ∧ K w) := by
  have hbefore := (pushes_identity env self).and (hI.and hK.toPushes)
  have hstored := hbefore.and (pushes_stores hash env object.payload)
  have hshared := hK.and (spared_shared env (AppPointerRecord.key self.id name) object.id)
  unfold announceObject
  apply Triple.bind (Q := fun _ w => (w.identity = self ∧ I w ∧ K w) ∧ Stores object.payload w)
  . unfold putVerified
    split
    . exact Triple.throw fun w hw => hw
    . next hverify =>
      apply triple_writeAtomic hbefore.frame
      intro w hw
      have hverify : object.verify = true := by simpa using hverify
      exact ⟨hbefore.put w object hverify trivial hw, stores_storeObject_self hverify w⟩
  . intro _
    apply Triple.bind (Q := fun _ w => ((w.identity = self ∧ I w ∧ K w) ∧ Stores object.payload w) ∧
      object.id.text ∈ w.shared)
    . apply Triple.bind (Q := fun _ w =>
        ((w.identity = self ∧ I w ∧ K w) ∧ Stores object.payload w) ∧ object.id.text ∈ w.shared)
      . apply Triple.modify
        intro w hw
        refine ⟨⟨⟨hw.1.1, hsharesI w object.id hw.1.2.1, hsharesK w object.id hw.1.2.2⟩, ?_⟩, ?_⟩
        . exact stores_congr rfl hw.2
        . exact Finset.mem_insert_self _ _
      . intro _
        apply (((hstored.and (spared_shared env [] object.id).toPushes)).keeps_announceProvider
          object.id).conseq (fun _ hw => hw)
        . intro _ w hw
          exact hw.1
        . intro w hw
          exact hw.1.1
    . intro _
      apply Triple.bind (Q := fun _ w => w.identity = self ∧ (K w ∧ object.id.text ∈ w.shared) ∧
        Publishes name object.payload w)
      . rw [hid]
        rw [hid] at hshared
        apply (publishPointer_triple laws hash hI hshared howner).conseq
        . intro w hw
          exact ⟨hw.1.1.1, hw.1.1.2.1, ⟨hw.1.1.2.2, hw.2⟩, hw.1.2⟩
        . intro _ _ hw
          exact hw
        . intro _ hw
          exact ⟨hw.1, hw.2.1, hw.2.2.1⟩
      . intro _
        exact Triple.pure fun w hw => hw

end Publish

section Succeeds

variable {env : Env}

theorem publishPointer_succeeds (hdisk : ∀ t, env.fault t = none) (name : String)
    (target : ObjectId) (w : Runtime) :
    ∃ w', exec (publishPointer name target) env w = (.ok (), w') := by
  unfold publishPointer cacheRecord
  rw [exec_bind_ok (exec_now env w), exec_bind_ok (Prog.exec_get env _)]
  dsimp only
  rw [exec_bind_ok (exec_writeAtomic_of_none (hdisk _) _), exec_bind_ok (Prog.exec_attempt _ env _)]
  exact ⟨_, Prog.exec_modify _ env _⟩

theorem exec_putVerified (hdisk : ∀ t, env.fault t = none) {object : Object}
    (hverify : object.verify = true) (w : Runtime) :
    exec (putVerified object) env w =
      (.ok (), storeObject object { w with tick := w.tick + 1 }) := by
  unfold putVerified
  rw [hverify]
  exact exec_writeAtomic_of_none (hdisk _) (storeObject object)

theorem publishObject_succeeds (hdisk : ∀ t, env.fault t = none) (name : String) {object : Object}
    (hverify : object.verify = true) (w : Runtime) :
    ∃ w', exec (publishObject name object) env w = (.ok object.id, w') := by
  obtain ⟨w', hpoint⟩ := publishPointer_succeeds hdisk name object.id
    (storeObject object { w with tick := w.tick + 1 })
  refine ⟨w', ?_⟩
  unfold publishObject
  rw [exec_bind_ok (exec_putVerified hdisk hverify w), exec_bind_ok hpoint]
  rfl

end Succeeds

end Runtime

end Canopee
