import Canopee.Runtime.Ingress
import Canopee.Runtime.Node

/-!
This module contains the effect of every runtime method on invariants of the store: what comes into
the store is signed by an identity of the node or handed in by a peer or a user.
-/

namespace Canopee

open Prog (Keeps Triple)

variable [Primitives]

namespace Runtime

/--
`I` is an invariant of the store that admits the objects `ok`: those that peers answer or push.
-/
structure Imports (env : Env) (I : Runtime → Prop) (ok : Object → Prop) : Prop
    extends Pushes env I ok where
  answered : ∀ id bundle, Pushes.Answers env id bundle → bundle.object.verify = true →
    ok bundle.object

/--
The same, and `ok` admits the objects that the node signs.
-/
structure Fetches (env : Env) (I : Runtime → Prop) (ok : Object → Prop) : Prop
    extends Imports env I ok where
  own : ∀ (identity : Identity) (payload : ObjectPayload), payload.owner = identity.id →
    ok (Object.signed identity payload)

/--
`I` lasts while objects are put and pushed, pointer objects of any identity among them.
-/
structure Points (env : Env) (I : Runtime → Prop) (ok : Object → Prop) : Prop
    extends Pushes env I ok where
  pointer : ∀ (identity : Identity) (time : Int) (bytes : Bytes),
    ok (Object.new identity time bytes .appPointer)

/--
The same, and `I` lasts while home indexes are saved and objects deleted.
-/
structure Saves (env : Env) (I : Runtime → Prop) (ok : Object → Prop) : Prop
    extends Points env I ok where
  home : ∀ (index : HomeIndex) (identity : Identity) (time : Int), ok (index.toObject identity time)
  record : ∀ w name bytes, I w → I (storeRecord name bytes w)
  share : ∀ w id, I w → I (share id w)
  unshare : ∀ w id, I w → I (unshare id w)
  erase : ∀ w id, I w → I (eraseObject id w)
  untrack : ∀ w id, I w → I (untrack id w)

theorem Fetches.points {env : Env} {I : Runtime → Prop} {ok : Object → Prop}
    (h : Fetches env I ok) : Points env I ok where
  toPushes := h.toPushes
  pointer _ _ _ := h.own _ _ rfl

theorem Pushes.points {env : Env} {I : Runtime → Prop} (h : Pushes env I (fun _ => True)) :
    Points env I (fun _ => True) where
  toPushes := h
  pointer _ _ _ := trivial

/--
The same, and `I` lasts while records change and objects are deleted and withdrawn from the network.
-/
structure Ingress (env : Env) (I : Runtime → Prop) (ok : Object → Prop) : Prop
    extends Fetches env I ok where
  erase : ∀ w id, I w → I (eraseObject id w)
  record : ∀ w name bytes, I w → I (storeRecord name bytes w)
  untrack : ∀ w id, I w → I (untrack id w)
  unshare : ∀ w id, I w → I (unshare id w)

/--
`I` lasts while objects get onto the network.
-/
def Shares (I : Runtime → Prop) : Prop :=
  ∀ w id, I w → I (share id w)

theorem Ingress.ofDisk {env : Env} {I : Runtime → Prop} {ok : Object → Prop}
    (frame : ∀ w w', SameDisk w w' → I w → I w')
    (put : ∀ w object, object.verify = true → ok object → I w → I (storeObject object w))
    (pushed : ∀ t bundle, .store bundle ∈ env.inbound t → bundle.object.verify = true →
      ok bundle.object)
    (answered : ∀ id bundle, Pushes.Answers env id bundle → bundle.object.verify = true →
      ok bundle.object)
    (own : ∀ (identity : Identity) (payload : ObjectPayload), payload.owner = identity.id →
      ok (Object.signed identity payload))
    (erase : ∀ w id, I w → I (eraseObject id w))
    (record : ∀ w name bytes, I w → I (storeRecord name bytes w)) : Ingress env I ok where
  toPushes := .ofDisk frame put pushed
  answered := answered
  own := own
  erase := erase
  record := record
  untrack w _ := frame w _ ⟨rfl, rfl, rfl⟩
  unshare w _ := frame w _ ⟨rfl, rfl, rfl⟩

/--
`I` lasts while the identity key is replaced and the old one is backed up.
-/
structure ReplacesKey (I : Runtime → Prop) : Prop where
  backup : ∀ w name bytes, I w → I { w with backups := w.backups.insert name bytes }
  key : ∀ w bytes, I w → I { w with keyFile := some bytes }

theorem ReplacesKey.ofDisk {I : Runtime → Prop} (frame : ∀ w w', SameDisk w w' → I w → I w') :
    ReplacesKey I where
  backup w _ _ := frame w _ ⟨rfl, rfl, rfl⟩
  key w _ := frame w _ ⟨rfl, rfl, rfl⟩

/--
`I` lasts while the record under `key` changes.
-/
def Spares (I : Runtime → Prop) (key : Bytes) : Prop :=
  ∀ w bytes, I w → I (storeRecord (recordFile key) bytes w)

/--
`I` lasts while something is written to the record cache for a pointer of which it has none.
-/
def Remembers (I : Runtime → Prop) (owner : IdentityId) (name : String) : Prop :=
  ∀ w bytes, I w → cachedPointer w owner name = none →
    I (storeRecord (recordFile (AppPointerRecord.key owner name)) bytes w)

theorem Spares.remembers {I : Runtime → Prop} {owner : IdentityId} {name : String}
    (h : Spares I (AppPointerRecord.key owner name)) : Remembers I owner name :=
  fun w bytes hw _ => h w bytes hw

theorem cachedPointer_congr {w w' : Runtime} (h : w'.records = w.records) (owner : IdentityId)
    (name : String) : cachedPointer w' owner name = cachedPointer w owner name := by
  unfold cachedPointer
  rw [h]

theorem cachedPointer_storeRecord_of_ne {key : Bytes} {owner : IdentityId} {name : String}
    (hne : key ≠ AppPointerRecord.key owner name) (bytes : Bytes) (w : Runtime) :
    cachedPointer (storeRecord (recordFile key) bytes w) owner name = cachedPointer w owner name := by
  have hfile : recordFile (AppPointerRecord.key owner name) ≠ recordFile key := by
    rw [ne_eq, recordFile_inj]
    exact hne.symm
  simp only [cachedPointer, storeRecord, AList.lookup_insert_ne hfile]

variable {env : Env} {I : Runtime → Prop} {ok : Object → Prop}

theorem resealed_new (identity : Identity) (time : Int) (data sealed : Bytes)
    (objectType : ObjectType) :
    resealed identity { Object.new identity time data objectType with
      payload := { (Object.new identity time data objectType).payload with data := sealed } } =
    Object.signed identity
      { (Object.new identity time data objectType).payload with data := sealed } := rfl

theorem keeps_attempt {α : Type} {m : RunM α} (h : Keeps env I m) :
    Keeps env I (Prog.attempt m) := by
  apply Keeps.attempt h
  intro _
  trivial

theorem Shares.keeps_insertShared (h : Shares I) (id : ObjectId) :
    Keeps env I (insertShared id) :=
  Keeps.modify fun w hw => h w id hw

namespace Pushes

section Sharing

theorem keeps_shareAll (h : Pushes env I ok) (hshares : Shares I) (ids : List ObjectId) :
    Keeps env I (shareAll ids) := by
  induction ids with
  | nil => exact Keeps.pure trivial
  | cons id ids ih =>
    apply Keeps.bind (hshares.keeps_insertShared id)
    intro _ _
    apply Keeps.bind (keeps_attempt (h.keeps_announceProvider id))
    intro _ _
    exact ih

theorem keeps_unshareAll (h : Pushes env I ok) (hunshare : ∀ w id, I w → I (unshare id w))
    (ids : List ObjectId) : Keeps env I (unshareAll ids) := by
  induction ids with
  | nil => exact Keeps.pure trivial
  | cons id ids ih =>
    apply Keeps.bind (Keeps.modify fun w hw => hunshare w id hw)
    intro _ _
    apply Keeps.bind (keeps_attempt (h.keeps_unannounce id))
    intro _ _
    exact ih

theorem keeps_reconcileShared (h : Pushes env I ok) (hshares : Shares I)
    (hunshare : ∀ w id, I w → I (unshare id w)) (previous current : Option HomeIndex) :
    Keeps env I (reconcileShared previous current) := by
  apply Keeps.bind (h.keeps_shareAll hshares _)
  intro _ _
  exact h.keeps_unshareAll hunshare _

theorem keeps_nameObject (h : Pushes env I ok) (id : ObjectId) (name : Option String) :
    Keeps env I (nameObject id name) := by
  cases name with
  | none => exact Keeps.pure trivial
  | some name => exact h.keeps_setName id name

theorem keeps_announce (h : Pushes env I ok) (hshares : Shares I) (id : ObjectId) :
    Keeps env I (announce id) := by
  apply Keeps.bind (hshares.keeps_insertShared id)
  intro _ _
  exact h.keeps_announceProvider id

theorem keeps_importBundle (h : Pushes env I ok) {bundle : ExportBundle}
    (hok : bundle.object.verify = true → ok bundle.object) :
    Keeps env I (importBundle bundle) (fun _ => bundle.object.verify = true) := by
  apply Keeps.bind_get
  intro w _
  split
  . exact Keeps.throw
  . apply Keeps.bind (keeps_isOwned bundle.object)
    intro owned howned
    apply Keeps.bind (h.keeps_putVerified hok)
    intro _ hverify
    split
    . exact Keeps.pure hverify
    . next hfalse =>
      have hforeign := howned (by simpa using hfalse)
      exact (h.keeps_markCached_of_verify hverify (hok hverify) hforeign).weaken fun _ _ => hverify

theorem keeps_evict (h : Pushes env I ok) {id : ObjectId}
    (herase : ∀ w, I w → I (eraseObject id w)) (huntrack : ∀ w, I w → I (untrack id w))
    (hunshare : ∀ w, I w → I (unshare id w)) : Keeps env I (evict id) := by
  apply Keeps.bind (h.keeps_writeAtomic herase)
  intro _ _
  apply Keeps.bind (h.keeps_uncache huntrack)
  intro _ _
  apply Keeps.bind (Keeps.modify hunshare)
  intro _ _
  apply Keeps.bind (keeps_attempt (h.keeps_unannounce id))
  intro _ _
  exact Keeps.pure trivial

end Sharing

end Pushes

theorem keeps_decodeObject {α : Type} (c : Codec α) (object : Object) :
    Keeps env I (decodeObject c object) (fun a => object.decode c = some a) :=
  keeps_ofOption _ _

namespace Pushes

section Records

theorem keeps_cacheRecord (h : Pushes env I ok) {key : Bytes} (hspares : Spares I key)
    (value : Bytes) : Keeps env I (cacheRecord key value) := by
  apply h.keeps_writeAtomic
  intro w hw
  exact hspares w value hw

theorem keeps_latestPointerRecord (h : Pushes env I ok) (owner : IdentityId) (name : String) :
    Keeps env I (latestPointerRecord owner name) := by
  apply Keeps.bind (keeps_attempt h.keeps_list)
  intro r _
  split
  . exact Keeps.pure trivial
  . apply Keeps.bind_get
    intro w _
    exact Keeps.pure trivial

theorem keeps_rememberPointer (h : Pushes env I ok) {key : Bytes} (hspares : Spares I key)
    (record : AppPointerRecord) : Keeps env I (rememberPointer key record) := by
  apply Keeps.bind (Q := fun _ => True)
  . apply keeps_attempt
    apply h.keeps_writeInPlace
    intro bytes w hw
    exact hspares w bytes hw
  . intro _ _
    exact Keeps.pure trivial

theorem keeps_dhtPointer (h : Pushes env I ok) (owner : IdentityId) (name : String) :
    Keeps env I (dhtPointer owner name) := by
  apply Keeps.bind (keeps_attempt (h.keeps_getRecord _))
  intro r _
  split
  . exact Keeps.pure trivial
  . exact Keeps.pure trivial

theorem andUncached (h : Pushes env I ok) (owner : IdentityId) (name : String) :
    Pushes env (fun w => I w ∧ cachedPointer w owner name = none) ok where
  frame w w' hsame hw :=
    ⟨h.frame w w' hsame hw.1, (cachedPointer_congr hsame.records owner name).trans hw.2⟩
  put w object hverify hok hw := ⟨h.put w object hverify hok hw.1, hw.2⟩
  pushed := h.pushed
  track w object time hverify hok hforeign hw := by
    obtain ⟨w₀, hw₀, hne⟩ := hforeign
    exact ⟨h.track w object time hverify hok ⟨w₀, hw₀.1, hne⟩ hw.1, hw.2⟩
  touch w id time hcached hw := ⟨h.touch w id time hcached hw.1, hw.2⟩
  flush w hw := ⟨h.flush w hw.1, hw.2⟩
  replicate w bundle hok hw := ⟨h.replicate w bundle hok hw.1, hw.2⟩

/--
A resolution writes to the record cache only when that has no pointer.
-/
theorem keeps_resolvePointer (h : Pushes env I ok) {owner : IdentityId} {name : String}
    (hremembers : Remembers I owner name) : Keeps env I (resolvePointer owner name) := by
  have hnone := h.andUncached owner name
  have hremember (record : AppPointerRecord) :
      Triple env (fun w => I w ∧ cachedPointer w owner name = none)
        (rememberPointer (AppPointerRecord.key owner name) record) (fun _ => I) I := by
    apply Triple.bind (Q := fun _ => I)
    . apply Triple.attempt
      constructor
      intro w hw
      have htick := hnone.frame w { w with tick := w.tick + 1 } (.tick w) hw
      unfold writeInPlace
      rw [Prog.exec_bind_ok (exec_nextTick env w), Prog.exec_bind_ok (Prog.exec_read env _)]
      cases env.fault w.tick with
      | none => exact hremembers _ _ htick.1 htick.2
      | some fault =>
        cases fault with
        | refused => exact fun _ => htick.1
        | torn n => exact fun _ => hremembers _ _ htick.1 htick.2
    . intro _
      exact Triple.pure fun _ hw => hw
  unfold resolvePointer
  apply Triple.bind (Q := fun a w => a = w ∧ I w)
  . exact Triple.get fun w hw => ⟨rfl, hw⟩
  . intro a
    dsimp only
    split
    . exact Triple.pure fun w hw => ⟨hw.2, trivial⟩
    . next hcached =>
      apply Triple.bind (Q := fun _ w => I w ∧ cachedPointer w owner name = none)
      . apply (hnone.keeps_latestPointerRecord owner name).conseq
        . intro w hw
          rw [hw.1] at hcached
          exact ⟨hw.2, hcached⟩
        . intro _ w hw
          exact hw.1
        . intro w hw
          exact hw.1
      . intro r
        split
        . apply Triple.bind (hremember _)
          intro _
          exact Triple.pure fun w hw => ⟨hw, trivial⟩
        . apply Triple.bind (Q := fun _ w => I w ∧ cachedPointer w owner name = none)
          . apply (hnone.keeps_dhtPointer owner name).conseq (fun _ hw => hw)
            . intro _ w hw
              exact hw.1
            . intro w hw
              exact hw.1
          . intro r
            split
            . apply Triple.bind (hremember _)
              intro _
              exact Triple.pure fun w hw => ⟨hw, trivial⟩
            . exact Triple.pure fun w hw => ⟨hw.1, trivial⟩

theorem keeps_loadOwnRecord (h : Pushes env I ok) {α : Type} (c : Codec α) {name : String}
    (hremembers : ∀ w, I w → Remembers I w.identity.id name) :
    Keeps env I (loadOwnRecord c name) := by
  apply Keeps.bind_get
  intro w hw
  apply Keeps.bind (h.keeps_resolvePointer (hremembers w hw))
  intro r _
  split
  . exact Keeps.pure trivial
  . apply Keeps.bind (keeps_getVerified _)
    intro object _
    apply Keeps.bind (keeps_decodeObject c object)
    intro _ _
    exact Keeps.pure trivial

end Records

end Pushes

namespace Pushes

section Publish

theorem keeps_pushPointerRecord (h : Pushes env I ok) {bytes : Bytes}
    (hok : ∀ identity time, ok (Object.new identity time bytes .appPointer)) :
    Keeps env I (pushPointerRecord bytes) := by
  apply Keeps.bind (Q := ok)
  . apply Keeps.bind h.keeps_now
    intro time _
    apply Keeps.bind_get
    intro w _
    exact Keeps.pure (hok w.identity time)
  . intro object hobject
    apply Keeps.bind (h.keeps_putVerified fun _ => hobject)
    intro _ _
    apply Keeps.bind (keeps_ofExcept _)
    intro bundle hbundle
    exact h.keeps_replicateObject (Object.object_of_export_ok hbundle ▸ hobject)

/--
The pointer objects that name `target` are admitted.
-/
def Admits (ok : Object → Prop) (name : String) (target : ObjectId) : Prop :=
  ∀ (signer identity : Identity) (published time : Int), ok (Object.new identity time
    (AppPointerRecord.codec.serialize (.sign signer published name target)) .appPointer)

theorem keeps_publishPointer (h : Pushes env I ok) {name : String}
    (hspares : ∀ w, I w → Spares I (AppPointerRecord.key w.identity.id name)) {target : ObjectId}
    (hok : Admits ok name target) : Keeps env I (publishPointer name target) := by
  apply Keeps.bind h.keeps_now
  intro time _
  apply Keeps.bind_get
  intro w hw
  apply Keeps.bind (h.keeps_cacheRecord (hspares w hw) _)
  intro _ _
  apply Keeps.bind (keeps_attempt (h.keeps_pushPointerRecord (hok w.identity · time)))
  intro _ _
  exact h.keeps_putRecord _ _

theorem keeps_publishObject (h : Pushes env I ok) {name : String} {object : Object}
    (hspares : ∀ w, I w → Spares I (AppPointerRecord.key w.identity.id name)) (hok : ok object)
    (hpointer : Admits ok name object.id) : Keeps env I (publishObject name object) := by
  apply Keeps.bind (h.keeps_putVerified fun _ => hok)
  intro _ _
  apply Keeps.bind (h.keeps_publishPointer hspares hpointer)
  intro _ _
  exact Keeps.pure trivial

theorem keeps_saveHomeIndex (h : Pushes env I ok)
    (hspares : ∀ w, I w → Spares I (AppPointerRecord.key w.identity.id RECORD_HOME))
    (hshares : Shares I) (hunshare : ∀ w id, I w → I (unshare id w))
    (hhome : ∀ (index : HomeIndex) identity time, ok (index.toObject identity time))
    (hpointer : ∀ target, Admits ok RECORD_HOME target) (index : HomeIndex) :
    Keeps env I (saveHomeIndex index) := by
  apply Keeps.bind (h.keeps_loadOwnRecord _ fun w hw => (hspares w hw).remembers)
  intro previous _
  apply Keeps.bind h.keeps_now
  intro time _
  apply Keeps.bind_get
  intro w _
  apply Keeps.bind (h.keeps_publishObject hspares (hhome _ _ _) (hpointer _))
  intro id _
  apply Keeps.bind (h.keeps_reconcileShared hshares hunshare _ _)
  intro _ _
  exact Keeps.pure trivial

end Publish

end Pushes

namespace Points

theorem admits (h : Points env I ok) (name : String) (target : ObjectId) :
    Pushes.Admits ok name target :=
  fun _ identity _ time => h.pointer identity time _

theorem keeps_pushPointerRecord (h : Points env I ok) (bytes : Bytes) :
    Keeps env I (pushPointerRecord bytes) :=
  h.toPushes.keeps_pushPointerRecord fun identity time => h.pointer identity time bytes

theorem keeps_publishPointer (h : Points env I ok) {name : String}
    (hspares : ∀ w, I w → Spares I (AppPointerRecord.key w.identity.id name)) (target : ObjectId) :
    Keeps env I (publishPointer name target) :=
  h.toPushes.keeps_publishPointer hspares (h.admits name target)

theorem keeps_publishObject (h : Points env I ok) {name : String} {object : Object}
    (hspares : ∀ w, I w → Spares I (AppPointerRecord.key w.identity.id name)) (hok : ok object) :
    Keeps env I (publishObject name object) :=
  h.toPushes.keeps_publishObject hspares hok (h.admits name object.id)

end Points

namespace Saves

theorem spares (h : Saves env I ok) (key : Bytes) : Spares I key :=
  fun w bytes hw => h.record w _ bytes hw

theorem keeps_loadHomeIndex (h : Saves env I ok) : Keeps env I loadHomeIndex :=
  h.keeps_loadOwnRecord _ fun _ _ => (h.spares _).remembers

theorem keeps_evictAny (h : Saves env I ok) (id : ObjectId) : Keeps env I (evict id) :=
  h.keeps_evict (fun w hw => h.erase w id hw) (fun w hw => h.untrack w id hw)
    fun w hw => h.unshare w id hw

theorem keeps_saveHomeIndex (h : Saves env I ok) (index : HomeIndex) :
    Keeps env I (saveHomeIndex index) :=
  h.toPushes.keeps_saveHomeIndex (fun _ _ => h.spares _) h.share h.unshare h.home
    (h.admits RECORD_HOME) index

theorem keeps_publishEntryPointer (h : Saves env I ok) (name : String) (id : ObjectId) :
    Keeps env I (publishEntryPointer name id) := by
  apply Keeps.bind (keeps_attempt (h.keeps_publishPointer (fun _ _ => h.spares _) id))
  intro _ _
  exact Keeps.pure trivial

theorem keeps_setHomeEntryShared (h : Saves env I ok) (name : String) (shared : Bool) :
    Keeps env I (setHomeEntryShared name shared) := by
  apply Keeps.bind (Q := fun _ => True)
  . apply Keeps.bind (h.keeps_loadHomeIndex)
    intro index _
    exact (keeps_ofOption _ _).weaken fun _ _ => trivial
  . intro index _
    apply Keeps.bind (keeps_ofOption _ _)
    intro found _
    apply Keeps.bind (h.keeps_saveHomeIndex _)
    intro id _
    split
    . apply Keeps.bind (h.keeps_publishEntryPointer name _)
      intro _ _
      exact Keeps.pure trivial
    . exact Keeps.pure trivial

theorem keeps_removeFromHome (h : Saves env I ok) (id : ObjectId) (home : Option HomeIndex) :
    Keeps env I (removeFromHome id home) := by
  cases home with
  | none => exact Keeps.pure trivial
  | some index =>
    simp only [removeFromHome]
    split
    . exact Keeps.throw
    . split
      . exact Keeps.pure trivial
      . apply Keeps.bind (h.keeps_saveHomeIndex _)
        intro _ _
        exact Keeps.pure trivial

theorem keeps_evictOldHome (h : Saves env I ok) (id : ObjectId)
    (oldHome : Option AppPointerRecord) : Keeps env I (evictOldHome id oldHome) := by
  cases oldHome with
  | none => exact Keeps.pure trivial
  | some record =>
    simp only [evictOldHome]
    split
    . exact Keeps.pure trivial
    . apply Keeps.bind (keeps_attempt (h.keeps_evictAny _))
      intro _ _
      exact Keeps.pure trivial

theorem keeps_deleteObject (h : Saves env I ok) (id : ObjectId) :
    Keeps env I (deleteObject id) := by
  apply Keeps.bind (keeps_getVerified id)
  intro object _
  apply Keeps.bind (keeps_isOwned object)
  intro owned _
  split
  . exact Keeps.throw
  . split
    . exact Keeps.throw
    . apply Keeps.bind_get
      intro w _
      apply Keeps.bind (h.keeps_resolvePointer (h.spares _).remembers)
      intro oldHome _
      apply Keeps.bind (h.keeps_loadHomeIndex)
      intro home _
      apply Keeps.bind (h.keeps_removeFromHome id home)
      intro _ _
      apply Keeps.bind (h.keeps_evictAny id)
      intro _ _
      exact h.keeps_evictOldHome id oldHome

theorem keeps_shareObjectForPublish (h : Saves env I ok) (name : String) (app : Option String)
    (loaded : ObjectId × ObjectType × HomeIndex) :
    Keeps env I (shareObjectForPublish name app loaded) := by
  apply Keeps.bind (h.keeps_saveHomeIndex _)
  intro index _
  apply Keeps.bind (h.keeps_publishEntryPointer name _)
  intro _ _
  exact Keeps.pure trivial

end Saves

/--
A fetched object verifies and is stored under the id that was asked for, or it is what some peer
answered to the request for that id.
-/
def Fetched (env : Env) (id : ObjectId) (object : Object) : Prop :=
  object.verify = true ∧
    (object.id = id ∨ ∃ bundle, Pushes.Answers env id bundle ∧ bundle.object = object)

/--
An object that a state in `I` stores under the id, or a valid one that some peer answered for it.
-/
def Found (env : Env) (I : Runtime → Prop) (id : ObjectId) (object : Object) : Prop :=
  (∃ w, I w ∧ w.storage.getVerified id = .ok object) ∨
    (object.verify = true ∧ ∃ bundle, Pushes.Answers env id bundle ∧ bundle.object = object)

theorem Found.fetched {id : ObjectId} {object : Object} (h : Found env I id object) :
    Fetched env id object := by
  rcases h with ⟨w, _, hstored⟩ | ⟨hverify, hanswer⟩
  . exact ⟨Storage.verify_of_getVerified hstored, .inl (Storage.id_of_getVerified hstored)⟩
  . exact ⟨hverify, .inr hanswer⟩

theorem keeps_attempt_stored (id : ObjectId) :
    Keeps env I (Prog.attempt (getVerified id))
      (fun r => ∀ object, r = .ok object → ∃ w, I w ∧ w.storage.getVerified id = .ok object) := by
  constructor
  intro w hw
  rw [Prog.exec_attempt, exec_getVerified]
  exact ⟨hw, fun object hobject => ⟨w, hw, hobject⟩⟩

theorem keeps_attempt_getVerified (id : ObjectId) :
    Keeps env I (Prog.attempt (getVerified id))
      (fun r => ∀ object, r = .ok object → object.id = id ∧ object.verify = true) := by
  apply (keeps_attempt_stored id).weaken
  intro r hr object hobject
  obtain ⟨w, _, hstored⟩ := hr object hobject
  exact ⟨Storage.id_of_getVerified hstored, Storage.verify_of_getVerified hstored⟩

theorem keeps_openObject (object : Object) :
    Keeps env I (openObject object)
      (fun opened => ∃ w, I w ∧ openWith w.identity object = .ok opened) := by
  apply Keeps.bind_get
  intro w hw
  apply (keeps_ofExcept _).weaken
  intro opened hopened
  exact ⟨w, hw, hopened⟩

namespace Imports

section Objects

theorem keeps_fetchFrom (h : Imports env I ok) (id : ObjectId) (peers : List PeerId) :
    Keeps env I (fetchFrom id peers) (fun r => ∀ object, r = some object → Found env I id object) := by
  induction peers with
  | nil =>
    apply Keeps.pure
    intro object hobject
    contradiction
  | cons peer peers ih =>
    apply Keeps.bind (Q := fun r => ∀ bundle, r = .ok bundle → Pushes.Answers env id bundle)
    . apply Keeps.attempt
      . apply (h.keeps_getObject peer id).weaken
        intro bundle hanswer other hother
        simp only [Except.ok.injEq] at hother
        rw [← hother]
        exact hanswer
      . intro e bundle hbundle
        contradiction
    . intro r hr
      split
      . next bundle =>
        have hanswer := hr bundle rfl
        apply Keeps.bind (h.keeps_importBundle (h.answered id bundle hanswer))
        intro _ hverify
        apply Keeps.pure
        intro object hobject
        simp only [Option.some.injEq] at hobject
        rw [← hobject]
        exact .inr ⟨hverify, bundle, hanswer, rfl⟩
      . exact ih

theorem keeps_fetchObject_found (h : Imports env I ok) (id : ObjectId) (source : Option PeerId) :
    Keeps env I (fetchObject id source) (Found env I id) := by
  apply Keeps.bind (keeps_attempt_stored id)
  intro r hr
  split
  . next object => exact Keeps.pure (.inl (hr object rfl))
  . apply Keeps.bind h.keeps_connectedPeers
    intro connected _
    apply Keeps.bind (h.keeps_fetchFrom id _)
    intro r hr
    split
    . next object => exact Keeps.pure (hr object rfl)
    . apply Keeps.bind (h.keeps_fetchFrom id _)
      intro r hr
      split
      . next object => exact Keeps.pure (hr object rfl)
      . apply Keeps.bind (h.keeps_findProviders id)
        intro providers _
        apply Keeps.bind (h.keeps_fetchFrom id _)
        intro r hr
        split
        . next object => exact Keeps.pure (hr object rfl)
        . exact Keeps.throw

theorem keeps_fetchObject (h : Imports env I ok) (id : ObjectId) (source : Option PeerId) :
    Keeps env I (fetchObject id source) (Fetched env id) :=
  (h.keeps_fetchObject_found id source).weaken fun _ => Found.fetched

theorem keeps_localOrFetched (h : Imports env I ok) (id : ObjectId) :
    Keeps env I (localOrFetched id) (Fetched env id) := by
  apply Keeps.bind (keeps_attempt_getVerified id)
  intro r hr
  split
  . next object =>
    apply Keeps.pure
    exact ⟨(hr object rfl).2, .inl (hr object rfl).1⟩
  . exact h.keeps_fetchObject id none

theorem keeps_readObject (h : Imports env I ok) (id : ObjectId) :
    Keeps env I (readObject id) (fun opened => ∃ object w,
      Fetched env id object ∧ I w ∧ openWith w.identity object = .ok opened) := by
  apply Keeps.bind (h.keeps_localOrFetched id)
  intro object hobject
  apply (keeps_openObject object).weaken
  intro opened ⟨w, hw, hopened⟩
  exact ⟨object, w, hobject, hw, hopened⟩

theorem keeps_concatData (h : Imports env I ok) (ids : List ObjectId) :
    Keeps env I (concatData ids) := by
  induction ids with
  | nil => exact Keeps.pure trivial
  | cons id ids ih =>
    apply Keeps.bind (h.keeps_readObject id)
    intro object _
    apply Keeps.bind ih
    intro rest _
    exact Keeps.pure trivial

end Objects

section Owned

variable {owner : IdentityId} {name : String}

/--
What is found under a manifest for an owner is labelled with the owner.
-/
theorem keeps_ownedObject_found (h : Imports env I ok) (owner : IdentityId) (manifest : ObjectId) :
    Keeps env I (ownedObject owner manifest) (fun r => ∀ object, r = some object →
      object.payload.owner = owner ∧ Found env I manifest object) := by
  have hlabelled {object found : Object} (howner : found.payload.owner = owner)
      (hfound : Found env I manifest found) (hobject : some found = some object) :
      object.payload.owner = owner ∧ Found env I manifest object := by
    rw [Option.some.injEq] at hobject
    rw [← hobject]
    exact ⟨howner, hfound⟩
  apply Keeps.bind (keeps_attempt_stored manifest)
  intro stored hstored
  split
  . next found =>
    split
    . next howner =>
      apply Keeps.pure
      intro object hobject
      exact hlabelled howner (.inl (hstored found rfl)) hobject
    . apply Keeps.pure
      intro object hobject
      contradiction
  . apply Keeps.bind (Q := fun r => ∀ object, r = .ok object → Found env I manifest object)
    . apply Keeps.attempt
      . apply (h.keeps_fetchObject_found manifest _).weaken
        intro object hobject other hother
        simp only [Except.ok.injEq] at hother
        rw [← hother]
        exact hobject
      . intro e object hobject
        contradiction
    . intro fetched hfetched
      split
      . next found =>
        split
        . next howner =>
          apply Keeps.pure
          intro object hobject
          exact hlabelled howner (hfetched found rfl) hobject
        . apply Keeps.pure
          intro object hobject
          contradiction
      . apply Keeps.pure
        intro object hobject
        contradiction

theorem keeps_resolveOwnerObject_found (h : Imports env I ok) (hremembers : Remembers I owner name) :
    Keeps env I (resolveOwnerObject owner name) (fun r => ∀ object, r = some object →
      object.payload.owner = owner ∧ ∃ manifest, Found env I manifest object) := by
  apply Keeps.bind (h.keeps_resolvePointer hremembers)
  intro r _
  split
  . apply Keeps.pure
    intro object hobject
    contradiction
  . next record =>
    apply (h.keeps_ownedObject_found owner record.manifest).weaken
    intro r hr object hobject
    exact ⟨(hr object hobject).1, record.manifest, (hr object hobject).2⟩

theorem keeps_resolveOwnerRecord_found (h : Imports env I ok) {α : Type} (c : Codec α)
    (hremembers : Remembers I owner name) :
    Keeps env I (resolveOwnerRecord c owner name) (fun r => ∀ a, r = some a →
      ∃ object manifest, object.payload.owner = owner ∧ Found env I manifest object ∧
        object.decode c = some a) := by
  apply Keeps.bind (h.keeps_resolveOwnerObject_found hremembers)
  intro r hr
  split
  . apply Keeps.pure
    intro a ha
    contradiction
  . next object =>
    obtain ⟨howner, manifest, hfound⟩ := hr object rfl
    apply Keeps.bind (Q := fun a => object.decode c = some a)
    . exact keeps_ofOption _ _
    . intro a ha
      apply Keeps.pure
      intro b hb
      rw [Option.some.injEq] at hb
      rw [← hb]
      exact ⟨object, manifest, howner, hfound, ha⟩

end Owned

end Imports

namespace Fetches

section Objects

theorem own_new (h : Fetches env I ok) (identity : Identity) (time : Int) (bytes : Bytes)
    (objectType : ObjectType) : ok (Object.new identity time bytes objectType) := by
  apply h.own
  rfl

theorem keeps_newObject (h : Fetches env I ok) (bytes : Bytes) (objectType : ObjectType) :
    Keeps env I (newObject bytes objectType) ok := by
  apply Keeps.bind h.keeps_now
  intro time _
  apply Keeps.bind_get
  intro w _
  exact Keeps.pure (h.own_new w.identity time bytes objectType)

theorem keeps_sealData (h : Fetches env I ok) (data : Bytes) (recipients : List Key32) :
    Keeps env I (sealData data recipients) := by
  apply Keeps.bind_get
  intro w _
  apply Keeps.bind h.keeps_random
  intro draws _
  split
  . exact Keeps.pure trivial
  . exact Keeps.throw

theorem keeps_putObjectFor (h : Fetches env I ok) (data : Bytes) (objectType : ObjectType)
    (name : Option String) (recipients : List Key32) :
    Keeps env I (putObjectFor data objectType name recipients) := by
  apply Keeps.bind_get
  intro w _
  apply Keeps.bind h.keeps_now
  intro time _
  apply Keeps.bind (h.keeps_sealData data recipients)
  intro sealed _
  apply Keeps.bind
  . apply h.keeps_putVerified
    intro _
    rw [resealed_new]
    exact h.own _ _ rfl
  . intro _ _
    apply Keeps.bind (h.keeps_nameObject _ name)
    intro _ _
    exact Keeps.pure trivial

theorem keeps_putObjectPublic (h : Fetches env I ok) (data : Bytes) (objectType : ObjectType)
    (name : Option String) : Keeps env I (putObjectPublic data objectType name) := by
  apply Keeps.bind (h.keeps_newObject data objectType)
  intro object hobject
  apply Keeps.bind (h.keeps_putVerified fun _ => hobject)
  intro _ _
  apply Keeps.bind (h.keeps_nameObject _ name)
  intro _ _
  exact Keeps.pure trivial

theorem keeps_copyFor (h : Fetches env I ok) (object : Object) (recipients : List Key32) :
    Keeps env I (copyFor object recipients) := by
  unfold copyFor
  split
  . exact Keeps.pure trivial
  . apply Keeps.bind (keeps_openObject object)
    intro opened _
    apply Keeps.bind (h.keeps_putObjectFor _ _ _ _)
    intro sealed _
    exact Keeps.pure trivial

end Objects

section Records

theorem keeps_ownedObject (h : Fetches env I ok) (owner : IdentityId) (manifest : ObjectId) :
    Keeps env I (ownedObject owner manifest) (fun r => ∀ object, r = some object →
      object.payload.owner = owner ∧ Fetched env manifest object) := by
  apply (h.keeps_ownedObject_found owner manifest).weaken
  intro r hr object hobject
  exact ⟨(hr object hobject).1, (hr object hobject).2.fetched⟩

theorem keeps_resolveOwnerObject (h : Fetches env I ok) {owner : IdentityId} {name : String}
    (hremembers : Remembers I owner name) : Keeps env I (resolveOwnerObject owner name) :=
  (h.keeps_resolveOwnerObject_found hremembers).weaken fun _ _ => trivial

theorem keeps_resolveOwnerRecord (h : Fetches env I ok) {α : Type} (c : Codec α)
    {owner : IdentityId} {name : String} (hremembers : Remembers I owner name) :
    Keeps env I (resolveOwnerRecord c owner name) :=
  (h.keeps_resolveOwnerRecord_found c hremembers).weaken fun _ _ => trivial

theorem keeps_announceObject (h : Fetches env I ok) (hshares : Shares I) {name : String}
    {object : Object} (hspares : ∀ w, I w → Spares I (AppPointerRecord.key w.identity.id name))
    (hok : ok object) : Keeps env I (announceObject name object) := by
  apply Keeps.bind (h.keeps_putVerified fun _ => hok)
  intro _ _
  apply Keeps.bind (h.keeps_announce hshares _)
  intro _ _
  apply Keeps.bind (h.points.keeps_publishPointer hspares _)
  intro _ _
  exact Keeps.pure trivial

theorem keeps_adoptPointer (h : Fetches env I ok) {name : String}
    (hspares : ∀ w, I w → Spares I (AppPointerRecord.key w.identity.id name))
    (record : AppPointerRecord) : Keeps env I (adoptPointer name record) := by
  apply Keeps.bind_get
  intro w hw
  apply Keeps.bind (h.keeps_fetchObject _ _)
  intro _ _
  exact h.keeps_cacheRecord (hspares w hw) _

theorem keeps_syncFromDht (h : Fetches env I ok) {name : String}
    (hspares : ∀ w, I w → Spares I (AppPointerRecord.key w.identity.id name))
    (cached : Option AppPointerRecord) : Keeps env I (syncFromDht name cached) := by
  apply Keeps.bind_get
  intro w _
  apply Keeps.bind (h.keeps_dhtPointer _ name)
  intro r _
  split
  . exact Keeps.pure trivial
  . split
    . apply Keeps.bind (h.keeps_adoptPointer hspares _)
      intro _ _
      exact Keeps.pure trivial
    . exact Keeps.pure trivial

theorem keeps_syncRecord (h : Fetches env I ok) {name : String}
    (hspares : ∀ w, I w → Spares I (AppPointerRecord.key w.identity.id name)) :
    Keeps env I (syncRecord name) := by
  apply Keeps.bind_get
  intro w _
  apply Keeps.bind (h.keeps_latestPointerRecord _ name)
  intro r _
  split
  . split
    . apply Keeps.bind (h.keeps_adoptPointer hspares _)
      intro _ _
      exact Keeps.pure trivial
    . exact h.keeps_syncFromDht hspares _
  . exact h.keeps_syncFromDht hspares _

end Records

section Devices

theorem keeps_publishRecord (h : Fetches env I ok) {key : Bytes} (hspares : Spares I key)
    (value : Bytes) : Keeps env I (publishRecord key value) := by
  apply Keeps.bind (keeps_attempt (h.keeps_cacheRecord hspares value))
  intro _ _
  exact h.keeps_putRecord key value

theorem keeps_publishDeviceRegistry (h : Fetches env I ok)
    (hspares : ∀ device, Spares I (deviceRegistryKey device)) :
    Keeps env I publishDeviceRegistry := by
  apply Keeps.bind_get
  intro w _
  exact h.keeps_publishRecord (hspares _) _

theorem keeps_askForLists (h : Fetches env I ok) (owner : IdentityId)
    (requests : List (ObjectId × PeerId)) (best : Option DeviceList) :
    Keeps env I (askForLists owner requests best) := by
  induction requests generalizing best with
  | nil => exact Keeps.pure trivial
  | cons request requests ih =>
    apply Keeps.bind (keeps_attempt ((h.keeps_getObject _ _).weaken fun _ _ => trivial))
    intro answer _
    exact ih _

theorem keeps_providersOf (h : Fetches env I ok) (manifests : List ObjectId) :
    Keeps env I (providersOf manifests) := by
  induction manifests with
  | nil => exact Keeps.pure trivial
  | cons manifest manifests ih =>
    apply Keeps.bind (keeps_attempt (h.keeps_findProviders manifest))
    intro found _
    apply Keeps.bind ih
    intro rest _
    split
    . exact Keeps.pure trivial
    . exact Keeps.pure trivial

theorem keeps_knownManifests (h : Fetches env I ok) {owner : IdentityId}
    (hremembers : Remembers I owner RECORD_DEVICES) : Keeps env I (knownManifests owner) := by
  apply Keeps.bind (keeps_attempt (h.keeps_resolvePointer hremembers))
  intro resolved _
  apply Keeps.bind (h.keeps_latestPointerRecord owner _)
  intro pushed _
  apply Keeps.bind (h.keeps_dhtPointer owner _)
  intro dht _
  exact Keeps.pure trivial

theorem keeps_listRequests (h : Fetches env I ok) {owner : IdentityId}
    (hremembers : Remembers I owner RECORD_DEVICES) : Keeps env I (listRequests owner) := by
  apply Keeps.bind (h.keeps_knownManifests hremembers)
  intro known _
  apply Keeps.bind (keeps_attempt h.keeps_connectedPeers)
  intro connected _
  apply Keeps.bind (h.keeps_providersOf _)
  intro providers _
  apply Keeps.bind_get
  intro w _
  exact Keeps.pure trivial

theorem keeps_fetchFreshestDeviceList (h : Fetches env I ok)
    (hremembers : ∀ w, I w → Remembers I w.identity.id RECORD_DEVICES) :
    Keeps env I fetchFreshestDeviceList := by
  apply Keeps.bind_get
  intro w hw
  apply Keeps.bind (h.keeps_listRequests (hremembers w hw))
  intro requests _
  exact h.keeps_askForLists _ _ _

theorem keeps_loadDeviceListMerged (h : Fetches env I ok)
    (hremembers : ∀ w, I w → Remembers I w.identity.id RECORD_DEVICES) :
    Keeps env I loadDeviceListMerged := by
  apply Keeps.bind_get
  intro w hw
  apply Keeps.bind (h.keeps_resolveOwnerRecord _ (hremembers w hw))
  intro localList _
  apply Keeps.bind (keeps_attempt (h.keeps_fetchFreshestDeviceList hremembers))
  intro r _
  split
  . exact Keeps.pure trivial
  . exact Keeps.pure trivial

theorem keeps_saveDeviceList (h : Fetches env I ok) (hshares : Shares I)
    (hspares : ∀ w, I w → Spares I (AppPointerRecord.key w.identity.id RECORD_DEVICES))
    (list : DeviceList) : Keeps env I (saveDeviceList list) := by
  apply Keeps.bind_get
  intro w hw
  apply Keeps.bind (h.keeps_resolveOwnerRecord _ (hspares w hw).remembers)
  intro previous _
  apply Keeps.bind h.keeps_now
  intro time _
  exact h.keeps_announceObject hshares hspares (h.own_new _ _ _ _)

theorem keeps_addDevice (h : Fetches env I ok) (hshares : Shares I)
    (hspares : ∀ w, I w → Spares I (AppPointerRecord.key w.identity.id RECORD_DEVICES))
    (deviceId deviceName : String) : Keeps env I (addDevice deviceId deviceName) := by
  apply Keeps.bind (h.keeps_loadDeviceListMerged fun w hw => (hspares w hw).remembers)
  intro list _
  apply Keeps.bind h.keeps_now
  intro time _
  apply Keeps.bind (h.keeps_saveDeviceList hshares hspares _)
  intro _ _
  exact Keeps.pure trivial

theorem keeps_registerDevice (h : Fetches env I ok) (hshares : Shares I)
    (hspares : ∀ w, I w → Spares I (AppPointerRecord.key w.identity.id RECORD_DEVICES))
    (hregistry : ∀ device, Spares I (deviceRegistryKey device)) :
    Keeps env I registerDevice := by
  apply Keeps.bind_get
  intro w _
  apply Keeps.bind (keeps_attempt (h.keeps_addDevice hshares hspares _ _))
  intro _ _
  exact h.keeps_publishDeviceRegistry hregistry

end Devices

section Pairing

theorem keeps_initiatePairing (h : Fetches env I ok) : Keeps env I initiatePairing := by
  apply Keeps.bind h.keeps_random
  intro code _
  apply Keeps.bind h.keeps_random
  intro sessionId _
  apply Keeps.bind
  . exact h.keeps_modify fun w => ⟨⟨rfl, rfl, rfl⟩, rfl, rfl, rfl, rfl, rfl, rfl, fun _ h => h⟩
  . intro _ _
    exact Keeps.pure trivial

theorem keeps_takeSession (h : Fetches env I ok) (sessionId : String) :
    Keeps env I (takeSession sessionId) := by
  apply Keeps.bind_get
  intro w _
  apply Keeps.bind
  . exact h.keeps_modify fun w => ⟨⟨rfl, rfl, rfl⟩, rfl, rfl, rfl, rfl, rfl, rfl, fun _ h => h⟩
  . intro _ _
    split
    . exact Keeps.throw
    . split
      . exact Keeps.pure trivial
      . exact Keeps.throw

theorem keeps_setIdentityKey (h : Fetches env I ok) (hkey : ReplacesKey I) (imported : Identity) :
    Keeps env I (setIdentityKey imported) := by
  have hrest : Keeps env I (do
      let draws ← random
      let env ← read
      let bytes ← ofExcept (imported.exportAtRest draws env.passphrase)
      writeAtomic fun w => { w with keyFile := some bytes }) := by
    apply Keeps.bind h.keeps_random
    intro draws _
    apply Keeps.bind_read
    apply Keeps.bind (keeps_ofExcept _)
    intro bytes _
    apply h.keeps_writeAtomic
    intro w hw
    exact hkey.key w bytes hw
  apply Keeps.bind_get
  intro w _
  split
  . exact hrest
  . apply Keeps.bind h.keeps_now
    intro time _
    apply Keeps.bind (Q := fun _ => True)
    . apply h.keeps_writeInPlace
      intro bytes w hw
      exact hkey.backup w _ bytes hw
    . intro _ _
      exact hrest

end Pairing

section Reopen

theorem keeps_reshareRecord (h : Fetches env I ok) (hshares : Shares I) (name : String) :
    Keeps env I (reshareRecord name) := by
  apply Keeps.bind_get
  intro w _
  split
  . exact Keeps.pure trivial
  . split
    . apply Keeps.bind (keeps_attempt (h.keeps_announce hshares _))
      intro _ _
      exact Keeps.pure trivial
    . exact Keeps.pure trivial

/--
A restart takes over the identity in the key file and loads its home index, or fails before it does
anything.
-/
theorem triple_reopen (h : Fetches env I ok) (hshares : Shares I)
    (hunshare : ∀ w id, I w → I (unshare id w))
    (hspares : ∀ w, I w → Spares I (AppPointerRecord.key w.identity.id RECORD_DEVICES))
    (hregistry : ∀ device, Spares I (deviceRegistryKey device)) {P J : Runtime → Prop}
    (hadopt : ∀ w bytes identity, P w → w.keyFile = some bytes →
      Identity.loadAtRest bytes env.passphrase = some identity →
      J { w with identity := identity, cache := w.sidecar, shared := ∅, pairing := none })
    (hload : Triple env J (Prog.attempt loadHomeIndex) (fun _ => I) (fun w => P w ∨ I w)) :
    Triple env P reopen (fun _ => I) (fun w => P w ∨ I w) := by
  have hrest : Keeps env I (do
      reshareRecord RECORD_PROFILE
      reshareRecord RECORD_USERNAME
      reshareRecord RECORD_DEVICES
      registerDevice) := by
    apply Keeps.bind (h.keeps_reshareRecord hshares _)
    intro _ _
    apply Keeps.bind (h.keeps_reshareRecord hshares _)
    intro _ _
    apply Keeps.bind (h.keeps_reshareRecord hshares _)
    intro _ _
    exact h.keeps_registerDevice hshares hspares hregistry
  have hfailed : ∀ w, P w → P w ∨ I w := fun w hw => .inl hw
  unfold reopen
  apply Triple.bind (Q := fun a w => a.keyFile = w.keyFile ∧ P w)
  . exact Triple.get fun w hw => ⟨rfl, hw⟩
  . intro a
    apply Triple.bind (Q := fun e w => e = env ∧ a.keyFile = w.keyFile ∧ P w)
    . exact Triple.read fun w hw => ⟨rfl, hw⟩
    . intro e
      apply Triple.of_and
      intro he
      rw [he]
      apply Triple.bind (triple_ofOption _ _ fun w hw => hfailed w hw.2)
      intro bytes
      apply Triple.of_and
      intro hbytes
      apply Triple.bind (triple_ofOption _ _ fun w hw => hfailed w hw.2)
      intro identity
      apply Triple.of_and
      intro hidentity
      apply Triple.bind (Q := fun _ => J)
      . apply Triple.modify
        intro w hw
        exact hadopt w bytes identity hw.2 (hw.1 ▸ hbytes) hidentity
      . intro _
        apply Triple.bind hload
        intro r
        have hloaded {m : RunM Unit} (hm : Keeps env I m) :
            Triple env I m (fun _ => I) (fun w => P w ∨ I w) :=
          hm.conseq (fun _ hw => hw) (fun _ _ hw => hw.1) fun _ hw => .inr hw
        cases r with
        | error e => exact hloaded hrest
        | ok index =>
          apply hloaded
          apply Keeps.bind (h.keeps_reconcileShared hshares hunshare _ _)
          intro _ _
          exact hrest

end Reopen

end Fetches

namespace Ingress

theorem spares (h : Ingress env I ok) (key : Bytes) : Spares I key :=
  fun w bytes hw => h.record w _ bytes hw

theorem keeps_concatObjects (h : Ingress env I ok) (hshares : Shares I) (ids : List ObjectId)
    (name : Option String) :
    Keeps env I (concatObjects ids name) := by
  unfold concatObjects
  split
  . exact Keeps.throw
  . apply Keeps.bind (h.keeps_concatData ids)
    intro data _
    apply Keeps.bind (h.keeps_newObject data .blob)
    intro object hobject
    apply Keeps.bind (h.keeps_putVerified fun _ => hobject)
    intro _ _
    apply Keeps.bind (h.keeps_nameObject _ name)
    intro _ _
    apply Keeps.bind (h.keeps_announce hshares _)
    intro _ _
    apply Keeps.bind (keeps_ofExcept _)
    intro bundle hbundle
    have hok := Object.object_of_export_ok hbundle ▸ hobject
    apply Keeps.bind (keeps_attempt (h.keeps_replicateObject hok))
    intro _ _
    exact Keeps.pure trivial

theorem keeps_evict (h : Ingress env I ok) (id : ObjectId) : Keeps env I (evict id) :=
  h.toPushes.keeps_evict (fun w hw => h.erase w id hw) (fun w hw => h.untrack w id hw)
    fun w hw => h.unshare w id hw

section Records

theorem keeps_cacheRecord (h : Ingress env I ok) (key value : Bytes) :
    Keeps env I (cacheRecord key value) :=
  h.toFetches.keeps_cacheRecord (h.spares key) value

theorem keeps_publishPointer (h : Ingress env I ok) (name : String) (target : ObjectId) :
    Keeps env I (publishPointer name target) :=
  h.toFetches.points.keeps_publishPointer (fun _ _ => h.spares _) target

theorem keeps_rememberPointer (h : Ingress env I ok) (key : Bytes) (record : AppPointerRecord) :
    Keeps env I (rememberPointer key record) :=
  h.toFetches.keeps_rememberPointer (h.spares key) record

theorem keeps_resolvePointer (h : Ingress env I ok) (owner : IdentityId) (name : String) :
    Keeps env I (resolvePointer owner name) :=
  h.toFetches.keeps_resolvePointer (h.spares _).remembers

theorem keeps_resolveOwnerObject (h : Ingress env I ok) (owner : IdentityId) (name : String) :
    Keeps env I (resolveOwnerObject owner name) :=
  h.toFetches.keeps_resolveOwnerObject (h.spares _).remembers

theorem keeps_resolveOwnerRecord (h : Ingress env I ok) {α : Type} (c : Codec α)
    (owner : IdentityId) (name : String) : Keeps env I (resolveOwnerRecord c owner name) :=
  h.toFetches.keeps_resolveOwnerRecord c (h.spares _).remembers

theorem keeps_loadOwnRecord (h : Ingress env I ok) {α : Type} (c : Codec α) (name : String) :
    Keeps env I (loadOwnRecord c name) :=
  h.toFetches.keeps_loadOwnRecord c fun _ _ => (h.spares _).remembers

theorem keeps_publishObject (h : Ingress env I ok) (name : String) {object : Object}
    (hok : ok object) : Keeps env I (publishObject name object) :=
  h.toFetches.points.keeps_publishObject (fun _ _ => h.spares _) hok

theorem keeps_announceObject (h : Ingress env I ok) (hshares : Shares I) (name : String)
    {object : Object} (hok : ok object) : Keeps env I (announceObject name object) :=
  h.toFetches.keeps_announceObject hshares (fun _ _ => h.spares _) hok

theorem keeps_saveProfile (h : Ingress env I ok) (hshares : Shares I) (profile : Profile) :
    Keeps env I (saveProfile profile) := by
  apply Keeps.bind (h.keeps_loadOwnRecord _ _)
  intro previous _
  apply Keeps.bind_get
  intro w _
  apply Keeps.bind h.keeps_now
  intro time _
  exact h.keeps_announceObject hshares _ (h.own_new _ _ _ _)

theorem keeps_saveContactList (h : Ingress env I ok) (contacts : ContactList) :
    Keeps env I (saveContactList contacts) := by
  apply Keeps.bind (h.keeps_loadOwnRecord _ _)
  intro previous _
  apply Keeps.bind h.keeps_now
  intro time _
  apply Keeps.bind_get
  intro w _
  exact h.keeps_publishObject _ (h.own_new _ _ _ _)

theorem keeps_claimUsername (h : Ingress env I ok) (hshares : Shares I) (username : String) :
    Keeps env I (claimUsername username) := by
  apply Keeps.bind (keeps_ofExcept _)
  intro username _
  apply Keeps.bind_get
  intro w _
  apply Keeps.bind (h.keeps_resolveOwnerRecord _ _ _)
  intro previous _
  apply Keeps.bind h.keeps_now
  intro time _
  apply Keeps.bind (h.keeps_announceObject hshares _ (h.own_new _ _ _ _))
  intro _ _
  exact h.keeps_putRecord _ _

theorem keeps_firstClaiming (h : Ingress env I ok) (username : String)
    (owners : List IdentityId) : Keeps env I (firstClaiming username owners) := by
  induction owners with
  | nil => exact Keeps.pure trivial
  | cons owner owners ih =>
    apply Keeps.bind (keeps_attempt (h.keeps_resolveOwnerRecord _ _ _))
    intro r _
    split
    . split
      . exact Keeps.pure trivial
      . exact ih
    . exact ih
    . exact ih

theorem keeps_ownerClaimingUsername (h : Ingress env I ok) (username : String) :
    Keeps env I (ownerClaimingUsername username) := by
  apply Keeps.bind (keeps_attempt h.keeps_list)
  intro r _
  split
  . exact Keeps.pure trivial
  . apply Keeps.bind_get
    intro w _
    split
    . exact Keeps.pure trivial
    . exact h.keeps_firstClaiming username _

theorem keeps_resolveOwnerFromUsername (h : Ingress env I ok) (username : String) :
    Keeps env I (resolveOwnerFromUsername username) := by
  apply Keeps.bind (keeps_ofExcept _)
  intro username _
  apply Keeps.bind (h.keeps_ownerClaimingUsername username)
  intro r _
  split
  . exact Keeps.pure trivial
  . apply Keeps.bind (keeps_attempt (h.keeps_getRecord _))
    intro answer _
    split
    . exact Keeps.throw
    . exact Keeps.pure trivial
    . apply Keeps.bind (keeps_ofOption _ _)
      intro idString _
      apply Keeps.bind (h.keeps_resolveOwnerRecord _ _ _)
      intro record _
      split
      . split
        . exact Keeps.pure trivial
        . exact Keeps.pure trivial
      . exact Keeps.pure trivial

end Records

section Devices

theorem keeps_resolveRecord (h : Ingress env I ok) (key : Bytes) :
    Keeps env I (resolveRecord key) := by
  apply Keeps.bind_get
  intro w _
  split
  . exact Keeps.pure trivial
  . apply Keeps.bind (keeps_attempt (h.keeps_getRecord key))
    intro r _
    split
    . apply Keeps.bind (keeps_attempt (h.keeps_cacheRecord key _))
      intro _ _
      exact Keeps.pure trivial
    . exact Keeps.pure trivial
    . exact Keeps.pure trivial

theorem keeps_publishDeviceRegistry (h : Ingress env I ok) :
    Keeps env I publishDeviceRegistry :=
  h.toFetches.keeps_publishDeviceRegistry fun _ => h.spares _

theorem keeps_resolveDeviceIdentity (h : Ingress env I ok) (device : PeerId) :
    Keeps env I (resolveDeviceIdentity device) := by
  apply Keeps.bind (h.keeps_resolveRecord _)
  intro r _
  split
  . exact Keeps.pure trivial
  . apply Keeps.bind (keeps_ofOption _ _)
    intro idString _
    exact Keeps.pure trivial

theorem keeps_loadDeviceListMerged (h : Ingress env I ok) :
    Keeps env I loadDeviceListMerged :=
  h.toFetches.keeps_loadDeviceListMerged fun _ _ => (h.spares _).remembers

theorem keeps_saveDeviceList (h : Ingress env I ok) (hshares : Shares I) (list : DeviceList) :
    Keeps env I (saveDeviceList list) :=
  h.toFetches.keeps_saveDeviceList hshares (fun _ _ => h.spares _) list

theorem keeps_addDevice (h : Ingress env I ok) (hshares : Shares I) (deviceId deviceName : String) :
    Keeps env I (addDevice deviceId deviceName) :=
  h.toFetches.keeps_addDevice hshares (fun _ _ => h.spares _) deviceId deviceName

theorem keeps_removeDevice (h : Ingress env I ok) (hshares : Shares I) (deviceId : String) :
    Keeps env I (removeDevice deviceId) := by
  apply Keeps.bind_get
  intro w _
  split
  . exact Keeps.throw
  . apply Keeps.bind h.keeps_loadDeviceListMerged
    intro list _
    apply Keeps.bind (h.keeps_saveDeviceList hshares _)
    intro _ _
    exact Keeps.pure trivial

theorem keeps_registerDevice (h : Ingress env I ok) (hshares : Shares I) :
    Keeps env I registerDevice :=
  h.toFetches.keeps_registerDevice hshares (fun _ _ => h.spares _) fun _ => h.spares _

theorem keeps_reconcileDeviceList (h : Ingress env I ok) (hshares : Shares I) :
    Keeps env I reconcileDeviceList := by
  apply Keeps.bind_get
  intro w _
  apply Keeps.bind h.keeps_loadDeviceListMerged
  intro merged _
  apply Keeps.bind (h.keeps_resolveOwnerRecord _ _ _)
  intro localList _
  apply Keeps.bind h.keeps_now
  intro time _
  dsimp only
  split
  . exact Keeps.pure trivial
  . apply Keeps.bind (h.keeps_saveDeviceList hshares _)
    intro _ _
    exact Keeps.pure trivial

theorem keeps_resolveDevicePeerId (h : Ingress env I ok) (owner : IdentityId) :
    Keeps env I (resolveDevicePeerId owner) := by
  apply Keeps.bind_get
  intro w _
  split
  . exact Keeps.pure trivial
  . apply Keeps.bind (h.keeps_resolveOwnerRecord _ _ _)
    intro r _
    split
    . exact Keeps.pure trivial
    . exact Keeps.pure trivial

end Devices

section Sync

theorem keeps_syncRecord (h : Ingress env I ok) (name : String) :
    Keeps env I (syncRecord name) :=
  h.toFetches.keeps_syncRecord fun _ _ => h.spares _

theorem keeps_syncWithAllDevices (h : Ingress env I ok) : Keeps env I syncWithAllDevices := by
  apply Keeps.bind_get
  intro w _
  apply Keeps.bind (h.keeps_resolveOwnerRecord _ _ _)
  intro _ _
  apply Keeps.bind (h.keeps_syncRecord _)
  intro _ _
  apply Keeps.bind (h.keeps_syncRecord _)
  intro _ _
  apply Keeps.bind (h.keeps_syncRecord _)
  intro _ _
  exact Keeps.pure trivial

end Sync

section Sharing

theorem saves (h : Ingress env I ok) (hshares : Shares I) : Saves env I ok where
  toPoints := h.toFetches.points
  home _ _ _ := h.own_new _ _ _ _
  record := h.record
  share := hshares
  unshare := h.unshare
  erase := h.erase
  untrack := h.untrack

theorem keeps_saveHomeIndex (h : Ingress env I ok) (hshares : Shares I) (index : HomeIndex) :
    Keeps env I (saveHomeIndex index) :=
  (h.saves hshares).keeps_saveHomeIndex index

theorem keeps_setHomeEntryShared (h : Ingress env I ok) (hshares : Shares I) (name : String)
    (shared : Bool) : Keeps env I (setHomeEntryShared name shared) :=
  (h.saves hshares).keeps_setHomeEntryShared name shared

theorem keeps_shareObjectFor (h : Ingress env I ok) (hshares : Shares I) (name : String)
    (id : ObjectId) (app : Option String) (recipients : List Key32) :
    Keeps env I (shareObjectFor name id app recipients) := by
  apply Keeps.bind (Q := fun _ => True)
  . apply Keeps.bind (keeps_getVerified id)
    intro object _
    apply Keeps.bind (h.keeps_copyFor object recipients)
    intro sharedId _
    apply Keeps.bind (h.keeps_loadOwnRecord _ _)
    intro index _
    exact Keeps.pure trivial
  . intro loaded _
    exact (h.saves hshares).keeps_shareObjectForPublish name app loaded

theorem keeps_deleteObject (h : Ingress env I ok) (hshares : Shares I) (id : ObjectId) :
    Keeps env I (deleteObject id) :=
  (h.saves hshares).keeps_deleteObject id

end Sharing

section Capabilities

theorem keeps_loadCapabilityIndex (h : Ingress env I ok) : Keeps env I loadCapabilityIndex := by
  apply Keeps.bind_get
  intro w _
  exact h.keeps_resolveOwnerRecord _ _ _

theorem keeps_saveCapabilityIndex (h : Ingress env I ok) (index : CapabilityIndex) :
    Keeps env I (saveCapabilityIndex index) := by
  apply Keeps.bind h.keeps_now
  intro time _
  apply Keeps.bind_get
  intro w _
  exact h.keeps_publishObject _ (h.own_new _ _ _ _)

theorem keeps_grantCapability (h : Ingress env I ok) (subject : IdentityId) (resource : Resource)
    (permissions : List Permission) (expiresAt : Option UInt64) :
    Keeps env I (grantCapability subject resource permissions expiresAt) := by
  apply Keeps.bind (Q := fun _ => True)
  . apply Keeps.bind h.keeps_now
    intro time _
    apply Keeps.bind_get
    intro w _
    apply Keeps.bind h.keeps_now
    intro stamp _
    apply Keeps.bind (h.keeps_putVerified fun _ => h.own_new _ _ _ _)
    intro _ _
    apply Keeps.bind h.keeps_loadCapabilityIndex
    intro index _
    exact Keeps.pure trivial
  . intro loaded _
    apply Keeps.bind (h.keeps_saveCapabilityIndex _)
    intro _ _
    exact Keeps.pure trivial

theorem keeps_revokeCapability (h : Ingress env I ok) (id : CapabilityId) :
    Keeps env I (revokeCapability id) := by
  apply Keeps.bind (Q := fun _ => True)
  . apply Keeps.bind h.keeps_loadCapabilityIndex
    intro index _
    exact (keeps_ofOption _ _).weaken fun _ _ => trivial
  . intro index _
    apply Keeps.bind (keeps_ofOption _ _)
    intro entries _
    apply Keeps.bind (h.keeps_saveCapabilityIndex _)
    intro _ _
    exact Keeps.pure trivial

theorem keeps_checkRemoteRevocation (h : Ingress env I ok) (owner : IdentityId)
    (id : CapabilityId) : Keeps env I (checkRemoteRevocation owner id) := by
  apply Keeps.bind (keeps_attempt (h.keeps_resolveOwnerObject owner _))
  intro r _
  split
  . split
    . exact Keeps.pure trivial
    . exact Keeps.pure trivial
  . exact Keeps.pure trivial
  . exact Keeps.pure trivial

theorem keeps_isRevoked (h : Ingress env I ok) (capability : Capability) :
    Keeps env I (isRevoked capability) := by
  apply Keeps.bind_get
  intro w _
  split
  . apply Keeps.bind h.keeps_loadCapabilityIndex
    intro r _
    split
    . exact Keeps.pure trivial
    . exact Keeps.pure trivial
  . exact h.keeps_checkRemoteRevocation _ _

theorem keeps_checkCapability (h : Ingress env I ok) (capability : Capability) :
    Keeps env I (checkCapability capability) := by
  apply Keeps.bind h.keeps_now
  intro time _
  dsimp only
  split
  . exact Keeps.pure trivial
  . split
    . exact Keeps.pure trivial
    . apply Keeps.bind (h.keeps_isRevoked capability)
      intro revoked _
      split
      . exact Keeps.pure trivial
      . exact Keeps.pure trivial

theorem keeps_checkAccess (h : Ingress env I ok) (subject : IdentityId) (permission : Permission)
    (resource : Resource) : Keeps env I (checkAccess subject permission resource) := by
  apply Keeps.bind h.keeps_loadCapabilityIndex
  intro r _
  split
  . exact Keeps.pure trivial
  . apply Keeps.bind h.keeps_now
    intro time _
    exact Keeps.pure trivial

end Capabilities

section Pairing

theorem keeps_importRecords (h : Ingress env I ok) (imported : Identity)
    {records : List PairingRecord}
    (hok : ∀ record ∈ records, record.object.verify = true → ok record.object)
    (htrack : ∀ record ∈ records, record.object.verify = true →
      ∀ w time, I w → I (Runtime.track record.object.id time w)) :
    Keeps env I (importRecords imported records) := by
  induction records with
  | nil => exact Keeps.pure trivial
  | cons record records ih =>
    apply Keeps.bind (Q := fun r => ∀ u, r = .ok u → record.object.verify = true)
    . apply Keeps.attempt
      . apply (h.keeps_putVerified (hok record List.mem_cons_self)).weaken
        intro _ hverify _ _
        exact hverify
      . intro e u hu
        contradiction
    . intro r hr
      split
      . exact Keeps.throw
      . next u =>
        apply Keeps.bind (h.keeps_markCached (htrack record List.mem_cons_self (hr u rfl)))
        intro _ _
        apply Keeps.bind (keeps_attempt (h.keeps_cacheRecord _ _))
        intro _ _
        apply ih
        . intro other hother
          exact hok other (List.mem_cons_of_mem _ hother)
        . intro other hother
          exact htrack other (List.mem_cons_of_mem _ hother)

/--
The records that a pairing request can make this node store.
-/
def Transfers (incoming : InboundPairing) (records : List PairingRecord) : Prop :=
  ∃ session device imported,
    openPairingRequest session device incoming = .ok (imported, records)

theorem keeps_acceptPairing (h : Ingress env I ok) (hkey : ReplacesKey I)
    {incoming : InboundPairing}
    (hok : ∀ records, Transfers incoming records →
      ∀ record ∈ records, record.object.verify = true → ok record.object)
    (htrack : ∀ records, Transfers incoming records →
      ∀ record ∈ records, record.object.verify = true →
        ∀ w time, I w → I (Runtime.track record.object.id time w)) :
    Keeps env I (acceptPairing incoming) := by
  apply Keeps.bind (Q := fun _ => True)
  . apply keeps_attempt
    apply Keeps.bind (h.keeps_takeSession _)
    intro session _
    apply Keeps.bind_get
    intro w _
    apply Keeps.bind (keeps_ofExcept _)
    intro opened hopened
    apply Keeps.bind (h.toFetches.keeps_setIdentityKey hkey _)
    intro _ _
    apply Keeps.bind
    . have htransfers : Transfers incoming opened.2 := ⟨session, _, opened.1, hopened⟩
      exact h.keeps_importRecords _ (hok opened.2 htransfers) (htrack opened.2 htransfers)
    . intro _ _
      exact Keeps.pure trivial
  . intro r _
    split
    . exact Keeps.pure trivial
    . exact Keeps.pure trivial

end Pairing

section Maintenance

theorem keeps_lruCached (h : Ingress env I ok) : Keeps env I lruCached := by
  apply Keeps.bind h.keeps_nextTick
  intro t _
  apply Keeps.bind_read
  apply Keeps.bind_get
  intro w _
  exact Keeps.pure trivial

theorem keeps_evictWhileOver (h : Ingress env I ok) (cap : UInt64) (rounds : Nat) :
    Keeps env I (evictWhileOver cap rounds) := by
  induction rounds with
  | zero => exact Keeps.pure trivial
  | succ rounds ih =>
    apply Keeps.bind_get
    intro w _
    split
    . exact Keeps.pure trivial
    . apply Keeps.bind h.keeps_lruCached
      intro objects _
      split
      . exact Keeps.pure trivial
      . apply Keeps.bind (keeps_attempt (h.keeps_evict _))
        intro r _
        split
        . exact ih
        . exact Keeps.pure trivial

theorem keeps_evictIfOverCap (h : Ingress env I ok) (cap : UInt64) :
    Keeps env I (evictIfOverCap cap) := by
  apply Keeps.bind_get
  intro w _
  exact h.keeps_evictWhileOver cap _

theorem keeps_importIdentity (h : Ingress env I ok) (hkey : ReplacesKey I) (bytes : Bytes)
    (transferPassphrase : String) (overwrite : Bool) :
    Keeps env I (importIdentity bytes transferPassphrase overwrite) := by
  apply Keeps.bind (keeps_ofExcept _)
  intro imported _
  apply Keeps.bind_get
  intro w _
  split
  . exact Keeps.pure trivial
  . split
    . exact Keeps.throw
    . apply Keeps.bind (h.toFetches.keeps_setIdentityKey hkey imported)
      intro _ _
      exact Keeps.pure trivial

end Maintenance

section Reopen

theorem triple_reopen (h : Ingress env I ok) (hshares : Shares I) {P : Runtime → Prop}
    (hadopt : ∀ w bytes identity, P w → w.keyFile = some bytes →
      Identity.loadAtRest bytes env.passphrase = some identity →
      I { w with identity := identity, cache := w.sidecar, shared := ∅, pairing := none }) :
    Triple env P reopen (fun _ => I) (fun w => P w ∨ I w) :=
  h.toFetches.triple_reopen hshares h.unshare (fun _ _ => h.spares _) (fun _ => h.spares _) hadopt
    (h.keeps_loadOwnRecord HomeIndex.codec RECORD_HOME).attempted

theorem keeps_reopen (h : Ingress env I ok) (hshares : Shares I)
    (hadopt : ∀ (w : Runtime) identity, I w →
      I { w with identity := identity, cache := w.sidecar, shared := ∅, pairing := none }) :
    Keeps env I reopen := by
  apply (h.triple_reopen hshares fun w _ identity hw _ _ => hadopt w identity hw).conseq
    (fun _ hw => hw)
  . intro _ w hw
    exact ⟨hw, trivial⟩
  . intro w hw
    exact hw.elim id id

end Reopen

end Ingress

end Runtime

end Canopee
