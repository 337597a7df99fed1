import Canopee.Results.Home

/-!
This module contains the effect of deleting an object on the rest of the home: the home index that
remains, and the objects that its entries refer to.
-/

namespace Canopee

open Primitives
open Canopee.Runtime
open Prog (Keeps Triple exec exec_bind_ok exec_bind_error exec_bind_eq_ok)

variable [Primitives]

namespace Runtime

section RemoveEntry

variable {id : ObjectId} {entries rest : List HomeEntry}

omit [Primitives] in
theorem removeEntry_eq_none :
    removeEntry id entries = none ↔ ∀ entry ∈ entries, entry.object ≠ id := by
  induction entries with
  | nil => simp [removeEntry]
  | cons first entries ih =>
    unfold removeEntry
    split
    . next hfirst => simp [hfirst]
    . next hfirst => simp [hfirst, ih]

omit [Primitives] in
theorem filter_removeEntry (h : removeEntry id entries = some rest) :
    rest.filter (·.object ≠ id) = entries.filter (·.object ≠ id) := by
  induction entries generalizing rest with
  | nil => contradiction
  | cons first entries ih =>
    unfold removeEntry at h
    split at h
    . next hfirst =>
      simp only [Option.some.injEq] at h
      rw [← h, List.filter_cons_of_neg (by simp [hfirst])]
    . next hfirst =>
      obtain ⟨rest', hrest, heq⟩ := Option.map_eq_some_iff.mp h
      rw [← heq, List.filter_cons_of_pos (by simpa using hfirst),
        List.filter_cons_of_pos (by simpa using hfirst), ih hrest]

end RemoveEntry

section Evict

variable {env : Env} {id : ObjectId} {w t : Runtime} {P Q R E : Runtime → Prop}

theorem SameDisk.trans {a b c : Runtime} (hab : SameDisk a b) (hbc : SameDisk b c) :
    SameDisk a c :=
  ⟨hbc.identity.trans hab.identity, hbc.files.trans hab.files, hbc.records.trans hab.records⟩

/--
From `w` to `t` the object `id` left the store, the cache index and the serving set.
-/
structure Evicted (id : ObjectId) (w t : Runtime) : Prop extends SameDisk (eraseObject id w) t where
  cache : t.cache = w.cache.erase id.text
  shared : t.shared = w.shared.erase id.text

theorem exec_persist (env : Env) (w : Runtime) :
    ∃ r t, exec (Prog.attempt persist) env w = (.ok r, t) ∧ SameDisk w t ∧ t.cache = w.cache ∧
      t.shared = w.shared := by
  unfold persist
  rw [Prog.exec_attempt]
  cases hfault : env.fault w.tick with
  | none =>
    rw [exec_writeAtomic_of_none hfault]
    exact ⟨_, _, rfl, ⟨rfl, rfl, rfl⟩, rfl, rfl⟩
  | some fault =>
    rw [exec_writeAtomic_of_some hfault]
    exact ⟨_, _, rfl, ⟨rfl, rfl, rfl⟩, rfl, rfl⟩

theorem exec_unannounce (id : ObjectId) (env : Env) (w : Runtime) :
    ∃ r t, exec (Prog.attempt (unannounce id)) env w = (.ok r, t) ∧ SameDisk w t ∧
      t.cache = w.cache ∧ t.shared = w.shared := by
  unfold unannounce
  rw [Prog.exec_attempt, exec_bind_ok (exec_nextTick env w), exec_bind_ok (Prog.exec_read env _)]
  cases env.accepts w.tick with
  | true => exact ⟨_, _, rfl, ⟨rfl, rfl, rfl⟩, rfl, rfl⟩
  | false => exact ⟨_, _, rfl, ⟨rfl, rfl, rfl⟩, rfl, rfl⟩

theorem exec_evict (id : ObjectId) (env : Env) (w : Runtime) :
    (env.fault w.tick ≠ none ∧
      exec (evict id) env w = (.error "write failed", { w with tick := w.tick + 1 })) ∨
    ∃ t, exec (evict id) env w = (.ok (), t) ∧ Evicted id w t := by
  unfold evict delete
  cases hfault : env.fault w.tick with
  | some fault =>
    left
    rw [exec_bind_error (exec_writeAtomic_of_some hfault _)]
    exact ⟨by simp, rfl⟩
  | none =>
    right
    rw [exec_bind_ok (exec_writeAtomic_of_none hfault _)]
    unfold uncache
    rw [Prog.bind_assoc, exec_bind_ok (Prog.exec_modify _ env _), Prog.bind_assoc]
    generalize hu : ({ eraseObject id { w with tick := w.tick + 1 } with
      cache := (eraseObject id { w with tick := w.tick + 1 }).cache.erase id.text } : Runtime) = u
    obtain ⟨r, u', hpersist, hdisk, hcache, hshared⟩ := exec_persist env u
    rw [exec_bind_ok hpersist, exec_bind_ok (Prog.exec_pure _ env _)]
    unfold removeShared
    rw [exec_bind_ok (Prog.exec_modify _ env _)]
    obtain ⟨r', t, hunannounce, hdisk', hcache', hshared'⟩ :=
      exec_unannounce id env { u' with shared := u'.shared.erase id.text }
    rw [exec_bind_ok hunannounce]
    refine ⟨t, rfl, ?_, ?_, ?_⟩
    . subst hu
      have hall := hdisk.trans ⟨hdisk'.identity, hdisk'.files, hdisk'.records⟩
      exact ⟨hall.identity, hall.files, hall.records⟩
    . rw [hcache', hcache, ← hu]
      rfl
    . rw [hshared', hshared, ← hu]
      rfl

theorem evicted_of_exec_evict (h : exec (evict id) env w = (.ok (), t)) : Evicted id w t := by
  rcases exec_evict id env w with ⟨_, hfail⟩ | ⟨u, hok, hevicted⟩
  . rw [hfail] at h
    cases h
  . rw [hok, Prod.mk.injEq] at h
    exact h.2 ▸ hevicted

theorem fault_of_exec_evict {e : String} (h : exec (evict id) env w = (.error e, t)) :
    env.fault w.tick ≠ none ∧ t = { w with tick := w.tick + 1 } := by
  rcases exec_evict id env w with ⟨hfault, hfail⟩ | ⟨u, hok, _⟩
  . rw [hfail, Prod.mk.injEq] at h
    exact ⟨hfault, h.2.symm⟩
  . rw [hok] at h
    cases h

theorem triple_evicted (hQ : ∀ a t, P a → Evicted id a t → Q t)
    (hE : ∀ a, P a → env.fault a.tick ≠ none → E { a with tick := a.tick + 1 }) :
    Triple env P (evict id) (fun _ => Q) E := by
  constructor
  intro a ha
  rcases exec_evict id env a with ⟨hfault, hexec⟩ | ⟨t, hexec, hevicted⟩
  . rw [hexec]
    exact hE a ha hfault
  . rw [hexec]
    exact hQ a t ha hevicted

theorem triple_evict (hQ : ∀ a t, P a → SameDisk (eraseObject id a) t → Q t)
    (hE : ∀ a t, P a → SameDisk a t → env.fault a.tick ≠ none → E t) :
    Triple env P (evict id) (fun _ => Q) E := by
  apply triple_evicted
  . intro a t ha hevicted
    exact hQ a t ha hevicted.toSameDisk
  . intro a ha hfault
    exact hE a _ ha ⟨rfl, rfl, rfl⟩ hfault

theorem evictOldHome_triple {record : AppPointerRecord}
    (hsame : record.manifest = id → ∀ a, P a → Q a)
    (hQ : record.manifest ≠ id → ∀ a t, P a → SameDisk (eraseObject record.manifest a) t → Q t)
    (hE : record.manifest ≠ id → ∀ a t, P a → SameDisk a t → env.fault a.tick ≠ none → Q t) :
    Triple env P (evictOldHome id (some record)) (fun _ => Q) E := by
  simp only [evictOldHome]
  split
  . next hid => exact Triple.pure (hsame hid)
  . next hid =>
    apply Triple.bind (Q := fun _ => Q)
    . apply Triple.attempt
      apply triple_evict (hQ hid)
      intro a t ha hat hfault _
      exact hE hid a t ha hat hfault
    . intro _
      exact Triple.pure fun a ha => ha

end Evict

section Kept

variable {id : ObjectId} {index : HomeIndex} {w : Runtime}

/--
All the payloads in `S` are stored.
-/
def StoresAll (S : ObjectPayload → Prop) (w : Runtime) : Prop :=
  ∀ payload, S payload → Stores payload w

theorem spared_storesAll (hash : CollisionFree) (env : Env) (key : Bytes)
    (S : ObjectPayload → Prop) : Spared env key (StoresAll S) where
  toPushes := .ofDisk
    (fun _ _ hdisk hw payload hpayload => stores_congr hdisk.files (hw payload hpayload))
    (fun _ _ hverify _ hw payload hpayload => (hw payload hpayload).storeObject hash hverify)
    (fun _ _ _ _ => trivial)
  record _ _ hw payload hpayload := stores_congr rfl (hw payload hpayload)

theorem StoresAll.eraseObject {S : ObjectPayload → Prop} {gone : ObjectId} (h : StoresAll S w)
    (hne : ∀ payload, S payload → gone ≠ ObjectId.fromPayload payload) :
    StoresAll S (eraseObject gone w) :=
  fun payload hpayload => (h payload hpayload).eraseObject (hne payload hpayload)

theorem SavedHome.eraseObject (hash : CollisionFree) {object : Object} {after : HomeIndex}
    (h : SavedHome after w) (hverify : object.verify = true)
    (hother : object.payload.objectType = .homeIndex → ∀ before,
      HomeIndex.codec.deserialize object.payload.data = some before → before ≠ after) :
    SavedHome after (eraseObject object.id w) := by
  obtain ⟨payload, ⟨hcached, hstores, howner⟩, htype, hdecode⟩ := h
  refine ⟨payload, ⟨hcached, hstores.eraseObject ?_, howner⟩, htype, hdecode⟩
  rw [Object.id_of_verify hverify, ne_eq, ObjectId.fromPayload_inj hash]
  intro hpayload
  rw [← hpayload] at htype hdecode
  exact hother htype after hdecode rfl

omit [Primitives] in
theorem ne_nextVersion (entries : List HomeEntry) :
    index ≠ { index with entries := entries, version := index.version + 1 } := by
  intro h
  have hversion : index.version = index.version + 1 := congrArg HomeIndex.version h
  have := congrArg UInt64.toNat hversion
  rw [UInt64.toNat_add, UInt64.toNat_one] at this
  have := UInt64.toNat_lt index.version
  omega

end Kept

section Delete

variable {env : Env} {id : ObjectId} {w w₁ : Runtime} {record : AppPointerRecord}
variable {index : HomeIndex}

/--
From `w` to `w'` the home index `index` lost at most entries that refer to `id`, and nothing that
another entry refers to left the store.
-/
def PreservesHome (id : ObjectId) (index : HomeIndex) (w w' : Runtime) : Prop :=
  (∀ env, ∃ after, (exec loadHomeIndex env w').1 = .ok (some after) ∧
    after.entries.filter (·.object ≠ id) = index.entries.filter (·.object ≠ id)) ∧
  ∀ entry ∈ index.entries, entry.object ≠ id → ∀ object,
    w.storage.getVerified entry.object = .ok object → Stores object.payload w'

/--
Some entry of the home index refers to `id`, and no other entry refers to the object `manifest` that
the index itself is in.
-/
def Listed (id manifest : ObjectId) (index : HomeIndex) : Prop :=
  (∃ entry ∈ index.entries, entry.object = id) ∧
    ∀ entry ∈ index.entries, entry.object ≠ id → entry.object ≠ manifest

/--
What `delete_object` does once it has found a deletable object and the home index.
-/
def deleteRest (id : ObjectId) (record : AppPointerRecord) (index : HomeIndex) : RunM Unit := do
  removeFromHome id (some index)
  evict id
  evictOldHome id (some record)

theorem deleteObject_rest
    (hresolve : exec (resolvePointer w.identity.id RECORD_HOME) env w = (.ok (some record), w₁))
    (hhome : Has HomeIndex.codec RECORD_HOME record index w₁)
    (hok : (exec (deleteObject id) env w).1 = .ok ()) :
    (∃ object : Object, object.id = id ∧ object.verify = true ∧
        object.payload.objectType ≠ .homeIndex) ∧
      exec (deleteObject id) env w = exec (deleteRest id record index) env w₁ := by
  unfold deleteObject at hok ⊢
  obtain ⟨object, hobject, -⟩ := exec_bind_eq_ok hok
  have hget := exec_getVerified id env w
  rw [hget] at hobject
  dsimp only at hobject
  rw [hobject] at hget
  rw [exec_bind_ok hget, exec_bind_ok (exec_isOwned object env w)] at hok ⊢
  split at hok
  . contradiction
  . next howned =>
    split at hok
    . contradiction
    . next htype =>
      rw [if_neg howned, if_neg htype, exec_bind_ok (Prog.exec_get env w), exec_bind_ok hresolve,
        exec_bind_ok (hhome.exec_loadHomeIndex env)]
      refine ⟨⟨object, Storage.id_of_getVerified hobject, Storage.verify_of_getVerified hobject, ?_⟩,
        rfl⟩
      intro hhomeIndex
      apply htype
      rw [Object.objectType, hhomeIndex]
      decide

/--
The payloads of other entries than those that refer to `id`, as far as `w` stores them.
-/
def OthersPayload (id : ObjectId) (index : HomeIndex) (w : Runtime) (payload : ObjectPayload) : Prop :=
  ∃ entry ∈ index.entries, entry.object ≠ id ∧ entry.object = ObjectId.fromPayload payload ∧
    Stores payload w

theorem preservesHome_of_savedHome {entries : List HomeEntry} {version : UInt64} {w' : Runtime}
    (hsaved : SavedHome { index with entries := entries, version := version } w')
    (hentries : removeEntry id index.entries = some entries)
    (hstores : StoresAll (OthersPayload id index w) w') : PreservesHome id index w w' := by
  constructor
  . intro env
    obtain ⟨record, hhas⟩ := hsaved.has
    exact ⟨_, by rw [hhas.exec_loadHomeIndex env], filter_removeEntry hentries⟩
  . intro entry hentry hne object hobject
    apply hstores
    have hmanifest : entry.object = ObjectId.fromPayload object.payload := by
      rw [← Storage.id_of_getVerified hobject]
      exact Object.id_of_verify (Storage.verify_of_getVerified hobject)
    refine ⟨entry, hentry, hne, hmanifest, object, ?_, rfl⟩
    rw [← hmanifest]
    exact hobject

/--
When the index lists the object, it is replaced before the old one is evicted.
-/
theorem deleteRest_triple (laws : SignatureLaws) (hash : CollisionFree)
    (hhome : Has HomeIndex.codec RECORD_HOME record index w)
    (hlisted : Listed id record.manifest index) {object : Object} (hid : object.id = id)
    (hverify : object.verify = true) (htype : object.payload.objectType ≠ .homeIndex) :
    Triple env (fun a => a = w) (deleteRest id record index)
      (fun _ => PreservesHome id index w) (fun _ => True) := by
  obtain ⟨entries, hentries⟩ : ∃ entries, removeEntry id index.entries = some entries := by
    cases hremove : removeEntry id index.entries with
    | some entries => exact ⟨entries, rfl⟩
    | none =>
      obtain ⟨entry, hentry, hobject⟩ := hlisted.1
      exact absurd hobject (removeEntry_eq_none.mp hremove entry hentry)
  let S := OthersPayload id index w
  let after : HomeIndex := { index with entries := entries, version := index.version + 1 }
  let P : Runtime → Prop := fun a => StoresAll S a ∧ SavedHome after a
  have hframe : ∀ a t, SameDisk a t → P a → P t := by
    intro a t hat ha
    exact ⟨fun payload hpayload => stores_congr hat.files (ha.1 payload hpayload), ha.2.congr hat⟩
  unfold deleteRest
  apply Triple.bind (Q := fun _ => P)
  . unfold removeFromHome
    split
    . next hnone => contradiction
    next index' hindex =>
    simp only [Option.some.injEq] at hindex
    subst hindex
    split
    . exact Triple.throw fun _ _ => trivial
    rw [hentries]
    have hS := spared_storesAll hash env (AppPointerRecord.key w.identity.id RECORD_HOME) S
    have hreconcile : Triple env P (reconcileShared (some index) (some after)) (fun _ => P)
        (fun _ => False) := by
      apply triple_reconcileShared (hS.toPushes.and (pushes_savedHome hash env after))
      . intro a _ ha
        exact hframe a _ ⟨rfl, rfl, rfl⟩ ha
      . intro a _ ha
        exact hframe a _ ⟨rfl, rfl, rfl⟩ ha
    apply Triple.bind (Q := fun _ => P)
    . apply (saveHomeIndex_triple laws hash hS (R := P) _).conseq
      . intro a ha
        rw [ha]
        exact ⟨rfl, hhome, fun payload ⟨_, _, _, _, hstores⟩ => hstores⟩
      . intro _ _ ha
        exact ha
      . intro _ _
        trivial
      . apply hreconcile.conseq
        . intro a ha
          exact ha.2
        . intro _ _ ha
          exact ha
        . intro _ ha
          exact ha
    . intro _
      exact Triple.pure fun a ha => ha
  . intro _
    apply Triple.bind (Q := fun _ => P)
    . apply triple_evict
      . intro a t ha hat
        refine hframe _ t hat ⟨ha.1.eraseObject ?_, ?_⟩
        . intro payload ⟨entry, _, hne, hpayload, _⟩ heq
          exact hne (hpayload.trans heq.symm)
        . rw [← hid]
          apply ha.2.eraseObject hash hverify
          intro hhomeIndex
          exact absurd hhomeIndex htype
      . intro _ _ _ _ _
        trivial
    . intro _
      apply evictOldHome_triple
      . intro _ a ha
        exact preservesHome_of_savedHome ha.2 hentries ha.1
      . intro _ a t ha hat
        have : P t := by
          refine hframe _ t hat ⟨ha.1.eraseObject ?_, ?_⟩
          . intro payload ⟨entry, hentry, hne, hpayload, _⟩ heq
            exact hlisted.2 entry hentry hne (hpayload.trans heq.symm)
          . obtain ⟨old, hold, hdecode⟩ := hhome.stored
            rw [← Storage.id_of_getVerified hold]
            apply ha.2.eraseObject hash (Storage.verify_of_getVerified hold)
            intro _ before hbefore
            rw [Object.decode, hbefore, Option.some.injEq] at hdecode
            rw [hdecode]
            exact ne_nextVersion entries
        exact preservesHome_of_savedHome this.2 hentries this.1
      . intro _ a t ha hat _
        have := hframe a t hat ha
        exact preservesHome_of_savedHome this.2 hentries this.1

theorem deleteRest_evicts (hdisk : ∀ t, env.fault t = none) {P : Runtime → Prop} :
    Triple env P (deleteRest id record index)
      (fun _ t => ∀ object, ¬ t.storage.getVerified record.manifest = .ok object)
      (fun _ => True) := by
  have hgone (manifest : ObjectId) (a t : Runtime) (hat : SameDisk (eraseObject manifest a) t)
      (object : Object) : ¬ t.storage.getVerified manifest = .ok object := by
    have hfiles : t.storage.getVerified manifest =
        (eraseObject manifest a).storage.getVerified manifest := by
      apply Storage.getVerified_congr
      rw [hat.files]
    rw [hfiles]
    exact Storage.getVerified_erase_self a.storage manifest object
  apply Triple.bind (Q := fun _ _ => True)
  . exact Triple.of_forall (fun _ _ => trivial) (fun _ => trivial)
  . intro _
    apply Triple.bind (Q := fun _ t => ∀ object, ¬ t.storage.getVerified id = .ok object)
    . apply triple_evict
      . intro a t _ hat
        exact hgone id a t hat
      . intro _ _ _ _ _
        trivial
    . intro _
      apply evictOldHome_triple
      . intro hid a ha
        rw [hid]
        exact ha
      . intro _ a t _ hat
        exact hgone record.manifest a t hat
      . intro _ a t _ _ hfault
        exact absurd (hdisk a.tick) hfault

/--
When the index does not list the object, the pointer to the index stays.
-/
theorem deleteRest_of_unlisted (hnone : removeEntry id index.entries = none)
    (hcached : cachedPointer w w.identity.id RECORD_HOME = some record) :
    Triple env (fun a => a = w) (deleteRest id record index)
      (fun _ t => cachedPointer t t.identity.id RECORD_HOME = some record) (fun _ => True) := by
  have hdisk (a t : Runtime) (ha : cachedPointer a a.identity.id RECORD_HOME = some record)
      (hat : SameDisk a t) : cachedPointer t t.identity.id RECORD_HOME = some record := by
    rw [hat.identity, cachedPointer_congr hat.records]
    exact ha
  apply Triple.bind (Q := fun _ a => cachedPointer a a.identity.id RECORD_HOME = some record)
  . simp only [removeFromHome, hnone]
    split
    . exact Triple.throw fun _ _ => trivial
    . apply Triple.pure
      intro a ha
      rw [ha]
      exact hcached
  . intro _
    apply Triple.bind
        (Q := fun _ a => cachedPointer a a.identity.id RECORD_HOME = some record)
    . apply triple_evict
      . intro a t ha hat
        exact hdisk (eraseObject id a) t ha hat
      . intro _ _ _ _ _
        trivial
    . intro _
      apply evictOldHome_triple
      . intro _ a ha
        exact ha
      . intro _ a t ha hat
        exact hdisk (eraseObject record.manifest a) t ha hat
      . intro _ a t ha hat _
        exact hdisk a t ha hat

theorem not_loadHomeIndex (hcached : cachedPointer w w.identity.id RECORD_HOME = some record)
    (hgone : ∀ object, ¬ w.storage.getVerified record.manifest = .ok object) (env : Env)
    (result : Option HomeIndex) : ¬ (exec loadHomeIndex env w).1 = .ok result := by
  intro h
  unfold loadHomeIndex loadOwnRecord at h
  rw [exec_bind_ok (Prog.exec_get env w), exec_bind_ok (resolvePointer_of_cached hcached)] at h
  obtain ⟨object, hobject, _⟩ := exec_bind_eq_ok h
  rw [exec_getVerified] at hobject
  exact hgone object hobject

/--
A deletion that succeeds keeps the rest of the home when the home index lists the object and no other
entry refers to the object of the index itself. On a disk that works it keeps it only then: the old
index is evicted also when no new one took its place.
-/
theorem deleteObject_preservesHome (laws : SignatureLaws) (hash : CollisionFree)
    (hresolve : exec (resolvePointer w.identity.id RECORD_HOME) env w = (.ok (some record), w₁))
    (hhome : Has HomeIndex.codec RECORD_HOME record index w₁)
    (hok : (exec (deleteObject id) env w).1 = .ok ()) :
    (Listed id record.manifest index →
      PreservesHome id index w₁ (exec (deleteObject id) env w).2) ∧
    ((∀ t, env.fault t = none) →
      (PreservesHome id index w₁ (exec (deleteObject id) env w).2 ↔
        Listed id record.manifest index)) := by
  obtain ⟨⟨object, hid, hverify, htype⟩, hrest⟩ := deleteObject_rest hresolve hhome hok
  rw [hrest] at hok ⊢
  have hexec : exec (deleteRest id record index) env w₁ =
      (.ok (), (exec (deleteRest id record index) env w₁).2) := Prod.ext hok rfl
  have henough (hlisted : Listed id record.manifest index) :
      PreservesHome id index w₁ (exec (deleteRest id record index) env w₁).2 :=
    (deleteRest_triple laws hash hhome hlisted hid hverify htype).ok rfl hexec
  refine ⟨henough, fun hdisk => ⟨?_, henough⟩⟩
  intro hpreserves
  have hgone := (deleteRest_evicts (P := fun _ => True) hdisk).ok trivial hexec
  constructor
  . -- an index that does not list the object is evicted without a successor
    by_contra hunlisted
    have hnone : removeEntry id index.entries = none := by
      rw [removeEntry_eq_none]
      intro entry hentry hobject
      exact hunlisted ⟨entry, hentry, hobject⟩
    have hcached := (deleteRest_of_unlisted hnone hhome.cached).ok rfl hexec
    obtain ⟨after, hload, _⟩ := hpreserves.1 env
    exact not_loadHomeIndex hcached hgone env _ hload
  . intro entry hentry hne hmanifest
    obtain ⟨old, hold, _⟩ := hhome.stored
    rw [← hmanifest] at hold hgone
    obtain ⟨kept, hkept, hpayload⟩ := hpreserves.2 entry hentry hne old hold
    apply hgone kept
    rw [← hkept, ← Storage.id_of_getVerified hold]
    exact congrArg _ (Object.id_of_verify (Storage.verify_of_getVerified hold))

end Delete

section Succeeds

variable {env : Env} {id : ObjectId} {w : Runtime} {record : AppPointerRecord} {index : HomeIndex}

theorem saveHomeIndex_succeeds (laws : SignatureLaws) (hdisk : ∀ t, env.fault t = none)
    (hhome : Has HomeIndex.codec RECORD_HOME record index w) (index' : HomeIndex) :
    ∃ id w', exec (saveHomeIndex index') env w = (.ok id, w') := by
  have hpushes : Pushes env (fun _ => True) (fun _ => True) :=
    .ofDisk (fun _ _ _ _ => trivial) (fun _ _ _ _ _ => trivial) (fun _ _ _ _ => trivial)
  have hreconcile (previous current : Option HomeIndex) (a : Runtime) :
      ∃ b, exec (reconcileShared previous current) env a = (.ok (), b) := by
    have := (triple_reconcileShared (E := fun _ => False) hpushes (fun _ _ _ => trivial)
      (fun _ _ _ => trivial) previous current).spec a trivial
    generalize exec (reconcileShared previous current) env a = res at this
    rcases res with ⟨_ | _, b⟩
    . contradiction
    . exact ⟨b, rfl⟩
  have hpublish (saved : HomeIndex) (a : Runtime) : ∃ id b,
      exec (publishObject RECORD_HOME (saved.toObject w.identity (env.clock w.tick))) env a =
        (.ok id, b) := by
    obtain ⟨b, hb⟩ := publishObject_succeeds hdisk RECORD_HOME
      (Object.verify_new laws w.identity (env.clock w.tick) (HomeIndex.codec.serialize saved)
        .homeIndex) a
    exact ⟨_, b, hb⟩
  obtain ⟨id, a, ha⟩ := hpublish { index' with version := index.version + 1 }
    { w with tick := w.tick + 1 }
  obtain ⟨b, hb⟩ := hreconcile (some index) (some { index' with version := index.version + 1 }) a
  refine ⟨id, b, ?_⟩
  unfold saveHomeIndex
  rw [exec_bind_ok (hhome.exec_loadHomeIndex env), exec_bind_ok (exec_now env w),
    exec_bind_ok (Prog.exec_get env _)]
  dsimp only [Option.map_some, nextVersion]
  rw [exec_bind_ok ha, exec_bind_ok hb]
  rfl

/--
On a disk that works everything can be deleted that may be.
-/
theorem deleteObject_succeeds (laws : SignatureLaws) (hdisk : ∀ t, env.fault t = none)
    {object : Object} (hstored : w.storage.getVerified id = .ok object)
    (howner : object.payload.owner = w.identity.id) (htype : object.objectType = .blob)
    (hhome : Has HomeIndex.codec RECORD_HOME record index w) (hprofile : index.profile ≠ some id)
    (hcontacts : index.contacts ≠ some id) : (exec (deleteObject id) env w).1 = .ok () := by
  have hget : exec (getVerified id) env w = (.ok object, w) := by
    rw [exec_getVerified, hstored]
  have hremove : ∃ a, exec (removeFromHome id (some index)) env w = (.ok (), a) := by
    simp only [removeFromHome, hprofile, hcontacts, or_self, if_false]
    split
    . exact ⟨w, rfl⟩
    . next entries _ =>
      obtain ⟨saved, a, ha⟩ :=
        saveHomeIndex_succeeds laws hdisk hhome { index with entries := entries }
      exact ⟨a, by rw [exec_bind_ok ha]; rfl⟩
  have hevict (a : Runtime) :
      ∃ b, exec (do evict id; evictOldHome id (some record)) env a = (.ok (), b) := by
    have : Triple env (fun _ => True) (do evict id; evictOldHome id (some record))
        (fun _ _ => True) (fun _ => False) := by
      apply Triple.bind (Q := fun _ _ => True)
      . apply triple_evict
        . intro _ _ _ _
          trivial
        . intro a _ _ _ hfault
          exact hfault (hdisk a.tick)
      . intro _
        apply evictOldHome_triple
        . intro _ _ _
          trivial
        . intro _ _ _ _ _
          trivial
        . intro _ _ _ _ _ _
          trivial
    have := this.spec a trivial
    generalize exec (do evict id; evictOldHome id (some record)) env a = res at this
    rcases res with ⟨_ | _, b⟩
    . contradiction
    . exact ⟨b, rfl⟩
  unfold deleteObject
  rw [exec_bind_ok hget, exec_bind_ok (exec_isOwned object env w)]
  obtain ⟨a, ha⟩ := hremove
  obtain ⟨b, hb⟩ := hevict a
  simp only [howner, BEq.rfl, Bool.not_true, Bool.false_eq_true, if_false, htype, ne_eq,
    not_true_eq_false, false_and]
  rw [exec_bind_ok (Prog.exec_get env w), exec_bind_ok (resolvePointer_of_cached hhome.cached),
    exec_bind_ok (hhome.exec_loadHomeIndex env), exec_bind_ok ha, hb]

end Succeeds

end Runtime

end Canopee

namespace Canopee.Runtime

open Prog (exec)

section Witness

open Canopee.Transparent

/--
A note of Alice's, the only entry of her home index.
-/
def listedNote : Object :=
  Object.new alice 0 [7] .blob

def noteIndex : HomeIndex :=
  { HomeIndex.empty with entries := [⟨"note", listedNote.id, .blob, false, none⟩] }

def noteIndexObject : Object :=
  noteIndex.toObject alice 0

def noteIndexPointer : AppPointerRecord :=
  .sign alice 0 RECORD_HOME noteIndexObject.id

def noteStored : Runtime :=
  storeRecord (recordFile (AppPointerRecord.key alice.id RECORD_HOME))
    (AppPointerRecord.codec.serialize noteIndexPointer)
    (storeObject noteIndexObject (storeObject listedNote (fresh alice laptop)))

theorem noteIndexObject_ne : listedNote.id ≠ noteIndexObject.id := by
  intro h
  have hpayload := (ObjectId.fromPayload_inj collisionFree).mp h
  have htype : ObjectType.blob = ObjectType.homeIndex := congrArg ObjectPayload.objectType hpayload
  exact absurd htype (by decide)

theorem has_noteIndex : Has HomeIndex.codec RECORD_HOME noteIndexPointer noteIndex noteStored where
  cached := cachedPointer_storeRecord signatureLaws 0 RECORD_HOME noteIndexObject.id _
  stored := ⟨noteIndexObject,
    Storage.getVerified_write_self _ (Object.verify_new signatureLaws alice 0 _ _),
    decode_toObject HomeIndex.codec .homeIndex noteIndex alice 0⟩

theorem getVerified_listedNote : noteStored.storage.getVerified listedNote.id = .ok listedNote :=
  (Storage.getVerified_write_of_ne _ noteIndexObject_ne).trans
    (Storage.getVerified_write_self _ (Object.verify_new signatureLaws alice 0 _ _))

theorem listed_listedNote : Listed listedNote.id noteIndexPointer.manifest noteIndex := by
  constructor
  . exact ⟨_, List.mem_singleton_self _, rfl⟩
  . intro entry hentry hne
    rw [List.mem_singleton.mp hentry] at hne
    exact absurd rfl hne

theorem delete_listedNote :
    (exec (deleteObject listedNote.id) (Env.quiet 1) noteStored).1 = .ok () := by
  apply deleteObject_succeeds signatureLaws (fun _ => rfl) getVerified_listedNote
  . rfl
  . rfl
  . exact has_noteIndex
  . simp [noteIndex, HomeIndex.empty]
  . simp [noteIndex, HomeIndex.empty]

theorem deleteObject_preservesHome_listedNote :
    PreservesHome listedNote.id noteIndex noteStored
      (exec (deleteObject listedNote.id) (Env.quiet 1) noteStored).2 :=
  (deleteObject_preservesHome signatureLaws collisionFree
    (resolvePointer_of_cached has_noteIndex.cached) has_noteIndex delete_listedNote).1
      listed_listedNote

end Witness

section Counterexample

open Canopee.Compact

/--
Alice keeps two notes, and only the first one is in her home index.
-/
def unlistedNote : Object :=
  Object.new alice 0 [8] .blob

def keptIndex : HomeIndex :=
  { HomeIndex.empty with
    entries := [⟨"note", (Object.new alice 0 [7] .blob).id, .blob, false, none⟩] }

def twoNotes : Runtime :=
  Run.run NodeOp.step (fresh alice laptop)
    [(.putObjectPublic [7] .blob none, Env.quiet 0), (.putObjectPublic [8] .blob none, Env.quiet 0),
      (.saveHomeIndex keptIndex, Env.quiet 1)]

/--
Deleting the other one takes the home index away.
-/
theorem deleteObject_of_unlisted :
    (exec loadHomeIndex (Env.quiet 2) twoNotes).1.toOption.join.isSome = true ∧
      (exec (deleteObject unlistedNote.id) (Env.quiet 2) twoNotes).1 = .ok () ∧
      (exec loadHomeIndex (Env.quiet 3)
        (exec (deleteObject unlistedNote.id) (Env.quiet 2) twoNotes).2).1.toOption = none := by
  decide +kernel

end Counterexample

end Canopee.Runtime
