import Canopee.Results.Fetch
import Canopee.Results.Published

/-!
This module contains what one pass of record synchronization does: the pointer that each record goes
for, what is there once it is adopted, and what an error leaves undone.
-/

namespace Canopee

open Primitives
open Canopee.Runtime
open Prog (Keeps Triple exec exec_bind_ok exec_bind_error exec_bind_eq_ok)

variable [Primitives]

namespace Runtime

section Readable

variable {env : Env}

/--
The store yields an object for `id`.
-/
def Readable (id : ObjectId) (w : Runtime) : Prop :=
  ∃ object, w.storage.getVerified id = .ok object

theorem readable_congr {id : ObjectId} {w w' : Runtime}
    (hfiles : w'.storage.files = w.storage.files) (h : Readable id w) : Readable id w' := by
  obtain ⟨object, hobject⟩ := h
  refine ⟨object, ?_⟩
  rw [← hobject]
  apply Storage.getVerified_congr
  rw [hfiles]

theorem readable_storeObject_self {object : Object} (hverify : object.verify = true) (w : Runtime) :
    Readable object.id (storeObject object w) :=
  ⟨object, Storage.getVerified_write_self w.storage hverify⟩

theorem Readable.storeObject {id : ObjectId} {w : Runtime} {object : Object}
    (hverify : object.verify = true) (h : Readable id w) : Readable id (storeObject object w) := by
  by_cases hid : id = object.id
  . rw [hid]
    exact readable_storeObject_self hverify w
  . obtain ⟨stored, hstored⟩ := h
    exact ⟨stored, (Storage.getVerified_write_of_ne w.storage hid).trans hstored⟩

theorem pushes_readable (env : Env) (id : ObjectId) : Pushes env (Readable id) (fun _ => True) :=
  .ofDisk (fun _ _ hdisk hw => readable_congr hdisk.files hw)
    (fun _ _ hverify _ hw => hw.storeObject hverify) (fun _ _ _ _ => trivial)

theorem importBundle_triple (bundle : ExportBundle) :
    Triple env (fun _ => True) (importBundle bundle) (fun _ => Readable bundle.object.id)
      (fun _ => True) := by
  apply Triple.bind (Q := fun _ _ => True) (Triple.get fun _ _ => trivial)
  intro w
  split
  . exact Triple.throw fun _ _ => trivial
  . apply Triple.bind (Q := fun _ _ => True)
    . exact Triple.of_forall (fun _ _ => trivial) (fun _ => trivial)
    . intro owned
      apply Triple.bind (Q := fun _ => Readable bundle.object.id)
      . unfold putVerified
        split
        . exact Triple.throw fun _ _ => trivial
        . next hverify =>
          apply triple_writeAtomic (fun _ _ _ _ => trivial)
          intro a _
          exact readable_storeObject_self (by simpa using hverify) a
      . intro _
        split
        . exact Triple.pure fun _ ha => ha
        . have hmark : Keeps env (Readable bundle.object.id) (markCached bundle.object.id) := by
            apply (pushes_readable env bundle.object.id).keeps_markCached
            intro a _ ha
            exact readable_congr rfl ha
          apply hmark.conseq (fun _ ha => ha)
          . intro _ a ha
            exact ha.1
          . intro _ _
            trivial

theorem fetchFrom_triple (id : ObjectId) (peers : List PeerId) :
    Triple env (fun _ => True) (fetchFrom id peers)
      (fun r w => ∀ object, r = some object → Readable object.id w) (fun _ => True) := by
  induction peers with
  | nil =>
    apply Triple.pure
    intro _ _ object hobject
    contradiction
  | cons peer peers ih =>
    apply Triple.bind (Q := fun _ _ => True)
    . exact Triple.of_forall (fun _ _ => trivial) (fun _ => trivial)
    . intro r
      split
      . next bundle =>
        apply Triple.bind (importBundle_triple bundle)
        intro _
        apply Triple.pure
        intro w hw object hobject
        simp only [Option.some.injEq] at hobject
        rw [← hobject]
        exact hw
      . exact ih

/--
A fetched object is in the store under its own id.
-/
theorem fetchObject_triple (id : ObjectId) (source : Option PeerId) :
    Triple env (fun _ => True) (fetchObject id source) (fun object => Readable object.id)
      (fun _ => True) := by
  have hsome {m : RunM (Option Object)} {k : Option Object → RunM Object}
      (hm : Triple env (fun _ => True) m (fun r w => ∀ object, r = some object → Readable object.id w)
        (fun _ => True))
      (hfound : ∀ object, k (some object) = pure object)
      (hrest : Triple env (fun _ => True) (k none) (fun object => Readable object.id)
        (fun _ => True)) :
      Triple env (fun _ => True) (m >>= k) (fun object => Readable object.id) (fun _ => True) := by
    apply Triple.bind hm
    intro r
    cases r with
    | some object =>
      rw [hfound]
      exact Triple.pure fun w hw => hw object rfl
    | none => exact hrest.conseq (fun _ _ => trivial) (fun _ _ hw => hw) fun _ _ => trivial
  unfold fetchObject
  apply Triple.bind (Q := fun r w => ∀ object, r = .ok object → Readable object.id w)
  . constructor
    intro w _
    rw [Prog.exec_attempt, exec_getVerified]
    intro object hobject
    refine ⟨object, ?_⟩
    rw [Storage.id_of_getVerified hobject]
    exact hobject
  . intro r
    split
    . next object => exact Triple.pure fun w hw => hw object rfl
    . apply Triple.bind (Q := fun _ _ => True)
      . exact Triple.of_forall (fun _ _ => trivial) (fun _ => trivial)
      . intro connected
        apply hsome (fetchFrom_triple id _) fun _ => rfl
        apply hsome (fetchFrom_triple id _) fun _ => rfl
        apply Triple.bind (Q := fun _ _ => True)
        . exact Triple.of_forall (fun _ _ => trivial) (fun _ => trivial)
        . intro providers
          apply hsome (fetchFrom_triple id _) fun _ => rfl
          exact Triple.throw fun _ _ => trivial

end Readable

section Kept

variable {env : Env} {self : Identity} {name other : String}

/--
The record cache has `cached` as the pointer of `self` for `name`.
-/
def Caches (self : Identity) (name : String) (cached : Option AppPointerRecord) (w : Runtime) :
    Prop :=
  w.identity = self ∧ cachedPointer w self.id name = cached

theorem fetches_caches (env : Env) (self : Identity) (name : String)
    (cached : Option AppPointerRecord) : Fetches env (Caches self name cached) (fun _ => True) where
  toPushes := by
    apply Pushes.ofDisk
    . intro w w' hdisk hw
      exact ⟨hdisk.identity.trans hw.1, (cachedPointer_congr hdisk.records _ _).trans hw.2⟩
    . intro _ _ _ _ hw
      exact hw
    . intro _ _ _ _
      trivial
  answered _ _ _ _ := trivial
  own _ _ _ := trivial

theorem fetches_readable (env : Env) (id : ObjectId) : Fetches env (Readable id) (fun _ => True) where
  toPushes := pushes_readable env id
  answered _ _ _ _ := trivial
  own _ _ _ := trivial

theorem caches_spares (hash : CollisionFree) (hne : other ≠ name)
    (cached : Option AppPointerRecord) (w : Runtime) (hw : Caches self name cached w) :
    Spares (Caches self name cached) (AppPointerRecord.key w.identity.id other) := by
  intro a bytes ha
  refine ⟨ha.1, ?_⟩
  rw [← ha.2]
  apply cachedPointer_storeRecord_of_ne
  rw [hw.1, ne_eq, AppPointerRecord.key_inj hash]
  exact hne

theorem readable_spares (id : ObjectId) (key : Bytes) : Spares (Readable id) key :=
  fun _ _ hw => readable_congr rfl hw

end Kept

section Pass

variable {env : Env}

/--
The DHT part of the search for a newer pointer.
-/
def newerDhtPointer (name : String) (cached : Option AppPointerRecord) :
    RunM (Option AppPointerRecord) := do
  let w ← get
  match ← dhtPointer w.identity.id name with
  | none => pure none
  | some record => if isNewer cached record then pure (some record) else pure none

/--
The newer pointer that `sync_record` goes for, if there is one.
-/
def newerPointer (name : String) : RunM (Option AppPointerRecord) := do
  let w ← get
  let cached := cachedPointer w w.identity.id name
  match ← latestPointerRecord w.identity.id name with
  | some pushed =>
    if isNewer cached pushed then pure (some pushed) else newerDhtPointer name cached
  | none => newerDhtPointer name cached

def adoptNewer (name : String) : Option AppPointerRecord → RunM Bool
  | none => pure false
  | some record => do
    adoptPointer name record
    pure true

theorem syncFromDht_eq (name : String) (cached : Option AppPointerRecord) :
    syncFromDht name cached = newerDhtPointer name cached >>= adoptNewer name := by
  simp only [syncFromDht, newerDhtPointer, Prog.bind_assoc]
  congr 1
  funext w
  congr 1
  funext r
  cases r with
  | none => rfl
  | some record =>
    dsimp only
    split
    . rfl
    . rfl

theorem syncRecord_eq (name : String) :
    syncRecord name = newerPointer name >>= adoptNewer name := by
  simp only [syncRecord, newerPointer, Prog.bind_assoc, syncFromDht_eq]
  congr 1
  funext w
  congr 1
  funext r
  cases r with
  | none => rfl
  | some record =>
    dsimp only
    split
    . rfl
    . rfl

theorem newerPointer_spec (env : Env) (name : String) (w : Runtime) :
    ∃ r w', exec (newerPointer name) env w = (.ok r, w') ∧
      ∀ record, r = some record →
        isNewer (cachedPointer w w.identity.id name) record = true := by
  have hdht (cached : Option AppPointerRecord) (a : Runtime) :
      ∃ r a', exec (newerDhtPointer name cached) env a = (.ok r, a') ∧
        ∀ record, r = some record → isNewer cached record = true := by
    obtain ⟨r, a', hr, _⟩ := exec_dhtPointer env a a.identity.id name
    unfold newerDhtPointer
    rw [exec_bind_ok (Prog.exec_get env a), exec_bind_ok hr]
    cases r with
    | none => exact ⟨none, a', rfl, by simp⟩
    | some record =>
      dsimp only
      split
      . next hnewer =>
        refine ⟨_, a', rfl, ?_⟩
        intro found hfound
        rw [← Option.some.inj hfound]
        exact hnewer
      . exact ⟨none, a', rfl, by simp⟩
  unfold newerPointer
  rw [exec_bind_ok (Prog.exec_get env w)]
  dsimp only
  rw [exec_bind_ok (exec_latestPointerRecord env w w.identity.id name)]
  cases scannedPointer env w w.identity.id name with
  | none => exact hdht _ _
  | some pushed =>
    dsimp only
    split
    . next hnewer =>
      refine ⟨_, _, rfl, ?_⟩
      intro found hfound
      rw [← Option.some.inj hfound]
      exact hnewer
    . exact hdht _ _

/--
The newer pointer that the search yields is valid, what it names can be fetched, and the disk takes
the record.
-/
def Obtains (env : Env) (name : String) (w : Runtime) (record : AppPointerRecord) : Prop :=
  record.Authentic w.identity.id name ∧
    ∃ a object b, exec (newerPointer name) env w = (.ok (some record), a) ∧
      exec (fetchObject record.manifest none) env a = (.ok object, b) ∧
      object.id = record.manifest ∧ env.fault b.tick = none

/--
The search yields a newer pointer, but what it names cannot be fetched or the disk does not take the
record.
-/
def Fails (env : Env) (name : String) (w : Runtime) : Prop :=
  ∃ record a, exec (newerPointer name) env w = (.ok (some record), a) ∧
    ∀ object b, exec (fetchObject record.manifest none) env a = (.ok object, b) →
      env.fault b.tick ≠ none

/--
The record cache has `record`, and what it names is in the store.
-/
def Refreshed (self : Identity) (name : String) (record : AppPointerRecord) (w : Runtime) : Prop :=
  Caches self name (some record) w ∧ Readable record.manifest w

theorem Obtains.not_refreshed {name : String} {w : Runtime} {record : AppPointerRecord}
    (h : Obtains env name w record) {w' : Runtime}
    (hcached : Caches w.identity name (cachedPointer w w.identity.id name) w') :
    ¬ Refreshed w.identity name record w' := by
  intro hrefreshed
  obtain ⟨_, a, _, _, hnewer, _⟩ := h
  obtain ⟨r, a', hr, hspec⟩ := newerPointer_spec env name w
  rw [hr] at hnewer
  cases hnewer
  have := hspec record rfl
  rw [← hcached.2, hrefreshed.1.2, isNewer] at this
  simp at this

theorem keeps_newerPointer {I : Runtime → Prop} {ok : Object → Prop} (h : Fetches env I ok)
    (name : String) : Keeps env I (newerPointer name) := by
  have hdht (cached : Option AppPointerRecord) : Keeps env I (newerDhtPointer name cached) := by
    apply Keeps.bind_get
    intro w _
    apply Keeps.bind (h.keeps_dhtPointer _ name)
    intro r _
    split
    . exact Keeps.pure trivial
    . split
      . exact Keeps.pure trivial
      . exact Keeps.pure trivial
  apply Keeps.bind_get
  intro w _
  apply Keeps.bind (h.keeps_latestPointerRecord _ name)
  intro r _
  split
  . split
    . exact Keeps.pure trivial
    . exact hdht _
  . exact hdht _

/--
What the search yields has the name and verifies.
-/
theorem signed_of_newerPointer {name : String} {record : AppPointerRecord} {w a : Runtime}
    (h : exec (newerPointer name) env w = (.ok (some record), a)) :
    record.name = name ∧ record.verify = true := by
  have hdht (cached : Option AppPointerRecord) (v : Runtime)
      (hfound : exec (newerDhtPointer name cached) env v = (.ok (some record), a)) :
      record.name = name ∧ record.verify = true := by
    obtain ⟨r, v', hr, hauthentic⟩ := exec_dhtPointer env v v.identity.id name
    unfold newerDhtPointer at hfound
    rw [exec_bind_ok (Prog.exec_get env v), exec_bind_ok hr] at hfound
    cases r with
    | none => cases hfound
    | some found =>
      dsimp only at hfound
      split at hfound
      . cases hfound
        exact ⟨(hauthentic record rfl).name, (hauthentic record rfl).verify⟩
      . cases hfound
  unfold newerPointer at h
  rw [exec_bind_ok (Prog.exec_get env w)] at h
  dsimp only at h
  rw [exec_bind_ok (exec_latestPointerRecord env w w.identity.id name)] at h
  cases hscanned : scannedPointer env w w.identity.id name with
  | none =>
    rw [hscanned] at h
    exact hdht _ _ h
  | some pushed =>
    rw [hscanned] at h
    dsimp only at h
    split at h
    . cases h
      exact signed_of_scannedPointer hscanned
    . exact hdht _ _ h

theorem identity_newerPointer (env : Env) (name : String) (w : Runtime) :
    (exec (newerPointer name) env w).2.identity = w.identity :=
  ((keeps_newerPointer (fetches_caches env w.identity name _) name).state ⟨rfl, rfl⟩).1

theorem exec_adoptNewer {name : String} {record : AppPointerRecord} {a b : Runtime}
    {object : Object} (h : exec (fetchObject record.manifest none) env a = (.ok object, b)) :
    exec (adoptNewer name (some record)) env a =
      match env.fault b.tick with
      | none => (.ok true, storeRecord (recordFile (AppPointerRecord.key a.identity.id name))
          (AppPointerRecord.codec.serialize record) { b with tick := b.tick + 1 })
      | some _ => (.error "write failed", { b with tick := b.tick + 1 }) := by
  simp only [adoptNewer, adoptPointer, Prog.bind_assoc]
  rw [exec_bind_ok (Prog.exec_get env a), exec_bind_ok h, Prog.exec_bind, exec_cacheRecord]
  cases env.fault b.tick with
  | none => rfl
  | some fault => rfl

theorem exec_adoptNewer_error {name : String} {record : AppPointerRecord} {a b : Runtime} {e : String}
    (h : exec (fetchObject record.manifest none) env a = (.error e, b)) :
    exec (adoptNewer name (some record)) env a = (.error e, b) := by
  simp only [adoptNewer, adoptPointer, Prog.bind_assoc]
  rw [exec_bind_ok (Prog.exec_get env a), exec_bind_error h]

/--
The rule for the synchronization of one record: what holds before holds after unless a newer pointer
than the cached one is adopted, together with an object that was fetched for it.
-/
theorem syncRecord_triple {I J : Runtime → Prop} {name : String}
    (h : Fetches env I (fun _ => True)) (hIJ : ∀ w, I w → J w)
    (hadopt : ∀ w record object, I w →
      isNewer (cachedPointer w w.identity.id name) record = true →
      Fetched env record.manifest object → Readable object.id w →
      J (storeRecord (recordFile (AppPointerRecord.key w.identity.id name))
        (AppPointerRecord.codec.serialize record) w)) :
    Triple env I (syncRecord name) (fun _ => J) J := by
  constructor
  intro w hw
  have hcaches := fetches_caches env w.identity name (cachedPointer w w.identity.id name)
  have hI := (keeps_newerPointer h name).state hw
  have hcached := (keeps_newerPointer hcaches name).state (s := w) ⟨rfl, rfl⟩
  obtain ⟨r, a, hnewer, hspec⟩ := newerPointer_spec env name w
  rw [hnewer] at hI hcached
  rw [syncRecord_eq, exec_bind_ok hnewer]
  cases r with
  | none => exact hIJ a hI
  | some record =>
    have hfetched := (h.keeps_fetchObject record.manifest none).state hI
    have hafter := (hcaches.keeps_fetchObject record.manifest none).state hcached
    cases hfetch : exec (fetchObject record.manifest none) env a with
    | mk res b =>
      rw [hfetch] at hfetched hafter
      cases res with
      | error e =>
        rw [exec_adoptNewer_error hfetch]
        exact hIJ b hfetched
      | ok object =>
        have htick := h.frame b { b with tick := b.tick + 1 } (.tick b) hfetched
        rw [exec_adoptNewer hfetch]
        cases env.fault b.tick with
        | some fault => exact hIJ _ htick
        | none =>
          have hresult := (h.keeps_fetchObject record.manifest none).result hI (by rw [hfetch])
          have hreadable := (fetchObject_triple record.manifest none).ok trivial hfetch
          have hself : a.identity = b.identity := hcached.1.trans hafter.1.symm
          rw [hself]
          refine hadopt _ record object htick ?_ hresult (readable_congr rfl hreadable)
          have hsame : cachedPointer { b with tick := b.tick + 1 } b.identity.id name =
              cachedPointer w w.identity.id name := by
            rw [hafter.1]
            exact hafter.2
          rw [hsame]
          exact hspec record rfl

/--
A synchronization goes for `record` from `w`, gets an object for it and may write the record in
state `b`.
-/
def Adopts (env : Env) (name : String) (w : Runtime) (record : AppPointerRecord) (b : Runtime) :
    Prop :=
  ∃ a object, exec (newerPointer name) env w = (.ok (some record), a) ∧
    exec (fetchObject record.manifest none) env a = (.ok object, b) ∧ env.fault b.tick = none

/--
A synchronization adopts a record, or it leaves what others can do meanwhile.
-/
theorem syncRecord_cases {I : Runtime → Prop} (name : String) {w : Runtime}
    (h : Fetches env I (fun _ => True)) (hw : I w) :
    ((∀ record b, ¬ Adopts env name w record b) ∧ I (exec (syncRecord name) env w).2) ∨
      ∃ record b, Adopts env name w record b ∧ I { b with tick := b.tick + 1 } ∧
        b.identity = w.identity ∧
        exec (syncRecord name) env w =
          (.ok true, storeRecord (recordFile (AppPointerRecord.key w.identity.id name))
            (AppPointerRecord.codec.serialize record) { b with tick := b.tick + 1 }) := by
  have hcaches := fetches_caches env w.identity name (cachedPointer w w.identity.id name)
  have hI := (keeps_newerPointer h name).state hw
  have hcached := (keeps_newerPointer hcaches name).state (s := w) ⟨rfl, rfl⟩
  obtain ⟨r, a, hnewer, _⟩ := newerPointer_spec env name w
  rw [hnewer] at hI hcached
  have hnot {record : AppPointerRecord} {b : Runtime} (hadopts : Adopts env name w record b) :
      r = some record ∧
        ∃ object, exec (fetchObject record.manifest none) env a = (.ok object, b) ∧
          env.fault b.tick = none := by
    obtain ⟨a', object, ha', hfetch, hfault⟩ := hadopts
    rw [hnewer] at ha'
    cases ha'
    exact ⟨rfl, object, hfetch, hfault⟩
  rw [syncRecord_eq, exec_bind_ok hnewer]
  cases r with
  | none =>
    refine .inl ⟨?_, hI⟩
    intro record b hadopts
    cases (hnot hadopts).1
  | some record =>
    have hfetched := (h.keeps_fetchObject record.manifest none).state hI
    have hafter := (hcaches.keeps_fetchObject record.manifest none).state hcached
    generalize hfetch : exec (fetchObject record.manifest none) env a = fetched at hfetched hafter
    obtain ⟨fetched, b⟩ := fetched
    cases fetched with
    | error e =>
      rw [exec_adoptNewer_error hfetch]
      refine .inl ⟨?_, hfetched⟩
      intro record' b' hadopts
      obtain ⟨heq, object, hobject, _⟩ := hnot hadopts
      cases heq
      rw [hfetch] at hobject
      cases hobject
    | ok object =>
      have htick := h.frame b { b with tick := b.tick + 1 } (.tick b)
        hfetched
      rw [exec_adoptNewer hfetch]
      cases hfault : env.fault b.tick with
      | some fault =>
        refine .inl ⟨?_, htick⟩
        intro record' b' hadopts
        obtain ⟨heq, object', hobject, hnone⟩ := hnot hadopts
        cases heq
        rw [hfetch] at hobject
        cases hobject
        rw [hfault] at hnone
        cases hnone
      | none =>
        rw [hcached.1]
        exact .inr ⟨record, b, ⟨a, object, hnewer, hfetch, hfault⟩, htick, hafter.1, rfl⟩

theorem cachedPointer_adopted (self : Identity) {name : String} {record : AppPointerRecord}
    (h : record.Authentic self.id name) (w : Runtime) :
    cachedPointer (storeRecord (recordFile (AppPointerRecord.key self.id name))
      (AppPointerRecord.codec.serialize record) w) self.id name = some record := by
  simp [cachedPointer, storeRecord, acceptRecord, h.owner, h.name, h.verify]

omit [Primitives] in
theorem eq_ok_of_toOption {ε α : Type} {r : Except ε α} {a : α} (h : r.toOption = some a) :
    r = .ok a := by
  cases r with
  | error e => simp [Except.toOption] at h
  | ok b =>
    simp only [Except.toOption, Option.some.injEq] at h
    rw [h]

theorem obtains_of_toOption (hdisk : ∀ t, env.fault t = none) {name : String} {w : Runtime}
    {record : AppPointerRecord} (hauthentic : record.Authentic w.identity.id name)
    (hnewer : (exec (newerPointer name) env w).1.toOption = some (some record))
    (hfetch : (exec (fetchObject record.manifest none) env
      (exec (newerPointer name) env w).2).1.toOption.map (·.id) = some record.manifest) :
    Obtains env name w record := by
  obtain ⟨object, hobject, hid⟩ := Option.map_eq_some_iff.mp hfetch
  exact ⟨hauthentic, _, object, _, Prod.ext (eq_ok_of_toOption hnewer) rfl,
    Prod.ext (eq_ok_of_toOption hobject) rfl, hid, hdisk _⟩

theorem Obtains.refreshes {name : String} {w : Runtime} {record : AppPointerRecord}
    (h : Obtains env name w record) :
    Refreshed w.identity name record (exec (syncRecord name) env w).2 := by
  obtain ⟨hauthentic, a, object, b, hnewer, hfetch, hid, hfault⟩ := h
  have hself : a.identity = w.identity := by
    have := identity_newerPointer env name w
    rw [hnewer] at this
    exact this
  have hfetched : b.identity = w.identity := by
    have := ((fetches_caches env w.identity name _).keeps_fetchObject record.manifest none).state
      ⟨hself, rfl⟩
    rw [hfetch] at this
    exact this.1
  have hreadable : Readable record.manifest b := by
    rw [← hid]
    exact (fetchObject_triple record.manifest none).ok trivial hfetch
  rw [syncRecord_eq, exec_bind_ok hnewer, exec_adoptNewer hfetch, hfault, hself]
  exact ⟨⟨hfetched, cachedPointer_adopted w.identity hauthentic _⟩, readable_congr rfl hreadable⟩

/--
A pass over one record fails exactly when what it goes for cannot be fetched or written.
-/
theorem fails_iff {name : String} {w : Runtime} :
    Fails env name w ↔ ∃ e, (exec (syncRecord name) env w).1 = .error e := by
  obtain ⟨r, a, hnewer, _⟩ := newerPointer_spec env name w
  rw [syncRecord_eq, exec_bind_ok hnewer]
  cases r with
  | none =>
    constructor
    . intro ⟨record, _, hsome, _⟩
      rw [hnewer] at hsome
      cases hsome
    . intro ⟨e, he⟩
      cases he
  | some record =>
    cases hfetch : exec (fetchObject record.manifest none) env a with
    | mk fetched b =>
      have hfails : Fails env name w ↔
          ∀ object, fetched = .ok object → env.fault b.tick ≠ none := by
        constructor
        . intro ⟨found, a', hfound, hfault⟩ object hobject
          rw [hnewer] at hfound
          cases hfound
          exact hfault object b (by rw [hfetch, hobject])
        . intro hfault
          refine ⟨record, a, hnewer, ?_⟩
          intro object b' hobject
          rw [hfetch] at hobject
          cases hobject
          exact hfault object rfl
      rw [hfails]
      cases fetched with
      | error e =>
        simp [exec_adoptNewer_error hfetch]
      | ok object =>
        rw [exec_adoptNewer hfetch]
        cases env.fault b.tick with
        | none => simp
        | some fault => simp

end Pass

section Each

variable {env : Env}

/--
`sync_records` over any list of names; its outcomes aside.
-/
def syncEach : List String → RunM Unit
  | [] => pure ()
  | name :: names => do
    let _ ← syncRecord name
    syncEach names

/--
The records with the states in which their turns come when none is held up by another.
-/
def turns (env : Env) : List String → Runtime → List (String × Runtime)
  | [], _ => []
  | name :: names, w => (name, w) :: turns env names (exec (syncRecord name) env w).2

/--
Every record whose newer pointer can be obtained when its turn comes is refreshed by the pass.
-/
def Independent (env : Env) (names : List String) (w w' : Runtime) : Prop :=
  ∀ turn ∈ turns env names w, ∀ record, Obtains env turn.1 turn.2 record →
    Refreshed w.identity turn.1 record w'

/--
No record that fails comes before one whose newer pointer can be obtained.
-/
def Unimpeded (env : Env) (names : List String) (w : Runtime) : Prop :=
  (turns env names w).Pairwise fun a b =>
    Fails env a.1 a.2 → ∀ record, ¬ Obtains env b.1 b.2 record

theorem mem_names_of_mem_turns {names : List String} {w : Runtime} {turn : String × Runtime}
    (h : turn ∈ turns env names w) : turn.1 ∈ names := by
  induction names generalizing w with
  | nil => simp [turns] at h
  | cons name names ih =>
    cases List.mem_cons.mp h with
    | inl hfirst =>
      rw [hfirst]
      exact List.mem_cons_self
    | inr hlater => exact List.mem_cons_of_mem _ (ih hlater)

theorem caches_of_mem_turns (hash : CollisionFree) {self : Identity} {names : List String}
    {name : String} {cached : Option AppPointerRecord} {w v : Runtime}
    (hnodup : names.Nodup) (hw : Caches self name cached w)
    (h : (name, v) ∈ turns env names w) : Caches self name cached v := by
  induction names generalizing w with
  | nil => simp [turns] at h
  | cons first names ih =>
    rw [List.nodup_cons] at hnodup
    cases List.mem_cons.mp h with
    | inl hfirst =>
      cases hfirst
      exact hw
    | inr hlater =>
      apply ih hnodup.2 _ hlater
      have hne : first ≠ name := by
        intro heq
        rw [heq] at hnodup
        exact hnodup.1 (mem_names_of_mem_turns hlater)
      exact ((fetches_caches env self name cached).keeps_syncRecord
        (fun a ha => caches_spares hash hne _ a ha)).state hw

theorem Refreshed.syncEach (hash : CollisionFree) {self : Identity} {names : List String}
    {name : String} {record : AppPointerRecord} {w : Runtime} (hname : name ∉ names)
    (hw : Refreshed self name record w) :
    Refreshed self name record (exec (syncEach names) env w).2 := by
  have hkeeps (names : List String) (hname : name ∉ names) :
      Keeps env (Caches self name (some record)) (Runtime.syncEach names) ∧
        Keeps env (Readable record.manifest) (Runtime.syncEach names) := by
    induction names with
    | nil => exact ⟨Keeps.pure trivial, Keeps.pure trivial⟩
    | cons first names ih =>
      rw [List.mem_cons, not_or] at hname
      have hrest := ih hname.2
      constructor
      . apply Keeps.bind ((fetches_caches env self name _).keeps_syncRecord
          (fun a ha => caches_spares hash (Ne.symm hname.1) _ a ha))
        intro _ _
        exact hrest.1
      . apply Keeps.bind ((fetches_readable env record.manifest).keeps_syncRecord
          (fun _ _ => readable_spares record.manifest _))
        intro _ _
        exact hrest.2
  exact ⟨(hkeeps names hname).1.state hw.1, (hkeeps names hname).2.state hw.2⟩

theorem identity_syncRecord (env : Env) (name : String) (w : Runtime) :
    (exec (syncRecord name) env w).2.identity = w.identity :=
  ((ingress_identity env w.identity).keeps_syncRecord name).state rfl

/--
A pass refreshes the records independently exactly when none that fails comes before one whose newer
pointer can be obtained.
-/
theorem independent_iff (hash : CollisionFree) {names : List String} (hnodup : names.Nodup)
    (w : Runtime) :
    Independent env names w (exec (syncEach names) env w).2 ↔ Unimpeded env names w := by
  induction names generalizing w with
  | nil => simp [Independent, Unimpeded, turns]
  | cons name names ih =>
    rw [List.nodup_cons] at hnodup
    have hself := identity_syncRecord env name w
    -- the turns of the others begin where this one ends
    have hrest := ih hnodup.2 (exec (syncRecord name) env w).2
    rw [Unimpeded, turns, List.pairwise_cons]
    by_cases hfails : Fails env name w
    . obtain ⟨e, he⟩ := fails_iff.mp hfails
      have hstop : (exec (syncEach (name :: names)) env w).2 = (exec (syncRecord name) env w).2 := by
        rw [syncEach, exec_bind_error (Prod.ext he rfl)]
      rw [hstop]
      constructor
      . intro hindependent
        have hnone : ∀ turn ∈ turns env names (exec (syncRecord name) env w).2,
            ∀ record, ¬ Obtains env turn.1 turn.2 record := by
          intro turn hturn record hobtains
          have hrefreshed := hindependent turn (List.mem_cons_of_mem _ hturn) record hobtains
          obtain ⟨hidentity, hcached⟩ := caches_of_mem_turns hash hnodup.2 ⟨hself, rfl⟩ hturn
          rw [← hidentity] at hrefreshed hself hcached
          exact hobtains.not_refreshed ⟨hself, hcached.symm⟩ hrefreshed
        refine ⟨fun turn hturn _ => hnone turn hturn, ?_⟩
        apply List.pairwise_of_forall_mem_list
        intro a _ b hb _
        exact hnone b hb
      . intro ⟨hfirst, _⟩ turn hturn record hobtains
        cases List.mem_cons.mp hturn with
        | inl heq =>
          rw [heq] at hobtains ⊢
          exact hobtains.refreshes
        | inr hlater => exact absurd hobtains (hfirst turn hlater hfails record)
    . obtain ⟨r, hr⟩ : ∃ r, (exec (syncRecord name) env w).1 = .ok r := by
        cases hres : (exec (syncRecord name) env w).1 with
        | ok r => exact ⟨r, rfl⟩
        | error e => exact absurd (fails_iff.mpr ⟨e, hres⟩) hfails
      have hgo : exec (syncEach (name :: names)) env w =
          exec (syncEach names) env (exec (syncRecord name) env w).2 := by
        rw [syncEach, exec_bind_ok (Prod.ext hr rfl)]
      rw [hgo]
      constructor
      . intro hindependent
        refine ⟨fun _ _ hfailed => absurd hfailed hfails, hrest.mp ?_⟩
        intro turn hturn record hobtains
        rw [hself]
        exact hindependent turn (List.mem_cons_of_mem _ hturn) record hobtains
      . intro ⟨_, hpairwise⟩ turn hturn record hobtains
        cases List.mem_cons.mp hturn with
        | inl heq =>
          rw [heq] at hobtains ⊢
          exact hobtains.refreshes.syncEach hash hnodup.1
        | inr hlater =>
          rw [← hself]
          exact hrest.mpr hpairwise turn hlater record hobtains

/--
The records that `sync_records` refreshes.
-/
def syncedNames : List String :=
  [RECORD_PROFILE, RECORD_CONTACTS, RECORD_DEVICES]

theorem not_independent {names : List String} {name : String} {record : AppPointerRecord}
    {w v w' : Runtime} (hobtains : Obtains env name v record)
    (hturn : (name, v) ∈ turns env names w)
    (hcached : cachedPointer w' w.identity.id name = none) : ¬ Independent env names w w' := by
  intro hindependent
  have hrefreshed := hindependent (name, v) hturn record hobtains
  have := hcached.symm.trans hrefreshed.1.2
  contradiction

theorem syncRecords_eq (env : Env) (w : Runtime) :
    (exec syncRecords env w).2 = (exec (syncEach syncedNames) env w).2 := by
  simp only [syncRecords, syncedNames, syncEach, Prog.exec_bind]
  rcases exec (syncRecord RECORD_PROFILE) env w with ⟨_ | _, a⟩
  . rfl
  . dsimp only
    rcases exec (syncRecord RECORD_CONTACTS) env a with ⟨_ | _, b⟩
    . rfl
    . dsimp only
      rcases exec (syncRecord RECORD_DEVICES) env b with ⟨_ | _, c⟩
      . rfl
      . rfl

/--
`sync_records` treats the records independently exactly when none that fails comes before one whose
newer pointer can be obtained: the first error ends the pass.
-/
theorem syncRecords_independent_iff (hash : CollisionFree) (env : Env) (w : Runtime) :
    Independent env syncedNames w (exec syncRecords env w).2 ↔ Unimpeded env syncedNames w := by
  rw [syncRecords_eq]
  exact independent_iff hash (by decide) w

end Each

end Runtime

end Canopee

namespace Canopee.Runtime

open Prog (exec)

section Witness

open Canopee.Transparent

theorem syncRecords_independent_iff_quiet :
    Independent (Env.quiet 0) syncedNames (fresh alice laptop)
        (exec syncRecords (Env.quiet 0) (fresh alice laptop)).2 ↔
      Unimpeded (Env.quiet 0) syncedNames (fresh alice laptop) :=
  syncRecords_independent_iff collisionFree (Env.quiet 0) (fresh alice laptop)

end Witness

section Counterexample

open Canopee.Compact

/--
A contact list that Alice has published from another device.
-/
def sharedContacts : Object :=
  ContactList.toObject ⟨[], 1⟩ alice 3

def contactsPointer : AppPointerRecord :=
  .sign alice 3 RECORD_CONTACTS sharedContacts.id

def lostProfile : AppPointerRecord :=
  .sign alice 3 RECORD_PROFILE ⟨"ff"⟩

/--
The DHT has pointers to a profile that nobody holds any more and to the contact list, which a peer
answers.
-/
def halfThere : Env :=
  { Env.quiet 4 with
    peers := fun _ => .ok [⟨"bb"⟩]
    exchange := fun _ _ request =>
      match request with
      | .getObject id =>
        if id.text = sharedContacts.id.text then .ok (.object ⟨1, sharedContacts⟩)
        else .ok .notFound
      | .store _ => .ok .stored
    record := fun _ key =>
      if key = AppPointerRecord.key alice.id RECORD_PROFILE then
        .ok (some (AppPointerRecord.codec.serialize lostProfile))
      else if key = AppPointerRecord.key alice.id RECORD_CONTACTS then
        .ok (some (AppPointerRecord.codec.serialize contactsPointer))
      else .ok none }

def afterProfile : Runtime :=
  (exec (syncRecord RECORD_PROFILE) halfThere (fresh alice laptop)).2

theorem halfThere_evaluated :
    afterProfile.identity.id = alice.id ∧ contactsPointer.verify = true ∧
    (exec (newerPointer RECORD_CONTACTS) halfThere afterProfile).1.toOption =
      some (some contactsPointer) ∧
    (exec (fetchObject contactsPointer.manifest none) halfThere
      (exec (newerPointer RECORD_CONTACTS) halfThere afterProfile).2).1.toOption.map (·.id) =
      some contactsPointer.manifest ∧
    cachedPointer (exec syncRecords halfThere (fresh alice laptop)).2 alice.id RECORD_CONTACTS =
      none := by
  decide +kernel

/--
The contact list could be had, but the lost profile ends the pass.
-/
theorem syncRecords_of_lostProfile :
    Obtains halfThere RECORD_CONTACTS afterProfile contactsPointer ∧
      ¬ Independent halfThere syncedNames (fresh alice laptop)
        (exec syncRecords halfThere (fresh alice laptop)).2 := by
  obtain ⟨hidentity, hverify, hnewer, hfetch, hcached⟩ := halfThere_evaluated
  have hauthentic : contactsPointer.Authentic afterProfile.identity.id RECORD_CONTACTS := by
    rw [hidentity]
    exact ⟨rfl, rfl, hverify⟩
  have hobtains := obtains_of_toOption (fun _ => rfl) hauthentic hnewer hfetch
  exact ⟨hobtains, not_independent hobtains (List.mem_cons_of_mem _ List.mem_cons_self) hcached⟩

end Counterexample

end Canopee.Runtime
