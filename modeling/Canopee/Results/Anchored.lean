import Canopee.Results.Adoption
import Canopee.Results.Serving
import Canopee.Runtime.Requests

/-!
This module contains what the record cache promises of a device's own records: the object that a
cached pointer names is in the store, whatever comes from other devices of the identity.
-/

namespace Canopee

open Primitives
open Canopee.Runtime
open Prog (Keeps Triple exec exec_bind_ok exec_bind_error)

variable [Primitives]

namespace Runtime

section Anchored

variable {env : Env} {self : Identity} {w : Runtime}

/--
The records that a node reads from its own store only.
-/
def ownNames : List String :=
  [RECORD_PROFILE, RECORD_CONTACTS, RECORD_HOME]

/--
The store has what the cached pointers of `owner` name.
-/
def Anchors (owner : IdentityId) (w : Runtime) : Prop :=
  ∀ name ∈ ownNames, ∀ record, cachedPointer w owner name = some record → Readable record.manifest w

def Anchored (self : Identity) (w : Runtime) : Prop :=
  w.identity = self ∧ Anchors self.id w

theorem anchors_congr {owner : IdentityId} {w' : Runtime} (hrecords : w'.records = w.records)
    (hfiles : w'.storage.files = w.storage.files) (h : Anchors owner w) : Anchors owner w' := by
  intro name hname record hrecord
  rw [cachedPointer_congr hrecords] at hrecord
  exact readable_congr hfiles (h name hname record hrecord)

theorem fetches_anchored (env : Env) (self : Identity) :
    Fetches env (Anchored self) (fun _ => True) where
  toPushes := by
    apply Pushes.ofDisk
    . intro _ _ hdisk hw
      exact ⟨hdisk.identity.trans hw.1, anchors_congr hdisk.records hdisk.files hw.2⟩
    . intro w object hverify _ hw
      refine ⟨hw.1, ?_⟩
      intro name hname record hrecord
      exact (hw.2 name hname record hrecord).storeObject hverify
    . intro _ _ _ _
      trivial
  answered _ _ _ _ := trivial
  own _ _ _ := trivial

theorem acceptRecord_serialize {owner : IdentityId} {name : String}
    {record found : AppPointerRecord}
    (h : acceptRecord owner name (AppPointerRecord.codec.serialize record) = some found) :
    found = record := by
  unfold acceptRecord at h
  rw [Codec.deserialize_serialize] at h
  dsimp only at h
  split at h
  . exact (Option.some.inj h).symm
  . cases h

theorem Anchors.storeRecord {owner : IdentityId} {key bytes : Bytes} (h : Anchors owner w)
    (hbytes : ∀ name ∈ ownNames, key = AppPointerRecord.key owner name → ∀ found,
      acceptRecord owner name bytes = some found → Readable found.manifest w) :
    Anchors owner (storeRecord (recordFile key) bytes w) := by
  intro name hname record hrecord
  apply readable_congr rfl
  by_cases hkey : key = AppPointerRecord.key owner name
  . apply hbytes name hname hkey
    simpa [cachedPointer, Runtime.storeRecord, hkey] using hrecord
  . apply h name hname
    rw [← hrecord]
    exact (cachedPointer_storeRecord_of_ne hkey bytes w).symm

theorem Anchored.storePointer {key : Bytes} {record : AppPointerRecord} (h : Anchored self w)
    (hreadable : Readable record.manifest w) :
    Anchored self (storeRecord (recordFile key) (AppPointerRecord.codec.serialize record) w) := by
  refine ⟨h.1, h.2.storeRecord ?_⟩
  intro _ _ _ found hfound
  rw [acceptRecord_serialize hfound]
  exact hreadable

theorem anchored_spares (hash : CollisionFree) {name : String} (hname : name ∉ ownNames) :
    Spares (Anchored self) (AppPointerRecord.key self.id name) := by
  intro w bytes hw
  refine ⟨hw.1, hw.2.storeRecord ?_⟩
  intro own hown hkey
  rw [AppPointerRecord.key_inj hash] at hkey
  rw [hkey] at hname
  exact absurd hown hname

theorem anchored_spares_registry (laws : DeviceLaws) (device : PeerId) :
    Spares (Anchored self) (deviceRegistryKey device) := by
  intro w bytes hw
  refine ⟨hw.1, hw.2.storeRecord ?_⟩
  intro own _ hkey
  exact absurd hkey (laws.registry_ne device self.id own)

end Anchored

section Resolve

variable {env : Env} {self : Identity} {owner : IdentityId} {name : String} {w : Runtime}

/--
The part of `resolve_pointer` that looks beyond the record cache.
-/
def lookupPointer (owner : IdentityId) (name : String) : RunM (Option AppPointerRecord) := do
  match ← latestPointerRecord owner name with
  | some record => pure (some record)
  | none => dhtPointer owner name

def rememberFound (key : Bytes) : Option AppPointerRecord → RunM (Option AppPointerRecord)
  | some record => do
    rememberPointer key record
    pure (some record)
  | none => pure none

theorem exec_resolvePointer_uncached (env : Env) (h : cachedPointer w owner name = none) :
    exec (resolvePointer owner name) env w =
      exec (lookupPointer owner name >>= rememberFound (AppPointerRecord.key owner name)) env w := by
  obtain ⟨r, v, hr, _⟩ := exec_dhtPointer env { w with tick := w.tick + 1 } owner name
  unfold resolvePointer lookupPointer
  rw [exec_bind_ok (Prog.exec_get env w), Prog.bind_assoc]
  simp only [h]
  rw [exec_bind_ok (exec_latestPointerRecord env w owner name),
    exec_bind_ok (exec_latestPointerRecord env w owner name)]
  cases scannedPointer env w owner name with
  | some record => rfl
  | none =>
    dsimp only
    rw [exec_bind_ok hr, exec_bind_ok hr]
    cases r with
    | some record => rfl
    | none => rfl

/--
What is in a file after a write in place, if anything is written.
-/
def landed (bytes : Bytes) : Option WriteFault → Option Bytes
  | none => some bytes
  | some .refused => none
  | some (.torn n) => some (bytes.take n)

theorem exec_rememberPointer (key : Bytes) (record : AppPointerRecord) (env : Env) (w : Runtime) :
    exec (rememberPointer key record) env w =
      (.ok (), match landed (AppPointerRecord.codec.serialize record) (env.fault w.tick) with
        | some bytes => storeRecord (recordFile key) bytes { w with tick := w.tick + 1 }
        | none => { w with tick := w.tick + 1 }) := by
  unfold rememberPointer
  rw [exec_bind_ok (Prog.exec_attempt _ env w)]
  unfold writeInPlace
  rw [exec_bind_ok (exec_nextTick env w), exec_bind_ok (Prog.exec_read env _)]
  cases env.fault w.tick with
  | none => rfl
  | some fault => cases fault <;> rfl

theorem keeps_lookupPointer {I : Runtime → Prop} {ok : Object → Prop} (h : Fetches env I ok)
    (owner : IdentityId) (name : String) : Keeps env I (lookupPointer owner name) := by
  apply Keeps.bind (h.keeps_latestPointerRecord owner name)
  intro r _
  split
  . exact Keeps.pure trivial
  . exact h.keeps_dhtPointer owner name

theorem exec_lookupPointer (env : Env) (w : Runtime) (owner : IdentityId) (name : String) :
    ∃ r v, exec (lookupPointer owner name) env w = (.ok r, v) := by
  unfold lookupPointer
  rw [exec_bind_ok (exec_latestPointerRecord env w owner name)]
  cases scannedPointer env w owner name with
  | some record => exact ⟨_, _, rfl⟩
  | none =>
    obtain ⟨r, v, hr, _⟩ := exec_dhtPointer env { w with tick := w.tick + 1 } owner name
    exact ⟨r, v, hr⟩

/--
When no pointer is cached, what the store or the DHT yields and the disk takes has its object in the
store.
-/
def Backed (env : Env) (owner : IdentityId) (name : String) (w : Runtime) : Prop :=
  cachedPointer w owner name = none → ∀ record v,
    exec (lookupPointer owner name) env w = (.ok (some record), v) →
    ∀ bytes, landed (AppPointerRecord.codec.serialize record) (env.fault v.tick) = some bytes →
    ∀ own ∈ ownNames, AppPointerRecord.key owner name = AppPointerRecord.key w.identity.id own →
    ∀ found, acceptRecord w.identity.id own bytes = some found → Readable found.manifest v

/--
A resolution keeps the own records anchored exactly when what it remembers is backed.
-/
theorem anchored_resolvePointer_iff (hw : Anchored self w) :
    Anchored self (exec (resolvePointer owner name) env w).2 ↔ Backed env owner name w := by
  cases hcached : cachedPointer w owner name with
  | some record =>
    rw [resolvePointer_of_cached hcached]
    simp [hw, Backed, hcached]
  | none =>
    obtain ⟨r, v, hr⟩ := exec_lookupPointer env w owner name
    have hv : Anchored self v := by
      have := (keeps_lookupPointer (fetches_anchored env self) owner name).state hw
      rw [hr] at this
      exact this
    rw [exec_resolvePointer_uncached env hcached, exec_bind_ok hr]
    cases r with
    | none =>
      constructor
      . intro _ _ record v' hfound
        rw [hr] at hfound
        cases hfound
      . intro _
        exact hv
    | some record =>
      have hbacked : Backed env owner name w ↔
          ∀ bytes, landed (AppPointerRecord.codec.serialize record) (env.fault v.tick) = some bytes →
            ∀ own ∈ ownNames, AppPointerRecord.key owner name = AppPointerRecord.key self.id own →
            ∀ found, acceptRecord self.id own bytes = some found → Readable found.manifest v := by
        rw [← hw.1]
        constructor
        . intro h
          exact h hcached record v hr
        . intro h _ record' v' hr'
          rw [hr] at hr'
          cases hr'
          exact h
      have hticked : Anchors self.id { v with tick := v.tick + 1 } := anchors_congr rfl rfl hv.2
      rw [hbacked, rememberFound, exec_bind_ok (exec_rememberPointer _ record env v),
        Prog.exec_pure]
      cases landed (AppPointerRecord.codec.serialize record) (env.fault v.tick) with
      | none =>
        constructor
        . intro _ bytes hbytes
          cases hbytes
        . intro _
          exact ⟨hv.1, hticked⟩
      | some bytes =>
        constructor
        . intro ⟨_, hanchors⟩ bytes' hbytes own hown hkey found hfound
          cases hbytes
          refine readable_congr rfl (hanchors own hown found ?_)
          simpa [cachedPointer, storeRecord, hkey] using hfound
        . intro h
          refine ⟨hv.1, hticked.storeRecord ?_⟩
          intro own hown hkey found hfound
          exact readable_congr rfl (h bytes rfl own hown hkey found hfound)

end Resolve

section Requests

variable {env : Env} {self : Identity} {w : Runtime}

theorem exec_decodeObject {α : Type} (c : Codec α) (object : Object) (env : Env) (w : Runtime) :
    exec (decodeObject c object) env w =
      (match object.decode c with
        | some a => .ok a
        | none => .error "the object does not decode", w) := by
  unfold decodeObject
  cases object.decode c with
  | some a => rfl
  | none => rfl

theorem loadOwnRecord_state {α : Type} (c : Codec α) (name : String) (env : Env) (w : Runtime) :
    (exec (loadOwnRecord c name) env w).2 =
      (exec (resolvePointer w.identity.id name) env w).2 := by
  unfold loadOwnRecord
  rw [exec_bind_ok (Prog.exec_get env w), Prog.exec_bind]
  rcases exec (resolvePointer w.identity.id name) env w with ⟨_ | _ | record, t⟩
  . rfl
  . rfl
  . dsimp only
    rw [Prog.exec_bind, exec_getVerified]
    cases t.storage.getVerified record.manifest with
    | error e => rfl
    | ok object =>
      dsimp only
      rw [Prog.exec_bind, exec_decodeObject]
      cases object.decode c with
      | none => rfl
      | some a => rfl

theorem shares_anchored (self : Identity) : Shares (Anchored self) :=
  fun _ _ hw => ⟨hw.1, anchors_congr rfl rfl hw.2⟩

theorem unshare_anchored (w : Runtime) (id : ObjectId) (hw : Anchored self w) :
    Anchored self (unshare id w) :=
  ⟨hw.1, anchors_congr rfl rfl hw.2⟩

theorem publishPointer_anchored (name : String) (target : ObjectId) :
    Keeps env (fun w => Anchored self w ∧ Readable target w) (publishPointer name target) := by
  have hI : Fetches env (fun w => Anchored self w ∧ Readable target w) (fun _ => True) := {
    toPushes := (fetches_anchored env self).toPushes.and (pushes_readable env target)
    answered := fun _ _ _ _ => trivial
    own := fun _ _ _ => trivial
  }
  apply Keeps.bind hI.keeps_now
  intro time _
  apply Keeps.bind_get
  intro w _
  apply Keeps.bind (Q := fun _ => True)
  . apply hI.keeps_writeAtomic
    intro v hv
    exact ⟨hv.1.storePointer hv.2, readable_congr rfl hv.2⟩
  . intro _ _
    apply Keeps.bind (keeps_attempt (hI.points.keeps_pushPointerRecord _))
    intro _ _
    exact hI.keeps_putRecord _ _

theorem putVerified_readable (object : Object) :
    Triple env (Anchored self) (putVerified object)
      (fun _ w => Anchored self w ∧ Readable object.id w) (Anchored self) := by
  unfold putVerified
  split
  . exact Triple.throw fun _ hw => hw
  . next hverify =>
    constructor
    intro w hw
    have hverify : object.verify = true := by simpa using hverify
    have hticked : Anchored self { w with tick := w.tick + 1 } := ⟨hw.1, anchors_congr rfl rfl hw.2⟩
    cases hfault : env.fault w.tick with
    | some fault =>
      rw [exec_writeAtomic_of_some hfault]
      exact hticked
    | none =>
      rw [exec_writeAtomic_of_none hfault]
      exact ⟨(fetches_anchored env self).put _ object hverify trivial hticked,
        readable_storeObject_self hverify _⟩

theorem publishObject_anchored (name : String) (object : Object) :
    Keeps env (Anchored self) (publishObject name object) := by
  apply Triple.bind (putVerified_readable object)
  intro _
  apply Triple.bind (Q := fun _ => Anchored self)
  . apply (publishPointer_anchored name object.id).conseq
    . intro _ hw
      exact hw
    . intro _ _ hw
      exact hw.1.1
    . intro _ hw
      exact hw.1
  . intro _
    exact Triple.pure fun _ hw => ⟨hw, trivial⟩

theorem announceObject_anchored (name : String) (object : Object) :
    Keeps env (Anchored self) (announceObject name object) := by
  have hI : Fetches env (fun w => Anchored self w ∧ Readable object.id w) (fun _ => True) := {
    toPushes := (fetches_anchored env self).toPushes.and (pushes_readable env object.id)
    answered := fun _ _ _ _ => trivial
    own := fun _ _ _ => trivial
  }
  have hshares : Shares fun w => Anchored self w ∧ Readable object.id w :=
    fun w id hw => ⟨shares_anchored self w id hw.1, readable_congr rfl hw.2⟩
  apply Triple.bind (putVerified_readable object)
  intro _
  apply Triple.bind (Q := fun _ w => Anchored self w ∧ Readable object.id w)
  . apply (hI.keeps_announce hshares object.id).conseq
    . intro _ hw
      exact hw
    . intro _ _ hw
      exact hw.1
    . intro _ hw
      exact hw.1
  . intro _
    apply Triple.bind (Q := fun _ => Anchored self)
    . apply (publishPointer_anchored name object.id).conseq
      . intro _ hw
        exact hw
      . intro _ _ hw
        exact hw.1.1
      . intro _ hw
        exact hw.1
    . intro _
      exact Triple.pure fun _ hw => ⟨hw, trivial⟩

/--
The records that a pairing transfers come with their objects.
-/
theorem importRecords_anchored {imported : Identity} {records : List PairingRecord}
    (h : ∀ record ∈ records, record.valid imported.id = true) :
    Keeps env (Anchored self) (importRecords imported records) := by
  have hI := fetches_anchored env self
  induction records with
  | nil => exact Keeps.pure trivial
  | cons record records ih =>
    have hmanifest : record.pointer.manifest = record.object.id := by
      have hvalid := h record List.mem_cons_self
      simp only [PairingRecord.valid, Bool.and_eq_true, beq_iff_eq] at hvalid
      exact hvalid.1.1.1.1.2
    have hrest := ih fun other hother => h other (List.mem_cons_of_mem _ hother)
    apply Triple.bind (Q := fun r w => Anchored self w ∧
      ∀ u, r = .ok u → Readable record.object.id w)
    . apply Triple.attempt
      apply (putVerified_readable record.object).conseq
      . intro _ hw
        exact hw
      . intro _ _ hw
        exact ⟨hw.1, fun _ _ => hw.2⟩
      . intro _ hw _
        exact ⟨hw, by simp⟩
    . intro r
      cases r with
      | error e => exact Triple.throw fun _ hw => hw.1
      | ok u =>
        apply Triple.bind (Q := fun _ w => Anchored self w ∧ Readable record.object.id w)
        . have hmark : Keeps env (fun w => Anchored self w ∧ Readable record.object.id w)
              (markCached record.object.id) := by
            apply (hI.toPushes.and (pushes_readable env record.object.id)).keeps_markCached
            intro w time hw
            exact ⟨⟨hw.1.1, anchors_congr rfl rfl hw.1.2⟩, readable_congr rfl hw.2⟩
          apply hmark.conseq
          . intro _ hw
            exact ⟨hw.1, hw.2 u rfl⟩
          . intro _ _ hw
            exact hw.1
          . intro _ hw
            exact hw.1
        . intro _
          apply Triple.bind (Q := fun _ => Anchored self)
          . have hcache : Keeps env (fun w => Anchored self w ∧ Readable record.object.id w)
                (cacheRecord (AppPointerRecord.key imported.id record.name)
                  (AppPointerRecord.codec.serialize record.pointer)) := by
              apply (hI.toPushes.and (pushes_readable env record.object.id)).keeps_writeAtomic
              intro w hw
              refine ⟨hw.1.storePointer ?_, readable_congr rfl hw.2⟩
              rw [hmanifest]
              exact hw.2
            apply Triple.attempt
            apply hcache.conseq
            . intro _ hw
              exact hw
            . intro _ _ hw
              exact hw.1.1
            . intro _ hw _
              exact hw.1
          . intro _
            exact hrest

theorem acceptPairing_anchored (incoming : InboundPairing) :
    Keeps env (Anchored self) (acceptPairing incoming) := by
  have hI := fetches_anchored env self
  apply Keeps.bind (Q := fun _ => True)
  . apply keeps_attempt
    apply Keeps.bind (hI.keeps_takeSession _)
    intro session _
    apply Keeps.bind_get
    intro w _
    apply Keeps.bind (Q := fun opened => openPairingRequest session w.deviceKey.peerId incoming =
      .ok opened)
    . constructor
      intro a ha
      rw [exec_ofExcept]
      cases hopened : openPairingRequest session w.deviceKey.peerId incoming with
      | error e => exact ha
      | ok opened => exact ⟨ha, rfl⟩
    . intro opened hopened
      apply Keeps.bind (hI.keeps_setIdentityKey _ _)
      . intro _ _
        apply Keeps.bind (importRecords_anchored (valid_of_openPairingRequest hopened))
        intro _ _
        exact Keeps.pure trivial
      . constructor
        . intro w name bytes hw
          exact ⟨hw.1, anchors_congr rfl rfl hw.2⟩
        . intro w bytes hw
          exact ⟨hw.1, anchors_congr rfl rfl hw.2⟩
  . intro r _
    split
    . exact Keeps.pure trivial
    . exact Keeps.pure trivial

theorem loadOwnRecord_anchored {α : Type} (c : Codec α) {name : String} (hw : Anchored self w)
    (h : Backed env self.id name w) :
    Triple env (fun a => a = w) (loadOwnRecord c name) (fun _ => Anchored self)
      (Anchored self) := by
  constructor
  intro a ha
  have hstate := loadOwnRecord_state c name env w
  rw [hw.1] at hstate
  have hresolved := (anchored_resolvePointer_iff hw).mpr h
  rw [← hstate] at hresolved
  rw [ha]
  generalize exec (loadOwnRecord c name) env w = res at hresolved
  rcases res with ⟨_ | _, t⟩
  . exact hresolved
  . exact hresolved

theorem saveProfile_anchored (profile : Profile) (hw : Anchored self w)
    (h : Backed env self.id RECORD_PROFILE w) :
    Triple env (fun a => a = w) (saveProfile profile) (fun _ => Anchored self)
      (Anchored self) := by
  have hI := fetches_anchored env self
  have hrest (previous : Option Profile) : Keeps env (Anchored self) (do
      let w ← get
      let profile := { profile with
        version := nextVersion (previous.map Profile.version)
        dhPublicKey := w.identity.dhPublicKey }
      let time ← now
      announceObject RECORD_PROFILE (profile.toObject w.identity time)) := by
    apply Keeps.bind_get
    intro a _
    apply Keeps.bind hI.keeps_now
    intro time _
    exact announceObject_anchored _ _
  apply Triple.bind (loadOwnRecord_anchored Profile.codec hw h)
  intro previous
  exact (hrest previous).triple

theorem saveContactList_anchored (contacts : ContactList) (hw : Anchored self w)
    (h : Backed env self.id RECORD_CONTACTS w) :
    Triple env (fun a => a = w) (saveContactList contacts) (fun _ => Anchored self)
      (Anchored self) := by
  have hI := fetches_anchored env self
  have hrest (previous : Option ContactList) : Keeps env (Anchored self) (do
      let contacts := { contacts with version := nextVersion (previous.map ContactList.version) }
      let time ← now
      let w ← get
      publishObject RECORD_CONTACTS (contacts.toObject w.identity time)) := by
    apply Keeps.bind hI.keeps_now
    intro time _
    apply Keeps.bind_get
    intro a _
    exact publishObject_anchored _ _
  apply Triple.bind (loadOwnRecord_anchored ContactList.codec hw h)
  intro previous
  exact (hrest previous).triple

theorem saveHomeIndex_anchored (index : HomeIndex) (hw : Anchored self w)
    (h : Backed env self.id RECORD_HOME w) :
    Triple env (fun a => a = w) (saveHomeIndex index) (fun _ => Anchored self)
      (Anchored self) := by
  have hI := fetches_anchored env self
  have hrest (previous : Option HomeIndex) : Keeps env (Anchored self) (do
      let index := { index with version := nextVersion (previous.map HomeIndex.version) }
      let time ← now
      let w ← get
      let id ← publishObject RECORD_HOME (index.toObject w.identity time)
      reconcileShared previous (some index)
      pure id) := by
    apply Keeps.bind hI.keeps_now
    intro time _
    apply Keeps.bind_get
    intro a _
    apply Keeps.bind (publishObject_anchored _ _)
    intro id _
    apply Keeps.bind (hI.keeps_reconcileShared (shares_anchored self) unshare_anchored _ _)
    intro _ _
    exact Keeps.pure trivial
  apply Triple.bind (loadOwnRecord_anchored HomeIndex.codec hw h)
  intro previous
  exact (hrest previous).triple

/--
Whoever is asked for what an own record names answers with that.
-/
def Honest (env : Env) (self : Identity) : Prop :=
  ∀ name ∈ ownNames, ∀ record : AppPointerRecord, record.Authentic self.id name →
    AnswersCarry env record.manifest

theorem syncRecord_anchored (honest : Honest env self) (name : String) :
    Keeps env (Anchored self) (syncRecord name) := by
  have h : Triple env (Anchored self) (syncRecord name) (fun _ => Anchored self)
      (Anchored self) := by
    apply syncRecord_triple (fetches_anchored env self) fun _ hw => hw
    intro w record object hw _ hfetched hreadable
    refine ⟨hw.1, hw.2.storeRecord ?_⟩
    intro own hown _ found hfound
    -- the fetched object is the one that the record names, as nobody answers with another
    have hauthentic := authentic_of_acceptRecord hfound
    rw [acceptRecord_serialize hfound] at hauthentic ⊢
    rw [← hfetched.id_eq (honest own hown record hauthentic)]
    exact hreadable
  exact h.conseq (fun _ hw => hw) (fun _ _ hw => ⟨hw, trivial⟩) fun _ hw => hw

theorem devices_spares (hash : CollisionFree) (w : Runtime) (hw : Anchored self w) :
    Spares (Anchored self) (AppPointerRecord.key w.identity.id RECORD_DEVICES) := by
  rw [hw.1]
  exact anchored_spares hash (by decide)

theorem syncWithAllDevices_anchored (hash : CollisionFree) (honest : Honest env self) :
    Keeps env (Anchored self) syncWithAllDevices := by
  apply Keeps.bind_get
  intro w hw
  apply Keeps.bind ((fetches_anchored env self).keeps_resolveOwnerRecord _
    (devices_spares hash w hw).remembers)
  intro devices _
  apply Keeps.bind (syncRecord_anchored honest _)
  intro profile _
  apply Keeps.bind (syncRecord_anchored honest _)
  intro contacts _
  apply Keeps.bind (syncRecord_anchored honest _)
  intro devices _
  exact Keeps.pure trivial

/--
The identity that a restart takes over has its cached pointers anchored, and a home pointer that the
restart comes upon is backed.
-/
def Recovers (env : Env) (w : Runtime) : Prop :=
  ∀ bytes identity, w.keyFile = some bytes →
    Identity.loadAtRest bytes env.passphrase = some identity →
    Anchors identity.id w ∧ Backed env identity.id RECORD_HOME
      { w with identity := identity, cache := w.sidecar, shared := ∅, pairing := none }

theorem reopen_anchored (laws : DeviceLaws) (hash : CollisionFree) (hw : Anchored w.identity w)
    (h : Recovers env w) :
    Anchored (exec reopen env w).2.identity (exec reopen env w).2 := by
  have hstep (identity : Identity)
      (hrecovers : ∀ bytes found, w.keyFile = some bytes →
        Identity.loadAtRest bytes env.passphrase = some found →
        found = identity ∧ Anchors identity.id w ∧ Backed env identity.id RECORD_HOME
          { w with identity := identity, cache := w.sidecar, shared := ∅, pairing := none }) :
      Triple env (fun a => a = w) reopen (fun _ => Anchored identity)
        (fun a => a = w ∨ Anchored identity a) := by
    apply (fetches_anchored env identity).triple_reopen (shares_anchored identity)
      unshare_anchored (devices_spares hash) (anchored_spares_registry laws)
      (J := fun a => Anchored identity a ∧ Backed env identity.id RECORD_HOME a)
    . intro a bytes found ha hkey hload
      rw [ha] at hkey ⊢
      obtain ⟨hfound, hanchors, hbacked⟩ := hrecovers bytes found hkey hload
      rw [hfound]
      exact ⟨⟨rfl, anchors_congr rfl rfl hanchors⟩, hbacked⟩
    . constructor
      intro a ⟨ha, hbacked⟩
      have hloaded := (loadOwnRecord_anchored HomeIndex.codec ha hbacked).spec a rfl
      rw [Prog.exec_attempt]
      unfold loadHomeIndex
      generalize exec (loadOwnRecord HomeIndex.codec RECORD_HOME) env a = res at hloaded
      rcases res with ⟨_ | _, t⟩
      . exact hloaded
      . exact hloaded
  have hdone {identity : Identity} (htriple : Triple env (fun a => a = w) reopen
      (fun _ => Anchored identity) (fun a => a = w ∨ Anchored identity a)) :
      Anchored (exec reopen env w).2.identity (exec reopen env w).2 := by
    have hspec := htriple.spec w rfl
    generalize exec reopen env w = res at hspec
    rcases res with ⟨_ | _, t⟩
    . cases hspec with
      | inl heq =>
        have heq : t = w := heq
        rw [heq]
        exact hw
      | inr hanchored =>
        have hanchored : Anchored identity t := hanchored
        rw [hanchored.1]
        exact hanchored
    . have hanchored : Anchored identity t := hspec
      rw [hanchored.1]
      exact hanchored
  cases hload : w.keyFile.bind (Identity.loadAtRest · env.passphrase) with
  | none =>
    apply hdone (hstep w.identity _)
    intro bytes found hkey hfound
    simp [hkey, hfound] at hload
  | some identity =>
    apply hdone (hstep identity _)
    intro bytes found hkey hfound
    have heq : found = identity := by simpa [hkey, hfound] using hload
    rw [← heq]
    exact ⟨rfl, h bytes found hkey hfound⟩

end Requests

section Loads

variable {env : Env} {name : String} {w : Runtime}

/--
A pointer that is not cached names, where it is found, something that is stored.
-/
def FindsStored (env : Env) (name : String) (w : Runtime) : Prop :=
  cachedPointer w w.identity.id name = none → ∀ record v,
    exec (lookupPointer w.identity.id name) env w = (.ok (some record), v) →
    Readable record.manifest v

/--
The cached pointers of this identity's own records name what is stored, so loading one of them fails
only on an object that does not decode.
-/
structure Loadable (w : Runtime) : Prop where
  anchors : Anchors w.identity.id w
  load : ∀ env, ∀ name ∈ ownNames, FindsStored env name w → ∀ {α : Type} (c : Codec α) e,
    (exec (loadOwnRecord c name) env w).1 = .error e →
      ∃ id object, (exec (loadOwnRecord c name) env w).2.storage.getVerified id = .ok object ∧
        object.decode c = none

theorem undecodable_of_loadOwnRecord {record : AppPointerRecord} {t : Runtime}
    (h : exec (resolvePointer w.identity.id name) env w = (.ok (some record), t))
    (hreadable : Readable record.manifest t) {α : Type} (c : Codec α) {e : String}
    (herror : (exec (loadOwnRecord c name) env w).1 = .error e) :
    ∃ id object, (exec (loadOwnRecord c name) env w).2.storage.getVerified id = .ok object ∧
      object.decode c = none := by
  obtain ⟨object, hobject⟩ := hreadable
  rw [loadOwnRecord_state, h]
  refine ⟨record.manifest, object, hobject, ?_⟩
  have hget : exec (getVerified record.manifest) env t = (.ok object, t) := by
    rw [exec_getVerified, hobject]
  unfold loadOwnRecord at herror
  rw [exec_bind_ok (Prog.exec_get env w), exec_bind_ok h] at herror
  dsimp only at herror
  rw [exec_bind_ok hget, Prog.exec_bind, exec_decodeObject] at herror
  cases hdecode : object.decode c with
  | none => rfl
  | some a =>
    rw [hdecode] at herror
    cases herror

theorem Anchored.loadable (hw : Anchored w.identity w) : Loadable w where
  anchors := hw.2
  load env name hname hfinds α c e herror := by
    cases hcached : cachedPointer w w.identity.id name with
    | some record =>
      exact undecodable_of_loadOwnRecord (resolvePointer_of_cached hcached)
        (hw.2 name hname record hcached) c herror
    | none =>
      obtain ⟨r, v, hr⟩ := exec_lookupPointer env w w.identity.id name
      have hresolve := exec_resolvePointer_uncached env hcached
      rw [exec_bind_ok hr] at hresolve
      cases r with
      | none =>
        unfold loadOwnRecord at herror
        rw [exec_bind_ok (Prog.exec_get env w), Prog.exec_bind, hresolve] at herror
        cases herror
      | some record =>
        rw [rememberFound, exec_bind_ok (exec_rememberPointer _ record env v),
          Prog.exec_pure] at hresolve
        apply undecodable_of_loadOwnRecord hresolve _ c herror
        apply readable_congr _ (hfinds hcached record v hr)
        cases landed (AppPointerRecord.codec.serialize record) (env.fault v.tick) with
        | none => rfl
        | some bytes => rfl

end Loads

end Runtime

/--
The requests through which pointers of this identity's own records come into the record cache.
-/
inductive RecordOp where
  | initiatePairing
  | acceptPairing (incoming : InboundPairing)
  | restart
  | resolvePointer (owner : IdentityId) (name : String)
  | sync
  | objectRequest (request : ObjectRequest)
  | saveProfile (profile : Profile)
  | saveContactList (contacts : ContactList)
  | saveHomeIndex (index : HomeIndex)

namespace RecordOp

def request : RecordOp → NodeOp
  | initiatePairing => .initiatePairing
  | acceptPairing incoming => .acceptPairing incoming
  | restart => .reopen
  | resolvePointer owner name => .resolvePointer owner name
  | sync => .syncWithAllDevices
  | objectRequest request => .objectRequest request
  | saveProfile profile => .saveProfile profile
  | saveContactList contacts => .saveContactList contacts
  | saveHomeIndex index => .saveHomeIndex index

def step (l : RecordOp × Env) (w : Runtime) : Runtime :=
  NodeOp.step (l.1.request, l.2) w

/--
A request that looks for a pointer comes upon one whose object is stored, a synchronization gets the
objects that it asks for, and a restart recovers what it takes over.
-/
def Sourced : RecordOp × Env → Runtime → Prop
  | (restart, env), w => Recovers env w
  | (resolvePointer owner name, env), w => Backed env owner name w
  | (sync, env), w => Honest env w.identity
  | (saveProfile _, env), w => Backed env w.identity.id RECORD_PROFILE w
  | (saveContactList _, env), w => Backed env w.identity.id RECORD_CONTACTS w
  | (saveHomeIndex _, env), w => Backed env w.identity.id RECORD_HOME w
  | _, _ => True

theorem anchored_step (laws : DeviceLaws) (hash : CollisionFree) {l : RecordOp × Env} {w : Runtime}
    (h : Sourced l w) (hw : Anchored w.identity w) :
    Anchored (step l w).identity (step l w) := by
  have hkept {self : Identity} {v : Runtime} (hv : Anchored self v) : Anchored v.identity v := by
    rw [hv.1]
    exact hv
  have hsaved {α : Type} {m : RunM α} {env : Env} (hm : Triple env (fun a => a = w) m
      (fun _ => Anchored w.identity) (Anchored w.identity)) :
      Anchored w.identity (exec (NodeOp.discard m) env w).2 := by
    rw [NodeOp.exec_discard]
    have hspec := hm.spec w rfl
    generalize exec m env w = res at hspec
    rcases res with ⟨_ | _, t⟩
    . exact hspec
    . exact hspec
  obtain ⟨op, env⟩ := l
  have hI := fetches_anchored env w.identity
  cases op with
  | initiatePairing => exact hkept ((NodeOp.keeps_discard hI.keeps_initiatePairing).state hw)
  | acceptPairing incoming =>
    exact hkept ((NodeOp.keeps_discard (acceptPairing_anchored incoming)).state hw)
  | restart => exact reopen_anchored laws hash hw h
  | resolvePointer owner name =>
    have hresolved := (anchored_resolvePointer_iff hw).mpr h
    rw [← NodeOp.exec_discard] at hresolved
    exact hkept hresolved
  | sync => exact hkept ((NodeOp.keeps_discard (syncWithAllDevices_anchored hash h)).state hw)
  | objectRequest request =>
    exact hkept ((NodeOp.keeps_discard (hI.keeps_handleObjectRequest fun _ _ _ => trivial)).state hw)
  | saveProfile profile => exact hkept (hsaved (saveProfile_anchored profile hw h))
  | saveContactList contacts => exact hkept (hsaved (saveContactList_anchored contacts hw h))
  | saveHomeIndex index => exact hkept (hsaved (saveHomeIndex_anchored index hw h))

end RecordOp

end Canopee

namespace Canopee.RecordOp

open Canopee.Runtime
open Prog (exec)

section Witness

open Canopee.Transparent

/--
A home pointer that is nowhere to be found, then a pairing session.
-/
def searchThenPair : List (RecordOp × Env) :=
  [(resolvePointer alice.id RECORD_HOME, Env.quiet 0), (initiatePairing, Env.quiet 1)]

end Witness

section Counterexample

open Canopee.Compact

/--
The home pointer of another device whose home index has not reached this one.
-/
def farHome : AppPointerRecord :=
  .sign alice 3 RECORD_HOME ⟨"ff"⟩

def farDht : Env :=
  { Env.quiet 4 with
    record := fun _ _ => .ok (some (AppPointerRecord.codec.serialize farHome)) }

def stuck : Runtime :=
  step (resolvePointer alice.id RECORD_HOME, farDht) (fresh alice laptop)

theorem stuck_evaluated :
    cachedPointer stuck stuck.identity.id RECORD_HOME = some farHome ∧
      (stuck.storage.getVerified farHome.manifest).toOption = none ∧
      (exec loadHomeIndex (Env.quiet 5) stuck).1.toOption.isSome = false ∧
      (exec (Runtime.saveHomeIndex HomeIndex.empty) (Env.quiet 5) stuck).1 =
        .error "No such file or directory" := by
  decide +kernel

end Counterexample

end Canopee.RecordOp
