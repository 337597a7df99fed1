import Canopee.Results.RecordSync
import Canopee.Results.Home

/-!
This module contains what a device serves of the records that it publishes, over its saves,
synchronizations and restarts.
-/

namespace Canopee

open Primitives
open Canopee.Runtime
open Prog (Keeps Triple exec exec_bind_ok exec_bind_error exec_bind_eq_ok)

variable [Primitives]

/--
The library's form of a key is read back and is no password protected file, and a registry key is no
digest.
-/
structure DeviceLaws : Prop where
  import_export : ∀ identity : Identity, Identity.importBytes identity.exportBytes = some identity
  not_envelope : ∀ identity : Identity, AtRest.isEncryptedEnvelope identity.exportBytes = false
  registry_ne : ∀ device owner name, deviceRegistryKey device ≠ AppPointerRecord.key owner name

theorem DeviceLaws.loadAtRest (laws : DeviceLaws) (identity : Identity)
    (passphrase : Option String) :
    Identity.loadAtRest identity.exportBytes passphrase = some identity := by
  unfold Identity.loadAtRest
  cases passphrase with
  | none => exact laws.import_export identity
  | some pass =>
    simp only [laws.not_envelope identity]
    exact laws.import_export identity

namespace Runtime

section Kept

variable {env : Env} {self : Identity} {P : List AppPointerRecord} {M H F : String → Prop}
variable {w : Runtime}

theorem cachedPointer_storeRecord_ne (hash : CollisionFree) {owner : IdentityId}
    {name other : String} (hne : other ≠ name) (bytes : Bytes) (w : Runtime) :
    cachedPointer (storeRecord (recordFile (AppPointerRecord.key owner name)) bytes w) owner other =
      cachedPointer w owner other := by
  apply cachedPointer_storeRecord_of_ne
  rw [ne_eq, AppPointerRecord.key_inj hash]
  exact hne.symm

/--
What `owner` keeps of the pointers `P` that it has published: what they name is stored; for the names
in `M` it is served as long as the pointer is the cached one; for those in `H` some pointer is
cached; and for those in `F` one that is newer than the cached pointer names something served.
-/
structure Kept (owner : Identity) (P : List AppPointerRecord) (M H F : String → Prop)
    (w : Runtime) : Prop where
  identity : w.identity = owner
  keyFile : w.keyFile = some owner.exportBytes
  readable : ∀ r ∈ P, Readable r.manifest w
  served : ∀ r ∈ P, M r.name → cachedPointer w owner.id r.name = some r →
    r.manifest.text ∈ w.shared
  held : ∀ r ∈ P, H r.name → cachedPointer w owner.id r.name ≠ none
  fresh : ∀ r ∈ P, F r.name → ∀ c, cachedPointer w owner.id r.name = some c →
    c.publishedAt < r.publishedAt → r.manifest.text ∈ w.shared

theorem Kept.mono {M' H' F' : String → Prop} (h : Kept self P M H F w) (hM : ∀ n, M' n → M n)
    (hH : ∀ n, H' n → H n) (hF : ∀ n, F' n → F n) : Kept self P M' H' F' w where
  identity := h.identity
  keyFile := h.keyFile
  readable := h.readable
  served r hr hname := h.served r hr (hM _ hname)
  held r hr hname := h.held r hr (hH _ hname)
  fresh r hr hname := h.fresh r hr (hF _ hname)

theorem Kept.grow {w' : Runtime} (h : Kept self P M H F w) (hidentity : w'.identity = w.identity)
    (hkeyFile : w'.keyFile = w.keyFile) (hrecords : w'.records = w.records)
    (hreadable : ∀ id, Readable id w → Readable id w')
    (hshared : w.shared ⊆ w'.shared) : Kept self P M H F w' := by
  have hcached := cachedPointer_congr hrecords self.id
  refine ⟨hidentity.trans h.identity, hkeyFile.trans h.keyFile, ?_, ?_, ?_, ?_⟩
  . intro r hr
    exact hreadable _ (h.readable r hr)
  . intro r hr hname hr'
    rw [hcached] at hr'
    exact hshared (h.served r hr hname hr')
  . intro r hr hname
    rw [hcached]
    exact h.held r hr hname
  . intro r hr hname c hc
    rw [hcached] at hc
    intro hlt
    exact hshared (h.fresh r hr hname c hc hlt)

theorem fetches_kept (env : Env) (self : Identity) (P : List AppPointerRecord)
    (M H F : String → Prop) : Fetches env (Kept self P M H F) (fun _ => True) where
  frame _ _ hsame hw :=
    hw.grow hsame.identity hsame.keyFile hsame.records (fun _ => readable_congr hsame.files)
      hsame.shared.symm.subset
  put _ _ hverify _ hw :=
    hw.grow rfl rfl rfl (fun _ hreadable => hreadable.storeObject hverify) (Finset.Subset.refl _)
  pushed _ _ _ _ := trivial
  track _ _ _ _ _ _ hw := hw.grow rfl rfl rfl (fun _ => readable_congr rfl) (Finset.Subset.refl _)
  touch _ _ _ _ hw := hw.grow rfl rfl rfl (fun _ => readable_congr rfl) (Finset.Subset.refl _)
  flush _ hw := hw.grow rfl rfl rfl (fun _ => readable_congr rfl) (Finset.Subset.refl _)
  replicate _ _ _ hw := hw.grow rfl rfl rfl (fun _ => readable_congr rfl) (Finset.Subset.refl _)
  answered _ _ _ _ := trivial
  own _ _ _ := trivial

theorem shares_kept (self : Identity) (P : List AppPointerRecord) (M H F : String → Prop) :
    Shares (Kept self P M H F) :=
  fun w id hw =>
    hw.grow rfl rfl rfl (fun _ => readable_congr rfl) (Finset.subset_insert id.text w.shared)

theorem Kept.storeRecord (hash : CollisionFree) {name : String} (h : Kept self P M H F w)
    (hM : ¬ M name) (hH : ¬ H name) (hF : ¬ F name) (bytes : Bytes) :
    Kept self P M H F (storeRecord (recordFile (AppPointerRecord.key self.id name)) bytes w) := by
  have hcached {other : String} (hne : other ≠ name) :
      cachedPointer (Runtime.storeRecord (recordFile (AppPointerRecord.key self.id name)) bytes w)
        self.id other = cachedPointer w self.id other :=
    cachedPointer_storeRecord_ne hash hne bytes w
  refine ⟨h.identity, h.keyFile, fun r hr => readable_congr rfl (h.readable r hr), ?_, ?_, ?_⟩
  . intro r hr hname
    rw [hcached fun heq => hM (heq ▸ hname)]
    exact h.served r hr hname
  . intro r hr hname
    rw [hcached fun heq => hH (heq ▸ hname)]
    exact h.held r hr hname
  . intro r hr hname
    rw [hcached fun heq => hF (heq ▸ hname)]
    exact h.fresh r hr hname

theorem remembers_kept (hash : CollisionFree) {name : String} (hH : H name) :
    Remembers (Kept self P M H F) self.id name := by
  intro w bytes hw hnone
  have hcached {r : AppPointerRecord} (hr : r ∈ P) (hname : H r.name) :
      cachedPointer (Runtime.storeRecord (recordFile (AppPointerRecord.key self.id name)) bytes w)
        self.id r.name = cachedPointer w self.id r.name := by
    apply cachedPointer_storeRecord_ne hash
    intro heq
    apply hw.held r hr hname
    rw [heq]
    exact hnone
  have hheld {r : AppPointerRecord} (hr : r ∈ P) :
      cachedPointer (Runtime.storeRecord (recordFile (AppPointerRecord.key self.id name)) bytes w)
        self.id r.name = cachedPointer w self.id r.name := by
    by_cases heq : r.name = name
    . apply hcached hr
      rw [heq]
      exact hH
    . exact cachedPointer_storeRecord_ne hash heq bytes w
  refine ⟨hw.identity, hw.keyFile, fun r hr => readable_congr rfl (hw.readable r hr), ?_, ?_, ?_⟩
  . intro r hr
    rw [hheld hr]
    exact hw.served r hr
  . intro r hr
    rw [hheld hr]
    exact hw.held r hr
  . intro r hr
    rw [hheld hr]
    exact hw.fresh r hr

end Kept

section Saves

variable {env : Env} {self : Identity} {P : List AppPointerRecord} {H F : String → Prop}

/--
Nothing is said of any name.
-/
def nowhere (_ : String) : Prop :=
  False

def everywhere (_ : String) : Prop :=
  True

/--
The record cache has a pointer for `name` that joins the published ones.
-/
def Joined (self : Identity) (P : List AppPointerRecord) (name : String) (w : Runtime) : Prop :=
  ∃ record, cachedPointer w self.id name = some record ∧
    Kept self (record :: P) everywhere nowhere nowhere w

theorem announceObject_kept (laws : SignatureLaws) (hash : CollisionFree) {name : String}
    {object : Object} (howner : object.payload.owner = self.id)
    (hid : object.id = ObjectId.fromPayload object.payload) :
    Triple env (Kept self P everywhere H F) (announceObject name object)
      (fun _ => Joined self P name) (Kept self P everywhere nowhere nowhere) := by
  have hI := (fetches_kept env self P everywhere nowhere nowhere).toPushes
  have hK : Spared env (AppPointerRecord.key self.id name)
      (Kept self P (fun other => other ≠ name) nowhere nowhere) := {
    toPushes := (fetches_kept env self P _ _ _).toPushes
    record := fun _ bytes hw => hw.storeRecord hash (fun hne => hne rfl) False.elim False.elim bytes
  }
  apply (announceObject_triple laws hash hI (shares_kept self P _ _ _) hK (shares_kept self P _ _ _)
    howner hid).conseq
  . intro w hw
    refine ⟨hw.identity, hw.mono ?_ ?_ ?_, hw.mono ?_ ?_ ?_⟩
    all_goals simp [everywhere, nowhere]
  . intro _ w ⟨hself, ⟨hK, hshared⟩, hcached, hstores, _⟩
    obtain ⟨record, hrecord, hmanifest⟩ := hcached
    rw [hself] at hrecord
    refine ⟨record, hrecord, hself, hK.keyFile, ?_, ?_, fun _ _ => False.elim, fun _ _ => False.elim⟩
    . intro r hr
      cases List.mem_cons.mp hr with
      | inl heq =>
        obtain ⟨stored, hstored, _⟩ := hstores
        rw [heq, hmanifest]
        exact ⟨stored, hstored⟩
      | inr hold => exact hK.readable r hold
    . intro r hr _ hr'
      have hserved : record.manifest.text ∈ w.shared := by
        rw [hmanifest, ← hid]
        exact hshared
      by_cases heq : r = record
      . rw [heq]
        exact hserved
      . cases List.mem_cons.mp hr with
        | inl hnew => exact absurd hnew heq
        | inr hold =>
          apply hK.served r hold _ hr'
          intro hname
          rw [hname, hrecord, Option.some.injEq] at hr'
          exact heq hr'.symm
  . intro w hw
    exact hw.2.1

theorem remembers_own (hash : CollisionFree) (name : String) (w : Runtime)
    (hw : Kept self P everywhere everywhere F w) :
    Remembers (Kept self P everywhere everywhere F) w.identity.id name := by
  rw [hw.identity]
  exact remembers_kept hash trivial

theorem loadOwnRecord_kept (hash : CollisionFree) {α : Type} (c : Codec α) (name : String) :
    Keeps env (Kept self P everywhere everywhere F) (loadOwnRecord c name) :=
  (fetches_kept env self P _ _ F).keeps_loadOwnRecord c fun w hw => remembers_own hash name w hw

theorem loadDeviceList_kept (hash : CollisionFree) :
    Keeps env (Kept self P everywhere everywhere F) (loadDeviceList self.id) :=
  (fetches_kept env self P _ _ F).keeps_resolveOwnerRecord _ (remembers_kept hash trivial)

theorem saveProfile_kept (laws : SignatureLaws) (hash : CollisionFree) (profile : Profile) :
    Triple env (Kept self P everywhere everywhere nowhere) (saveProfile profile)
      (fun _ => Joined self P RECORD_PROFILE) (Kept self P everywhere nowhere nowhere) := by
  have hweaken (w : Runtime) (hw : Kept self P everywhere everywhere nowhere w) :
      Kept self P everywhere nowhere nowhere w :=
    hw.mono (fun _ h => h) (fun _ => False.elim) (fun _ h => h)
  apply Triple.bind ((loadOwnRecord_kept hash _ _).conseq (fun _ hw => hw) (fun _ _ hw => hw) hweaken)
  intro previous
  apply Triple.bind (Q := fun a w => a.identity = self ∧ Kept self P everywhere everywhere nowhere w)
  . exact Triple.get fun w hw => ⟨hw.1.identity, hw.1⟩
  . intro a
    apply Triple.of_and
    intro hself
    rw [hself]
    apply Triple.bind ((fetches_kept env self P _ _ _).keeps_now.conseq (fun _ hw => hw)
      (fun _ _ hw => hw) hweaken)
    intro time
    apply (announceObject_kept laws hash rfl rfl).conseq
    . intro w hw
      exact hw.1
    . intro _ _ hw
      exact hw
    . intro _ hw
      exact hw

theorem saveDeviceList_kept (laws : SignatureLaws) (hash : CollisionFree) (list : DeviceList) :
    Triple env (Kept self P everywhere everywhere nowhere) (saveDeviceList list)
      (fun _ => Joined self P RECORD_DEVICES) (Kept self P everywhere nowhere nowhere) := by
  have hweaken (w : Runtime) (hw : Kept self P everywhere everywhere nowhere w) :
      Kept self P everywhere nowhere nowhere w :=
    hw.mono (fun _ h => h) (fun _ => False.elim) (fun _ h => h)
  apply Triple.bind (Q := fun a w => a.identity = self ∧ Kept self P everywhere everywhere nowhere w)
  . exact Triple.get fun w hw => ⟨hw.identity, hw⟩
  . intro a
    apply Triple.of_and
    intro hself
    rw [hself]
    apply Triple.bind ((loadDeviceList_kept hash).conseq (fun _ hw => hw) (fun _ _ hw => hw) hweaken)
    intro previous
    apply Triple.bind (Q := fun _ => Kept self P everywhere everywhere nowhere)
    . apply (fetches_kept env self P _ _ _).keeps_now.conseq
      . intro w hw
        exact hw.1
      . intro _ w hw
        exact hw.1
      . exact hweaken
    . intro time
      exact announceObject_kept laws hash rfl rfl

end Saves

section Syncs

variable {env : Env} {self : Identity} {P : List AppPointerRecord} {N : String → Prop}

/--
The synchronization of a record moves its pointer past the published ones, or back to one that is
served.
-/
theorem syncRecord_kept (hash : CollisionFree) {name : String} (hname : N name) :
    Triple env (Kept self P everywhere N N) (syncRecord name)
      (fun _ => Kept self P everywhere (fun n => N n ∧ n ≠ name) (fun n => N n ∧ n ≠ name))
      (Kept self P everywhere (fun n => N n ∧ n ≠ name) (fun n => N n ∧ n ≠ name)) := by
  have hweaken (w : Runtime) (hw : Kept self P everywhere N N w) :
      Kept self P everywhere (fun n => N n ∧ n ≠ name) (fun n => N n ∧ n ≠ name) w :=
    hw.mono (fun _ h => h) (fun _ h => h.1) (fun _ h => h.1)
  apply syncRecord_triple (fetches_kept env self P _ _ _) hweaken
  intro w record object hw hnewer _ _
  have hrest : Kept self P (fun n => n ≠ name) (fun n => N n ∧ n ≠ name) (fun n => N n ∧ n ≠ name) w :=
    hw.mono (fun _ _ => trivial) (fun _ h => h.1) (fun _ h => h.1)
  have hother := hrest.storeRecord hash (fun h => h rfl) (fun h => h.2 rfl) (fun h => h.2 rfl)
    (AppPointerRecord.codec.serialize record)
  rw [hw.identity] at hnewer ⊢
  refine ⟨hother.identity, hother.keyFile, hother.readable, ?_, hother.held, hother.fresh⟩
  intro r hr _ hr'
  by_cases heq : r.name = name
  . have hsame : r = record := by
      rw [heq] at hr'
      simp only [cachedPointer, storeRecord, AList.lookup_insert, Option.bind_some, acceptRecord,
        Codec.deserialize_serialize] at hr'
      split at hr'
      . exact (Option.some.inj hr').symm
      . cases hr'
    -- the pointer that was cached is older than what is adopted
    rw [← hsame] at hnewer
    cases hcached : cachedPointer w self.id name with
    | none =>
      rw [← heq] at hcached hname
      exact absurd hcached (hw.held r hr hname)
    | some c =>
      rw [hcached] at hnewer
      rw [← heq] at hcached hname
      exact hw.fresh r hr hname c hcached (by simpa [isNewer] using hnewer)
  . exact hother.served r hr heq hr'

theorem syncWithAllDevices_kept (hash : CollisionFree) :
    Triple env (Kept self P everywhere everywhere everywhere) syncWithAllDevices
      (fun _ => Kept self P everywhere nowhere nowhere)
      (Kept self P everywhere nowhere nowhere) := by
  have hweaken {H F : String → Prop} (w : Runtime) (hw : Kept self P everywhere H F w) :
      Kept self P everywhere nowhere nowhere w :=
    hw.mono (fun _ h => h) (fun _ => False.elim) (fun _ => False.elim)
  have hsync {N : String → Prop} {name : String} (hname : N name) :
      Triple env (Kept self P everywhere N N) (syncRecord name)
        (fun _ => Kept self P everywhere (fun n => N n ∧ n ≠ name) (fun n => N n ∧ n ≠ name))
        (Kept self P everywhere nowhere nowhere) :=
    (syncRecord_kept hash hname).conseq (fun _ hw => hw) (fun _ _ hw => hw) hweaken
  apply Triple.bind (Q := fun a w => a.identity = self ∧
    Kept self P everywhere everywhere everywhere w)
  . exact Triple.get fun w hw => ⟨hw.identity, hw⟩
  . intro a
    apply Triple.of_and
    intro hself
    rw [hself]
    apply Triple.bind ((loadDeviceList_kept hash).conseq (fun _ hw => hw) (fun _ _ hw => hw) hweaken)
    intro devices
    apply Triple.bind ((hsync trivial).conseq (fun _ hw => hw.1) (fun _ _ hw => hw) fun _ hw => hw)
    intro profile
    apply Triple.bind (hsync ⟨trivial, by decide⟩)
    intro contacts
    apply Triple.bind (hsync ⟨⟨trivial, by decide⟩, by decide⟩)
    intro devices
    exact Triple.pure fun w hw => hweaken w hw

end Syncs

section Restarts

variable {env : Env} {self : Identity} {P : List AppPointerRecord} {M H F : String → Prop}

theorem raw_of_cachedPointer {w : Runtime} {owner : IdentityId} {name : String}
    {r : AppPointerRecord} (h : cachedPointer w owner name = some r) :
    (w.records.lookup (recordFile (AppPointerRecord.key owner name))).bind
      AppPointerRecord.codec.deserialize = some r := by
  obtain ⟨bytes, hlookup, haccept⟩ := Option.bind_eq_some_iff.mp h
  rw [hlookup, Option.bind_some]
  unfold acceptRecord at haccept
  split at haccept
  . cases haccept
  . next record hrecord =>
    rw [hrecord]
    split at haccept
    . exact haccept
    . cases haccept

theorem Readable.existsObject {id : ObjectId} {w : Runtime} (h : Readable id w) :
    w.storage.existsObject id = true := by
  obtain ⟨object, hobject⟩ := h
  obtain ⟨bytes, hbytes, _⟩ := Storage.getVerified_eq_ok.mp hobject
  simp [Storage.existsObject, hbytes]

theorem Kept.withName {name : String} {w : Runtime} (h : Kept self P M H F w)
    (hname : ∀ r ∈ P, r.name = name → cachedPointer w self.id name = some r →
      r.manifest.text ∈ w.shared) : Kept self P (fun n => n = name ∨ M n) H F w := by
  refine { h with served := ?_ }
  intro r hr hM hr'
  cases hM with
  | inl heq =>
    rw [heq] at hr'
    exact hname r hr heq hr'
  | inr hM => exact h.served r hr hM hr'

/--
After a restart the cached pointer of `name` is served again if it was published here.
-/
theorem reshareRecord_kept {E : Runtime → Prop} (name : String) :
    Triple env (Kept self P M H F) (reshareRecord name)
      (fun _ => Kept self P (fun n => n = name ∨ M n) H F) E := by
  apply Triple.bind (Q := fun a w => a = w ∧ Kept self P M H F w)
  . exact Triple.get fun w hw => ⟨rfl, hw⟩
  . intro a
    split
    . next hnone =>
      apply Triple.pure
      intro w ⟨ha, hw⟩
      apply hw.withName
      intro r _ _ hr
      rw [ha, hw.identity, raw_of_cachedPointer hr] at hnone
      cases hnone
    . next record hsome =>
      have hsame {w : Runtime} (ha : a = w) (hw : Kept self P M H F w) {r : AppPointerRecord}
          (hr : cachedPointer w self.id name = some r) : r = record := by
        rw [ha, hw.identity, raw_of_cachedPointer hr] at hsome
        exact Option.some.inj hsome
      split
      . apply Triple.bind (Q := fun _ => Kept self P (fun n => n = name ∨ M n) H F)
        . apply Triple.attempt
          apply Triple.bind (Q := fun _ => Kept self P (fun n => n = name ∨ M n) H F)
          . apply Triple.modify
            intro w ⟨ha, hw⟩
            apply (shares_kept self P M H F w record.manifest hw).withName
            intro r _ _ hr
            rw [hsame ha hw hr]
            exact Finset.mem_insert_self _ _
          . intro _
            apply ((fetches_kept env self P _ H F).keeps_announceProvider _).conseq
              (fun _ hw => hw)
            . intro _ _ hw
              exact hw.1
            . intro _ hw _
              exact hw
        . intro _
          exact Triple.pure fun _ hw => hw
      . next hnot =>
        apply Triple.pure
        intro w ⟨ha, hw⟩
        apply hw.withName
        intro r hr _ hr'
        rw [ha] at hnot
        rw [← hsame ha hw hr'] at hnot
        exact absurd ⟨(authentic_of_cachedPointer hr').verify, (hw.readable r hr).existsObject⟩ hnot

/--
`open_with_config` until it registers the device.
-/
def reopenRecords : RunM Unit := do
  let w ← get
  let env ← read
  let bytes ← ofOption "no identity key" w.keyFile
  let identity ← ofOption "invalid keypair file" (Identity.loadAtRest bytes env.passphrase)
  modify fun w => { w with
    identity := identity
    cache := w.sidecar
    shared := ∅
    pairing := none }
  match ← Prog.attempt loadHomeIndex with
  | .ok index => reconcileShared none index
  | .error _ => pure ()
  reshareRecord RECORD_PROFILE
  reshareRecord RECORD_USERNAME
  reshareRecord RECORD_DEVICES

theorem reopen_eq : reopen = reopenRecords >>= fun _ => registerDevice := by
  simp only [reopen, reopenRecords, Prog.bind_assoc]
  congr 1
  funext w
  congr 1
  funext env
  congr 1
  funext bytes
  congr 1
  funext identity
  congr 1
  funext _
  congr 1
  funext r
  cases r with
  | ok index => simp only [Prog.bind_assoc]
  | error e => simp only [Prog.bind_assoc]

/--
What a restart puts back into the serving set covers what was published, profiles and device lists.
-/
theorem reopenRecords_kept (laws : DeviceLaws) (hash : CollisionFree)
    (hP : ∀ r ∈ P, r.name = RECORD_PROFILE ∨ r.name = RECORD_DEVICES) :
    Triple env (Kept self P everywhere everywhere nowhere) reopenRecords
      (fun _ => Kept self P everywhere everywhere nowhere)
      (Kept self P everywhere nowhere nowhere) := by
  have hbare := fetches_kept env self P nowhere everywhere nowhere
  have hall (w : Runtime) (hw : Kept self P (fun n => n = RECORD_DEVICES ∨ n = RECORD_USERNAME ∨
      n = RECORD_PROFILE ∨ nowhere n) everywhere nowhere w) :
      Kept self P everywhere everywhere nowhere w := by
    refine { hw with served := ?_ }
    intro r hr _ hr'
    apply hw.served r hr _ hr'
    cases hP r hr with
    | inl hprofile => exact .inr (.inr (.inl hprofile))
    | inr hdevices => exact .inl hdevices
  have hweaken {H F : String → Prop} (w : Runtime) (hw : Kept self P everywhere H F w) :
      Kept self P everywhere nowhere nowhere w :=
    hw.mono (fun _ h => h) (fun _ => False.elim) (fun _ => False.elim)
  have hreshare : Triple env (Kept self P nowhere everywhere nowhere) (do
      reshareRecord RECORD_PROFILE
      reshareRecord RECORD_USERNAME
      reshareRecord RECORD_DEVICES) (fun _ => Kept self P everywhere everywhere nowhere)
      (Kept self P everywhere nowhere nowhere) := by
    apply Triple.bind (reshareRecord_kept RECORD_PROFILE)
    intro _
    apply Triple.bind (reshareRecord_kept RECORD_USERNAME)
    intro _
    exact (reshareRecord_kept RECORD_DEVICES).conseq (fun _ hw => hw) (fun _ => hall) fun _ hw => hw
  unfold reopenRecords
  apply Triple.bind (Q := fun a w => a.keyFile = some self.exportBytes ∧
    Kept self P everywhere everywhere nowhere w)
  . exact Triple.get fun w hw => ⟨hw.keyFile, hw⟩
  . intro a
    apply Triple.of_and
    intro hkey
    rw [hkey]
    apply Triple.bind (Q := fun e w => e = env ∧ Kept self P everywhere everywhere nowhere w)
    . exact Triple.read fun w hw => ⟨rfl, hw⟩
    . intro e
      apply Triple.of_and
      intro _
      apply Triple.bind (triple_ofOption _ _ hweaken)
      intro bytes
      apply Triple.of_and
      intro hbytes
      rw [← Option.some.inj hbytes, laws.loadAtRest]
      apply Triple.bind (triple_ofOption _ _ hweaken)
      intro identity
      apply Triple.of_and
      intro hidentity
      rw [← Option.some.inj hidentity]
      apply Triple.bind (Q := fun _ => Kept self P nowhere everywhere nowhere)
      . apply Triple.modify
        intro w hw
        exact ⟨rfl, hw.keyFile, fun r hr => readable_congr rfl (hw.readable r hr),
          fun _ _ => False.elim, hw.held, fun _ _ => False.elim⟩
      . intro _
        apply Triple.bind (Q := fun _ => Kept self P nowhere everywhere nowhere)
        . apply Keeps.attempted
          apply hbare.keeps_loadOwnRecord
          intro w hw
          rw [hw.identity]
          exact remembers_kept hash trivial
        . intro r
          split
          . apply Triple.bind (Q := fun _ => Kept self P nowhere everywhere nowhere)
            . apply triple_reconcileShared hbare.toPushes (shares_kept self P _ _ _)
              -- nothing is said of what is served
              intro w id hw
              exact ⟨hw.identity, hw.keyFile, fun r hr => readable_congr rfl (hw.readable r hr),
                fun _ _ => False.elim, hw.held, fun _ _ => False.elim⟩
            . intro _
              exact hreshare
          . exact hreshare

theorem addDevice_kept (laws : SignatureLaws) (hash : CollisionFree) (deviceId deviceName : String) :
    Triple env (Kept self P everywhere everywhere nowhere) (addDevice deviceId deviceName)
      (fun _ => Joined self P RECORD_DEVICES) (Kept self P everywhere nowhere nowhere) := by
  have hbefore := fetches_kept env self P everywhere everywhere nowhere
  have hweaken (w : Runtime) (hw : Kept self P everywhere everywhere nowhere w) :
      Kept self P everywhere nowhere nowhere w :=
    hw.mono (fun _ h => h) (fun _ => False.elim) (fun _ => False.elim)
  apply Triple.bind (Q := fun _ => Kept self P everywhere everywhere nowhere)
  . apply (hbefore.keeps_loadDeviceListMerged (remembers_own hash RECORD_DEVICES)).conseq
      (fun _ hw => hw)
    . intro _ w hw
      exact hw.1
    . exact hweaken
  . intro merged
    apply Triple.bind (Q := fun _ => Kept self P everywhere everywhere nowhere)
    . apply hbefore.keeps_now.conseq (fun _ hw => hw)
      . intro _ w hw
        exact hw.1
      . exact hweaken
    . intro time
      apply Triple.bind (saveDeviceList_kept laws hash _)
      intro _
      exact Triple.pure fun _ hw => hw

theorem Joined.grow {w w' : Runtime} {name : String} (h : Joined self P name w)
    (hidentity : w'.identity = w.identity) (hkeyFile : w'.keyFile = w.keyFile)
    (hrecords : w'.records = w.records) (hreadable : ∀ id, Readable id w → Readable id w')
    (hshared : w.shared ⊆ w'.shared) : Joined self P name w' := by
  obtain ⟨record, hcached, hkept⟩ := h
  refine ⟨record, ?_, hkept.grow hidentity hkeyFile hrecords hreadable hshared⟩
  rw [cachedPointer_congr hrecords]
  exact hcached

theorem fetches_joined (env : Env) (self : Identity) (P : List AppPointerRecord) (name : String) :
    Fetches env (Joined self P name) (fun _ => True) where
  frame _ _ hsame hw :=
    hw.grow hsame.identity hsame.keyFile hsame.records (fun _ => readable_congr hsame.files)
      hsame.shared.symm.subset
  put _ _ hverify _ hw :=
    hw.grow rfl rfl rfl (fun _ hreadable => hreadable.storeObject hverify) (Finset.Subset.refl _)
  pushed _ _ _ _ := trivial
  track _ _ _ _ _ _ hw := hw.grow rfl rfl rfl (fun _ => readable_congr rfl) (Finset.Subset.refl _)
  touch _ _ _ _ hw := hw.grow rfl rfl rfl (fun _ => readable_congr rfl) (Finset.Subset.refl _)
  flush _ hw := hw.grow rfl rfl rfl (fun _ => readable_congr rfl) (Finset.Subset.refl _)
  replicate _ _ _ hw := hw.grow rfl rfl rfl (fun _ => readable_congr rfl) (Finset.Subset.refl _)
  answered _ _ _ _ := trivial
  own _ _ _ := trivial

theorem cachedPointer_storeRegistry (laws : DeviceLaws) (device : PeerId) (bytes : Bytes)
    (w : Runtime) (owner : IdentityId) (name : String) :
    cachedPointer (storeRecord (recordFile (deviceRegistryKey device)) bytes w) owner name =
      cachedPointer w owner name :=
  cachedPointer_storeRecord_of_ne (laws.registry_ne device owner name) bytes w

theorem kept_spares_registry (laws : DeviceLaws) (device : PeerId) :
    Spares (Kept self P M H F) (deviceRegistryKey device) := by
  intro w bytes hw
  have hcached := cachedPointer_storeRegistry laws device bytes w self.id
  refine ⟨hw.identity, hw.keyFile, fun r hr => readable_congr rfl (hw.readable r hr), ?_, ?_, ?_⟩
  . intro r hr
    rw [hcached]
    exact hw.served r hr
  . intro r hr
    rw [hcached]
    exact hw.held r hr
  . intro r hr
    rw [hcached]
    exact hw.fresh r hr

theorem joined_spares_registry (laws : DeviceLaws) (name : String) (device : PeerId) :
    Spares (Joined self P name) (deviceRegistryKey device) := by
  intro w bytes ⟨record, hcached, hkept⟩
  refine ⟨record, ?_, kept_spares_registry laws device w bytes hkept⟩
  rw [cachedPointer_storeRegistry laws]
  exact hcached

end Restarts

section Peers

theorem provide_of_shared {id : ObjectId} {w : Runtime} (h : Readable id w)
    (hshared : id.text ∈ w.shared) (env : Env) :
    ∃ bundle, (exec (provide id) env w).1 = .ok (some bundle) ∧
      w.storage.getVerified id = .ok bundle.object := by
  obtain ⟨object, hobject⟩ := h
  have hexport : object.export.toOption = some ⟨1, object⟩ := by
    simp [Object.export, Storage.verify_of_getVerified hobject, Except.toOption]
  refine ⟨⟨1, object⟩, ?_, hobject⟩
  have hread : exec (Prog.attempt (getVerified id)) env w = (.ok (.ok object), w) := by
    rw [Prog.exec_attempt, exec_getVerified, hobject]
  have hcached : exec (isCached id) env w = (.ok (w.cache.lookup id.text).isSome, w) := rfl
  unfold provide
  rw [exec_bind_ok hread]
  dsimp only
  rw [exec_bind_ok hcached]
  split
  . have htouch : exec (touchServed id) env w = (.ok (), (exec (touchServed id) env w).2) := rfl
    rw [exec_bind_ok htouch, Prog.exec_pure, hexport]
  . rw [exec_bind_ok (Prog.exec_get env w), if_pos hshared, Prog.exec_pure, hexport]

/--
In `env` a node is connected to `peer` alone, which answers `bundle` for `id`, and its disk works.
-/
structure Linked (env : Env) (peer : PeerId) (id : ObjectId) (bundle : ExportBundle) : Prop where
  peers : ∀ t, env.peers t = .ok [peer]
  answer : ∀ t, env.exchange t peer (.getObject id) = .ok (.object bundle)
  inbound : ∀ t, env.inbound t = []
  fault : ∀ t, env.fault t = none

/--
There is no broken file under `id`.
-/
def Unbroken (id : ObjectId) (w : Runtime) : Prop :=
  w.storage.existsObject id = true → Readable id w

theorem fetches_unbroken (env : Env) (id : ObjectId) :
    Fetches env (Unbroken id) (fun _ => True) where
  toPushes := by
    apply Pushes.ofDisk
    . intro w w' hdisk hw hexists
      apply readable_congr hdisk.files
      apply hw
      rw [← hexists, Storage.existsObject, Storage.existsObject, hdisk.files]
    . intro w object hverify _ hw hexists
      by_cases hid : id = object.id
      . rw [hid]
        exact readable_storeObject_self hverify w
      . apply Readable.storeObject hverify
        apply hw
        have : id.text ≠ object.id.text := by
          rw [ne_eq, ObjectId.text_inj]
          exact hid
        simpa [Storage.existsObject, storeObject, Storage.write, AList.lookup_insert_ne this]
          using hexists
    . intro _ _ _ _
      trivial
  answered _ _ _ _ := trivial
  own _ _ _ := trivial

theorem fetchObject_of_linked {env : Env} {peer : PeerId} {id : ObjectId} {bundle : ExportBundle}
    (h : Linked env peer id bundle) (hid : bundle.object.id = id)
    (hverify : bundle.object.verify = true) {w : Runtime} (hw : Unbroken id w) :
    ∃ object w', exec (fetchObject id none) env w = (.ok object, w') ∧ object.id = id := by
  have hsettle (a : Runtime) : exec settle env a = (.ok a.tick, { a with tick := a.tick + 1 }) := by
    simp only [settle, exec_bind_ok (exec_nextTick env a), exec_bind_ok (Prog.exec_read env _),
      h.inbound, handleAll]
    rfl
  have hlocal : exec (Prog.attempt (getVerified id)) env w =
      (.ok (w.storage.getVerified id), w) := by
    rw [Prog.exec_attempt, exec_getVerified]
  unfold fetchObject
  rw [exec_bind_ok hlocal]
  cases hstored : w.storage.getVerified id with
  | ok object => exact ⟨object, w, rfl, Storage.id_of_getVerified hstored⟩
  | error e =>
    -- nothing is stored, so the peer is asked and its answer is imported
    have hmissing : w.storage.existsObject id = false := by
      rw [← Bool.not_eq_true]
      intro hexists
      obtain ⟨object, hobject⟩ := hw hexists
      rw [hstored] at hobject
      cases hobject
    have hpeers : exec connectedPeers env w = (.ok [peer], { w with tick := w.tick + 1 }) := by
      simp only [connectedPeers, exec_bind_ok (hsettle w), exec_bind_ok (Prog.exec_read env _),
        exec_ofExcept, h.peers]
    have hget (a : Runtime) : exec (getObject peer id) env a =
        (.ok bundle, log (.asked peer id (.ok bundle)) { a with tick := a.tick + 1 }) := by
      simp only [getObject, exec_bind_ok (hsettle a), exec_bind_ok (Prog.exec_read env _),
        h.answer, objectOutcome, exec_bind_ok (Prog.exec_modify _ env _), exec_ofExcept]
    have himport (a : Runtime) (ha : a.storage = w.storage) :
        ∃ a', exec (importBundle bundle) env a = (.ok (), a') := by
      have hput : exec (putVerified bundle.object) env a =
          (.ok (), storeObject bundle.object { a with tick := a.tick + 1 }) := by
        simp only [putVerified, hverify, Bool.not_true, Bool.false_eq_true, if_false, writeAtomic,
          exec_bind_ok (exec_nextTick env a), exec_bind_ok (Prog.exec_read env _), h.fault,
          Prog.exec_modify]
      unfold importBundle
      rw [exec_bind_ok (Prog.exec_get env a), ha, hid, hmissing, if_neg Bool.false_ne_true,
        exec_bind_ok (exec_isOwned _ env a), exec_bind_ok hput]
      split
      . exact ⟨_, rfl⟩
      . exact ⟨_, rfl⟩
    dsimp only
    rw [exec_bind_ok hpeers]
    have hasked : exec (Prog.attempt (getObject peer id)) env { w with tick := w.tick + 1 } =
        (.ok (.ok bundle), log (.asked peer id (.ok bundle)) { w with tick := w.tick + 2 }) := by
      rw [Prog.exec_attempt, hget]
    obtain ⟨b, hb⟩ := himport (log (.asked peer id (.ok bundle)) { w with tick := w.tick + 2 }) rfl
    have hfetched : exec (fetchFrom id [peer]) env { w with tick := w.tick + 1 } =
        (.ok (some bundle.object), b) := by
      rw [fetchFrom, exec_bind_ok hasked]
      dsimp only
      rw [exec_bind_ok hb]
      rfl
    have hfilter : ([peer].filter fun p => some p ≠ (none : Option PeerId)) = [peer] := by simp
    rw [hfilter, exec_bind_ok hfetched]
    exact ⟨bundle.object, b, rfl, hid⟩

theorem obtains_of_linked {env : Env} {peer : PeerId} {bundle : ExportBundle} {name : String}
    {record : AppPointerRecord} {w : Runtime} (h : Linked env peer record.manifest bundle)
    (hid : bundle.object.id = record.manifest) (hverify : bundle.object.verify = true)
    (hw : Unbroken record.manifest w) (hauthentic : record.Authentic w.identity.id name)
    (hnewer : (exec (newerPointer name) env w).1 = .ok (some record)) :
    Obtains env name w record := by
  have hunbroken := (keeps_newerPointer (fetches_unbroken env record.manifest) name).state hw
  obtain ⟨object, b, hfetch, hobject⟩ := fetchObject_of_linked h hid hverify hunbroken
  exact ⟨hauthentic, _, object, b, Prod.ext hnewer rfl, hfetch, hobject, h.fault b.tick⟩

end Peers

end Runtime

/--
A device, and the pointers that it has published, the newest first.
-/
structure Publisher where
  node : Runtime
  published : List AppPointerRecord

inductive PublisherOp where
  | saveProfile (profile : Profile)
  | saveContactList (contacts : ContactList)
  | saveDeviceList (list : DeviceList)
  | sync
  | restart

namespace Publisher

def perform : PublisherOp → RunM Unit
  | .saveProfile profile => NodeOp.discard (Runtime.saveProfile profile)
  | .saveContactList contacts => NodeOp.discard (Runtime.saveContactList contacts)
  | .saveDeviceList list => NodeOp.discard (Runtime.saveDeviceList list)
  | .sync => NodeOp.discard syncWithAllDevices
  | .restart => reopen

def succeeds {α : Type} (m : RunM α) (env : Env) (w : Runtime) : Bool :=
  (exec m env w).1.toBool

/--
The name under which a request publishes a pointer: a save that succeeds, and a restart that
registers the device.
-/
def publishes : PublisherOp → Env → Runtime → Option String
  | .saveProfile profile, env, w =>
    if succeeds (Runtime.saveProfile profile) env w then some RECORD_PROFILE else none
  | .saveContactList contacts, env, w =>
    if succeeds (Runtime.saveContactList contacts) env w then some RECORD_CONTACTS else none
  | .saveDeviceList list, env, w =>
    if succeeds (Runtime.saveDeviceList list) env w then some RECORD_DEVICES else none
  | .sync, _, _ => none
  | .restart, env, w =>
    let opened := (exec reopenRecords env w).2
    if succeeds reopenRecords env w ∧ succeeds (addDevice opened.deviceKey.peerId.base58
        opened.deviceKey.deviceName) env opened then
      some RECORD_DEVICES
    else
      none

def step (l : PublisherOp × Env) (s : Publisher) : Publisher :=
  let node := (exec (perform l.1) l.2 s.node).2
  { node := node
    published := match publishes l.1 l.2 s.node with
      | some name => (cachedPointer node node.identity.id name).toList ++ s.published
      | none => s.published }

/--
A second device of the identity that is connected to this one and goes for `record` comes to have it,
together with what it names.
-/
def Learns (name : String) (record : AppPointerRecord) (node : Runtime) (bundle : ExportBundle) :
    Prop :=
  ∀ env peer second, Linked env peer record.manifest bundle → Unbroken record.manifest second →
    second.identity = node.identity →
    (exec (newerPointer name) env second).1 = .ok (some record) →
    Refreshed node.identity name record (exec (syncRecord name) env second).2

/--
For every synchronized record whose pointer was published here the provider answers with the object
that the pointer names, so that another device can complete its synchronization.
-/
def Served (s : Publisher) : Prop :=
  ∀ name ∈ syncedNames, ∀ record ∈ s.published,
    cachedPointer s.node s.node.identity.id name = some record →
    ∀ env, ∃ bundle, (exec (provide record.manifest) env s.node).1 = .ok (some bundle) ∧
      bundle.object.id = record.manifest ∧ Learns name record s.node bundle

/--
The request does not save the contact list, and the record cache has a valid pointer for every
pointer that was published, one that is not older unless the published one still names something
that is served.
-/
def Timely (l : PublisherOp × Env) (s : Publisher) : Prop :=
  (∀ contacts, l.1 ≠ .saveContactList contacts) ∧
    ∀ r ∈ s.published, ∃ c, cachedPointer s.node s.node.identity.id r.name = some c ∧
      (c.publishedAt < r.publishedAt → r.manifest.text ∈ s.node.shared)

/--
The invariant: what was published is stored, and served while its pointer is the cached one.
-/
structure Sound (owner : Identity) (s : Publisher) : Prop where
  kept : Kept owner s.published everywhere nowhere nowhere s.node
  names : ∀ r ∈ s.published, r.name = RECORD_PROFILE ∨ r.name = RECORD_DEVICES

theorem Sound.served {self : Identity} {s : Publisher} (h : Sound self s) : Served s := by
  intro name _ record hrecord hcached env
  rw [h.kept.identity] at hcached
  have hauthentic := authentic_of_cachedPointer hcached
  have hshared : record.manifest.text ∈ s.node.shared := by
    apply h.kept.served record hrecord trivial
    rw [hauthentic.name]
    exact hcached
  obtain ⟨bundle, hprovided, hstored⟩ :=
    provide_of_shared (h.kept.readable record hrecord) hshared env
  have hid := Storage.id_of_getVerified hstored
  refine ⟨bundle, hprovided, hid, ?_⟩
  intro env' peer second hlinked hunbroken hsecond hnewer
  rw [← hsecond]
  apply Obtains.refreshes
  apply obtains_of_linked hlinked hid (Storage.verify_of_getVerified hstored) hunbroken _ hnewer
  rw [hsecond, h.kept.identity]
  exact hauthentic

theorem Sound.timely {self : Identity} {s : Publisher} (h : Sound self s)
    {l : PublisherOp × Env} (htimely : Timely l s) :
    Kept self s.published everywhere everywhere everywhere s.node := by
  have hcached := htimely.2
  rw [h.kept.identity] at hcached
  refine { h.kept with held := ?_, fresh := ?_ }
  . intro r hr _ hnone
    obtain ⟨c, hc, _⟩ := hcached r hr
    rw [hnone] at hc
    cases hc
  . intro r hr _ c hc hlt
    obtain ⟨c', hc', hserved⟩ := hcached r hr
    rw [hc, Option.some.injEq] at hc'
    rw [← hc'] at hserved
    exact hserved hlt

/--
What a request leaves of the invariant: the pointer that it publishes is with the others.
-/
def Leaves (self : Identity) (P : List AppPointerRecord) (published : Option String) (w : Runtime) :
    Prop :=
  match published with
  | some name => (name = RECORD_PROFILE ∨ name = RECORD_DEVICES) ∧ Joined self P name w
  | none => Kept self P everywhere nowhere nowhere w

theorem leaves_of_triple {self : Identity} {P : List AppPointerRecord} {α : Type} {m : RunM α}
    {env : Env} {I : Runtime → Prop} {name : String}
    (hname : name = RECORD_PROFILE ∨ name = RECORD_DEVICES)
    (h : Triple env I m (fun _ => Joined self P name) (Kept self P everywhere nowhere nowhere))
    {w : Runtime} (hw : I w) :
    Leaves self P (if succeeds m env w then some name else none) (exec m env w).2 := by
  have := h.spec w hw
  unfold succeeds
  generalize exec m env w = res at this
  rcases res with ⟨_ | _, t⟩
  . exact this
  . exact ⟨hname, this⟩

/--
A restart reads the disk, registers the device and puts its registry record.
-/
theorem restart_leaves (laws : SignatureLaws) (deviceLaws : DeviceLaws) (hash : CollisionFree)
    {self : Identity} {P : List AppPointerRecord}
    (hP : ∀ r ∈ P, r.name = RECORD_PROFILE ∨ r.name = RECORD_DEVICES) {env : Env} {w : Runtime}
    (hw : Kept self P everywhere everywhere nowhere w) :
    Leaves self P (publishes .restart env w) (exec reopen env w).2 := by
  have hreopen : Triple env (Kept self P everywhere everywhere nowhere) reopenRecords
      (fun _ => Kept self P everywhere everywhere nowhere)
      (Kept self P everywhere nowhere nowhere) := reopenRecords_kept deviceLaws hash hP
  have hopened := hreopen.spec w hw
  rw [reopen_eq, Prog.exec_bind]
  dsimp only [publishes]
  rw [succeeds]
  generalize exec reopenRecords env w = res at hopened
  rcases res with ⟨_ | _, v⟩
  . exact hopened
  . have hadd : Triple env (Kept self P everywhere everywhere nowhere)
        (addDevice v.deviceKey.peerId.base58 v.deviceKey.deviceName)
        (fun _ => Joined self P RECORD_DEVICES) (Kept self P everywhere nowhere nowhere) :=
      addDevice_kept laws hash _ _
    have hadded := leaves_of_triple (.inr rfl) hadd hopened
    have hregister : exec registerDevice env v = exec publishDeviceRegistry env
        (exec (addDevice v.deviceKey.peerId.base58 v.deviceKey.deviceName) env v).2 := by
      rw [registerDevice, exec_bind_ok (Prog.exec_get env v),
        exec_bind_ok (Prog.exec_attempt _ env v)]
    simp only [Except.toBool, true_and, hregister]
    generalize succeeds (addDevice v.deviceKey.peerId.base58 v.deviceKey.deviceName) env v = added
      at hadded ⊢
    cases added with
    | true => exact ⟨hadded.1, ((fetches_joined env self P _).keeps_publishDeviceRegistry
        (joined_spares_registry deviceLaws _)).state hadded.2⟩
    | false => exact ((fetches_kept env self P _ _ _).keeps_publishDeviceRegistry
        (kept_spares_registry deviceLaws)).state hadded

theorem perform_leaves (laws : SignatureLaws) (deviceLaws : DeviceLaws) (hash : CollisionFree)
    {self : Identity} {P : List AppPointerRecord}
    (hP : ∀ r ∈ P, r.name = RECORD_PROFILE ∨ r.name = RECORD_DEVICES) {l : PublisherOp × Env}
    {w : Runtime} (hl : ∀ contacts, l.1 ≠ .saveContactList contacts)
    (hw : Kept self P everywhere everywhere everywhere w) :
    Leaves self P (publishes l.1 l.2 w) (exec (perform l.1) l.2 w).2 := by
  have hheld : Kept self P everywhere everywhere nowhere w :=
    hw.mono (fun _ h => h) (fun _ h => h) (fun _ => False.elim)
  obtain ⟨op, env⟩ := l
  cases op with
  | saveProfile profile =>
    rw [perform, NodeOp.exec_discard]
    exact leaves_of_triple (.inl rfl) (saveProfile_kept laws hash profile) hheld
  | saveContactList contacts => exact absurd rfl (hl contacts)
  | saveDeviceList list =>
    rw [perform, NodeOp.exec_discard]
    exact leaves_of_triple (.inr rfl) (saveDeviceList_kept laws hash list) hheld
  | sync =>
    rw [perform, NodeOp.exec_discard]
    have hsync : Triple env (Kept self P everywhere everywhere everywhere) syncWithAllDevices
        (fun _ => Kept self P everywhere nowhere nowhere)
        (Kept self P everywhere nowhere nowhere) := syncWithAllDevices_kept hash
    have := hsync.spec w hw
    generalize exec syncWithAllDevices env w = res at this
    rcases res with ⟨_ | _, t⟩
    . exact this
    . exact this
  | restart => exact restart_leaves laws deviceLaws hash hP hheld

theorem sound_step (laws : SignatureLaws) (deviceLaws : DeviceLaws) (hash : CollisionFree)
    {self : Identity} {l : PublisherOp × Env} {s : Publisher} (htimely : Timely l s)
    (h : Sound self s) : Sound self (step l s) := by
  have hleaves := perform_leaves laws deviceLaws hash h.names htimely.1 (h.timely htimely)
  unfold step
  generalize publishes l.1 l.2 s.node = published at hleaves
  cases published with
  | none => exact ⟨hleaves, h.names⟩
  | some name =>
    obtain ⟨hname, record, hcached, hkept⟩ := hleaves
    dsimp only
    rw [hkept.identity, hcached]
    refine ⟨hkept, ?_⟩
    intro r hr
    cases List.mem_cons.mp hr with
    | inl heq =>
      rw [heq, (authentic_of_cachedPointer hcached).name]
      exact hname
    | inr hold => exact h.names r hold

theorem sound_fresh (identity : Identity) (deviceKey : DeviceKey) :
    Sound identity ⟨fresh identity deviceKey, []⟩ where
  kept := ⟨rfl, rfl, by simp, by simp, by simp, by simp⟩
  names := by simp

/--
In every run whose requests are timely, the objects of the synchronized records that a device
publishes are served in every state.
-/
theorem run_served (laws : SignatureLaws) (deviceLaws : DeviceLaws) (hash : CollisionFree)
    (identity : Identity) (deviceKey : DeviceKey) (ls : List (PublisherOp × Env))
    (htimely : Run.Along step Timely ⟨fresh identity deviceKey, []⟩ ls) :
    Run.Always step Served ⟨fresh identity deviceKey, []⟩ ls := by
  have hsound := htimely.always (I := Sound identity) (sound_fresh identity deviceKey) fun l s =>
    sound_step laws deviceLaws hash
  exact hsound.mono fun s h => h.served

end Publisher

end Canopee

namespace Canopee.Transparent

open Canopee.Runtime

theorem deviceLaws : DeviceLaws where
  import_export _ := rfl
  not_envelope _ := rfl
  registry_ne device owner name := by
    intro h
    have hregistry : (deviceRegistryKey device).head? = some 100 := by
      rw [deviceRegistryKey, Codec.utf8_append]
      rfl
    have hkey : (AppPointerRecord.key owner name).head? = some 99 := rfl
    rw [h, hkey] at hregistry
    exact absurd hregistry (by decide)

end Canopee.Transparent

namespace Canopee.Publisher

open Canopee.Runtime
open Prog (exec)

section Witness

open Canopee.Transparent

theorem along_pair (laws : Primitives.SignatureLaws) (deviceLaws : DeviceLaws)
    (hash : Primitives.CollisionFree)
    {self : Identity} {l m : PublisherOp × Env} {node : Runtime} (h : Sound self ⟨node, []⟩)
    (hl : ∀ contacts, l.1 ≠ .saveContactList contacts)
    (hm : ∀ contacts, m.1 ≠ .saveContactList contacts) :
    Run.Along step Timely ⟨node, []⟩ [l, m] := by
  have htimely : Timely l ⟨node, []⟩ := ⟨hl, by simp⟩
  refine ⟨htimely, ⟨hm, ?_⟩, trivial⟩
  have hleaves := perform_leaves laws deviceLaws hash h.names htimely.1 (h.timely htimely)
  unfold step
  dsimp only at hleaves ⊢
  generalize publishes l.1 l.2 node = published at hleaves
  cases published with
  | none => simp
  | some name =>
    obtain ⟨_, record, hcached, hkept⟩ := hleaves
    dsimp only
    rw [hkept.identity, hcached]
    intro r hr
    rw [Option.toList_some, List.singleton_append, List.mem_singleton] at hr
    rw [hr, (authentic_of_cachedPointer hcached).name]
    exact ⟨record, hcached, fun hlt => absurd hlt (UInt64.lt_irrefl _)⟩

/--
A profile is saved, then the node restarts.
-/
def savedProfile : List (PublisherOp × Env) :=
  [(.saveProfile ⟨"Alice", alice.dhPublicKey, none, 0⟩, Env.quiet 0), (.restart, Env.quiet 1)]

theorem run_served_savedProfile :
    Run.Always step Served ⟨fresh alice laptop, []⟩ savedProfile :=
  run_served signatureLaws deviceLaws collisionFree alice laptop savedProfile
    (along_pair signatureLaws deviceLaws collisionFree (sound_fresh alice laptop) nofun nofun)

end Witness

section Counterexample

open Canopee.Compact

def savedContacts : Publisher :=
  step (.saveContactList ⟨[], 0⟩, Env.quiet 3) ⟨fresh alice laptop, []⟩

def ownContacts : AppPointerRecord :=
  .sign alice 3 RECORD_CONTACTS (ContactList.toObject ⟨[], 1⟩ alice 3).id

theorem savedContacts_evaluated :
    savedContacts.published = [ownContacts] ∧
      cachedPointer savedContacts.node savedContacts.node.identity.id RECORD_CONTACTS =
        some ownContacts ∧
      (exec (provide ownContacts.manifest) (Env.quiet 4) savedContacts.node).1 = .ok none := by
  decide +kernel

/--
The contact list is published and current, but the provider does not serve it.
-/
theorem saveContactList_not_served :
    savedContacts.published = [ownContacts] ∧
      cachedPointer savedContacts.node savedContacts.node.identity.id RECORD_CONTACTS =
        some ownContacts ∧
      (exec (provide ownContacts.manifest) (Env.quiet 4) savedContacts.node).1 = .ok none ∧
      ¬ Run.Always step Served ⟨fresh alice laptop, []⟩
        [(.saveContactList ⟨[], 0⟩, Env.quiet 3)] := by
  obtain ⟨hpublished, hcached, hprovided⟩ := savedContacts_evaluated
  refine ⟨hpublished, hcached, hprovided, ?_⟩
  intro halways
  have hserved : Served savedContacts := halways.last
  have hmem : ownContacts ∈ savedContacts.published := by
    rw [hpublished]
    exact List.mem_singleton_self _
  obtain ⟨bundle, hbundle, _⟩ := hserved RECORD_CONTACTS (by decide) ownContacts hmem hcached
    (Env.quiet 4)
  rw [hprovided] at hbundle
  exact absurd hbundle (by simp)

end Counterexample

end Canopee.Publisher
