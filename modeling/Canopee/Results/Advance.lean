import Canopee.Lib.Separated
import Canopee.Results.Adoption
import Canopee.Results.Anchored
import Canopee.Results.Convergence

/-!
This module contains the runs in which the cached pointers only get newer, and the convergence of
devices that hold the same pointers.
-/

namespace Canopee

open Primitives
open Canopee.Runtime
open Prog (Keeps Triple exec exec_bind_ok exec_bind_error)

variable [Primitives]

/--
The base58 alphabet has no colon.
-/
def Colonless : Prop :=
  ∀ key : PublicKey, ':' ∉ (peerIdOf key).base58.toList

theorem AppPointerRecord.key_inj_of_colonless (hash : CollisionFree) (colonless : Colonless)
    {k l : PublicKey} {n m : String} (h : key (identityIdOf k) n = key (identityIdOf l) m) :
    identityIdOf k = identityIdOf l ∧ n = m := by
  have htext : (peerIdOf k).base58 ++ (":" ++ n) = (peerIdOf l).base58 ++ (":" ++ m) := by
    have hcat := hash h
    simp only [← Codec.utf8_append, Codec.utf8_inj, identityIdOf, String.append_assoc,
      String.append_right_inj] at hcat
    exact hcat
  have hlist := congrArg String.toList htext
  simp only [String.toList_append] at hlist
  obtain ⟨hid, hname⟩ := (Separated.append_cons_inj (colonless k) (colonless l)).mp hlist
  exact ⟨by rw [identityIdOf, identityIdOf, String.toList_inj.mp hid], String.toList_inj.mp hname⟩

theorem ObjectId.not_hidden (payload : ObjectPayload) :
    isHidden (ObjectId.fromPayload payload).text = false := by
  unfold isHidden ObjectId.fromPayload digestHex Codec.hex
  cases sha256 (ObjectPayload.codec.serialize payload) with
  | nil => rfl
  | cons b bs => simp

namespace Runtime

section Order

variable {env : Env} {owner : IdentityId} {name : String} {w w' : Runtime}

/--
Whatever pointer was cached, one that is as new is cached.
-/
def NeverOlder (w w' : Runtime) : Prop :=
  ∀ owner name cached, cachedPointer w owner name = some cached →
    ∃ cached', cachedPointer w' owner name = some cached' ∧
      cached.publishedAt ≤ cached'.publishedAt

theorem neverOlder_of_records (h : w'.records = w.records) : NeverOlder w w' := by
  intro owner name cached hcached
  exact ⟨cached, (cachedPointer_congr h owner name).trans hcached, UInt64.le_refl _⟩

theorem exists_key_of_derives {publicKey : Bytes} (h : derives publicKey owner = true) :
    ∃ key, owner = identityIdOf key := by
  unfold derives at h
  split at h
  . next key _ => exact ⟨key, (beq_iff_eq.mp h).symm⟩
  . cases h

theorem exists_key_of_cachedPointer {cached : AppPointerRecord}
    (h : cachedPointer w owner name = some cached) : ∃ key, owner = identityIdOf key := by
  have hauthentic := authentic_of_cachedPointer h
  rw [← hauthentic.owner]
  exact exists_key_of_derives ((AppPointerRecord.verify_iff cached).mp hauthentic.verify).1

theorem cachedPointer_written (hash : CollisionFree) (colonless : Colonless) {key : PublicKey}
    {bytes : Bytes} {other : IdentityId} {otherName : String} {cached : AppPointerRecord}
    (hrecords : w'.records =
      w.records.insert (recordFile (AppPointerRecord.key (identityIdOf key) name)) bytes)
    (hcached : cachedPointer w other otherName = some cached)
    (hne : other ≠ identityIdOf key ∨ otherName ≠ name) :
    cachedPointer w' other otherName = some cached := by
  obtain ⟨key', rfl⟩ := exists_key_of_cachedPointer hcached
  have hkey : AppPointerRecord.key (identityIdOf key) name ≠
      AppPointerRecord.key (identityIdOf key') otherName := by
    intro heq
    obtain ⟨howner, hname⟩ := AppPointerRecord.key_inj_of_colonless hash colonless heq
    rcases hne with hne | hne
    . exact hne howner.symm
    . exact hne hname.symm
  rw [← hcached, ← cachedPointer_storeRecord_of_ne hkey bytes w]
  exact cachedPointer_congr hrecords _ _

theorem neverOlder_written_iff (hash : CollisionFree) (colonless : Colonless) {key : PublicKey}
    {record : AppPointerRecord} (hsigned : record.name = name ∧ record.verify = true)
    (hrecords : w'.records = w.records.insert
      (recordFile (AppPointerRecord.key (identityIdOf key) name))
      (AppPointerRecord.codec.serialize record)) :
    NeverOlder w w' ↔ ∀ cached, cachedPointer w (identityIdOf key) name = some cached →
      record.owner = identityIdOf key ∧ cached.publishedAt ≤ record.publishedAt := by
  have hwritten : cachedPointer w' (identityIdOf key) name =
      if record.owner = identityIdOf key then some record else none := by
    simp [cachedPointer, hrecords, acceptRecord, hsigned]
  constructor
  . intro h cached hcached
    obtain ⟨cached', hcached', hle⟩ := h _ _ cached hcached
    rw [hwritten] at hcached'
    split at hcached'
    . next howner =>
      cases hcached'
      exact ⟨howner, hle⟩
    . cases hcached'
  . intro h other otherName cached hcached
    by_cases hsame : other = identityIdOf key ∧ otherName = name
    . rw [hsame.1, hsame.2] at hcached ⊢
      obtain ⟨howner, hle⟩ := h cached hcached
      rw [hwritten, if_pos howner]
      exact ⟨record, rfl, hle⟩
    . rw [not_and_or] at hsame
      exact ⟨cached, cachedPointer_written hash colonless hrecords hcached hsame, UInt64.le_refl _⟩

end Order

section Effects

variable {env : Env} {records : Files}

theorem fetches_records (env : Env) (records : Files) :
    Fetches env (fun w => w.records = records) (fun _ => True) where
  toPushes := .ofDisk (fun _ _ hdisk hw => hdisk.records.trans hw) (fun _ _ _ _ hw => hw)
    (fun _ _ _ _ => trivial)
  answered _ _ _ _ := trivial
  own _ _ _ := trivial

theorem publishPointer_records (env : Env) (name : String) (target : ObjectId) (w : Runtime) :
    (exec (publishPointer name target) env w).2.records =
      match env.fault (w.tick + 1) with
      | none => w.records.insert (recordFile (AppPointerRecord.key w.identity.id name))
          (AppPointerRecord.codec.serialize
            (.sign w.identity (env.clock w.tick) name target))
      | some _ => w.records := by
  unfold publishPointer
  rw [exec_bind_ok (exec_now env w), exec_bind_ok (Prog.exec_get env _)]
  dsimp only
  rw [AppPointerRecord.sign_owner, Prog.exec_bind, exec_cacheRecord]
  cases env.fault (w.tick + 1) with
  | some fault => rfl
  | none =>
    dsimp only
    have hpush (bytes : Bytes) (v : Runtime) :
        (exec (Prog.attempt (pushPointerRecord bytes)) env v).2.records = v.records :=
      (keeps_attempt ((fetches_records env v.records).points.keeps_pushPointerRecord bytes)).state rfl
    rw [exec_bind_ok (Prog.exec_attempt _ env _)]
    exact hpush _ _

theorem resolvePointer_records (env : Env) (owner : IdentityId) (name : String) (w : Runtime) :
    (exec (resolvePointer owner name) env w).2.records = w.records ∨
      cachedPointer w owner name = none ∧ ∃ bytes,
        (exec (resolvePointer owner name) env w).2.records =
          w.records.insert (recordFile (AppPointerRecord.key owner name)) bytes := by
  cases hcached : cachedPointer w owner name with
  | some record =>
    rw [resolvePointer_of_cached hcached]
    exact .inl rfl
  | none =>
    obtain ⟨r, v, hr⟩ := exec_lookupPointer env w owner name
    have hv : v.records = w.records := by
      have hkept := (keeps_lookupPointer (fetches_records env w.records) owner name).state
        (s := w) rfl
      rw [hr] at hkept
      exact hkept
    rw [exec_resolvePointer_uncached env hcached, exec_bind_ok hr]
    cases r with
    | none => exact .inl hv
    | some record =>
      rw [rememberFound, exec_bind_ok (exec_rememberPointer _ record env v), Prog.exec_pure]
      cases landed (AppPointerRecord.codec.serialize record) (env.fault v.tick) with
      | none => exact .inl hv
      | some bytes => exact .inr ⟨rfl, bytes, by simp [storeRecord, hv]⟩

theorem importRecords_records (env : Env) (imported : Identity) {record : PairingRecord}
    (hverify : record.object.verify = true) (w : Runtime) :
    (exec (importRecords imported [record]) env w).2.records =
      if env.fault w.tick = none ∧ env.fault (w.tick + 3) = none then
        w.records.insert (recordFile (AppPointerRecord.key imported.id record.name))
          (AppPointerRecord.codec.serialize record.pointer)
      else w.records := by
  rw [exec_importRecords_cons hverify]
  cases env.fault w.tick with
  | some fault => simp
  | none =>
    simp only [if_true, true_and, importRecords, Prog.exec_pure, importedRecord]
    -- whether the cache index is flushed in between does not matter to the records
    cases env.fault (w.tick + 3) with
    | none =>
      cases env.fault (w.tick + 2) with
      | none => rfl
      | some fault => rfl
    | some fault =>
      cases env.fault (w.tick + 2) with
      | none => rfl
      | some fault => rfl

end Effects

section Sync

variable {env : Env} {name : String} {w : Runtime}

/--
A synchronization advances exactly when it adopts nothing of somebody else's over a cached pointer.
-/
theorem syncRecord_neverOlder_iff (hash : CollisionFree) (colonless : Colonless) :
    NeverOlder w (exec (syncRecord name) env w).2 ↔
      ∀ record b, Adopts env name w record b →
        (cachedPointer w w.identity.id name).isSome = true → record.owner = w.identity.id := by
  rcases syncRecord_cases name (fetches_records env w.records) rfl with
    ⟨hnone, hafter⟩ | ⟨record, b, hadopts, hb, _, hexec⟩
  . constructor
    . intro _ record b hadopts
      exact absurd hadopts (hnone record b)
    . intro _
      exact neverOlder_of_records hafter
  . obtain ⟨a, object, hnewer, hfetch, hfault⟩ := hadopts
    have hb : b.records = w.records := hb
    have hunique {record' : AppPointerRecord} {b' : Runtime}
        (hadopts : Adopts env name w record' b') : record' = record := by
      obtain ⟨_, _, hnewer', _⟩ := hadopts
      rw [hnewer] at hnewer'
      cases hnewer'
      rfl
    have hrecords : (exec (syncRecord name) env w).2.records = w.records.insert
        (recordFile (AppPointerRecord.key (identityIdOf (keypairPublic w.identity.signingKey)) name))
        (AppPointerRecord.codec.serialize record) := by
      rw [hexec]
      simp only [storeRecord, hb]
      rfl
    rw [neverOlder_written_iff hash colonless (signed_of_newerPointer hnewer) hrecords]
    constructor
    . intro h record' b' hadopts' hcached
      obtain ⟨cached, hcached⟩ := Option.isSome_iff_exists.mp hcached
      rw [hunique hadopts']
      exact (h cached hcached).1
    . intro h cached hcached
      refine ⟨h record b ⟨a, object, hnewer, hfetch, hfault⟩ (by
        rw [Option.isSome_iff_exists]
        exact ⟨cached, hcached⟩), ?_⟩
      obtain ⟨r, a', hr, hspec⟩ := newerPointer_spec env name w
      rw [hnewer] at hr
      cases hr
      have hnew := hspec record rfl
      have hcached : cachedPointer w w.identity.id name = some cached := hcached
      rw [hcached, isNewer, decide_eq_true_eq] at hnew
      exact UInt64.le_of_lt hnew

end Sync

end Runtime

/--
A record that a pairing transfers, which `accept_pairing` has checked.
-/
structure Transfer where
  imported : Identity
  record : PairingRecord
  valid : record.valid imported.id = true

/--
What reaches the record cache: a pointer is published, synchronized, resolved or transferred, while
peers push objects.
-/
inductive PointerOp where
  | publish (name : String) (target : ObjectId)
  | sync (name : String)
  | resolve (owner : IdentityId) (name : String)
  | transfer (transfer : Transfer)
  | objectRequest (request : ObjectRequest)

namespace PointerOp

def step (l : PointerOp × Env) (w : Runtime) : Runtime :=
  match l.1 with
  | publish name target => (exec (publishPointer name target) l.2 w).2
  | sync name => (exec (syncRecord name) l.2 w).2
  | resolve owner name => (exec (resolvePointer owner name) l.2 w).2
  | transfer t => (exec (importRecords t.imported [t.record]) l.2 w).2
  | objectRequest request => (exec (handleObjectRequest request) l.2 w).2

/--
Owners are named by the id of a key.
-/
def Named : PointerOp × Env → Runtime → Prop
  | (resolve owner _, _), _ => ∃ key, owner = identityIdOf key
  | _, _ => True

/--
The clock is not behind the pointer that a publication replaces, a synchronization adopts nothing of
somebody else's over a cached pointer, and a transferred pointer is as new as the cached one.
-/
def Forward : PointerOp × Env → Runtime → Prop
  | (publish name _, env), w => env.fault (w.tick + 1) = none →
      ∀ cached, cachedPointer w w.identity.id name = some cached →
        cached.publishedAt ≤ asU64 (env.clock w.tick)
  | (sync name, env), w => ∀ record b, Adopts env name w record b →
      (cachedPointer w w.identity.id name).isSome = true → record.owner = w.identity.id
  | (transfer t, env), w => env.fault w.tick = none ∧ env.fault (w.tick + 3) = none →
      ∀ cached, cachedPointer w t.imported.id t.record.name = some cached →
        cached.publishedAt ≤ t.record.pointer.publishedAt
  | _, _ => True

theorem neverOlder_iff (laws : SignatureLaws) (hash : CollisionFree) (colonless : Colonless)
    {l : PointerOp × Env} {w : Runtime} (hnamed : Named l w) :
    NeverOlder w (step l w) ↔ Forward l w := by
  obtain ⟨op, env⟩ := l
  cases op with
  | publish name target =>
    have hrecords := publishPointer_records env name target w
    by_cases hfault : env.fault (w.tick + 1) = none
    . rw [hfault] at hrecords
      have hwritten := neverOlder_written_iff hash colonless
        ⟨rfl, AppPointerRecord.verify_sign laws w.identity _ name target⟩ hrecords
      constructor
      . intro h _ cached hcached
        exact (hwritten.mp h cached hcached).2
      . intro h
        apply hwritten.mpr
        intro cached hcached
        exact ⟨rfl, h hfault cached hcached⟩
    . obtain ⟨fault, hsome⟩ := Option.ne_none_iff_exists'.mp hfault
      rw [hsome] at hrecords
      exact iff_of_true (neverOlder_of_records hrecords) fun hnone => absurd hnone hfault
  | sync name => exact syncRecord_neverOlder_iff hash colonless
  | resolve owner name =>
    obtain ⟨key, rfl⟩ := hnamed
    refine iff_of_true ?_ trivial
    rcases resolvePointer_records env (identityIdOf key) name w with hsame | ⟨hnone, bytes, hrecords⟩
    . exact neverOlder_of_records hsame
    . intro other otherName cached hcached
      have hne : other ≠ identityIdOf key ∨ otherName ≠ name := by
        rw [← not_and_or]
        intro hsame
        rw [hsame.1, hsame.2, hnone] at hcached
        cases hcached
      exact ⟨cached, cachedPointer_written hash colonless hrecords hcached hne, UInt64.le_refl _⟩
  | transfer t =>
    have hvalid := t.valid
    simp only [PairingRecord.valid, Bool.and_eq_true, beq_iff_eq] at hvalid
    obtain ⟨⟨⟨⟨⟨howner, _⟩, hname⟩, hpointer⟩, hobject⟩, _⟩ := hvalid
    have hrecords := importRecords_records env t.imported hobject w
    by_cases hlands : env.fault w.tick = none ∧ env.fault (w.tick + 3) = none
    . rw [if_pos hlands] at hrecords
      have hwritten := neverOlder_written_iff hash colonless ⟨hname, hpointer⟩ hrecords
      constructor
      . intro h _ cached hcached
        exact (hwritten.mp h cached hcached).2
      . intro h
        apply hwritten.mpr
        intro cached hcached
        exact ⟨howner, h hlands cached hcached⟩
    . rw [if_neg hlands] at hrecords
      exact iff_of_true (neverOlder_of_records hrecords) fun hland => absurd hland hlands
  | objectRequest request =>
    refine iff_of_true ?_ trivial
    apply neverOlder_of_records
    exact ((fetches_records env w.records).keeps_handleObjectRequest fun _ _ _ => trivial).state rfl

/--
Selection converges. Two devices with the same valid pointers select alike exactly when on both one
signed pointer is newer than all others; passes over such a set that do not all fail end with that
pointer on both; and over a run the cached pointers only get newer exactly when every step is forward.
-/
theorem selection_converges (laws : SignatureLaws) (hash : CollisionFree) (colonless : Colonless) :
    (∀ u v owner name, (∀ record, ValidPointer u owner name record ↔ ValidPointer v owner name record) →
      (SelectAlike u v owner name ↔ Decided u owner name ∧ Decided v owner name)) ∧
    (∀ S top name u v us vs, Newest S top → v.identity.id = u.identity.id →
      Run.Along (pass name) (Fair S name) u us → Run.Along (pass name) (Fair S name) v vs →
      ¬ Run.Along (pass name) (fun env w => Fails env name w) u us →
      ¬ Run.Along (pass name) (fun env w => Fails env name w) v vs →
      cachedPointer (Run.run (pass name) u us) u.identity.id name = some top ∧
        cachedPointer (Run.run (pass name) v vs) u.identity.id name = some top) ∧
    ∀ w ls, Run.Along step Named w ls →
      (Run.Along step (fun l t => NeverOlder t (step l t)) w ls ↔ Run.Along step Forward w ls) := by
  refine ⟨?_, ?_, ?_⟩
  . intro u v owner name hsame
    exact selectAlike_iff hsame
  . intro S top name u v us vs htop hself hu hv hgou hgov
    refine ⟨passes_settle hu htop hgou, ?_⟩
    rw [← hself]
    exact passes_settle hv htop hgov
  . intro w ls hnamed
    apply Run.along_iff (I := fun _ => True) hnamed trivial
    . intro l t hl _
      exact neverOlder_iff laws hash colonless hl
    . intro _ _ _ _ _
      trivial

end PointerOp

end Canopee

namespace Canopee.PointerOp

open Canopee.Runtime
open Prog (exec)

section Witness

open Canopee.Transparent

theorem colonless : Colonless := by
  intro key
  simp [Primitives.peerIdOf, Codec.hex]

def phone : DeviceKey where
  peerId := ⟨"cc"⟩
  deviceName := "phone"

def held : AppPointerRecord :=
  .sign alice 3 RECORD_PROFILE ⟨"ff"⟩

def heldObject : Object :=
  .new alice 3 (AppPointerRecord.codec.serialize held) .appPointer

/--
A device of Alice that has her profile pointer, as an object and in the record cache.
-/
def holder (device : DeviceKey) : Runtime :=
  storeRecord (recordFile (AppPointerRecord.key alice.id RECORD_PROFILE))
    (AppPointerRecord.codec.serialize held) (storeObject heldObject (fresh alice device))

theorem heldObject_verify : heldObject.verify = true :=
  Object.verify_new signatureLaws alice 3 _ _

theorem pointerFor_holder (device : DeviceKey) :
    (holder device).storage.pointerFor alice.id RECORD_PROFILE heldObject.id = some held := by
  have hget : (holder device).storage.getVerified heldObject.id = .ok heldObject :=
    Storage.getVerified_write_self _ heldObject_verify
  have hdecode : heldObject.decode AppPointerRecord.codec = some held :=
    Codec.deserialize_serialize _ _
  have hlabel : heldObject.payload.owner = alice.id ∧ heldObject.objectType = .appPointer :=
    ⟨rfl, rfl⟩
  rw [Storage.pointerFor_of_decode RECORD_PROFILE hget hlabel hdecode, if_neg]
  simp [held, AppPointerRecord.verify_sign signatureLaws]

theorem keys_holder (device : DeviceKey) :
    (holder device).storage.files.keys = [heldObject.id.text] := rfl

theorem storedPointer_holder (device : DeviceKey) (record : AppPointerRecord) :
    StoredPointer (holder device) alice.id RECORD_PROFILE record ↔ record = held := by
  have hhidden : isHidden heldObject.id.text = false := ObjectId.not_hidden _
  simp only [StoredPointer, keys_holder, List.mem_singleton, exists_eq_left, hhidden, true_and]
  rw [show (⟨heldObject.id.text⟩ : ObjectId) = heldObject.id from rfl, pointerFor_holder,
    Option.some.injEq, eq_comm]

theorem holder_holds (device : DeviceKey) : Holds (· = held) RECORD_PROFILE (holder device) where
  valid := by
    intro record hrecord
    rw [hrecord]
    rfl
  clear := by
    intro text htext _
    rw [keys_holder, List.mem_singleton] at htext
    rw [htext]
    refine ⟨heldObject, Storage.getVerified_write_self _ heldObject_verify, ?_⟩
    intro _ _
    rw [Object.decode, heldObject, Object.new_data, Codec.deserialize_serialize]
    rfl
  stored := storedPointer_holder device
  cached := by
    intro record hrecord
    have hheld : cachedPointer (holder device) alice.id RECORD_PROFILE = some held :=
      cachedPointer_storeRecord signatureLaws 3 RECORD_PROFILE ⟨"ff"⟩ _
    rw [show (holder device).identity.id = alice.id from rfl, hheld, Option.some.injEq] at hrecord
    exact hrecord.symm

theorem holder_newest : Newest (· = held) held :=
  ⟨rfl, fun _ hother hne => absurd hother hne⟩

theorem holder_decided (device : DeviceKey) : Decided (holder device) alice.id RECORD_PROFILE := by
  refine .inl ⟨(holder_holds device).clear, held, ?_, rfl⟩
  simp only [Newest, storedPointer_holder, true_and]
  exact holder_newest.2

theorem holder_fair (device : DeviceKey) :
    Fair (· = held) RECORD_PROFILE (Env.quiet 4) (holder device) := by
  refine ⟨holder_holds device, ?_, rfl⟩
  intro t bytes record hrecord
  cases hrecord

theorem holder_succeeds (device : DeviceKey) :
    ¬ Fails (Env.quiet 4) RECORD_PROFILE (holder device) := by
  intro ⟨record, a, hnewer, _⟩
  obtain ⟨hholds, hoffers, hlists⟩ := holder_fair device
  obtain ⟨r, a', hr, hcases⟩ := newerPointer_of_holds hholds hoffers hlists holder_newest
  obtain ⟨r', a'', hr', hspec⟩ := newerPointer_spec (Env.quiet 4) RECORD_PROFILE (holder device)
  rw [hnewer] at hr hr'
  cases hr
  cases hr'
  have hheld : cachedPointer (holder device) (holder device).identity.id RECORD_PROFILE = some held :=
    cachedPointer_storeRecord signatureLaws 3 RECORD_PROFILE ⟨"ff"⟩ _
  rcases hcases with heq | ⟨heq, _⟩
  . have hnew := hspec record rfl
    rw [Option.some.inj heq, hheld, isNewer, decide_eq_true_eq] at hnew
    exact absurd hnew (UInt64.lt_irrefl _)
  . cases heq

/--
The profile pointer is published again at a later time.
-/
def republish : List (PointerOp × Env) :=
  [(publish RECORD_PROFILE ⟨"ee"⟩, Env.quiet 5)]

theorem republish_forward (device : DeviceKey) : Run.Along step Forward (holder device) republish := by
  refine ⟨?_, trivial⟩
  intro _ cached hcached
  have hheld : cachedPointer (holder device) (holder device).identity.id RECORD_PROFILE = some held :=
    cachedPointer_storeRecord signatureLaws 3 RECORD_PROFILE ⟨"ff"⟩ _
  rw [hheld, Option.some.injEq] at hcached
  have hfive : held.publishedAt ≤ asU64 5 := by decide
  rw [← hcached]
  exact hfive

theorem selection_converges_holders :
    SelectAlike (holder laptop) (holder phone) alice.id RECORD_PROFILE ∧
      (cachedPointer (Run.run (pass RECORD_PROFILE) (holder laptop) [Env.quiet 4]) alice.id
          RECORD_PROFILE = some held ∧
        cachedPointer (Run.run (pass RECORD_PROFILE) (holder phone) [Env.quiet 4])
          alice.id RECORD_PROFILE = some held) ∧
      Run.Along step (fun l t => NeverOlder t (step l t)) (holder laptop) republish := by
  obtain ⟨hselect, hpasses, hnever⟩ :=
    selection_converges signatureLaws collisionFree colonless
  refine ⟨?_, ?_, ?_⟩
  . apply (hselect (holder laptop) (holder phone) alice.id RECORD_PROFILE ?_).mpr
    . exact ⟨holder_decided laptop, holder_decided phone⟩
    . intro record
      simp only [ValidPointer, storedPointer_holder]
  . apply hpasses (· = held) held RECORD_PROFILE (holder laptop) (holder phone) [Env.quiet 4]
      [Env.quiet 4] holder_newest rfl
    . exact ⟨holder_fair laptop, trivial⟩
    . exact ⟨holder_fair phone, trivial⟩
    . exact fun hall => holder_succeeds laptop hall.1
    . exact fun hall => holder_succeeds phone hall.1
  . exact (hnever (holder laptop) republish ⟨trivial, trivial⟩).mpr (republish_forward laptop)

end Witness

section Counterexample

open Canopee.Compact

def first : AppPointerRecord :=
  .sign alice 3 RECORD_PROFILE ⟨"aa"⟩

def second : AppPointerRecord :=
  .sign alice 3 RECORD_PROFILE ⟨"bb"⟩

/--
A peer pushes the pointer object for `record`.
-/
def push (record : AppPointerRecord) : PointerOp × Env :=
  (objectRequest (.store ⟨1, .new alice 3 (AppPointerRecord.codec.serialize record) .appPointer⟩),
    Env.quiet 4)

/--
Two pointers that are published in the same second reach one device in one order and another device
in the other.
-/
def forth : Runtime :=
  Run.run step (fresh alice laptop) [push first, push second]

def back : Runtime :=
  Run.run step (fresh alice laptop) [push second, push first]

theorem tied_evaluated :
    (listed (Env.quiet 5) forth).map (·.filterMap (forth.storage.pointerFor alice.id RECORD_PROFILE)) =
      some [second, first] ∧
    (listed (Env.quiet 5) back).map (·.filterMap (back.storage.pointerFor alice.id RECORD_PROFILE)) =
      some [first, second] ∧
    (exec (latestPointerRecord alice.id RECORD_PROFILE) (Env.quiet 5) forth).1 = .ok (some second) ∧
    (exec (latestPointerRecord alice.id RECORD_PROFILE) (Env.quiet 5) back).1 = .ok (some first) ∧
    first ≠ second := by
  decide +kernel

/--
The profile pointer is published, then again after the clock has been set back.
-/
def clockSetBack : List (PointerOp × Env) :=
  [(publish RECORD_PROFILE ⟨"aa"⟩, Env.quiet 5), (publish RECORD_PROFILE ⟨"bb"⟩, Env.quiet 3)]

theorem clockSetBack_evaluated :
    (cachedPointer (Run.run step (fresh alice laptop) (clockSetBack.take 1)) alice.id
      RECORD_PROFILE).map (·.publishedAt) = some 5 ∧
    (cachedPointer (Run.run step (fresh alice laptop) clockSetBack) alice.id
      RECORD_PROFILE).map (·.publishedAt) = some 3 := by
  decide +kernel

/--
The two devices hold the same valid pointers and select different ones, and a publication replaces a
newer pointer.
-/
theorem selection_diverges :
    (∀ record, ValidPointer forth alice.id RECORD_PROFILE record ↔
      ValidPointer back alice.id RECORD_PROFILE record) ∧
    (exec (latestPointerRecord alice.id RECORD_PROFILE) (Env.quiet 5) forth).1 = .ok (some second) ∧
    (exec (latestPointerRecord alice.id RECORD_PROFILE) (Env.quiet 5) back).1 = .ok (some first) ∧
    first ≠ second ∧ ¬ SelectAlike forth back alice.id RECORD_PROFILE ∧
    ¬ Run.Along step (fun l t => NeverOlder t (step l t)) (fresh alice laptop) clockSetBack := by
  obtain ⟨hforth, hback, hsecond, hfirst, hne⟩ := tied_evaluated
  refine ⟨?_, hsecond, hfirst, hne, ?_, ?_⟩
  . intro record
    have hstored {w : Runtime} {records : List AppPointerRecord}
        (h : (listed (Env.quiet 5) w).map
          (·.filterMap (w.storage.pointerFor alice.id RECORD_PROFILE)) = some records) :
        StoredPointer w alice.id RECORD_PROFILE record ↔ record ∈ records := by
      obtain ⟨ids, hids, hrecords⟩ := Option.map_eq_some_iff.mp h
      rw [storedPointer_iff hids, ← hrecords, List.mem_filterMap]
    simp only [ValidPointer, hstored hforth, hstored hback, List.mem_cons, List.not_mem_nil, or_false]
    rw [or_comm]
  . intro ⟨selected, hu, hv, _⟩
    have hselected := (hsecond.symm.trans (hu (Env.quiet 5) rfl)).trans
      ((hv (Env.quiet 5) rfl).symm.trans hfirst)
    simp only [Except.ok.injEq, Option.some.injEq] at hselected
    exact hne hselected.symm
  . intro ⟨_, hnever, _⟩
    obtain ⟨hbefore, hafter⟩ := clockSetBack_evaluated
    obtain ⟨cached, hcached, hfive⟩ := Option.map_eq_some_iff.mp hbefore
    obtain ⟨cached', hcached', hle⟩ := hnever alice.id RECORD_PROFILE cached hcached
    have hthree : (some cached').map (·.publishedAt) = some 3 := by
      rw [← hafter, ← hcached']
      rfl
    rw [Option.map_some, Option.some.injEq] at hthree
    rw [hfive, hthree] at hle
    exact absurd hle (by decide)

end Counterexample

end Canopee.PointerOp
