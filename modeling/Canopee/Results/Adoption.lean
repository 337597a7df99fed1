import Canopee.Lib.Run
import Canopee.Results.Fetch

/-!
This module contains how a node adopts the identity of another device: what replacing the key file
writes, what importing the transferred records writes, and at which ticks either can fail.
-/

namespace Canopee

open Primitives
open Canopee.Runtime
open Prog (Keeps Triple exec exec_bind_ok exec_bind_error exec_bind_eq_ok)

variable [Primitives]

namespace Runtime

section Key

variable {env : Env} {imported : Identity} {w : Runtime}

def backupName (time : Int) : String :=
  "identity.key.bak-" ++ toString time

/--
What is written to the backup file before the key file is replaced.
-/
def copied (env : Env) (w : Runtime) : Option Bytes :=
  match w.keyFile with
  | none => none
  | some old =>
    match env.fault (w.tick + 1) with
    | none => some old
    | some .refused => none
    | some (.torn n) => some (old.take n)

def backupsAfter (env : Env) (w : Runtime) : Files :=
  match copied env w with
  | none => w.backups
  | some bytes => w.backups.insert (backupName (env.clock w.tick)) bytes

/--
The tick of the write of the key file; the random bytes are drawn at the one before.
-/
def keyTick (w : Runtime) : Nat :=
  match w.keyFile with
  | none => w.tick + 1
  | some _ => w.tick + 3

/--
The new contents of the key file, if it is replaced.
-/
def newKey (env : Env) (imported : Identity) (w : Runtime) : Option Bytes :=
  if (w.keyFile.isSome → env.fault (w.tick + 1) = none) ∧ env.fault (keyTick w) = none then
    (imported.exportAtRest (env.random (keyTick w - 1)) env.passphrase).toOption
  else
    none

/--
The write of the key file itself, once the old one is copied.
-/
def replaceKey (imported : Identity) : RunM Unit := do
  let draws ← random
  let env ← read
  let bytes ← ofExcept (imported.exportAtRest draws env.passphrase)
  writeAtomic fun w => { w with keyFile := some bytes }

theorem exec_replaceKey (env : Env) (imported : Identity) (w : Runtime) :
    match if env.fault (w.tick + 1) = none then
        (imported.exportAtRest (env.random w.tick) env.passphrase).toOption
      else none with
    | some bytes => exec (replaceKey imported) env w =
        (.ok (), { w with keyFile := some bytes, tick := w.tick + 2 })
    | none => ∃ e tick, exec (replaceKey imported) env w = (.error e, { w with tick := tick }) := by
  have hrandom : exec random env w = (.ok (env.random w.tick), { w with tick := w.tick + 1 }) := rfl
  unfold replaceKey
  rw [exec_bind_ok hrandom, exec_bind_ok (Prog.exec_read env _)]
  cases imported.exportAtRest (env.random w.tick) env.passphrase with
  | error e =>
    split
    . next heq => split at heq <;> cases heq
    . exact ⟨e, w.tick + 1, rfl⟩
  | ok bytes =>
    have hbytes : exec (ofExcept (.ok bytes)) env { w with tick := w.tick + 1 } =
        (.ok bytes, { w with tick := w.tick + 1 }) := rfl
    rw [exec_bind_ok hbytes]
    cases hfault : env.fault (w.tick + 1) with
    | none => exact exec_writeAtomic_of_none (w := { w with tick := w.tick + 1 }) hfault _
    | some fault =>
      exact ⟨"write failed", w.tick + 2,
        exec_writeAtomic_of_some (w := { w with tick := w.tick + 1 }) hfault _⟩

/--
Replacing the key file either succeeds or leaves it as it was; either way the old one may have been
copied.
-/
theorem exec_setIdentityKey (env : Env) (imported : Identity) (w : Runtime) :
    match newKey env imported w with
    | some bytes => exec (setIdentityKey imported) env w = (.ok (), { w with
        keyFile := some bytes
        backups := backupsAfter env w
        tick := keyTick w + 1 })
    | none => ∃ e tick, exec (setIdentityKey imported) env w = (.error e, { w with
        backups := backupsAfter env w
        tick := tick }) := by
  have hreplace := exec_replaceKey env imported w
  unfold setIdentityKey newKey backupsAfter copied keyTick
  rw [exec_bind_ok (Prog.exec_get env w)]
  cases hkey : w.keyFile with
  | none =>
    simp only [hkey] at hreplace
    simp only [Option.isSome_none, Bool.false_eq_true, false_implies, true_and, Nat.add_sub_cancel]
    exact hreplace
  | some old =>
    dsimp only
    rw [exec_bind_ok (exec_now env w)]
    simp only [Option.isSome_some, true_implies]
    unfold writeInPlace
    rw [Prog.bind_assoc, exec_bind_ok (exec_nextTick env _), Prog.bind_assoc,
      exec_bind_ok (Prog.exec_read env _)]
    dsimp only
    cases hfault : env.fault (w.tick + 1) with
    | none =>
      have hmodify (f : Runtime → Runtime) (v : Runtime) :
          exec (modify f : RunM PUnit) env v = (.ok (), f v) := rfl
      dsimp only
      rw [exec_bind_ok (hmodify _ _)]
      have hreplace := exec_replaceKey env imported { w with
        backups := w.backups.insert (backupName (env.clock w.tick)) old
        tick := w.tick + 2 }
      simp only [hkey] at hreplace
      simp only [hkey, true_and]
      exact hreplace
    | some fault =>
      simp only [reduceCtorEq, false_and, if_false]
      cases fault with
      | refused => exact ⟨"write failed", w.tick + 2, by simp only [← hkey]; rfl⟩
      | torn n => exact ⟨"write failed", w.tick + 2, by simp only [← hkey]; rfl⟩

end Key

section Records

variable {env : Env} {imported : Identity} {w : Runtime}

/--
What a request carries that passes every check of its payload.
-/
theorem openPairingRequest_eq_ok {session : OwnPairing} {device : PeerId}
    {incoming : InboundPairing} {imported : Identity} {records : List PairingRecord}
    (h : openPairingRequest session device incoming = .ok (imported, records)) :
    parsePeerId incoming.request.source = some incoming.peer ∧
      parsePeerId incoming.request.deviceId = some device ∧
      ∃ key clear identityKey,
        Pairing.deriveSessionKey session.code
          (Pairing.salt incoming.request.sessionId incoming.peer device) = some key ∧
        Pairing.decryptPayload incoming.request.encrypted key = .ok clear ∧
        PairingData.codec.deserialize clear = some ⟨1, identityKey, records⟩ ∧
        Identity.importBytes identityKey = some imported ∧
        ∀ record ∈ records, record.valid imported.id = true := by
  unfold openPairingRequest at h
  split at h
  . cases h
  next hsender =>
  split at h
  . cases h
  next haddressee =>
  split at h
  . cases h
  next key hkey =>
  split at h
  . cases h
  next clear hclear =>
  split at h
  . cases h
  next data hdata =>
  split at h
  . cases h
  next hversion =>
  split at h
  . cases h
  next owner howner =>
  split at h
  . next hvalid =>
    cases h
    rw [not_not] at hsender haddressee hversion
    refine ⟨hsender, haddressee, key, clear, data.identityKey, hkey, hclear, ?_, howner,
      List.all_eq_true.mp hvalid⟩
    rw [hdata, ← hversion]
  . cases h

theorem valid_of_openPairingRequest {session : OwnPairing} {device : PeerId}
    {incoming : InboundPairing} {imported : Identity} {records : List PairingRecord}
    (h : openPairingRequest session device incoming = .ok (imported, records)) :
    ∀ record ∈ records, record.valid imported.id = true := by
  obtain ⟨_, _, _, _, _, _, _, _, _, hvalid⟩ := openPairingRequest_eq_ok h
  exact hvalid

/--
What one transferred record leaves behind, once its object is written.
-/
def importedRecord (env : Env) (imported : Identity) (record : PairingRecord) (w : Runtime) :
    Runtime :=
  let tracked := track record.object.id (asU64 (env.clock (w.tick + 1))) (storeObject record.object w)
  let flushed := if env.fault (w.tick + 2) = none then flush tracked else tracked
  let cached := if env.fault (w.tick + 3) = none then
      storeRecord (recordFile (AppPointerRecord.key imported.id record.name))
        (AppPointerRecord.codec.serialize record.pointer) flushed
    else flushed
  { cached with tick := w.tick + 4 }

/--
What the records leave behind that come before the first whose object cannot be written.
-/
def importedUntil (env : Env) (imported : Identity) : List PairingRecord → Runtime → Runtime
  | [], w => w
  | record :: records, w =>
    if env.fault w.tick = none then
      importedUntil env imported records (importedRecord env imported record w)
    else
      w

theorem importedRecord_frame (env : Env) (imported : Identity) (record : PairingRecord)
    (w : Runtime) :
    let w' := importedRecord env imported record w
    w'.keyFile = w.keyFile ∧ w'.backups = w.backups ∧ w'.pairing = w.pairing := by
  unfold importedRecord
  dsimp only
  split
  . split
    . exact ⟨rfl, rfl, rfl⟩
    . exact ⟨rfl, rfl, rfl⟩
  . split
    . exact ⟨rfl, rfl, rfl⟩
    . exact ⟨rfl, rfl, rfl⟩

theorem importedUntil_frame (env : Env) (imported : Identity) (records : List PairingRecord)
    (w : Runtime) :
    let w' := importedUntil env imported records w
    w'.keyFile = w.keyFile ∧ w'.backups = w.backups ∧ w'.pairing = w.pairing := by
  induction records generalizing w with
  | nil => exact ⟨rfl, rfl, rfl⟩
  | cons record records ih =>
    rw [importedUntil]
    split
    . have hrest := ih (importedRecord env imported record w)
      have hrecord := importedRecord_frame env imported record w
      exact ⟨hrest.1.trans hrecord.1, hrest.2.1.trans hrecord.2.1, hrest.2.2.trans hrecord.2.2⟩
    . exact ⟨rfl, rfl, rfl⟩

/--
None of the writes of `n` objects fails, the first of them at tick `t`.
-/
def WritesAll (env : Env) (t n : Nat) : Prop :=
  ∀ i < n, env.fault (t + 4 * i) = none

omit [Primitives] in
theorem writesAll_succ {t n : Nat} :
    WritesAll env t (n + 1) ↔ env.fault t = none ∧ WritesAll env (t + 4) n := by
  constructor
  . intro h
    constructor
    . simpa using h 0 (by omega)
    . intro i hi
      have := h (i + 1) (by omega)
      rwa [show t + 4 * (i + 1) = t + 4 + 4 * i by omega] at this
  . intro ⟨hfirst, hrest⟩ i hi
    cases i with
    | zero => simpa using hfirst
    | succ i =>
      have := hrest i (by omega)
      rwa [show t + 4 + 4 * i = t + 4 * (i + 1) by omega] at this

theorem exec_markCached (id : ObjectId) (env : Env) (w : Runtime) :
    exec (markCached id) env w =
      (.ok (), { if env.fault (w.tick + 1) = none then
          flush (track id (asU64 (env.clock w.tick)) w)
        else
          track id (asU64 (env.clock w.tick)) w with tick := w.tick + 2 }) := by
  unfold markCached persist
  rw [exec_bind_ok (exec_now env w), exec_bind_ok (Prog.exec_modify _ env _),
    exec_bind_ok (Prog.exec_attempt _ env _)]
  generalize hv : ({ w with
    tick := w.tick + 1
    cache := w.cache.insert id.text (asU64 (env.clock w.tick)) } : Runtime) = v
  have htick : v.tick = w.tick + 1 := by rw [← hv]
  cases hfault : env.fault (w.tick + 1) with
  | none =>
    rw [exec_writeAtomic_of_none (htick ▸ hfault), ← hv]
    rfl
  | some fault =>
    rw [exec_writeAtomic_of_some (htick ▸ hfault), ← hv]
    rfl

theorem exec_importRecords_cons {record : PairingRecord} (hverify : record.object.verify = true)
    (records : List PairingRecord) (env : Env) (w : Runtime) :
    exec (importRecords imported (record :: records)) env w =
      if env.fault w.tick = none then
        exec (importRecords imported records) env (importedRecord env imported record w)
      else
        (.error ("record " ++ record.name ++ " could not be stored: " ++ "write failed"),
          { w with tick := w.tick + 1 }) := by
  have hput : exec (Prog.attempt (putVerified record.object)) env w =
      if env.fault w.tick = none then
        (.ok (.ok ()), { storeObject record.object w with tick := w.tick + 1 })
      else
        (.ok (.error "write failed"), { w with tick := w.tick + 1 }) := by
    rw [Prog.exec_attempt]
    unfold putVerified
    rw [if_neg (by simp [hverify])]
    cases hfault : env.fault w.tick with
    | none =>
      rw [exec_writeAtomic_of_none hfault]
      rfl
    | some fault =>
      rw [exec_writeAtomic_of_some hfault]
      rfl
  rw [importRecords]
  cases hfault : env.fault w.tick with
  | some fault =>
    simp only [hfault, reduceCtorEq, if_false] at hput ⊢
    rw [exec_bind_ok hput]
    rfl
  | none =>
    simp only [hfault, if_true] at hput ⊢
    rw [exec_bind_ok hput]
    dsimp only
    rw [exec_bind_ok (exec_markCached _ env _), exec_bind_ok (Prog.exec_attempt _ env _),
      exec_cacheRecord]
    unfold importedRecord
    cases env.fault (w.tick + 2) with
    | none =>
      cases env.fault (w.tick + 3) with
      | none => rfl
      | some fault => rfl
    | some fault =>
      cases env.fault (w.tick + 3) with
      | none => rfl
      | some fault => rfl

/--
The transferred records are all imported exactly when none of their objects' writes fails; what was
imported before a failure stays.
-/
theorem exec_importRecords (env : Env) (imported : Identity) {records : List PairingRecord}
    (hvalid : ∀ record ∈ records, record.valid imported.id = true) (w : Runtime) :
    (WritesAll env w.tick records.length ∧ exec (importRecords imported records) env w =
      (.ok (), importedUntil env imported records w)) ∨
    (¬ WritesAll env w.tick records.length ∧ ∃ e tick, exec (importRecords imported records) env w =
      (.error e, { importedUntil env imported records w with tick := tick })) := by
  induction records generalizing w with
  | nil => exact .inl ⟨fun i hi => absurd hi (by simp), rfl⟩
  | cons record records ih =>
    simp only [List.mem_cons, forall_eq_or_imp] at hvalid
    have hverify : record.object.verify = true := by
      have := hvalid.1
      simp only [PairingRecord.valid, Bool.and_eq_true] at this
      exact this.1.2
    rw [exec_importRecords_cons hverify, importedUntil, List.length_cons, writesAll_succ]
    cases hfault : env.fault w.tick with
    | none =>
      simp only [if_true, true_and]
      exact ih hvalid.2 (importedRecord env imported record w)
    | some fault =>
      right
      simp only [reduceCtorEq, false_and, if_false, not_false_eq_true, true_and]
      exact ⟨_, _, rfl⟩

end Records

section Accept

/--
The key file, the object store, the cache index and the record cache hold the same.
-/
structure SameHoldings (w w' : Runtime) : Prop where
  keyFile : w'.keyFile = w.keyFile
  files : ∀ name, w'.storage.files.lookup name = w.storage.files.lookup name
  names : ∀ name, w'.storage.names.lookup name = w.storage.names.lookup name
  cache : ∀ name, w'.cache.lookup name = w.cache.lookup name
  sidecar : ∀ name, w'.sidecar.lookup name = w.sidecar.lookup name
  records : ∀ name, w'.records.lookup name = w.records.lookup name

variable {env : Env} {incoming : InboundPairing} {w : Runtime}

/--
The identity and the records of a request that passes every check.
-/
def opened (incoming : InboundPairing) (w : Runtime) : Option (Identity × List PairingRecord) :=
  match w.pairing with
  | none => none
  | some session =>
    if session.sessionId = incoming.request.sessionId then
      (openPairingRequest session w.deviceKey.peerId incoming).toOption
    else
      none

/--
What follows the checks of a request.
-/
def adopt (deviceKey : DeviceKey) (imported : Identity) (records : List PairingRecord) :
    RunM String := do
  setIdentityKey imported
  importRecords imported records
  pure ("accepted — restart " ++ deviceKey.deviceName ++ " (" ++ imported.id.text ++
    " ) to take over the identity")

theorem valid_of_opened {imported : Identity} {records : List PairingRecord}
    (h : opened incoming w = some (imported, records)) :
    ∀ record ∈ records, record.valid imported.id = true := by
  unfold opened at h
  split at h
  . cases h
  . next session _ =>
    split at h
    . cases hopen : openPairingRequest session w.deviceKey.peerId incoming with
      | error e =>
        rw [hopen] at h
        cases h
      | ok result =>
        rw [hopen] at h
        cases h
        exact valid_of_openPairingRequest hopen
    . cases h

/--
A request takes the session out of its slot and goes on only when every check succeeds.
-/
theorem exec_acceptPairingRun (env : Env) (incoming : InboundPairing) (w : Runtime) :
    match opened incoming w with
    | none => ∃ e, exec (acceptPairingRun incoming) env w = (.error e, { w with pairing := none })
    | some (imported, records) => exec (acceptPairingRun incoming) env w =
        exec (adopt w.deviceKey imported records) env { w with pairing := none } := by
  have htake : exec (takeSession incoming.request.sessionId) env w =
      (match w.pairing with
        | none => .error "no pairing session for this request"
        | some session =>
          if session.sessionId = incoming.request.sessionId then .ok session
          else .error "no pairing session for this request",
        { w with pairing := none }) := by
    unfold takeSession
    rw [exec_bind_ok (Prog.exec_get env w), exec_bind_ok (Prog.exec_modify _ env w)]
    cases w.pairing with
    | none => rfl
    | some session =>
      dsimp only
      split
      . rfl
      . rfl
  unfold acceptPairingRun opened
  cases hsession : w.pairing with
  | none =>
    rw [hsession] at htake
    exact ⟨_, exec_bind_error htake⟩
  | some session =>
    rw [hsession] at htake
    dsimp only at htake ⊢
    split at htake
    . next hid =>
      rw [if_pos hid, exec_bind_ok htake, exec_bind_ok (Prog.exec_get env _), Prog.exec_bind,
        exec_ofExcept]
      dsimp only
      cases openPairingRequest session w.deviceKey.peerId incoming with
      | error e => exact ⟨e, rfl⟩
      | ok result => rfl
    . next hid =>
      rw [if_neg hid]
      exact ⟨_, exec_bind_error htake⟩

/--
The node with its new identity key, before any record is imported.
-/
def keyed (env : Env) (bytes : Bytes) (w : Runtime) : Runtime :=
  { w with
    pairing := none
    keyFile := some bytes
    backups := backupsAfter env w
    tick := keyTick w + 1 }

theorem exec_adopt (env : Env) (deviceKey : DeviceKey) {imported : Identity}
    {records : List PairingRecord} (hvalid : ∀ record ∈ records, record.valid imported.id = true)
    (w : Runtime) :
    match newKey env imported w with
    | none => ∃ e tick, exec (adopt deviceKey imported records) env { w with pairing := none } =
        (.error e, { w with pairing := none, backups := backupsAfter env w, tick := tick })
    | some bytes =>
      (WritesAll env (keyTick w + 1) records.length ∧ ∃ message,
        exec (adopt deviceKey imported records) env { w with pairing := none } =
          (.ok message, importedUntil env imported records (keyed env bytes w))) ∨
      (¬ WritesAll env (keyTick w + 1) records.length ∧ ∃ e tick,
        exec (adopt deviceKey imported records) env { w with pairing := none } =
          (.error e, { importedUntil env imported records (keyed env bytes w) with
            tick := tick })) := by
  have hset := exec_setIdentityKey env imported { w with pairing := none }
  unfold adopt
  change (match newKey env imported w with
    | some bytes => _ = (Except.ok (), keyed env bytes w)
    | none => ∃ e tick, _ = (Except.error e,
        { w with pairing := none, backups := backupsAfter env w, tick := tick })) at hset
  cases hkey : newKey env imported w with
  | none =>
    rw [hkey] at hset
    obtain ⟨e, tick, hset⟩ := hset
    exact ⟨e, tick, exec_bind_error hset⟩
  | some bytes =>
    rw [hkey] at hset
    dsimp only at hset ⊢
    rw [exec_bind_ok hset]
    rcases exec_importRecords env imported hvalid (keyed env bytes w) with
      ⟨hwrites, himport⟩ | ⟨hwrites, e, tick, himport⟩
    . rw [exec_bind_ok himport]
      exact .inl ⟨hwrites, _, rfl⟩
    . rw [exec_bind_error himport]
      exact .inr ⟨hwrites, e, tick, rfl⟩

theorem exec_acceptPairing (env : Env) (incoming : InboundPairing) (w : Runtime) :
    exec (acceptPairing incoming) env w =
      (.ok (match (exec (acceptPairingRun incoming) env w).1 with
        | .ok message => .accepted message
        | .error message => .error message),
        (exec (acceptPairingRun incoming) env w).2) := by
  unfold acceptPairing
  rw [exec_bind_ok (Prog.exec_attempt _ env w)]
  cases (exec (acceptPairingRun incoming) env w).1 with
  | ok message => rfl
  | error message => rfl

/--
A request is refused before anything but a backup is written, or it replaces the identity key. Then
it is accepted if and only if it writes the objects of all records.
-/
theorem acceptPairing_cases (env : Env) (incoming : InboundPairing) (w : Runtime) :
    ((∀ imported records bytes, opened incoming w = some (imported, records) →
        newKey env imported w ≠ some bytes) ∧
      ∃ message backups tick, exec (acceptPairing incoming) env w =
        (.ok (.error message), { w with pairing := none, backups := backups, tick := tick })) ∨
    ∃ imported records bytes, opened incoming w = some (imported, records) ∧
      newKey env imported w = some bytes ∧
      ((WritesAll env (keyTick w + 1) records.length ∧ ∃ message,
          exec (acceptPairing incoming) env w =
            (.ok (.accepted message), importedUntil env imported records (keyed env bytes w))) ∨
        (¬ WritesAll env (keyTick w + 1) records.length ∧ ∃ message tick,
          exec (acceptPairing incoming) env w =
            (.ok (.error message), { importedUntil env imported records (keyed env bytes w) with
              tick := tick }))) := by
  rw [exec_acceptPairing]
  have hrun := exec_acceptPairingRun env incoming w
  cases hopened : opened incoming w with
  | none =>
    left
    rw [hopened] at hrun
    obtain ⟨e, hrun⟩ := hrun
    rw [hrun]
    exact ⟨by simp, e, w.backups, w.tick, rfl⟩
  | some result =>
    obtain ⟨imported, records⟩ := result
    rw [hopened] at hrun
    dsimp only at hrun
    rw [hrun]
    have hadopt := exec_adopt env w.deviceKey (valid_of_opened hopened) w
    cases hkey : newKey env imported w with
    | none =>
      left
      rw [hkey] at hadopt
      obtain ⟨e, tick, hadopt⟩ := hadopt
      rw [hadopt]
      refine ⟨?_, e, backupsAfter env w, tick, rfl⟩
      intro imported' records' bytes hopened'
      cases hopened'
      simp [hkey]
    | some bytes =>
      right
      rw [hkey] at hadopt
      refine ⟨imported, records, bytes, rfl, hkey, ?_⟩
      rcases hadopt with ⟨hwrites, message, hadopt⟩ | ⟨hwrites, e, tick, hadopt⟩
      . rw [hadopt]
        exact .inl ⟨hwrites, message, rfl⟩
      . rw [hadopt]
        exact .inr ⟨hwrites, e, tick, rfl⟩

/--
A refused request leaves everything as it was exactly when it fails before it replaces the key, or
when what it has written until then was there already.
-/
theorem acceptPairing_unchanged_iff (env : Env) (incoming : InboundPairing) (w : Runtime) :
    (∀ message, (exec (acceptPairing incoming) env w).1 = .ok (.error message) →
      SameHoldings w (exec (acceptPairing incoming) env w).2) ↔
    ∀ imported records bytes, opened incoming w = some (imported, records) →
      newKey env imported w = some bytes →
      WritesAll env (keyTick w + 1) records.length ∨
        SameHoldings w (importedUntil env imported records (keyed env bytes w)) := by
  rcases acceptPairing_cases env incoming w with ⟨hnone, message, backups, tick, hexec⟩ |
    ⟨imported, records, bytes, hopened, hkey, hrun⟩
  . rw [hexec]
    constructor
    . intro _ imported records bytes hopened hkey
      exact absurd hkey (hnone imported records bytes hopened)
    . intro _ _ _
      exact ⟨rfl, fun _ => rfl, fun _ => rfl, fun _ => rfl, fun _ => rfl, fun _ => rfl⟩
  . have hcondition : (∀ imported' records' bytes', opened incoming w = some (imported', records') →
        newKey env imported' w = some bytes' →
        WritesAll env (keyTick w + 1) records'.length ∨
          SameHoldings w (importedUntil env imported' records' (keyed env bytes' w))) ↔
        WritesAll env (keyTick w + 1) records.length ∨
          SameHoldings w (importedUntil env imported records (keyed env bytes w)) := by
      constructor
      . intro h
        exact h imported records bytes hopened hkey
      . intro h imported' records' bytes' hopened' hkey'
        rw [hopened] at hopened'
        cases hopened'
        rw [hkey] at hkey'
        cases hkey'
        exact h
    rw [hcondition]
    rcases hrun with ⟨hwrites, message, hexec⟩ | ⟨hwrites, message, tick, hexec⟩
    . rw [hexec]
      simp [hwrites]
    . rw [hexec]
      simp only [Except.ok.injEq, CanopeePairingResponse.error.injEq, forall_eq', hwrites, false_or]
      constructor
      . intro h
        exact ⟨h.keyFile, h.files, h.names, h.cache, h.sidecar, h.records⟩
      . intro h
        exact ⟨h.keyFile, h.files, h.names, h.cache, h.sidecar, h.records⟩

end Accept

end Runtime

end Canopee

namespace Canopee.NodeOp

open Canopee.Runtime
open Prog (exec)

section Request

open Canopee.Compact

/--
Alice's contact list, as her other device transfers it.
-/
def contactsObject : Object :=
  ContactList.toObject ⟨[], 1⟩ alice 0

def contactsRecord : PairingRecord where
  name := RECORD_CONTACTS
  object := contactsObject
  pointer := .sign alice 0 RECORD_CONTACTS contactsObject.id

/--
The session that Bob's laptop opens.
-/
def session : OwnPairing where
  sessionId := Pairing.generateSessionId ((Env.quiet 0).random 0)
  code := Pairing.generateCode ((Env.quiet 0).random 1)

/--
What Alice's device sends: her key and her contact list.
-/
def pairingPayload : Bytes :=
  PairingData.codec.serialize ⟨1, alice.exportBytes, [contactsRecord]⟩

def pairingRequest : InboundPairing where
  peer := ⟨"bb"⟩
  request := {
    source := "bb"
    deviceId := laptop.peerId.base58
    sessionId := session.sessionId
    encrypted :=
      match Pairing.deriveSessionKey session.code
          (Pairing.salt session.sessionId ⟨"bb"⟩ laptop.peerId) with
      | none => []
      | some key =>
        (Pairing.encryptPayload ((Env.quiet 0).random 2) pairingPayload key).toOption.getD []
  }

/--
Bob's laptop, once it waits for Alice's device.
-/
def waiting : Runtime :=
  (exec Runtime.initiatePairing (Env.quiet 0) (fresh bob laptop)).2

/--
The disk is full when the object of the record is written.
-/
def fullDisk : Env :=
  { Env.quiet 0 with fault := fun t => if t = 6 then some .refused else none }

theorem failed_evaluated :
    (exec (Runtime.acceptPairing pairingRequest) fullDisk waiting).1 =
        .ok (.error "record contacts could not be stored: write failed") ∧
      waiting.keyFile = some bob.exportBytes ∧
      (exec (Runtime.acceptPairing pairingRequest) fullDisk waiting).2.keyFile =
        some alice.exportBytes ∧
      bob.exportBytes ≠ alice.exportBytes := by
  decide +kernel

/--
The request is refused, but the laptop has lost Bob's key to Alice's.
-/
theorem acceptPairing_not_unchanged :
    (exec (Runtime.acceptPairing pairingRequest) fullDisk waiting).1 =
        .ok (.error "record contacts could not be stored: write failed") ∧
      ¬ ∀ message, (exec (Runtime.acceptPairing pairingRequest) fullDisk waiting).1 =
          .ok (.error message) →
        SameHoldings waiting (exec (Runtime.acceptPairing pairingRequest) fullDisk waiting).2 := by
  obtain ⟨hrefused, hbefore, hafter, hne⟩ := failed_evaluated
  refine ⟨hrefused, ?_⟩
  intro h
  have hkey := (h _ hrefused).keyFile
  rw [hafter, hbefore] at hkey
  exact hne (Option.some.inj hkey).symm

end Request

end Canopee.NodeOp
