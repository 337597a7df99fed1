import Canopee.Results.Adoption
import Canopee.Runtime.Requests

/-!
This module contains what becomes of the identity keys of a node: which requests replace the key
file, where the old key goes, and when it is lost there.
-/

namespace Canopee

open Canopee.Runtime
open Prog (Keeps exec exec_bind_ok exec_bind_error)

variable [Primitives]

namespace NodeOp

/--
The identity that a request puts into the key file, as far as its checks go.
-/
def replacement (op : NodeOp) (w : Runtime) : Option Identity :=
  match op with
  | acceptPairing incoming => (opened incoming w).map Prod.fst
  | importIdentity bytes transferPassphrase overwrite =>
    match importFromEncrypted bytes transferPassphrase with
    | .error _ => none
    | .ok imported =>
      if imported.id = w.identity.id ∨ (w.keyFile.isSome ∧ overwrite = false) then
        none
      else
        some imported
  | _ => none

/--
The contents of the key file after `replacement`.
-/
def keyAfter (env : Env) (replacement : Option Identity) (w : Runtime) : Option Bytes :=
  match replacement with
  | none => w.keyFile
  | some imported => (newKey env imported w).or w.keyFile

/--
The backups after it.
-/
def keptAfter (env : Env) (replacement : Option Identity) (w : Runtime) : Files :=
  match replacement with
  | none => w.backups
  | some _ => backupsAfter env w

/--
`w'` has the key file and the backups that `replacement` makes of those of `w`.
-/
structure Replaced (env : Env) (replacement : Option Identity) (w w' : Runtime) : Prop where
  keyFile : w'.keyFile = keyAfter env replacement w
  backups : w'.backups = keptAfter env replacement w

section Step

variable {env : Env} {w : Runtime}

theorem replaced_acceptPairing (incoming : InboundPairing) :
    Replaced env ((opened incoming w).map Prod.fst) w
      (exec (Runtime.acceptPairing incoming) env w).2 := by
  have hrun := exec_acceptPairingRun env incoming w
  rw [exec_acceptPairing]
  cases hopened : opened incoming w with
  | none =>
    rw [hopened] at hrun
    obtain ⟨e, hrun⟩ := hrun
    rw [hrun]
    exact ⟨rfl, rfl⟩
  | some result =>
    obtain ⟨imported, records⟩ := result
    rw [hopened] at hrun
    dsimp only at hrun
    rw [hrun]
    have hadopt := exec_adopt env w.deviceKey (valid_of_opened hopened) w
    cases hkey : newKey env imported w with
    | none =>
      rw [hkey] at hadopt
      obtain ⟨e, tick, hadopt⟩ := hadopt
      rw [hadopt]
      exact ⟨by simp [keyAfter, hkey], rfl⟩
    | some bytes =>
      rw [hkey] at hadopt
      obtain ⟨hfile, hbackups, _⟩ := importedUntil_frame env imported records (keyed env bytes w)
      have hafter : keyAfter env (some imported) w = some bytes := by simp [keyAfter, hkey]
      rcases hadopt with ⟨_, message, hadopt⟩ | ⟨_, e, tick, hadopt⟩
      . rw [hadopt]
        exact ⟨hfile.trans hafter.symm, hbackups⟩
      . rw [hadopt]
        exact ⟨hfile.trans hafter.symm, hbackups⟩

theorem replaced_setIdentityKey (imported : Identity) :
    Replaced env (some imported) w (exec (setIdentityKey imported) env w).2 := by
  have hset := exec_setIdentityKey env imported w
  cases hkey : newKey env imported w with
  | none =>
    rw [hkey] at hset
    obtain ⟨e, tick, hset⟩ := hset
    rw [hset]
    exact ⟨by simp [keyAfter, hkey], rfl⟩
  | some bytes =>
    rw [hkey] at hset
    rw [hset]
    exact ⟨by simp [keyAfter, hkey], rfl⟩

theorem replaced_importIdentity (bytes : Bytes) (transferPassphrase : String) (overwrite : Bool) :
    Replaced env (replacement (.importIdentity bytes transferPassphrase overwrite) w) w
      (exec (Runtime.importIdentity bytes transferPassphrase overwrite) env w).2 := by
  unfold Runtime.importIdentity replacement
  rw [Prog.exec_bind, exec_ofExcept]
  dsimp only
  cases importFromEncrypted bytes transferPassphrase with
  | error e => exact ⟨rfl, rfl⟩
  | ok imported =>
    dsimp only
    rw [exec_bind_ok (Prog.exec_get env w)]
    by_cases hsame : imported.id = w.identity.id
    . rw [if_pos hsame, if_pos (.inl hsame)]
      exact ⟨rfl, rfl⟩
    . by_cases hguard : w.keyFile.isSome ∧ overwrite = false
      . rw [if_neg hsame, if_pos hguard, if_pos (.inr hguard)]
        exact ⟨rfl, rfl⟩
      . rw [if_neg hsame, if_neg hguard, if_neg (not_or.mpr ⟨hsame, hguard⟩)]
        have hset : Replaced env (some imported) w (exec (setIdentityKey imported) env w).2 :=
          replaced_setIdentityKey imported
        rw [Prog.exec_bind]
        generalize exec (setIdentityKey imported) env w = res at hset
        rcases res with ⟨_ | _, t⟩
        . exact hset
        . exact hset

theorem keys_of_not_replacing {op : NodeOp} (h : op.replacing = false) (env : Env) (w : Runtime) :
    (exec op.perform env w).2.keyFile = w.keyFile ∧
      (exec op.perform env w).2.backups = w.backups := by
  have hingress : Ingress env (fun w' => w'.keyFile = w.keyFile ∧ w'.backups = w.backups)
      (fun _ => True) := {
    frame := fun a b hsame ha => ⟨hsame.keyFile.trans ha.1, hsame.backups.trans ha.2⟩
    put := fun _ _ _ _ ha => ha
    pushed := fun _ _ _ _ => trivial
    track := fun _ _ _ _ _ _ ha => ha
    touch := fun _ _ _ _ ha => ha
    flush := fun _ ha => ha
    replicate := fun _ _ _ ha => ha
    answered := fun _ _ _ _ => trivial
    own := fun _ _ _ => trivial
    erase := fun _ _ ha => ha
    record := fun _ _ _ ha => ha
    untrack := fun _ _ ha => ha
    unshare := fun _ _ ha => ha
  }
  have hkeeps : Keeps env (fun w' => w'.keyFile = w.keyFile ∧ w'.backups = w.backups) op.perform := by
    apply keeps_perform hingress (fun _ _ _ ha => ha)
    . intro hreplacing
      rw [h] at hreplacing
      cases hreplacing
    . intro _ _ _
      trivial
    . intro _ _ _ _ _ _ _ _ _ ha
      exact ha
    . intro _ _ _ ha
      exact ha
  exact hkeeps.state ⟨rfl, rfl⟩

theorem replaced_step (l : NodeOp × Env) (w : Runtime) :
    Replaced l.2 (replacement l.1 w) w (step l w) := by
  obtain ⟨op, env⟩ := l
  cases hreplacing : op.replacing with
  | false =>
    have hnone : replacement op w = none := by
      unfold replacement
      split
      . cases hreplacing
      . cases hreplacing
      . rfl
    obtain ⟨hfile, hbackups⟩ := keys_of_not_replacing hreplacing env w
    rw [hnone]
    exact ⟨hfile, hbackups⟩
  | true =>
    cases op with
    | acceptPairing incoming =>
      rw [step, perform, exec_discard]
      exact replaced_acceptPairing incoming
    | importIdentity bytes transferPassphrase overwrite =>
      rw [step, perform, exec_discard]
      exact replaced_importIdentity bytes transferPassphrase overwrite
    | _ => cases hreplacing

end Step

section Kept

variable {isKey : Bytes → Prop} {env : Env} {w : Runtime}

/--
The key is in the key file or in a backup; `isKey` says which contents of a file are the key.
-/
def Kept (isKey : Bytes → Prop) (w : Runtime) : Prop :=
  (∃ bytes, w.keyFile = some bytes ∧ isKey bytes) ∨
    ∃ name bytes, w.backups.lookup name = some bytes ∧ isKey bytes

/--
When the request replaces the key file and the key is in a backup that carries the name of the new
one, because it was made in the same second, then nothing overwrites that backup but the key itself,
or another copy of the key remains.
-/
def Outlives (isKey : Bytes → Prop) (l : NodeOp × Env) (w : Runtime) : Prop :=
  ∀ imported bytes, replacement l.1 w = some imported →
    w.backups.lookup (backupName (l.2.clock w.tick)) = some bytes → isKey bytes →
      (∀ copy, copied l.2 w = some copy → isKey copy) ∨
      (∃ name other, name ≠ backupName (l.2.clock w.tick) ∧
        w.backups.lookup name = some other ∧ isKey other) ∨
      ∃ other, (newKey l.2 imported w).or w.keyFile = some other ∧ isKey other

theorem copied_of_newKey {imported : Identity} {bytes old : Bytes}
    (hnew : newKey env imported w = some bytes) (hold : w.keyFile = some old) :
    copied env w = some old := by
  unfold newKey at hnew
  split at hnew
  . next hwrites =>
    have hfault := hwrites.1 (by simp [hold])
    simp [copied, hold, hfault]
  . cases hnew

theorem kept_of_replaced {imported : Identity} {w' : Runtime}
    (h : Replaced env (some imported) w w') (hw : Kept isKey w)
    (hbackup : ∀ copy bytes, copied env w = some copy →
      w.backups.lookup (backupName (env.clock w.tick)) = some bytes → isKey bytes → Kept isKey w') :
    Kept isKey w' := by
  obtain ⟨hfile, hbackups⟩ := h
  dsimp only [keyAfter, keptAfter] at hfile hbackups
  rcases hw with ⟨old, hold, hkey⟩ | ⟨name, bytes, hlookup, hkey⟩
  . cases hnew : newKey env imported w with
    | none =>
      rw [hnew, Option.none_or] at hfile
      exact .inl ⟨old, hfile.trans hold, hkey⟩
    | some new =>
      have hcopied := copied_of_newKey hnew hold
      right
      refine ⟨backupName (env.clock w.tick), old, ?_, hkey⟩
      simp [hbackups, backupsAfter, hcopied]
  . cases hcopied : copied env w with
    | none =>
      right
      refine ⟨name, bytes, ?_, hkey⟩
      simp [hbackups, backupsAfter, hcopied, hlookup]
    | some copy =>
      by_cases hname : name = backupName (env.clock w.tick)
      . rw [hname] at hlookup
        exact hbackup copy bytes hcopied hlookup hkey
      . right
        refine ⟨name, bytes, ?_, hkey⟩
        simp [hbackups, backupsAfter, hcopied, AList.lookup_insert_ne hname, hlookup]

/--
A request keeps a key exactly when it does not overwrite its last copy.
-/
theorem kept_step_iff {l : NodeOp × Env} (hw : Kept isKey w) :
    Kept isKey (step l w) ↔ Outlives isKey l w := by
  have hstep := replaced_step l w
  cases hreplacement : replacement l.1 w with
  | none =>
    rw [hreplacement] at hstep
    constructor
    . intro _ imported bytes hsome
      rw [hreplacement] at hsome
      cases hsome
    . intro _
      unfold Kept
      rw [hstep.keyFile, hstep.backups]
      exact hw
  | some imported =>
    rw [hreplacement] at hstep
    have hfile := hstep.keyFile
    have hbackups := hstep.backups
    dsimp only [keyAfter, keptAfter] at hfile hbackups
    constructor
    . intro hkept imported' bytes hsome _ _
      rw [hreplacement] at hsome
      cases hsome
      cases hcopied : copied l.2 w with
      | none =>
        left
        intro copy hcopy
        cases hcopy
      | some copy =>
        rcases hkept with ⟨other, hother, hkey⟩ | ⟨name, other, hlookup, hkey⟩
        . rw [hfile] at hother
          exact .inr (.inr ⟨other, hother, hkey⟩)
        . by_cases hname : name = backupName (l.2.clock w.tick)
          . left
            intro copy' hcopy
            cases hcopy
            subst hname
            simp only [hbackups, backupsAfter, hcopied, AList.lookup_insert,
              Option.some.injEq] at hlookup
            rw [hlookup]
            exact hkey
          . right
            left
            refine ⟨name, other, hname, ?_, hkey⟩
            simpa [hbackups, backupsAfter, hcopied, AList.lookup_insert_ne hname] using hlookup
    . intro houtlives
      apply kept_of_replaced hstep hw
      intro copy bytes hcopied hlookup hkey
      rcases houtlives imported bytes hreplacement hlookup hkey with
        hcopy | ⟨name, other, hname, hother, hkey'⟩ | ⟨other, hother, hkey'⟩
      . right
        refine ⟨backupName (l.2.clock w.tick), copy, ?_, hcopy copy hcopied⟩
        simp [hbackups, backupsAfter, hcopied]
      . right
        refine ⟨name, other, ?_, hkey'⟩
        simp [hbackups, backupsAfter, hcopied, AList.lookup_insert_ne hname, hother]
      . exact .inl ⟨other, hfile.trans hother, hkey'⟩

/--
A key that is in the key file at some time is never lost afterwards exactly when no later request
overwrites its last copy.
-/
theorem run_kept_iff (isKey : Bytes → Prop) {bytes : Bytes} (hfile : w.keyFile = some bytes)
    (hkey : isKey bytes) (ls : List (NodeOp × Env)) :
    Run.Always step (Kept isKey) w ls ↔ Run.Along step (Outlives isKey) w ls := by
  have hw : Kept isKey w := .inl ⟨bytes, hfile, hkey⟩
  rw [Run.always_iff, and_iff_right hw]
  apply Run.along_iff (A := fun _ _ => True) (I := Kept isKey) _ hw
  . intro l t _ ht
    exact kept_step_iff ht
  . intro l t _ ht houtlives
    exact (kept_step_iff ht).mpr houtlives
  . exact Run.along_of_forall (fun _ _ _ => trivial) w

end Kept

end NodeOp

end Canopee

namespace Canopee.NodeOp

open Canopee.Runtime

section Counterexample

open Canopee.Compact

/--
Alice's key, exported for a transfer.
-/
def exported : Bytes :=
  (alice.exportAtRest ((Env.quiet 0).random 0) (some "pass")).toOption.getD []

def importOnce : NodeOp × Env :=
  (.importIdentity exported "pass" true, Env.quiet 0)

theorem run_kept_importOnce :
    Run.Always step (Kept (· = bob.exportBytes)) (fresh bob laptop) [importOnce] ↔
      Run.Along step (Outlives (· = bob.exportBytes)) (fresh bob laptop) [importOnce] :=
  run_kept_iff (· = bob.exportBytes) rfl rfl [importOnce]

theorem importTwice_evaluated :
    (Run.run step (fresh bob laptop) [importOnce, importOnce]).keyFile = some alice.exportBytes ∧
      (Run.run step (fresh bob laptop) [importOnce, importOnce]).backups.keys = [backupName 0] ∧
      (Run.run step (fresh bob laptop) [importOnce, importOnce]).backups.lookup (backupName 0) =
        some alice.exportBytes ∧
      alice.exportBytes ≠ bob.exportBytes := by
  decide +kernel

/--
Alice's key is imported twice in one second: the second backup overwrites the one with Bob's key.
-/
theorem importTwice_not_kept :
    (fresh bob laptop).keyFile = some bob.exportBytes ∧
      ¬ Run.Always step (Kept (· = bob.exportBytes)) (fresh bob laptop)
          [importOnce, importOnce] := by
  obtain ⟨hfile, hkeys, hbackup, hne⟩ := importTwice_evaluated
  refine ⟨rfl, ?_⟩
  intro halways
  have hkept := halways.last
  generalize Run.run step (fresh bob laptop) [importOnce, importOnce] = w at hfile hkeys hbackup hkept
  rcases hkept with ⟨bytes, hbytes, hbob⟩ | ⟨name, bytes, hlookup, hbob⟩
  . rw [hfile] at hbytes
    exact hne ((Option.some.inj hbytes).trans hbob)
  . have hname : name ∈ w.backups := AList.lookup_isSome.mp (by simp [hlookup])
    rw [AList.mem_keys, hkeys, List.mem_singleton] at hname
    rw [hname, hbackup] at hlookup
    exact hne ((Option.some.inj hlookup).trans hbob)

end Counterexample

end Canopee.NodeOp
