import Canopee.Results.Deletion

/-!
This module contains what still refers to an object after it is deleted: the home index, the store,
the serving set and the cache index.
-/

namespace Canopee

open Primitives
open Canopee.Runtime
open Prog (Keeps Triple exec exec_bind exec_bind_ok exec_bind_error)

variable [Primitives]

namespace Runtime

section Evicted

variable {env : Env} {id : ObjectId} {w t : Runtime}

/--
The node has no file `id`, does not serve it and does not track it.
-/
structure Expunged (id : ObjectId) (w : Runtime) : Prop where
  file : w.storage.files.lookup id.text = none
  shared : id.text ∉ w.shared
  cache : w.cache.lookup id.text = none

theorem Evicted.expunged (h : Evicted id w t) : Expunged id t where
  file := by
    rw [h.files]
    exact AList.lookup_erase _ _
  shared := by
    rw [h.shared]
    exact Finset.notMem_erase _ _
  cache := by
    rw [h.cache]
    exact AList.lookup_erase _ _

theorem Expunged.evicted {other : ObjectId} (h : Expunged id w) (hevicted : Evicted other w t) :
    Expunged id t := by
  by_cases hid : id = other
  . rw [hid]
    exact hevicted.expunged
  . have htext : id.text ≠ other.text := by
      rw [ne_eq, ObjectId.text_inj]
      exact hid
    constructor
    . rw [hevicted.files]
      exact (AList.lookup_erase_ne htext).trans h.file
    . rw [hevicted.shared]
      exact fun hmem => h.shared (Finset.mem_of_mem_erase hmem)
    . rw [hevicted.cache]
      exact (AList.lookup_erase_ne htext).trans h.cache

theorem evict_expunged :
    Triple env (fun _ => True) (evict id) (fun _ => Expunged id) (fun _ => True) :=
  triple_evicted (fun _ _ _ hevicted => hevicted.expunged) fun _ _ _ => trivial

theorem evictOldHome_expunged (record : Option AppPointerRecord) :
    Triple env (Expunged id) (evictOldHome id record) (fun _ => Expunged id) (fun _ => False) := by
  unfold evictOldHome
  split
  . exact Triple.pure fun _ hw => hw
  . next record =>
    split
    . exact Triple.pure fun _ hw => hw
    . apply Triple.bind (Q := fun _ => Expunged id)
      . apply Triple.attempt
        apply triple_evicted
        . intro _ _ hw hevicted
          exact hw.evicted hevicted
        . intro w hw _ _
          exact ⟨hw.file, hw.shared, hw.cache⟩
      . intro _
        exact Triple.pure fun _ hw => hw

theorem deleteObject_expunged :
    Triple env (fun _ => True) (deleteObject id) (fun _ => Expunged id) (fun _ => True) := by
  have hevict (record : Option AppPointerRecord) : Triple env (fun _ => True)
      (do evict id; evictOldHome id record) (fun _ => Expunged id) (fun _ => True) := by
    apply Triple.bind evict_expunged
    intro _
    apply (evictOldHome_expunged record).conseq
    . intro _ hw
      exact hw
    . intro _ _ hw
      exact hw
    . intro _ _
      trivial
  have hany {α : Type} (m : RunM α) : Triple env (fun _ => True) m (fun _ _ => True) (fun _ => True) :=
    Triple.of_forall (fun _ _ => trivial) (fun _ => trivial)
  unfold deleteObject
  apply Triple.bind (hany _)
  intro object
  apply Triple.bind (hany _)
  intro owned
  split
  . exact Triple.throw fun _ _ => trivial
  split
  . exact Triple.throw fun _ _ => trivial
  apply Triple.bind (hany _)
  intro w
  apply Triple.bind (hany _)
  intro record
  apply Triple.bind (hany _)
  intro home
  apply Triple.bind (hany _)
  intro _
  exact hevict record

end Evicted

section Unreferenced

variable {env : Env} {id : ObjectId} {w w₁ : Runtime} {record : AppPointerRecord}
variable {index : HomeIndex} {entries : List HomeEntry}

/--
No entry of `index` refers to `id`.
-/
def Unreferenced (id : ObjectId) (index : HomeIndex) : Prop :=
  ∀ entry ∈ index.entries, entry.object ≠ id

omit [Primitives] in
theorem unreferenced_iff : Unreferenced id index ↔ index.entries.countP (·.object = id) = 0 := by
  simp [Unreferenced, List.countP_eq_zero]

omit [Primitives] in
theorem countP_removeEntry {before : List HomeEntry} (h : removeEntry id before = some entries) :
    entries.countP (·.object = id) + 1 = before.countP (·.object = id) := by
  induction before generalizing entries with
  | nil => contradiction
  | cons first before ih =>
    unfold removeEntry at h
    split at h
    . next hfirst =>
      simp only [Option.some.injEq] at h
      rw [← h, List.countP_cons_of_pos (by simpa using hfirst)]
    . next hfirst =>
      obtain ⟨rest, hrest, heq⟩ := Option.map_eq_some_iff.mp h
      rw [← heq, List.countP_cons_of_neg (by simpa using hfirst),
        List.countP_cons_of_neg (by simpa using hfirst), ih hrest]

/--
The object `id` is not in the serving set.
-/
def OutOfShared (id : ObjectId) (w : Runtime) : Prop :=
  id.text ∉ w.shared

theorem pushes_outOfShared (env : Env) (id : ObjectId) :
    Pushes env (OutOfShared id) (fun _ => True) where
  frame _ _ hsame hw := fun hmem => hw (hsame.shared ▸ hmem)
  put _ _ _ _ hw := hw
  pushed _ _ _ _ := trivial
  track _ _ _ _ _ _ hw := hw
  touch _ _ _ _ hw := hw
  flush _ hw := hw
  replicate _ _ _ hw := hw

/--
Saving an index that does not refer to an object does not serve it.
-/
theorem keeps_outOfShared (hunreferenced : Unreferenced id index) :
    Keeps env (OutOfShared id) (saveHomeIndex index) := by
  have hpushes := pushes_outOfShared env id
  have hspares (key : Bytes) : Spares (OutOfShared id) key := fun _ _ hw => hw
  apply Keeps.bind (hpushes.keeps_loadOwnRecord _ fun _ _ => (hspares _).remembers)
  intro previous _
  apply Keeps.bind hpushes.keeps_now
  intro time _
  apply Keeps.bind_get
  intro w _
  apply Keeps.bind (hpushes.keeps_publishObject (fun _ _ => hspares _) trivial fun _ _ _ _ => trivial)
  intro _ _
  apply Keeps.bind (Q := fun _ => True)
  . constructor
    intro a ha
    have hany : Pushes env (fun _ => True) (fun _ => True) :=
      .ofDisk (fun _ _ _ _ => trivial) (fun _ _ _ _ _ => trivial) (fun _ _ _ _ => trivial)
    have hreconcile := (reconcileShared_triple (E := fun _ => False) hany (fun _ _ _ => trivial)
      (fun _ _ _ => trivial) previous
      (some { index with version := nextVersion (previous.map HomeIndex.version) }) a.shared).spec a
      ⟨trivial, rfl⟩
    generalize exec (reconcileShared previous _) env a = res at hreconcile
    rcases res with ⟨_ | _, t⟩
    . exact hreconcile.elim
    . refine ⟨?_, trivial⟩
      unfold OutOfShared
      rw [hreconcile.2, mem_reconciled, mem_sharedIds]
      -- reconciling adds only the shared entries of the index, and serves no others anew
      rintro (⟨⟨entry, hentry, _, hobject⟩, _⟩ | ⟨hmem, _⟩)
      . exact hunreferenced entry hentry hobject
      . exact ha hmem
  . intro _ _
    exact Keeps.pure trivial

/--
When the index lists the object, what is published lacks the first entry that refers to it.
-/
theorem deleteRest_savedHome (laws : SignatureLaws) (hash : CollisionFree)
    (hhome : Has HomeIndex.codec RECORD_HOME record index w)
    (hentries : removeEntry id index.entries = some entries) {object : Object} (hid : object.id = id)
    (hverify : object.verify = true) (htype : object.payload.objectType ≠ .homeIndex) :
    Triple env (fun a => a = w) (deleteRest id record index)
      (fun _ => SavedHome { index with entries := entries, version := index.version + 1 })
      (fun _ => True) := by
  let after : HomeIndex := { index with entries := entries, version := index.version + 1 }
  have hany : Spared env (AppPointerRecord.key w.identity.id RECORD_HOME) (fun _ => True) :=
    { toPushes := .ofDisk (fun _ _ _ _ => trivial) (fun _ _ _ _ _ => trivial) (fun _ _ _ _ => trivial)
      record := fun _ _ _ => trivial }
  unfold deleteRest
  apply Triple.bind (Q := fun _ => SavedHome after)
  . unfold removeFromHome
    dsimp only
    split
    . exact Triple.throw fun _ _ => trivial
    rw [hentries]
    have hreconcile : Triple env (SavedHome after) (reconcileShared (some index) (some after))
        (fun _ => SavedHome after) (fun _ => False) := by
      apply triple_reconcileShared (pushes_savedHome hash env after)
      . intro _ _ ha
        exact ha.congr ⟨rfl, rfl, rfl⟩
      . intro _ _ ha
        exact ha.congr ⟨rfl, rfl, rfl⟩
    apply Triple.bind (Q := fun _ => SavedHome after)
    . apply (saveHomeIndex_triple laws hash hany (R := SavedHome after) _).conseq
      . intro a ha
        rw [ha]
        exact ⟨rfl, hhome, trivial⟩
      . intro _ _ ha
        exact ha
      . intro _ _
        trivial
      . apply hreconcile.conseq
        . intro _ ha
          exact ha.2.2
        . intro _ _ ha
          exact ha
        . intro _ ha
          exact ha
    . intro _
      exact Triple.pure fun _ ha => ha
  . intro _
    apply Triple.bind (Q := fun _ => SavedHome after)
    . apply triple_evict
      . intro a t ha hat
        apply SavedHome.congr _ hat
        rw [← hid]
        apply ha.eraseObject hash hverify
        intro hhomeIndex
        exact absurd hhomeIndex htype
      . intro _ _ _ _ _
        trivial
    . intro _
      apply evictOldHome_triple
      . intro _ _ ha
        exact ha
      . intro _ a t ha hat
        apply SavedHome.congr _ hat
        obtain ⟨old, hold, hdecode⟩ := hhome.stored
        rw [← Storage.id_of_getVerified hold]
        apply ha.eraseObject hash (Storage.verify_of_getVerified hold)
        -- the old index has another version, so it is not the one that was just saved
        intro _ before hbefore
        rw [Object.decode, hbefore, Option.some.injEq] at hdecode
        rw [hdecode]
        exact ne_nextVersion entries
      . intro _ _ _ ha hat _
        exact ha.congr hat

/--
The pointer of the home index is `record`, and what it names is `index` unless it is gone.
-/
structure Rests (record : AppPointerRecord) (index : HomeIndex) (w : Runtime) : Prop where
  cached : cachedPointer w w.identity.id RECORD_HOME = some record
  stored : ∀ object, w.storage.getVerified record.manifest = .ok object →
    object.decode HomeIndex.codec = some index

theorem Has.rests (h : Has HomeIndex.codec RECORD_HOME record index w) : Rests record index w where
  cached := h.cached
  stored object hobject := by
    obtain ⟨stored, hstored, hdecode⟩ := h.stored
    rw [hobject, Except.ok.injEq] at hstored
    rw [hstored]
    exact hdecode

theorem Rests.congr (h : Rests record index w) (hdisk : SameDisk w w₁) : Rests record index w₁ where
  cached := by
    rw [hdisk.identity, cachedPointer_congr hdisk.records]
    exact h.cached
  stored object hobject := by
    apply h.stored
    rw [← hobject]
    apply Storage.getVerified_congr
    rw [hdisk.files]

theorem Rests.eraseObject (h : Rests record index w) (gone : ObjectId) :
    Rests record index (eraseObject gone w) where
  cached := h.cached
  stored object hobject := h.stored object (Storage.getVerified_erase hobject)

theorem Rests.loads (h : Rests record index w) {after : HomeIndex}
    (hload : (exec loadHomeIndex env w).1 = .ok (some after)) : after = index := by
  unfold loadHomeIndex loadOwnRecord at hload
  rw [exec_bind_ok (Prog.exec_get env w), exec_bind_ok (resolvePointer_of_cached h.cached)] at hload
  obtain ⟨object, hobject, hrest⟩ := Prog.exec_bind_eq_ok hload
  rw [exec_getVerified] at hobject
  have hdecode := h.stored object hobject
  unfold decodeObject at hrest
  rw [hdecode] at hrest
  simpa [ofOption, exec_getVerified, exec_bind, eq_comm] using hrest

theorem deleteRest_rests (hnone : removeEntry id index.entries = none)
    (hhome : Has HomeIndex.codec RECORD_HOME record index w) :
    Triple env (fun a => a = w) (deleteRest id record index) (fun _ => Rests record index)
      (fun _ => True) := by
  apply Triple.bind (Q := fun _ => Rests record index)
  . simp only [removeFromHome, hnone]
    split
    . exact Triple.throw fun _ _ => trivial
    . apply Triple.pure
      intro a ha
      rw [ha]
      exact hhome.rests
  . intro _
    apply Triple.bind (Q := fun _ => Rests record index)
    . apply triple_evict
      . intro a t ha hat
        exact (ha.eraseObject id).congr hat
      . intro _ _ _ _ _
        trivial
    . intro _
      apply evictOldHome_triple
      . intro _ _ ha
        exact ha
      . intro _ a t ha hat
        exact (ha.eraseObject record.manifest).congr hat
      . intro _ _ _ ha hat _
        exact ha.congr hat

/--
Nothing refers to the object `id`, and saving the home index that the node has does not serve it.
-/
structure NoDangling (id : ObjectId) (w : Runtime) : Prop extends Expunged id w where
  unreferenced : ∀ env index, (exec loadHomeIndex env w).1 = .ok (some index) → Unreferenced id index
  unmarked : ∀ env index, (exec loadHomeIndex env w).1 = .ok (some index) → ∀ env later,
    OutOfShared id later → OutOfShared id (exec (saveHomeIndex index) env later).2

/--
A deletion that succeeds leaves nothing dangling just if no other entry of the home index refers to the
object as well.
-/
theorem deleteObject_noDangling_iff (laws : SignatureLaws) (hash : CollisionFree)
    (hresolve : exec (resolvePointer w.identity.id RECORD_HOME) env w = (.ok (some record), w₁))
    (hhome : Has HomeIndex.codec RECORD_HOME record index w₁)
    (hok : (exec (deleteObject id) env w).1 = .ok ()) :
    NoDangling id (exec (deleteObject id) env w).2 ↔
      index.entries.countP (·.object = id) ≤ 1 := by
  have hgone : Expunged id (exec (deleteObject id) env w).2 :=
    deleteObject_expunged.ok trivial (Prod.ext hok rfl)
  obtain ⟨⟨object, hid, hverify, htype⟩, hrest⟩ := deleteObject_rest hresolve hhome hok
  rw [hrest] at hok hgone ⊢
  have hexec : exec (deleteRest id record index) env w₁ =
      (.ok (), (exec (deleteRest id record index) env w₁).2) := Prod.ext hok rfl
  have henough {after : HomeIndex} (hload : ∀ env' index',
      (exec loadHomeIndex env' (exec (deleteRest id record index) env w₁).2).1 = .ok (some index') →
        index' = after) (hunreferenced : Unreferenced id after) :
      NoDangling id (exec (deleteRest id record index) env w₁).2 := by
    refine { toExpunged := hgone, unreferenced := ?_, unmarked := ?_ }
    . intro env' index' hindex'
      rw [hload env' index' hindex']
      exact hunreferenced
    . intro env' index' hindex' _ later hlater
      rw [hload env' index' hindex']
      exact (keeps_outOfShared hunreferenced).state hlater
  cases hentries : removeEntry id index.entries with
  | none =>
    have hunreferenced : Unreferenced id index := removeEntry_eq_none.mp hentries
    have hrests := (deleteRest_rests hentries hhome).ok rfl hexec
    apply iff_of_true
    . exact henough (fun _ _ hload => hrests.loads hload) hunreferenced
    . rw [unreferenced_iff.mp hunreferenced]
      exact Nat.zero_le 1
  | some entries =>
    have hsaved := (deleteRest_savedHome laws hash hhome hentries hid hverify htype).ok rfl hexec
    obtain ⟨record', hhas⟩ := hsaved.has
    have hcount := countP_removeEntry hentries
    constructor
    . intro h
      -- an entry that is left would be in the index that was saved
      have hunreferenced := h.unreferenced env _ (by rw [hhas.exec_loadHomeIndex env])
      have hnone := unreferenced_iff.mp hunreferenced
      dsimp only at hnone
      omega
    . intro hle
      apply henough (fun _ _ hload => hhas.rests.loads hload)
      rw [unreferenced_iff]
      dsimp only
      omega

end Unreferenced

end Runtime

end Canopee

namespace Canopee.Runtime

open Prog (exec)

section Witness

open Canopee.Transparent

theorem deleteObject_noDangling_iff_listedNote :
    NoDangling listedNote.id (exec (deleteObject listedNote.id) (Env.quiet 1) noteStored).2 :=
  (deleteObject_noDangling_iff signatureLaws collisionFree
    (resolvePointer_of_cached has_noteIndex.cached) has_noteIndex delete_listedNote).mpr
      List.countP_le_length

end Witness

section Counterexample

open Canopee.Compact

/--
Alice's home index lists one note under two names.
-/
def twiceListed : Object :=
  Object.new alice 0 [7] .blob

def twiceIndex : HomeIndex :=
  { HomeIndex.empty with
    entries := [⟨"note", twiceListed.id, .blob, true, none⟩,
      ⟨"copy", twiceListed.id, .blob, true, none⟩] }

def twiceSaved : Runtime :=
  Run.run NodeOp.step (fresh alice laptop)
    [(.putObjectPublic [7] .blob none, Env.quiet 0), (.saveHomeIndex twiceIndex, Env.quiet 1)]

theorem deleteObject_twiceListed :
    (exec (deleteObject twiceListed.id) (Env.quiet 2) twiceSaved).1 = .ok () ∧
      ((exec loadHomeIndex (Env.quiet 3)
        (exec (deleteObject twiceListed.id) (Env.quiet 2) twiceSaved).2).1.toOption.join.map
          fun index => index.entries.map HomeEntry.object) = some [twiceListed.id] := by
  decide +kernel

/--
The second entry still refers to the note when it is deleted.
-/
theorem not_noDangling_twiceListed :
    (exec (deleteObject twiceListed.id) (Env.quiet 2) twiceSaved).1 = .ok () ∧
      ¬ NoDangling twiceListed.id (exec (deleteObject twiceListed.id) (Env.quiet 2) twiceSaved).2 := by
  obtain ⟨hok, hload⟩ := deleteObject_twiceListed
  refine ⟨hok, ?_⟩
  revert hload
  generalize (exec (deleteObject twiceListed.id) (Env.quiet 2) twiceSaved).2 = w
  generalize twiceListed.id = id
  intro hload h
  obtain ⟨index, hindex, hobjects⟩ := Option.map_eq_some_iff.mp hload
  have hok : (exec loadHomeIndex (Env.quiet 3) w).1 = .ok (some index) := by
    generalize (exec loadHomeIndex (Env.quiet 3) w).1 = r at hindex
    rcases r with _ | _ | found
    . simp [Except.toOption] at hindex
    . simp [Except.toOption] at hindex
    . simp only [Except.toOption, Option.join_some, Option.some.injEq] at hindex
      rw [hindex]
  have hmem : id ∈ index.entries.map HomeEntry.object := by
    rw [hobjects]
    exact List.mem_singleton_self id
  obtain ⟨entry, hentry, hobject⟩ := List.mem_map.mp hmem
  exact h.unreferenced (Env.quiet 3) index hok entry hentry hobject

end Counterexample

end Canopee.Runtime
