import Canopee.Results.Mirror
import Canopee.Results.Untracked

/-!
This module contains what is left of an entry of the home index that is not shared any more: its
object is served for other reasons only, while its name resolves as before.
-/

namespace Canopee

open Primitives
open Canopee.Runtime
open Prog (Keeps Triple exec exec_bind_ok exec_bind_eq_iff)

variable [Primitives]

namespace Runtime

section Pointer

variable {env : Env} {self : Identity} {name : String} {target : ObjectId} {w : Runtime}

/--
A pointer object of `owner` for `name` that names `target`.
-/
def PointsAt (owner : IdentityId) (name : String) (target : ObjectId) (object : Object) : Prop :=
  PointerObject owner name object ∧
    ∃ record, object.decode AppPointerRecord.codec = some record ∧ record.manifest = target

/--
The record cache has no pointer for `name`, and no stored one names `target`.
-/
structure Unnamed (own : Identity) (name : String) (target : ObjectId) (w : Runtime) : Prop where
  identity : w.identity = own
  uncached : cachedPointer w own.id name = none
  unstored : ∀ record, StoredPointer w own.id name record → record.manifest ≠ target

theorem pushes_unnamed (hpushed : ∀ t bundle, .store bundle ∈ env.inbound t →
      bundle.object.verify = true → ¬ PointsAt self.id name target bundle.object) :
    Pushes env (Unnamed self name target) (fun object => ¬ PointsAt self.id name target object) := by
  apply Pushes.ofDisk
  . intro w w' hdisk hw
    refine ⟨hdisk.identity.trans hw.identity,
      (cachedPointer_congr hdisk.records _ _).trans hw.uncached, ?_⟩
    intro record hrecord
    exact hw.unstored record (hrecord.congr hdisk.files.symm)
  . intro w object hverify hok hw
    refine ⟨hw.identity, hw.uncached, ?_⟩
    intro record hrecord htarget
    cases storedPointer_storeObject hverify hrecord with
    | inl hbefore => exact hw.unstored record hbefore htarget
    | inr hobject => exact hok ⟨hobject.1, record, hobject.2, htarget⟩
  . exact hpushed

theorem unnamed_spares (hash : CollisionFree) {other : String} (hne : other ≠ name) (w : Runtime)
    (hw : Unnamed self name target w) :
    Spares (Unnamed self name target) (AppPointerRecord.key w.identity.id other) := by
  intro a bytes ha
  have hkey : AppPointerRecord.key w.identity.id other ≠ AppPointerRecord.key self.id name := by
    rw [hw.identity, ne_eq, AppPointerRecord.key_inj hash]
    exact hne
  exact ⟨ha.identity, (cachedPointer_storeRecord_of_ne hkey bytes a).trans ha.uncached, ha.unstored⟩

theorem not_pointsAt_home (hne : RECORD_HOME ≠ name) (owner : IdentityId) (other : ObjectId) :
    Pushes.Admits (fun object => ¬ PointsAt owner name target object) RECORD_HOME other := by
  intro signer identity published time ⟨⟨_, record, hdecode, hname, _⟩, _⟩
  have hdata : (Object.new identity time (AppPointerRecord.codec.serialize
      (.sign signer published RECORD_HOME other)) .appPointer).decode AppPointerRecord.codec =
        some (.sign signer published RECORD_HOME other) := by
    exact Codec.deserialize_serialize _ _
  rw [hdata, Option.some.injEq] at hdecode
  rw [← hdecode] at hname
  exact hne hname

theorem keeps_withdraw {I : Runtime → Prop} {ok : Object → Prop} (h : Pushes env I ok)
    (hspares : ∀ w, I w → Spares I (AppPointerRecord.key w.identity.id RECORD_HOME))
    (hshares : Shares I) (hunshare : ∀ w id, I w → I (unshare id w))
    (hhome : ∀ (index : HomeIndex) identity time, ok (index.toObject identity time))
    (hpointer : ∀ target, Pushes.Admits ok RECORD_HOME target) (name : String) :
    Keeps env I (setHomeEntryShared name false) := by
  apply Keeps.bind (Q := fun _ => True)
  . apply Keeps.bind (h.keeps_loadOwnRecord _ fun w hw => (hspares w hw).remembers)
    intro index _
    exact (keeps_ofOption _ _).weaken fun _ _ => trivial
  . intro index _
    apply Keeps.bind (keeps_ofOption _ _)
    intro found _
    apply Keeps.bind (h.keeps_saveHomeIndex hspares hshares hunshare hhome hpointer _)
    intro id _
    exact Keeps.pure trivial

theorem withdraw_unnamed (hash : CollisionFree) (hne : RECORD_HOME ≠ name)
    (hpushed : ∀ t bundle, .store bundle ∈ env.inbound t → bundle.object.verify = true →
      ¬ PointsAt self.id name target bundle.object) (entry : String) :
    Keeps env (Unnamed self name target) (setHomeEntryShared entry false) := by
  apply keeps_withdraw (pushes_unnamed hpushed) (unnamed_spares hash hne)
  . intro w id hw
    exact ⟨hw.identity, hw.uncached, hw.unstored⟩
  . intro w id hw
    exact ⟨hw.identity, hw.uncached, hw.unstored⟩
  . intro index identity time ⟨⟨⟨_, htype⟩, _⟩, _⟩
    cases htype
  . exact not_pointsAt_home hne self.id

theorem resolvePointer_unnamed (h : Unnamed self name target w)
    (hoffers : Offers env (·.manifest ≠ target) self.id name) {record : AppPointerRecord}
    {v : Runtime} (hresolve : exec (resolvePointer self.id name) env w = (.ok (some record), v)) :
    record.manifest ≠ target := by
  rw [exec_resolvePointer_uncached env h.uncached] at hresolve
  obtain ⟨found, u, hlookup, hrest⟩ := exec_bind_eq_iff.mp hresolve
  have hfound : found = some record := by
    cases found with
    | none => cases hrest
    | some r =>
      rw [rememberFound, exec_bind_ok (exec_rememberPointer _ r env u)] at hrest
      cases hrest
      rfl
  rw [hfound] at hlookup
  unfold lookupPointer at hlookup
  rw [exec_bind_ok (exec_latestPointerRecord env w self.id name)] at hlookup
  cases hscan : scannedPointer env w self.id name with
  | some scanned =>
    rw [hscan] at hlookup
    cases hlookup
    exact h.unstored record (stored_of_scannedPointer hscan).1
  | none =>
    rw [hscan] at hlookup
    exact hoffers.keeps_dhtPointer.result trivial (congrArg Prod.fst hlookup) record rfl

theorem withdraw_caches (hash : CollisionFree) (hne : RECORD_HOME ≠ name)
    (cached : Option AppPointerRecord) (entry : String) :
    Keeps env (Caches self name cached) (setHomeEntryShared entry false) := by
  apply keeps_withdraw (fetches_caches env self name cached).toPushes (caches_spares hash hne cached)
  . intro w id hw
    exact hw
  . intro w id hw
    exact hw
  . intro _ _ _
    trivial
  . intro _ _ _ _ _
    trivial

end Pointer

section Withdraw

variable {env : Env} {name : String} {target id : ObjectId} {index : HomeIndex} {w w' : Runtime}

/--
The object is in the serving set, and no shared entry of the home index that the node has put it
there.
-/
def Apart (env : Env) (target : ObjectId) (w : Runtime) : Prop :=
  target.text ∈ w.shared ∧ ∀ index v, exec loadHomeIndex env w = (.ok (some index), v) →
    HomeIs index v → target ∉ sharedIds (some index)

/--
What is left of `target` when the entry `name`, which refers to it, is not shared any more: it is
served only for another shared entry, as a cached object or apart from the home index, and `name`
resolves as before.
-/
structure Withdrawn (env : Env) (name : String) (target : ObjectId) (index : HomeIndex)
    (w w' : Runtime) : Prop where
  served : ∀ later bundle, (exec (provide target) later w').1 = .ok (some bundle) →
    target ∈ sharedIds (some index) ∨ target.text ∈ w'.cache ∨ Apart env target w
  kept : ∀ record, cachedPointer w w.identity.id ("entry:" ++ name) = some record → ∀ later,
    exec (resolvePointer w.identity.id ("entry:" ++ name)) later w' = (.ok (some record), w')
  unnamed : Unnamed w.identity ("entry:" ++ name) target w →
    (∀ t bundle, .store bundle ∈ env.inbound t → bundle.object.verify = true →
      ¬ PointsAt w.identity.id ("entry:" ++ name) target bundle.object) →
    ∀ later, Offers later (·.manifest ≠ target) w.identity.id ("entry:" ++ name) →
    ∀ record v, exec (resolvePointer w.identity.id ("entry:" ++ name)) later w' =
      (.ok (some record), v) → record.manifest ≠ target

theorem loadHomeIndex_shared (env : Env) (self : Identity) (S : Finset String) :
    Keeps env (fun w => w.identity = self ∧ w.shared = S) loadHomeIndex := by
  apply ((pushes_identity env self).and (pushes_shared env S)).keeps_loadOwnRecord
  intro _ _ _ _ hw _
  exact hw

theorem withdraw_cases (h : exec (setHomeEntryShared name false) env w = (.ok id, w')) :
    ∃ old v entries target previous u, exec loadHomeIndex env w = (.ok (some old), v) ∧
      setShared name false old.entries = some (entries, target) ∧
      exec loadHomeIndex env v = (.ok previous, u) ∧
      exec (publishHome previous { old with entries := entries }) env u = (.ok id, w') := by
  obtain ⟨old, v, hload, hpublish⟩ := exec_bind_eq_iff.mp h
  obtain ⟨loaded, v', hloaded, hsome⟩ := exec_bind_eq_iff.mp hload
  obtain ⟨⟨entries, target⟩, v'', hset, hsave⟩ := exec_bind_eq_iff.mp hpublish
  obtain ⟨saved, t, hsaved, hpure⟩ := exec_bind_eq_iff.mp hsave
  cases hpure
  rw [saveHomeIndex_eq] at hsaved
  obtain ⟨previous, u, hprevious, hpublished⟩ := exec_bind_eq_iff.mp hsaved
  cases loaded with
  | none => cases hsome
  | some found =>
    cases hsome
    cases hshared : setShared name false old.entries with
    | none =>
      rw [hshared] at hset
      cases hset
    | some found =>
      rw [hshared] at hset
      cases hset
      exact ⟨old, v, entries, target, previous, u, hloaded, hshared, hprevious, hpublished⟩

theorem loadHomeIndex_again (hash : CollisionFree) {previous : Option HomeIndex} {v u : Runtime}
    (hhome : HomeIs index v) (h : exec loadHomeIndex env v = (.ok previous, u)) :
    previous = some index := by
  have ⟨record, hcached, _⟩ := hhome
  rcases loadHomeIndex_of_cached env hcached with ⟨found, hload, hhas⟩ | ⟨e, hload⟩
  . rw [hload] at h
    cases h
    rw [hhas.homeIs.unique hash hhome]
  . rw [hload] at h
    cases h

theorem served_of_reconciled {previous : Option HomeIndex} {later : Env} {bundle : ExportBundle}
    (hshared : w'.shared = reconciled previous (some index) w.shared)
    (h : (exec (provide target) later w').1 = .ok (some bundle)) :
    target ∈ sharedIds (some index) ∨ target.text ∈ w'.cache ∨
      target.text ∈ w.shared ∧ target ∉ sharedIds previous := by
  rcases (provide_eq_some h).2 with hcached | hin
  . exact .inr (.inl hcached)
  . rw [hshared, mem_reconciled] at hin
    rcases hin with ⟨hcurrent, _⟩ | ⟨hbefore, hstays⟩
    . exact .inl hcurrent
    . by_cases hprevious : target ∈ sharedIds previous
      . exact .inl (hstays hprevious)
      . exact .inr (.inr ⟨hbefore, hprevious⟩)

theorem withdraw_succeeds (laws : SignatureLaws) (hdisk : ∀ t, env.fault t = none)
    {record : AppPointerRecord} (hhome : Has HomeIndex.codec RECORD_HOME record index w)
    {entries : List HomeEntry} (hset : setShared name false index.entries = some (entries, target)) :
    ∃ id w', exec (setHomeEntryShared name false) env w = (.ok id, w') := by
  obtain ⟨id, w', hsave⟩ := saveHomeIndex_succeeds laws hdisk hhome { index with entries := entries }
  have hload : exec setHomeEntrySharedLoad env w = (.ok index, w) :=
    exec_bind_ok (hhome.exec_loadHomeIndex env)
  refine ⟨id, w', ?_⟩
  unfold setHomeEntryShared setHomeEntrySharedPublish
  rw [exec_bind_ok hload, hset, ofOption, Prog.pure_bind]
  exact exec_bind_ok hsave

end Withdraw

end Runtime

end Canopee

namespace Canopee.Runtime

open Prog (exec)

section Witness

open Canopee.Transparent

end Witness

section Counterexample

open Canopee.Compact

def ownNote : Object :=
  Object.new alice 0 [7] .blob

def bobsNote : Object :=
  Object.new bob 0 [8] .blob

def draft : HomeIndex :=
  { HomeIndex.empty with
    entries := [⟨"own", ownNote.id, .blob, false, none⟩, ⟨"bobs", bobsNote.id, .blob, false, none⟩] }

def draftId : ObjectId :=
  ({ draft with version := 1 }.toObject alice 1).id

/--
Alice imports a note of her own and one of Bob's, and then she shares both.
-/
def bothShared : Runtime :=
  Run.run NodeOp.step (fresh alice laptop)
    [(.importBundle ⟨1, ownNote⟩, Env.quiet 0), (.importBundle ⟨1, bobsNote⟩, Env.quiet 0),
      (.saveHomeIndex draft, Env.quiet 1), (.setHomeEntryShared "own" true, Env.quiet 2),
      (.setHomeEntryShared "bobs" true, Env.quiet 3)]

/--
Her home pointer goes back to the index in which nothing was shared.
-/
def reverted : Runtime :=
  NodeOp.step (.publishPointer RECORD_HOME draftId, Env.quiet 4) bothShared

def unshared (name : String) (w : Runtime) : Except String ObjectId × Runtime :=
  exec (setHomeEntryShared name false) (Env.quiet 5) w

end Counterexample

end Canopee.Runtime
