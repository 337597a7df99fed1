import Canopee.Results.Adoption
import Canopee.Results.Published
import Canopee.Runtime.Requests

/-!
This module contains what a node keeps to itself: its own objects stay out of the cache index, so
that they are neither served before they are shared nor evicted to make room.
-/

namespace Canopee

open Primitives
open Canopee.Runtime
open Prog (Keeps Triple exec exec_bind_ok exec_bind_eq_ok)

variable [Primitives]

namespace Runtime

section Untracked

/--
The cache index, in memory and in its sidecar, tracks no object of `self`.
-/
def OwnUntracked (self : IdentityId) (w : Runtime) : Prop :=
  ∀ payload : ObjectPayload, payload.owner = self →
    (ObjectId.fromPayload payload).text ∉ w.cache ∧
    (ObjectId.fromPayload payload).text ∉ w.sidecar

variable {self : IdentityId} {w : Runtime}

theorem ownUntracked_congr {w' : Runtime} (hcache : w'.cache = w.cache)
    (hsidecar : w'.sidecar = w.sidecar) (h : OwnUntracked self w) : OwnUntracked self w' := by
  unfold OwnUntracked
  rw [hcache, hsidecar]
  exact h

theorem ownUntracked_track (hash : CollisionFree) {object : Object} (time : UInt64)
    (hverify : object.verify = true) (hforeign : object.payload.owner ≠ self)
    (h : OwnUntracked self w) : OwnUntracked self (track object.id time w) := by
  intro payload howner
  refine ⟨?_, (h payload howner).2⟩
  intro hmem
  cases (AList.mem_insert _).mp hmem with
  | inl heq =>
    have hid := ObjectId.text_inj.mp heq
    rw [Object.id_of_verify hverify, ObjectId.fromPayload_inj hash] at hid
    exact hforeign (hid ▸ howner)
  | inr hold => exact (h payload howner).1 hold

theorem ownUntracked_touch {id : ObjectId} (time : UInt64)
    (hcached : (w.cache.lookup id.text).isSome = true) (h : OwnUntracked self w) :
    OwnUntracked self (track id time w) := by
  intro payload howner
  refine ⟨?_, (h payload howner).2⟩
  intro hmem
  cases (AList.mem_insert _).mp hmem with
  | inl heq =>
    rw [AList.lookup_isSome, ← heq] at hcached
    exact (h payload howner).1 hcached
  | inr hold => exact (h payload howner).1 hold

theorem ownUntracked_flush (h : OwnUntracked self w) : OwnUntracked self (flush w) := by
  intro payload howner
  exact ⟨(h payload howner).1, (h payload howner).1⟩

theorem ownUntracked_untrack (id : ObjectId) (h : OwnUntracked self w) :
    OwnUntracked self (untrack id w) := by
  intro payload howner
  refine ⟨?_, (h payload howner).2⟩
  intro hmem
  exact (h payload howner).1 (AList.mem_erase.mp hmem).2

/--
A node of `self` whose own objects are untracked.
-/
def Discreet (self : Identity) (w : Runtime) : Prop :=
  w.identity = self ∧ OwnUntracked self.id w

theorem discreet_congr {self : Identity} {w' : Runtime} (hidentity : w'.identity = w.identity)
    (hcache : w'.cache = w.cache) (hsidecar : w'.sidecar = w.sidecar) (h : Discreet self w) :
    Discreet self w' :=
  ⟨hidentity.trans h.1, ownUntracked_congr hcache hsidecar h.2⟩

theorem pushes_discreet (hash : CollisionFree) (env : Env) (self : Identity) :
    Pushes env (Discreet self) (fun _ => True) where
  frame _ _ hsame hw := discreet_congr hsame.identity hsame.cache hsame.sidecar hw
  put w _ _ _ hw := discreet_congr (w := w) rfl rfl rfl hw
  pushed _ _ _ _ := trivial
  track w object time hverify _ hforeign hw := by
    obtain ⟨w₀, hw₀, hne⟩ := hforeign
    rw [hw₀.1] at hne
    exact ⟨hw.1, ownUntracked_track hash time hverify hne hw.2⟩
  touch _ _ time hcached hw := ⟨hw.1, ownUntracked_touch time hcached hw.2⟩
  flush _ hw := ⟨hw.1, ownUntracked_flush hw.2⟩
  replicate w _ _ hw := discreet_congr (w := w) rfl rfl rfl hw

theorem ingress_discreet (hash : CollisionFree) (env : Env) (self : Identity) :
    Ingress env (Discreet self) (fun _ => True) where
  toPushes := pushes_discreet hash env self
  answered _ _ _ _ := trivial
  own _ _ _ := trivial
  erase w _ hw := discreet_congr (w := w) rfl rfl rfl hw
  record w _ _ hw := discreet_congr (w := w) rfl rfl rfl hw
  untrack _ id hw := ⟨hw.1, ownUntracked_untrack id hw.2⟩
  unshare w _ hw := discreet_congr (w := w) rfl rfl rfl hw

theorem shares_discreet (self : Identity) : Shares (Discreet self) :=
  fun w _ hw => discreet_congr (w := w) rfl rfl rfl hw

theorem replacesKey_discreet (self : Identity) : ReplacesKey (Discreet self) where
  backup w _ _ hw := discreet_congr (w := w) rfl rfl rfl hw
  key w _ hw := discreet_congr (w := w) rfl rfl rfl hw

end Untracked

section Consequences

/--
What the provider answers with is the stored object, which is tracked or shared.
-/
theorem provide_eq_some {env : Env} {w : Runtime} {id : ObjectId} {bundle : ExportBundle}
    (h : (exec (provide id) env w).1 = .ok (some bundle)) :
    w.storage.getVerified id = .ok bundle.object ∧
      (id.text ∈ w.cache ∨ id.text ∈ w.shared) := by
  unfold provide at h
  rw [exec_bind_ok (Prog.exec_attempt _ env w)] at h
  rw [exec_getVerified] at h
  cases hstored : w.storage.getVerified id with
  | error e =>
    rw [hstored] at h
    cases h
  | ok object =>
    rw [hstored] at h
    obtain ⟨cached, hcached, hrest⟩ := exec_bind_eq_ok h
    have hstate : (exec (isCached id) env w).2 = w := rfl
    rw [hstate] at hrest
    have hvalue : cached = (w.cache.lookup id.text).isSome := by
      cases hcached
      rfl
    rw [hvalue] at hrest
    split at hrest
    . next hmem =>
      obtain ⟨_, _, hreturned⟩ := exec_bind_eq_ok hrest
      rw [Prog.exec_pure, Except.ok.injEq] at hreturned
      rw [Object.object_of_export hreturned]
      exact ⟨rfl, .inl (AList.lookup_isSome.mp hmem)⟩
    . rw [exec_bind_ok (Prog.exec_get env w)] at hrest
      split at hrest
      . next hshared =>
        rw [Prog.exec_pure, Except.ok.injEq] at hrest
        rw [Object.object_of_export hrest]
        exact ⟨rfl, .inr hshared⟩
      . cases hrest

theorem tracked_of_mem_lruCachedObjects {w : Runtime} {ids : List String} {object : Object}
    (h : object ∈ lruCachedObjects w ids) : object.id.text ∈ w.cache := by
  simp only [lruCachedObjects, List.mem_filterMap, List.mem_insertionSort] at h
  obtain ⟨⟨id, time⟩, ⟨id', _, hlookup⟩, hstored⟩ := h
  obtain ⟨time', hcached, heq⟩ := Option.map_eq_some_iff.mp hlookup
  cases heq
  have hobject : w.storage.getVerified ⟨id⟩ = .ok object := by
    revert hstored
    cases w.storage.getVerified ⟨id⟩ <;> simp [Except.toOption]
  rw [Storage.id_of_getVerified hobject, ← AList.lookup_isSome, hcached]
  rfl

variable {self : Identity} {payload : ObjectPayload}

/--
A node that is discreet about `self` and stores `payload`.
-/
def Keeping (self : Identity) (payload : ObjectPayload) (w : Runtime) : Prop :=
  Discreet self w ∧ Stores payload w

theorem pushes_keeping (hash : CollisionFree) (env : Env) (self : Identity)
    (payload : ObjectPayload) : Pushes env (Keeping self payload) (fun _ => True) :=
  (pushes_discreet hash env self).and (pushes_stores hash env payload)

theorem evict_triple (hash : CollisionFree) (env : Env) (howner : payload.owner = self.id)
    (gone : ObjectId) :
    Triple env (fun w => Keeping self payload w ∧ gone.text ∈ w.cache) (evict gone)
      (fun _ => Keeping self payload) (Keeping self payload) := by
  constructor
  intro w ⟨hw, htracked⟩
  have hne : gone ≠ ObjectId.fromPayload payload := by
    intro heq
    rw [heq] at htracked
    exact (hw.1.2 payload howner).1 htracked
  have hkeeps : Keeps env (Keeping self payload) (evict gone) := by
    apply (pushes_keeping hash env self payload).keeps_evict
    . intro w hw
      exact ⟨discreet_congr (w := w) rfl rfl rfl hw.1, hw.2.eraseObject hne⟩
    . intro w hw
      exact ⟨⟨hw.1.1, ownUntracked_untrack gone hw.1.2⟩, stores_congr rfl hw.2⟩
    . intro w hw
      exact ⟨discreet_congr (w := w) rfl rfl rfl hw.1, stores_congr rfl hw.2⟩
  have := hkeeps.spec w hw
  generalize exec (evict gone) env w = res at this
  rcases res with ⟨e | u, t⟩
  . exact this
  . exact this.1

theorem lruCached_triple (hash : CollisionFree) (env : Env) :
    Triple env (Keeping self payload) lruCached
      (fun objects w => Keeping self payload w ∧ ∀ object ∈ objects, object.id.text ∈ w.cache)
      (Keeping self payload) := by
  have h := pushes_keeping hash env self payload
  apply Triple.bind (Q := fun _ => Keeping self payload)
  . exact h.keeps_nextTick.triple
  . intro t
    apply Triple.bind (Q := fun _ => Keeping self payload)
    . exact Triple.read fun w hw => hw
    . intro e
      apply Triple.bind (Q := fun a w => a = w ∧ Keeping self payload w)
      . exact Triple.get fun w hw => ⟨rfl, hw⟩
      . intro a
        apply Triple.pure
        intro w ⟨ha, hw⟩
        refine ⟨hw, ?_⟩
        rw [ha]
        intro object hobject
        exact tracked_of_mem_lruCachedObjects hobject

theorem keeps_evictWhileOver (hash : CollisionFree) (env : Env) (howner : payload.owner = self.id)
    (cap : UInt64) (rounds : Nat) :
    Keeps env (Keeping self payload) (evictWhileOver cap rounds) := by
  induction rounds with
  | zero => exact Keeps.pure trivial
  | succ rounds ih =>
    apply Keeps.bind_get
    intro _ _
    split
    . exact Keeps.pure trivial
    . apply Triple.bind (lruCached_triple hash env)
      intro objects
      split
      . exact Triple.pure fun w hw => ⟨hw.1, trivial⟩
      . next object _ =>
        apply Triple.bind (Q := fun _ => Keeping self payload)
        . apply Triple.attempt
          apply (evict_triple hash env howner object.id).conseq
          . intro w hw
            exact ⟨hw.1, hw.2 object List.mem_cons_self⟩
          . intro _ w hw
            exact hw
          . intro w hw _
            exact hw
        . intro r
          split
          . exact ih
          . exact Keeps.pure trivial

end Consequences

end Runtime

namespace NodeOp

/--
Nothing of the node's own is served before it is shared, and no sweep evicts it.
-/
structure Private (w : Runtime) : Prop where
  untracked : ∀ payload : ObjectPayload, payload.owner = w.identity.id →
    (ObjectId.fromPayload payload).text ∉ w.cache
  served : ∀ env id bundle, (exec (provide id) env w).1 = .ok (some bundle) →
    bundle.object.payload.owner = w.identity.id → id.text ∈ w.shared
  kept : ∀ env cap payload, payload.owner = w.identity.id → Stores payload w →
    Stores payload (exec (Runtime.evictIfOverCap cap) env w).2

/--
A pairing does not transfer records of the node's own identity, and a restart that takes over
another identity finds no object of that identity in the cache index.
-/
def TakesOverUntracked : NodeOp × Env → Runtime → Prop
  | (.acceptPairing incoming, _), w => ∀ records, Ingress.Transfers incoming records →
      ∀ record ∈ records, record.object.payload.owner ≠ w.identity.id
  | (.reopen, env), w => ∀ bytes identity, w.keyFile = some bytes →
      Identity.loadAtRest bytes env.passphrase = some identity →
      identity.id ≠ w.identity.id → ∀ payload : ObjectPayload, payload.owner = identity.id →
        (ObjectId.fromPayload payload).text ∉ w.sidecar
  | _, _ => True

theorem private_of_discreet (hash : CollisionFree) {w : Runtime} (h : Discreet w.identity w) :
    Private w where
  untracked payload howner := (h.2 payload howner).1
  served env id bundle hserved howner := by
    obtain ⟨hstored, hin⟩ := provide_eq_some hserved
    cases hin with
    | inl htracked =>
      have hid := Storage.id_of_getVerified hstored
      rw [← hid, Object.id_of_verify (Storage.verify_of_getVerified hstored)] at htracked
      exact absurd htracked (h.2 _ howner).1
    | inr hshared => exact hshared
  kept env cap payload howner hstores := by
    have hkeeps : Keeps env (Keeping w.identity payload) (Runtime.evictIfOverCap cap) := by
      apply Keeps.bind_get
      intro _ _
      exact keeps_evictWhileOver hash env howner cap _
    exact (hkeeps.state ⟨h, hstores⟩).2

theorem discreet_adopt {env : Env} {w : Runtime} {bytes : Bytes} {identity : Identity}
    (h : TakesOverUntracked (.reopen, env) w) (hw : Discreet w.identity w)
    (hkey : w.keyFile = some bytes)
    (hidentity : Identity.loadAtRest bytes env.passphrase = some identity) :
    Discreet identity
      { w with identity := identity, cache := w.sidecar, shared := ∅, pairing := none } := by
  refine ⟨rfl, ?_⟩
  intro payload howner
  have huntracked : (ObjectId.fromPayload payload).text ∉ w.sidecar := by
    by_cases hsame : identity.id = w.identity.id
    . exact (hw.2 payload (howner.trans hsame)).2
    . exact h bytes identity hkey hidentity hsame payload howner
  exact ⟨huntracked, huntracked⟩

theorem not_private_of_served {env : Env} {w : Runtime} {id : ObjectId} {bundle : ExportBundle}
    (hserved : (exec (provide id) env w).1 = .ok (some bundle))
    (howner : bundle.object.payload.owner = w.identity.id) (hshared : id.text ∉ w.shared) :
    ¬ Private w := by
  intro hprivate
  exact hshared (hprivate.served env id bundle hserved howner)

theorem discreet_reopen (hash : CollisionFree) {env : Env} {w : Runtime}
    (h : TakesOverUntracked (.reopen, env) w) (hw : Discreet w.identity w) :
    Discreet (step (.reopen, env) w).identity (step (.reopen, env) w) := by
  have hstep (self : Identity) (hself : ∀ bytes identity, w.keyFile = some bytes →
      Identity.loadAtRest bytes env.passphrase = some identity → identity = self) :
      step (.reopen, env) w = w ∨ Discreet self (step (.reopen, env) w) := by
    have htriple : Triple env (fun w' => w' = w) Runtime.reopen (fun _ => Discreet self)
        (fun w' => w' = w ∨ Discreet self w') := by
      apply (ingress_discreet hash env self).triple_reopen (shares_discreet self)
      intro w' bytes identity heq hkey hidentity
      rw [heq] at hkey ⊢
      rw [← hself bytes identity hkey hidentity]
      exact discreet_adopt h hw hkey hidentity
    have := htriple.spec w rfl
    simp only [step, perform]
    generalize exec Runtime.reopen env w = res at this
    rcases res with ⟨e | u, t⟩
    . exact this
    . exact .inr this
  have hdone {self : Identity} (hor : step (.reopen, env) w = w ∨
      Discreet self (step (.reopen, env) w)) :
      Discreet (step (.reopen, env) w).identity (step (.reopen, env) w) := by
    cases hor with
    | inl heq =>
      rw [heq]
      exact hw
    | inr hdiscreet =>
      rw [hdiscreet.1]
      exact hdiscreet
  cases hload : w.keyFile.bind (Identity.loadAtRest · env.passphrase) with
  | none =>
    apply @hdone w.identity
    apply hstep
    intro bytes identity hkey hidentity
    simp [hkey, hidentity] at hload
  | some self =>
    apply hdone
    apply hstep self
    intro bytes identity hkey hidentity
    simpa [hkey, hidentity] using hload

theorem discreet_step (hash : CollisionFree) {l : NodeOp × Env} {w : Runtime}
    (h : TakesOverUntracked l w) (hw : Discreet w.identity w) :
    Discreet (step l w).identity (step l w) := by
  obtain ⟨op, env⟩ := l
  by_cases hreopen : op = .reopen
  . rw [hreopen] at h ⊢
    exact discreet_reopen hash h hw
  . have hkeeps : Keeps env (Discreet w.identity) op.perform := by
      apply keeps_perform (ingress_discreet hash env w.identity)
        (fun _ => shares_discreet w.identity) (fun _ => replacesKey_discreet w.identity)
        (fun _ _ _ => trivial)
      . intro incoming hop records htransfers record hrecord hverify w' time hw'
        rw [hop] at h
        have hforeign := h records htransfers record hrecord
        exact ⟨hw'.1, ownUntracked_track hash time hverify hforeign hw'.2⟩
      . intro hop
        exact absurd hop hreopen
    have hafter : Discreet w.identity (step (op, env) w) := hkeeps.state hw
    rw [hafter.1]
    exact hafter

/--
A request that does not share puts nothing on the network.
-/
theorem shared_step (l : NodeOp × Env) (w : Runtime) (h : l.1.sharing = false) :
    (step l w).shared ⊆ w.shared := by
  obtain ⟨op, env⟩ := l
  have hingress : Ingress env (fun w' => w'.shared ⊆ w.shared) (fun _ => True) := {
    frame := by
      intro a b hsame ha
      rw [hsame.shared]
      exact ha
    put := fun _ _ _ _ ha => ha
    pushed := fun _ _ _ _ => trivial
    track := fun _ _ _ _ _ _ ha => ha
    touch := fun _ _ _ _ ha => ha
    flush := fun _ ha => ha
    replicate := fun _ _ _ ha => ha
    answered := fun _ _ _ _ => trivial
    own := fun _ _ _ => trivial
    erase := fun _ _ ha => ha
    record := fun _ _ _ ha => ha
    untrack := fun _ _ ha => ha
    unshare := fun _ id ha => (Finset.erase_subset _ _).trans ha
  }
  have hkeeps : Keeps env (fun w' => w'.shared ⊆ w.shared) op.perform := by
    apply keeps_perform hingress _ (fun _ => ⟨fun _ _ _ ha => ha, fun _ _ ha => ha⟩)
      (fun _ _ _ => trivial)
    . intro _ _ _ _ _ _ _ _ _ ha
      exact ha
    . intro hop
      rw [hop] at h
      contradiction
    . intro hshares
      rw [h] at hshares
      contradiction
  exact hkeeps.state (Finset.Subset.refl _)

theorem discreet_fresh (identity : Identity) (deviceKey : DeviceKey) :
    Discreet identity (fresh identity deviceKey) := by
  refine ⟨rfl, ?_⟩
  intro payload _
  exact ⟨AList.notMem_empty _, AList.notMem_empty _⟩

/--
In every run in which pairings and restarts take over no tracked object, nothing of the node's own
is served before it is shared, and no sweep evicts it. Only requests that share put anything on the
network.
-/
theorem run_private (hash : CollisionFree) (identity : Identity) (deviceKey : DeviceKey)
    (ls : List (NodeOp × Env))
    (h : Run.Along step TakesOverUntracked (fresh identity deviceKey) ls) :
    Run.Always step Private (fresh identity deviceKey) ls ∧
      Run.Along step (fun l w => l.1.sharing = false → (step l w).shared ⊆ w.shared)
        (fresh identity deviceKey) ls := by
  constructor
  . have hdiscreet : Run.Always step (fun w => Discreet w.identity w)
        (fresh identity deviceKey) ls := by
      refine Run.Along.always (I := fun w => Discreet w.identity w) h
        (discreet_fresh identity deviceKey) ?_
      intro l w hl hw
      exact discreet_step hash hl hw
    exact hdiscreet.mono fun w hw => private_of_discreet hash hw
  . apply h.mono
    intro l w _ hl
    exact shared_step l w hl

end NodeOp

end Canopee

namespace Canopee.NodeOp

open Canopee.Runtime
open Prog (exec)

section Witness

open Canopee.Transparent

/--
An object of Bob's.
-/
def bobNote : Object :=
  Object.new bob 0 [7] .blob

/--
Bob pushes an object to Alice, who then saves her contact list.
-/
def pushedNote : List (NodeOp × Env) :=
  [(.objectRequest (.store ⟨1, bobNote⟩), Env.quiet 0), (.saveContactList ⟨[], 0⟩, Env.quiet 1)]

theorem run_private_pushedNote :
    Run.Always step Private (fresh alice laptop) pushedNote ∧
      Run.Along step (fun l w => l.1.sharing = false → (step l w).shared ⊆ w.shared)
        (fresh alice laptop) pushedNote :=
  run_private collisionFree alice laptop pushedNote ⟨trivial, trivial, trivial⟩

end Witness

section Counterexample

open Canopee.Compact

/--
The laptop is paired with Alice's device and restarted.
-/
def pairing : List (NodeOp × Env) :=
  [(.initiatePairing, Env.quiet 0), (.acceptPairing pairingRequest, Env.quiet 0),
    (.reopen, Env.quiet 0)]

def paired : Runtime :=
  Run.run step (fresh bob laptop) pairing

theorem paired_evaluated :
    contactsObject.payload.owner = paired.identity.id ∧ contactsObject.id.text ∉ paired.shared ∧
      (exec (provide contactsObject.id) (Env.quiet 0) paired).1 = .ok (some ⟨1, contactsObject⟩) := by
  decide +kernel

/--
The laptop is Alice's then and serves her contact list to everybody, though nobody shared it.
-/
theorem provide_of_paired :
    contactsObject.payload.owner = paired.identity.id ∧ contactsObject.id.text ∉ paired.shared ∧
      (exec (provide contactsObject.id) (Env.quiet 0) paired).1 =
        .ok (some ⟨1, contactsObject⟩) ∧
      ¬ Run.Always step Private (fresh bob laptop) pairing := by
  obtain ⟨howner, hshared, hserved⟩ := paired_evaluated
  refine ⟨howner, hshared, hserved, ?_⟩
  intro halways
  exact not_private_of_served hserved howner hshared halways.last

end Counterexample

end Canopee.NodeOp
