import Canopee.Runtime.Network

/-!
This module contains the effects of the runtime and of its network commands on invariants of the
disk. Objects come onto the disk through `putVerified`, by a call of the runtime or of a peer.
-/

namespace Canopee

open Prog (Keeps Triple)

variable [Primitives]

namespace Runtime

/--
The same identity, object files and record files.
-/
structure SameDisk (w w' : Runtime) : Prop where
  identity : w'.identity = w.identity
  files : w'.storage.files = w.storage.files
  records : w'.records = w.records

/--
Nothing differs but names, the pairing session, the clock and the trace, in which no replication is
new.
-/
structure SameNode (w w' : Runtime) : Prop extends SameDisk w w' where
  deviceKey : w'.deviceKey = w.deviceKey
  keyFile : w'.keyFile = w.keyFile
  backups : w'.backups = w.backups
  cache : w'.cache = w.cache
  sidecar : w'.sidecar = w.sidecar
  shared : w'.shared = w.shared
  replicated : ∀ bundle, .replicated bundle ∈ w'.trace → .replicated bundle ∈ w.trace

theorem SameNode.refl (w : Runtime) : SameNode w w :=
  ⟨⟨rfl, rfl, rfl⟩, rfl, rfl, rfl, rfl, rfl, rfl, fun _ h => h⟩

theorem SameNode.trans {a b c : Runtime} (hab : SameNode a b) (hbc : SameNode b c) :
    SameNode a c where
  identity := hbc.identity.trans hab.identity
  files := hbc.files.trans hab.files
  records := hbc.records.trans hab.records
  deviceKey := hbc.deviceKey.trans hab.deviceKey
  keyFile := hbc.keyFile.trans hab.keyFile
  backups := hbc.backups.trans hab.backups
  cache := hbc.cache.trans hab.cache
  sidecar := hbc.sidecar.trans hab.sidecar
  shared := hbc.shared.trans hab.shared
  replicated bundle hbundle := hab.replicated bundle (hbc.replicated bundle hbundle)

theorem SameNode.tick (w : Runtime) : SameNode w { w with tick := w.tick + 1 } :=
  ⟨⟨rfl, rfl, rfl⟩, rfl, rfl, rfl, rfl, rfl, rfl, fun _ h => h⟩

theorem SameNode.log (w : Runtime) {event : NetEvent} (h : ∀ bundle, event ≠ .replicated bundle) :
    SameNode w (log event w) := by
  refine ⟨⟨rfl, rfl, rfl⟩, rfl, rfl, rfl, rfl, rfl, rfl, ?_⟩
  intro bundle hbundle
  rcases List.mem_append.mp hbundle with hold | hnew
  . exact hold
  . exact absurd (List.mem_singleton.mp hnew).symm (h bundle)

/--
The id is in the cache index, served last at `time`.
-/
def track (id : ObjectId) (time : UInt64) (w : Runtime) : Runtime :=
  { w with cache := w.cache.insert id.text time }

def untrack (id : ObjectId) (w : Runtime) : Runtime :=
  { w with cache := w.cache.erase id.text }

/--
The cache index goes to its sidecar file.
-/
def flush (w : Runtime) : Runtime :=
  { w with sidecar := w.cache }

def share (id : ObjectId) (w : Runtime) : Runtime :=
  { w with shared := insert id.text w.shared }

def unshare (id : ObjectId) (w : Runtime) : Runtime :=
  { w with shared := w.shared.erase id.text }

/--
`I` lasts while objects that `ok` admits are put and replicated, and while peers push such objects,
of which the ones of others are tracked in the cache index.
-/
structure Pushes (env : Env) (I : Runtime → Prop) (ok : Object → Prop) : Prop where
  frame : ∀ w w', SameNode w w' → I w → I w'
  put : ∀ w object, object.verify = true → ok object → I w → I (storeObject object w)
  pushed : ∀ t bundle, .store bundle ∈ env.inbound t → bundle.object.verify = true →
    ok bundle.object
  track : ∀ w object time, object.verify = true → ok object →
    (∃ w₀, I w₀ ∧ object.payload.owner ≠ w₀.identity.id) → I w → I (track object.id time w)
  touch : ∀ w id time, (w.cache.lookup id.text).isSome = true → I w → I (Runtime.track id time w)
  flush : ∀ w, I w → I (flush w)
  replicate : ∀ w bundle, ok bundle.object → I w → I (log (.replicated bundle) w)

theorem Pushes.ofDisk {env : Env} {I : Runtime → Prop} {ok : Object → Prop}
    (frame : ∀ w w', SameDisk w w' → I w → I w')
    (put : ∀ w object, object.verify = true → ok object → I w → I (storeObject object w))
    (pushed : ∀ t bundle, .store bundle ∈ env.inbound t → bundle.object.verify = true →
      ok bundle.object) : Pushes env I ok where
  frame w w' hsame := frame w w' hsame.toSameDisk
  put := put
  pushed := pushed
  track w _ _ _ _ _ := frame w _ ⟨rfl, rfl, rfl⟩
  touch w _ _ _ := frame w _ ⟨rfl, rfl, rfl⟩
  flush w := frame w _ ⟨rfl, rfl, rfl⟩
  replicate w _ _ := frame w _ ⟨rfl, rfl, rfl⟩

variable {env : Env} {I : Runtime → Prop} {ok : Object → Prop}

section Effects

theorem keeps_ofExcept {α : Type} (r : Except String α) :
    Keeps env I (ofExcept r) (fun a => r = .ok a) := by
  cases r with
  | ok a => exact Keeps.pure rfl
  | error e => exact Keeps.throw

theorem keeps_ofOption {α : Type} (e : String) (o : Option α) :
    Keeps env I (ofOption e o) (fun a => o = some a) := by
  cases o with
  | some a => exact Keeps.pure rfl
  | none => exact Keeps.throw

theorem triple_ofOption {α : Type} {P E : Runtime → Prop} (e : String) (o : Option α)
    (hE : ∀ w, P w → E w) : Triple env P (ofOption e o) (fun a w => o = some a ∧ P w) E := by
  cases o with
  | some a => exact Triple.pure fun w hw => ⟨rfl, hw⟩
  | none => exact Triple.throw hE

theorem keeps_getVerified (id : ObjectId) :
    Keeps env I (getVerified id) (fun object => object.id = id ∧ object.verify = true) := by
  apply Keeps.bind_get
  intro w _
  apply (keeps_ofExcept _).weaken
  intro object hobject
  exact ⟨Storage.id_of_getVerified hobject, Storage.verify_of_getVerified hobject⟩

theorem keeps_isOwned (object : Object) : Keeps env I (isOwned object)
    (fun owned => owned = false → ∃ w, I w ∧ object.payload.owner ≠ w.identity.id) := by
  apply Keeps.bind_get
  intro w hw
  apply Keeps.pure
  intro howned
  exact ⟨w, hw, by simpa using howned⟩

theorem keeps_isCached (id : ObjectId) : Keeps env I (isCached id) := by
  apply Keeps.bind_get
  intro w _
  exact Keeps.pure trivial

end Effects

namespace Pushes

section Effects

theorem keeps_modify (h : Pushes env I ok) {f : Runtime → Runtime} (hf : ∀ w, SameNode w (f w)) :
    Keeps env I (modify f : RunM PUnit) := by
  apply Keeps.modify
  intro w hw
  exact h.frame w (f w) (hf w) hw

theorem keeps_nextTick (h : Pushes env I ok) : Keeps env I nextTick := by
  constructor
  intro w hw
  exact ⟨h.frame w _ (.tick w) hw, trivial⟩

theorem keeps_now (h : Pushes env I ok) : Keeps env I now := by
  apply Keeps.bind h.keeps_nextTick
  intro t _
  apply Keeps.bind_read
  exact Keeps.pure trivial

theorem keeps_random (h : Pushes env I ok) : Keeps env I random := by
  apply Keeps.bind h.keeps_nextTick
  intro t _
  apply Keeps.bind_read
  exact Keeps.pure trivial

theorem keeps_writeAtomic (h : Pushes env I ok) {write : Runtime → Runtime}
    (hwrite : ∀ w, I w → I (write w)) : Keeps env I (writeAtomic write) := by
  apply Keeps.bind h.keeps_nextTick
  intro t _
  apply Keeps.bind_read
  split
  . exact Keeps.modify hwrite
  . exact Keeps.throw

theorem keeps_writeInPlace (h : Pushes env I ok) {write : Bytes → Runtime → Runtime}
    (hwrite : ∀ bytes w, I w → I (write bytes w)) (bytes : Bytes) :
    Keeps env I (writeInPlace write bytes) := by
  apply Keeps.bind h.keeps_nextTick
  intro t _
  apply Keeps.bind_read
  split
  . exact Keeps.modify (hwrite bytes)
  . exact Keeps.throw
  . apply Keeps.bind (Keeps.modify (hwrite _))
    intro _ _
    exact Keeps.throw

theorem keeps_putVerified (h : Pushes env I ok) {object : Object}
    (hok : object.verify = true → ok object) :
    Keeps env I (putVerified object) (fun _ => object.verify = true) := by
  unfold putVerified
  split
  . exact Keeps.throw
  . next hverify =>
    have hverify : object.verify = true := by simpa using hverify
    apply Keeps.weaken (Q := fun _ => True)
    . apply h.keeps_writeAtomic
      intro w hw
      exact h.put w object hverify (hok hverify) hw
    . intro _ _
      exact hverify

theorem keeps_list (h : Pushes env I ok) : Keeps env I list := by
  apply Keeps.bind h.keeps_nextTick
  intro t _
  apply Keeps.bind_read
  apply Keeps.bind_get
  intro w _
  split
  . exact Keeps.throw
  . exact Keeps.pure trivial

theorem keeps_setName (h : Pushes env I ok) (id : ObjectId) (name : String) :
    Keeps env I (setName id name) := by
  apply h.keeps_writeInPlace
  intro bytes w hw
  exact h.frame w _ ⟨⟨rfl, rfl, rfl⟩, rfl, rfl, rfl, rfl, rfl, rfl, fun _ h => h⟩ hw

theorem keeps_persist (h : Pushes env I ok) : Keeps env I persist :=
  h.keeps_writeAtomic h.flush

theorem keeps_attempt_persist (h : Pushes env I ok) : Keeps env I (do
    let _ ← Prog.attempt persist
    pure ()) := by
  apply Keeps.bind (Q := fun _ => True)
  . apply Keeps.attempt h.keeps_persist
    intro _
    trivial
  . intro _ _
    exact Keeps.pure trivial

theorem keeps_markCached (h : Pushes env I ok) {id : ObjectId}
    (hmark : ∀ w time, I w → I (Runtime.track id time w)) : Keeps env I (markCached id) := by
  apply Keeps.bind h.keeps_now
  intro time _
  apply Keeps.bind
  . apply Keeps.modify
    intro w hw
    exact hmark w _ hw
  . intro _ _
    exact h.keeps_attempt_persist

theorem keeps_markCached_of_verify (h : Pushes env I ok) {object : Object}
    (hverify : object.verify = true) (hok : ok object)
    (hforeign : ∃ w, I w ∧ object.payload.owner ≠ w.identity.id) :
    Keeps env I (markCached object.id) := by
  apply h.keeps_markCached
  intro w time hw
  exact h.track w object time hverify hok hforeign hw

theorem keeps_touchServed (h : Pushes env I ok) (id : ObjectId) :
    Keeps env I (touchServed id) := by
  apply Keeps.bind h.keeps_now
  intro time _
  apply Keeps.modify
  intro w hw
  split
  . next hlookup => exact h.touch w id _ (by rw [hlookup]; rfl) hw
  . exact hw

theorem keeps_uncache (h : Pushes env I ok) {id : ObjectId}
    (huntrack : ∀ w, I w → I (untrack id w)) : Keeps env I (uncache id) := by
  apply Keeps.bind
  . exact Keeps.modify huntrack
  . intro _ _
    exact h.keeps_attempt_persist

end Effects

section Provider

theorem keeps_provide (h : Pushes env I ok) (id : ObjectId) : Keeps env I (provide id) := by
  apply Keeps.bind (Q := fun _ => True)
  . apply Keeps.attempt ((keeps_getVerified id).weaken fun _ _ => trivial)
    intro _
    trivial
  . intro r _
    split
    . exact Keeps.pure trivial
    . apply Keeps.bind (keeps_isCached id)
      intro cached _
      split
      . apply Keeps.bind (h.keeps_touchServed id)
        intro _ _
        exact Keeps.pure trivial
      . apply Keeps.bind_get
        intro w _
        split
        . exact Keeps.pure trivial
        . exact Keeps.pure trivial

theorem keeps_acceptPush (h : Pushes env I ok) {object : Object}
    (hok : object.verify = true → ok object) : Keeps env I (acceptPush object) := by
  apply Keeps.bind (h.keeps_putVerified hok)
  intro _ hverify
  apply Keeps.bind (keeps_isOwned object)
  intro owned howned
  split
  . exact Keeps.pure trivial
  . next hfalse =>
    exact h.keeps_markCached_of_verify hverify (hok hverify) (howned (by simpa using hfalse))

theorem keeps_handleObjectRequest (h : Pushes env I ok) {request : ObjectRequest}
    (hok : ∀ bundle, request = .store bundle → bundle.object.verify = true → ok bundle.object) :
    Keeps env I (handleObjectRequest request) := by
  cases request with
  | getObject id =>
    apply Keeps.bind (h.keeps_provide id)
    intro served _
    split
    . exact Keeps.pure trivial
    . exact Keeps.pure trivial
  | store bundle =>
    apply Keeps.bind (Q := fun _ => True)
    . apply Keeps.attempt (h.keeps_acceptPush (hok bundle rfl))
      intro _
      trivial
    . intro r _
      split
      . exact Keeps.pure trivial
      . exact Keeps.pure trivial

theorem keeps_handleAll (h : Pushes env I ok) {requests : List ObjectRequest}
    (hok : ∀ bundle, .store bundle ∈ requests → bundle.object.verify = true → ok bundle.object) :
    Keeps env I (handleAll requests) := by
  induction requests with
  | nil => exact Keeps.pure trivial
  | cons request requests ih =>
    apply Keeps.bind (Q := fun _ => True)
    . apply h.keeps_handleObjectRequest
      intro bundle hrequest
      subst hrequest
      exact hok bundle List.mem_cons_self
    . intro _ _
      apply ih
      intro bundle hbundle
      exact hok bundle (List.mem_cons_of_mem _ hbundle)

end Provider

section Network

theorem keeps_settle (h : Pushes env I ok) : Keeps env I settle := by
  apply Keeps.bind h.keeps_nextTick
  intro t _
  apply Keeps.bind_read
  apply Keeps.bind (h.keeps_handleAll (h.pushed t))
  intro _ _
  exact Keeps.pure trivial

theorem keeps_connectedPeers (h : Pushes env I ok) : Keeps env I connectedPeers := by
  apply Keeps.bind h.keeps_settle
  intro t _
  apply Keeps.bind_read
  exact (keeps_ofExcept _).weaken fun _ _ => trivial

/--
Some peer answers a request for `id` with `bundle`.
-/
def Answers (env : Env) (id : ObjectId) (bundle : ExportBundle) : Prop :=
  ∃ t peer, env.exchange t peer (.getObject id) = .ok (.object bundle)

omit [Primitives] in
theorem answers_of_objectOutcome {t : Nat} {peer : PeerId} {id : ObjectId} {bundle : ExportBundle}
    (h : objectOutcome (env.exchange t peer (.getObject id)) = .ok bundle) :
    Answers env id bundle := by
  refine ⟨t, peer, ?_⟩
  generalize env.exchange t peer (.getObject id) = answer at h
  unfold objectOutcome at h
  split at h
  . simp only [Except.ok.injEq] at h
    rw [h]
  all_goals contradiction

theorem keeps_getObject (h : Pushes env I ok) (peer : PeerId) (id : ObjectId) :
    Keeps env I (getObject peer id) (Answers env id) := by
  apply Keeps.bind h.keeps_settle
  intro t _
  apply Keeps.bind_read
  apply Keeps.bind
  . exact h.keeps_modify fun w => .log w nofun
  . intro _ _
    apply (keeps_ofExcept _).weaken
    intro bundle hbundle
    exact answers_of_objectOutcome hbundle

theorem keeps_findProviders (h : Pushes env I ok) (id : ObjectId) :
    Keeps env I (findProviders id) := by
  apply Keeps.bind h.keeps_settle
  intro t _
  apply Keeps.bind_read
  exact (keeps_ofExcept _).weaken fun _ _ => trivial

theorem keeps_getRecord (h : Pushes env I ok) (key : Bytes) : Keeps env I (getRecord key) := by
  apply Keeps.bind h.keeps_settle
  intro t _
  apply Keeps.bind_read
  exact (keeps_ofExcept _).weaken fun _ _ => trivial

theorem keeps_putRecord (h : Pushes env I ok) (key value : Bytes) :
    Keeps env I (putRecord key value) :=
  h.keeps_modify fun w => .log w nofun

theorem keeps_announceProvider (h : Pushes env I ok) (id : ObjectId) :
    Keeps env I (announceProvider id) := by
  apply Keeps.bind h.keeps_nextTick
  intro t _
  apply Keeps.bind_read
  split
  . exact h.keeps_modify fun w => .log w nofun
  . exact Keeps.throw

theorem keeps_unannounce (h : Pushes env I ok) (id : ObjectId) :
    Keeps env I (unannounce id) := by
  apply Keeps.bind h.keeps_nextTick
  intro t _
  apply Keeps.bind_read
  split
  . exact h.keeps_modify fun w => .log w nofun
  . exact Keeps.throw

theorem keeps_replicateObject (h : Pushes env I ok) {bundle : ExportBundle}
    (hok : ok bundle.object) : Keeps env I (replicateObject bundle) := by
  apply Keeps.bind h.keeps_settle
  intro t _
  apply Keeps.bind_read
  apply Keeps.bind (keeps_ofExcept _)
  intro targets _
  apply Keeps.bind
  . exact Keeps.modify fun w hw => h.replicate w bundle hok hw
  . intro _ _
    exact (keeps_ofExcept _).weaken fun _ _ => trivial

end Network

end Pushes

end Runtime

end Canopee
