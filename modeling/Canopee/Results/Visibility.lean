import Canopee.Results.Anchored
import Canopee.Results.Interleaving
import Canopee.Results.Labels
import Canopee.Results.OwnerRecords
import Canopee.Results.Providers

/-!
This module contains revocations as another node sees them: the pointer that a check uses, the index
that it gets for it, and what has to hold for a check to notice a revocation.
-/

namespace Canopee

open Primitives
open Canopee.Runtime
open Prog (Keeps Triple exec exec_bind_ok exec_bind_eq_iff)

variable [Primitives]

namespace Runtime

section Used

variable {env : Env} {w : Runtime} {owner : IdentityId} {name : String}

/--
The record that the DHT has now.
-/
def dhtPointerAt (env : Env) (w : Runtime) (owner : IdentityId) (name : String) :
    Option AppPointerRecord :=
  (env.record w.tick (AppPointerRecord.key owner name)).toOption.join.bind (acceptRecord owner name)

/--
The pointer that a resolution uses: the cached one, else the newest stored one, else that of the DHT.
-/
def usedPointer (env : Env) (w : Runtime) (owner : IdentityId) (name : String) :
    Option AppPointerRecord :=
  match cachedPointer w owner name with
  | some record => some record
  | none =>
    match scannedPointer env w owner name with
    | some record => some record
    | none => dhtPointerAt env { w with tick := w.tick + 1 } owner name

theorem dhtPointer_fst (env : Env) (w : Runtime) (owner : IdentityId) (name : String) :
    (exec (dhtPointer owner name) env w).1 = .ok (dhtPointerAt env w owner name) := by
  unfold dhtPointer dhtPointerAt
  rw [exec_bind_ok (Prog.exec_attempt _ env w), getRecord_fst]
  cases env.record w.tick (AppPointerRecord.key owner name) with
  | error e => rfl
  | ok bytes => rfl

theorem resolvePointer_fst (env : Env) (w : Runtime) (owner : IdentityId) (name : String) :
    (exec (resolvePointer owner name) env w).1 = .ok (usedPointer env w owner name) := by
  unfold usedPointer
  cases hcached : cachedPointer w owner name with
  | some record => rw [resolvePointer_of_cached hcached]
  | none =>
    cases hscanned : scannedPointer env w owner name with
    | some record => exact resolvePointer_of_scanned hcached hscanned
    | none =>
      have hdht := dhtPointer_fst env { w with tick := w.tick + 1 } owner name
      unfold resolvePointer
      rw [exec_bind_ok (Prog.exec_get env w)]
      simp only [hcached]
      rw [exec_bind_ok (exec_latestPointerRecord env w owner name), hscanned]
      dsimp only
      rw [exec_bind_ok (Prod.ext hdht rfl)]
      cases dhtPointerAt env { w with tick := w.tick + 1 } owner name with
      | none => rfl
      | some record => rfl

end Used

section Fetch

variable {env : Env} {w : Runtime} {id : ObjectId}

/--
There is no file under `id`.
-/
def Vacant (id : ObjectId) (w : Runtime) : Prop :=
  w.storage.existsObject id = false

/--
Every peer that answers a request for `id` answers the object, nobody pushes it meanwhile, and files
can be written.
-/
structure Undisturbed (env : Env) (id : ObjectId) : Prop where
  answered : ∀ bundle, Pushes.Answers env id bundle →
    bundle.object.id = id ∧ bundle.object.verify = true
  pushed : ∀ t bundle, .store bundle ∈ env.inbound t → bundle.object.id ≠ id
  disk : ∀ t, env.fault t = none

theorem Undisturbed.pushes (h : Undisturbed env id) :
    Pushes env (Vacant id) (fun object => object.id ≠ id) := by
  apply Pushes.ofDisk
  . intro w w' hdisk hw
    rw [Vacant, Storage.existsObject, hdisk.files]
    exact hw
  . intro w object _ hne hw
    have htext : id.text ≠ object.id.text := by
      rw [ne_eq, ObjectId.text_inj]
      exact Ne.symm hne
    rw [Vacant, Storage.existsObject, storeObject, Storage.write, AList.lookup_insert_ne htext]
    exact hw
  . intro t bundle hpushed _
    exact h.pushed t bundle hpushed

theorem Vacant.getVerified (h : Vacant id w) (object : Object) :
    w.storage.getVerified id ≠ .ok object := by
  intro hstored
  obtain ⟨bytes, hlookup, _⟩ := Storage.getVerified_eq_ok.mp hstored
  rw [Vacant, Storage.existsObject, hlookup] at h
  cases h

theorem settle_vacant (h : Undisturbed env id) :
    Triple env (Vacant id) settle (fun _ => Vacant id) (fun _ => False) := by
  constructor
  intro w hw
  have hfst := settle_fst env w
  have hstate := h.pushes.keeps_settle.state hw
  generalize exec settle env w = res at hfst hstate
  rcases res with ⟨_ | t, v⟩
  . cases hfst
  . exact hstate

theorem getObject_triple (h : Undisturbed env id) (peer : PeerId) :
    Triple env (Vacant id) (getObject peer id)
      (fun bundle w => (bundle.object.id = id ∧ bundle.object.verify = true) ∧ Vacant id w)
      (fun w => (∃ t e, objectOutcome (env.exchange t peer (.getObject id)) = .error e) ∧
        Vacant id w) := by
  apply Triple.bind ((settle_vacant h).conseq (fun _ hw => hw) (fun _ _ hw => hw) fun _ => False.elim)
  intro t
  constructor
  intro w hw
  have hlogged (answer : Except String ExportBundle) : Vacant id (log (.asked peer id answer) w) :=
    h.pushes.frame w _ (.log w nofun) hw
  rw [exec_bind_ok (Prog.exec_read env w)]
  dsimp only
  rw [exec_bind_ok (Prog.exec_modify _ env w), exec_ofExcept]
  cases houtcome : objectOutcome (env.exchange t peer (.getObject id)) with
  | error e => exact ⟨⟨t, e, houtcome⟩, hlogged _⟩
  | ok bundle => exact ⟨h.answered bundle (Pushes.answers_of_objectOutcome houtcome), hlogged _⟩

/--
A peer has answered the object, or it has failed to and the object is still missing.
-/
def Asked (env : Env) (peer : PeerId) (id : ObjectId) : Except String ExportBundle → Runtime → Prop
  | .ok bundle, w => (bundle.object.id = id ∧ bundle.object.verify = true) ∧ Vacant id w
  | .error _, w =>
    (∃ t e, objectOutcome (env.exchange t peer (.getObject id)) = .error e) ∧ Vacant id w

/--
Asking peers in turn finds the object, unless all of them have failed to answer.
-/
theorem fetchFrom_undisturbed (h : Undisturbed env id) (peers : List PeerId) :
    Triple env (Vacant id) (fetchFrom id peers)
      (fun r w => match r with
        | some object => object.id = id ∧ object.verify = true
        | none => Vacant id w ∧ ∀ peer ∈ peers,
            ∃ t e, objectOutcome (env.exchange t peer (.getObject id)) = .error e)
      (fun _ => False) := by
  induction peers with
  | nil =>
    apply Triple.pure
    intro w hw
    exact ⟨hw, by simp⟩
  | cons peer peers ih =>
    apply Triple.bind (Q := Asked env peer id)
    . apply Triple.attempt
      apply (getObject_triple h peer).conseq (fun _ hw => hw) (fun _ _ hw => hw)
      intro w hw _
      exact hw
    . intro r
      cases r with
      | ok bundle =>
        apply Triple.of_and
        intro hbundle
        constructor
        intro w hw
        have himport : (exec (importBundle bundle) env w).1 = .ok () :=
          importBundle_eq_ok.mpr ⟨hbundle.1 ▸ hw, hbundle.2, h.disk _⟩
        rw [exec_bind_ok (Prod.ext himport rfl)]
        exact hbundle
      | error e =>
        apply Triple.of_and
        intro hfailed
        apply ih.conseq (fun _ hw => hw) _ fun _ hw => hw
        intro r w hr
        cases r with
        | some object => exact hr
        | none =>
          refine ⟨hr.1, ?_⟩
          intro other hother
          rcases List.mem_cons.mp hother with rfl | hmem
          . exact hfailed
          . exact hr.2 other hmem

/--
`peer` is always connected and always answers a request for `id`.
-/
structure Serves (env : Env) (peer : PeerId) (id : ObjectId) : Prop where
  connected : ∀ t, ∃ peers, env.peers t = .ok peers ∧ peer ∈ peers
  answers : ∀ t, ∃ bundle, objectOutcome (env.exchange t peer (.getObject id)) = .ok bundle

omit [Primitives] in
theorem Serves.not_failed {peer : PeerId} (h : Serves env peer id) :
    ¬ ∃ t e, objectOutcome (env.exchange t peer (.getObject id)) = .error e := by
  intro ⟨t, e, hfailed⟩
  obtain ⟨bundle, hbundle⟩ := h.answers t
  rw [hfailed] at hbundle
  cases hbundle

theorem connectedPeers_triple (h : Undisturbed env id) {peer : PeerId} (hserves : Serves env peer id) :
    Triple env (Vacant id) connectedPeers (fun peers w => peer ∈ peers ∧ Vacant id w)
      (fun _ => False) := by
  apply Triple.bind (settle_vacant h)
  intro t
  constructor
  intro w hw
  obtain ⟨peers, hpeers, hmem⟩ := hserves.connected t
  rw [exec_bind_ok (Prog.exec_read env w), exec_ofExcept, hpeers]
  exact ⟨hmem, hw⟩

/--
A fetch finds the object if one connected peer serves it: the named source is asked apart from the
other peers, so that peer is asked in one of the two rounds.
-/
theorem fetchObject_undisturbed (h : Undisturbed env id) {peer : PeerId}
    (hserves : Serves env peer id) (source : Option PeerId) :
    Triple env (Vacant id) (fetchObject id source)
      (fun object _ => object.id = id ∧ object.verify = true) (fun _ => False) := by
  apply Triple.bind (Q := fun r w => (∃ e, r = .error e) ∧ Vacant id w)
  . constructor
    intro w hw
    rw [Prog.exec_attempt, exec_getVerified]
    cases hread : w.storage.getVerified id with
    | ok object => exact absurd hread (hw.getVerified object)
    | error e => exact ⟨⟨e, rfl⟩, hw⟩
  . intro r
    apply Triple.of_and
    rintro ⟨e, rfl⟩
    apply Triple.bind (connectedPeers_triple h hserves)
    intro connected
    apply Triple.of_and
    intro hmem
    apply Triple.bind (fetchFrom_undisturbed h _)
    intro near
    cases near with
    | some object => exact Triple.pure fun _ hw => hw
    | none =>
      apply Triple.of_and'
      intro hnear
      apply Triple.bind (fetchFrom_undisturbed h _)
      intro named
      cases named with
      | some object => exact Triple.pure fun _ hw => hw
      | none =>
        constructor
        intro w ⟨_, hnamed⟩
        exfalso
        apply hserves.not_failed
        by_cases hsource : some peer = source
        . exact hnamed peer (by simp [← hsource])
        . exact hnear peer (List.mem_filter.mpr ⟨hmem, by simpa using hsource⟩)

end Fetch

section Check

variable {env : Env} {w : Runtime} {owner : IdentityId} {id : CapabilityId} {manifest : ObjectId}

/--
The object with this id, wherever it is, is a capability index of `owner` in which `id` is revoked.
-/
def RevokesAt (owner : IdentityId) (id : CapabilityId) (manifest : ObjectId) : Prop :=
  ∃ payload index, ObjectId.fromPayload payload = manifest ∧ payload.owner = owner ∧
    CapabilityIndex.codec.deserialize payload.data = some index ∧ revokedIn id index = true

theorem RevokesAt.of_object (hash : CollisionFree) (h : RevokesAt owner id manifest)
    {object : Object} (hid : object.id = manifest) (hverify : object.verify = true) :
    object.payload.owner = owner ∧
      ∃ index, object.decode CapabilityIndex.codec = some index ∧ revokedIn id index = true := by
  obtain ⟨payload, index, hmanifest, howner, hdecode, hrevoked⟩ := h
  rw [← hmanifest, Object.id_of_verify hverify, ObjectId.fromPayload_inj hash] at hid
  rw [Object.decode, hid]
  exact ⟨howner, index, hdecode, hrevoked⟩

/--
This node's provider answers a request for the object: it is stored, and tracked in the cache index
or in the serving set.
-/
def Provides (w : Runtime) (id : ObjectId) : Prop :=
  ∃ object, w.storage.getVerified id = .ok object ∧ (id.text ∈ w.cache ∨ id.text ∈ w.shared)

theorem Provides.answer (h : Provides w manifest) (env : Env) :
    ∃ bundle, (exec (handleObjectRequest (.getObject manifest)) env w).1 = .ok (.object bundle) := by
  obtain ⟨object, hstored, hserved⟩ := h
  have hexport : object.export.toOption = some ⟨1, object⟩ := by
    simp [Object.export, Storage.verify_of_getVerified hstored, Except.toOption]
  have hprovide : ∃ v, exec (provide manifest) env w = (.ok (some ⟨1, object⟩), v) := by
    unfold provide
    rw [exec_bind_ok (Prog.exec_attempt _ env w), exec_getVerified, hstored]
    dsimp only
    have hcached : exec (isCached manifest) env w =
        (.ok (w.cache.lookup manifest.text).isSome, w) := rfl
    rw [exec_bind_ok hcached]
    split
    . have htouch : exec (touchServed manifest) env w =
          (.ok (), (exec (touchServed manifest) env w).2) := rfl
      rw [exec_bind_ok htouch, hexport]
      exact ⟨_, rfl⟩
    . next huncached =>
      have hshared : manifest.text ∈ w.shared := by
        apply hserved.resolve_left
        intro hmem
        exact huncached (AList.lookup_isSome.mpr hmem)
      rw [exec_bind_ok (Prog.exec_get env w), if_pos hshared, hexport]
      exact ⟨_, rfl⟩
  obtain ⟨v, hprovide⟩ := hprovide
  refine ⟨⟨1, object⟩, ?_⟩
  unfold handleObjectRequest
  rw [exec_bind_ok hprovide]
  rfl

/--
The node can get the object: it is stored, or it can be fetched undisturbed from an issuer's node that
provides it.
-/
def Obtainable (env : Env) (issuer w : Runtime) (manifest : ObjectId) : Prop :=
  Readable manifest w ∨ Vacant manifest w ∧ Undisturbed env manifest ∧ Provides issuer manifest

/--
The issuer's node is connected all the time, and answers a request for an object as its provider does.
-/
structure Connected (env : Env) (issuer : Runtime) : Prop where
  peer : ∀ t, ∃ peers, env.peers t = .ok peers ∧ issuer.deviceKey.peerId ∈ peers
  answers : ∀ t id, ∃ later, env.exchange t issuer.deviceKey.peerId (.getObject id) =
    (exec (handleObjectRequest (.getObject id)) later issuer).1

theorem Connected.serves {issuer : Runtime} (h : Connected env issuer)
    (hprovides : Provides issuer manifest) : Serves env issuer.deviceKey.peerId manifest where
  connected := h.peer
  answers t := by
    obtain ⟨later, hexchange⟩ := h.answers t manifest
    obtain ⟨bundle, hbundle⟩ := hprovides.answer later
    rw [hexchange, hbundle]
    exact ⟨bundle, rfl⟩

theorem ownedObject_of_obtainable (hash : CollisionFree) {issuer : Runtime}
    (hconnected : Connected env issuer) (hrevokes : RevokesAt owner id manifest)
    (hobtainable : Obtainable env issuer w manifest) :
    ∃ object index, (exec (ownedObject owner manifest) env w).1 = .ok (some object) ∧
      object.decode CapabilityIndex.codec = some index ∧ revokedIn id index = true := by
  have hget : exec (Prog.attempt (getVerified manifest)) env w =
      (.ok (w.storage.getVerified manifest), w) := by
    rw [Prog.exec_attempt, exec_getVerified]
  unfold ownedObject
  rw [exec_bind_ok hget]
  rcases hobtainable with ⟨object, hstored⟩ | ⟨hvacant, hundisturbed, hprovides⟩
  . obtain ⟨howner, index, hindex⟩ := hrevokes.of_object hash (Storage.id_of_getVerified hstored)
      (Storage.verify_of_getVerified hstored)
    rw [hstored]
    dsimp only
    rw [if_pos howner]
    exact ⟨object, index, rfl, hindex⟩
  . have hfetch := (fetchObject_undisturbed hundisturbed (hconnected.serves hprovides)
      (ownerPeerId owner)).spec w hvacant
    cases hread : w.storage.getVerified manifest with
    | ok object => exact absurd hread (hvacant.getVerified object)
    | error e =>
      dsimp only
      rw [exec_bind_ok (Prog.exec_attempt _ env w)]
      generalize exec (fetchObject manifest (ownerPeerId owner)) env w = res at hfetch
      rcases res with ⟨_ | object, v⟩
      . exact hfetch.elim
      . obtain ⟨howner, index, hindex⟩ := hrevokes.of_object hash hfetch.1 hfetch.2
        dsimp only
        rw [if_pos howner]
        exact ⟨object, index, rfl, hindex⟩

theorem Obtainable.resolved {issuer : Runtime} (h : Obtainable env issuer w manifest)
    (owner : IdentityId) (name : String) :
    Obtainable env issuer (exec (resolvePointer owner name) env w).2 manifest := by
  rcases h with hreadable | ⟨hvacant, hundisturbed, hprovides⟩
  . left
    apply ((pushes_readable env manifest).keeps_resolvePointer _).state hreadable
    intro _ _ hw _
    exact readable_congr rfl hw
  . refine .inr ⟨?_, hundisturbed, hprovides⟩
    apply (hundisturbed.pushes.keeps_resolvePointer _).state hvacant
    intro _ _ hw _
    exact hw

/--
A check finds the revocation if the pointer that it uses names an index that has it, and the node can
get that index.
-/
theorem checkRemoteRevocation_finds (hash : CollisionFree) {issuer : Runtime}
    (hconnected : Connected env issuer) {record : AppPointerRecord}
    (hused : usedPointer env w owner RECORD_CAPABILITIES = some record)
    (hrevokes : RevokesAt owner id record.manifest)
    (hobtainable : Obtainable env issuer w record.manifest) :
    (exec (checkRemoteRevocation owner id) env w).1 = .ok true := by
  have hresolve := resolvePointer_fst env w owner RECORD_CAPABILITIES
  rw [hused] at hresolve
  obtain ⟨object, index, howned, hdecode, hrevoked⟩ := ownedObject_of_obtainable hash hconnected
    hrevokes (hobtainable.resolved owner RECORD_CAPABILITIES)
  have hobject : (exec (resolveOwnerObject owner RECORD_CAPABILITIES) env w).1 =
      .ok (some object) := by
    unfold resolveOwnerObject
    rw [exec_bind_ok (Prod.ext hresolve rfl)]
    exact howned
  unfold checkRemoteRevocation
  rw [exec_bind_ok (Prog.exec_attempt _ env w), hobject]
  dsimp only
  rw [hdecode]
  dsimp only
  rw [hrevoked]
  rfl

theorem checkCapability_of_revocation {capability : Capability}
    (hother : capability.issuer ≠ w.identity.id)
    (hrevoked : capability.verify = true →
      capability.isActiveAt (Capability.nowTs (env.clock w.tick)) = true →
      (exec (checkRemoteRevocation capability.issuer capability.id) env
        { w with tick := w.tick + 1 }).1 = .ok true)
    {verdict : Bool × String} (h : (exec (checkCapability capability) env w).1 = .ok verdict) :
    verdict.1 = false := by
  unfold checkCapability at h
  rw [exec_bind_ok (exec_now env w)] at h
  dsimp only at h
  split at h
  . cases h
    rfl
  . next hverify =>
    split at h
    . cases h
      rfl
    . next hactive =>
      have hremote := hrevoked (by simpa using hverify) (by simpa using hactive)
      unfold isRevoked at h
      rw [Prog.bind_assoc, exec_bind_ok (Prog.exec_get env _)] at h
      simp only [hother, if_false] at h
      rw [exec_bind_ok (Prod.ext hremote rfl)] at h
      cases h
      rfl

end Check

section Revoke

variable {env : Env} {w v : Runtime} {id : CapabilityId}

omit [Primitives] in
theorem revokedIn_revokeFirst {entries revoked : List CapabilityEntry} (version : UInt64)
    (h : CapabilityIndex.revokeFirst id entries = some revoked) :
    revokedIn id ⟨revoked, version⟩ = true := by
  induction entries generalizing revoked with
  | nil => cases h
  | cons entry entries ih =>
    unfold CapabilityIndex.revokeFirst at h
    split at h
    . next hid =>
      cases h
      simp [revokedIn, CapabilityIndex.byId, hid]
    . next hid =>
      obtain ⟨rest, hrest, rfl⟩ := Option.map_eq_some_iff.mp h
      simpa [revokedIn, CapabilityIndex.byId, hid] using ih hrest

theorem pointer_of_revokeCapability (laws : SignatureLaws) (hash : CollisionFree)
    (h : exec (revokeCapability id) env w = (.ok (), v)) :
    ∃ record, cachedPointer v v.identity.id RECORD_CAPABILITIES = some record ∧
      RevokesAt v.identity.id id record.manifest := by
  have hcases := Issuer.revoke_cases laws hash env ⟨w, []⟩ id
  rw [h] at hcases
  obtain ⟨index, entries, _, hrevoked, payload, hpublishes, hdecode⟩ := hcases
  obtain ⟨record, hcached, hmanifest⟩ := hpublishes.cached
  exact ⟨record, hcached, payload, _, hmanifest.symm, hpublishes.owner, hdecode,
    revokedIn_revokeFirst _ hrevoked⟩

theorem acceptRecord_of_cached {owner : IdentityId} {name : String} {record : AppPointerRecord}
    (h : cachedPointer w owner name = some record) :
    acceptRecord owner name (AppPointerRecord.codec.serialize record) = some record := by
  have hauthentic := authentic_of_cachedPointer h
  unfold acceptRecord
  rw [Codec.deserialize_serialize]
  dsimp only
  rw [if_pos ⟨hauthentic.owner, hauthentic.name, hauthentic.verify⟩]

end Revoke

end Runtime

/--
A revocation that the issuer's node has acknowledged, and the pointer that it has published with it.
-/
structure Announcement where
  owner : IdentityId
  id : CapabilityId
  record : AppPointerRecord

/--
The node of an issuer, a node that checks capabilities, and the acknowledged revocations.
-/
structure Checking where
  issuer : Runtime
  checker : Runtime
  announced : List Announcement

inductive Turn where
  | issuer (op : NodeOp)
  | checker (op : NodeOp)

namespace Checking

/--
What a request acknowledges to the user of the issuer's node.
-/
def acknowledges (env : Env) (w : Runtime) : NodeOp → List Announcement
  | .revokeCapability id =>
    match exec (revokeCapability id) env w with
    | (.ok _, v) =>
      ((cachedPointer v v.identity.id RECORD_CAPABILITIES).map fun record =>
        ⟨v.identity.id, id, record⟩).toList
    | (.error _, _) => []
  | _ => []

def step : Turn × Env → Checking → Checking
  | (.issuer op, env), s => { s with
    issuer := NodeOp.step (op, env) s.issuer
    announced := acknowledges env s.issuer op ++ s.announced }
  | (.checker op, env), s => { s with checker := NodeOp.step (op, env) s.checker }

section Specification

/--
The pointer has been pushed into the store of the node.
-/
def Pushed (w : Runtime) (a : Announcement) : Prop :=
  ∃ id, w.storage.pointerFor a.owner RECORD_CAPABILITIES id = some a.record

/--
The DHT answers with the pointer.
-/
def InDht (env : Env) (a : Announcement) : Prop :=
  ∀ t, env.record t (AppPointerRecord.key a.owner RECORD_CAPABILITIES) =
    .ok (some (AppPointerRecord.codec.serialize a.record))

/--
A check of `capability` on the other node, once its revocation is acknowledged, the new pointer is
delivered and the issuer's node is there to answer.
-/
structure Asks (env : Env) (capability : Capability) (s : Checking) (a : Announcement) : Prop where
  mem : a ∈ s.announced
  id : capability.id = a.id
  issuer : capability.issuer = a.owner
  elsewhere : a.owner ≠ s.checker.identity.id
  delivered : InDht env a ∨ Pushed s.checker a
  connected : Connected env s.issuer

/--
A revoked capability is no longer reported as valid.
-/
def Visible : Turn × Env → Checking → Prop
  | (.checker (.checkCapability capability), env), s => ∀ a, Asks env capability s a →
    ∀ verdict, (exec (checkCapability capability) env s.checker).1 = .ok verdict → verdict.1 = false
  | _, _ => True

/--
The pointer that a check finds on the node itself: the cached one, else the newest stored one. The
check has read the clock by then.
-/
def localPointer (env : Env) (w : Runtime) (owner : IdentityId) : Option AppPointerRecord :=
  (cachedPointer w owner RECORD_CAPABILITIES).or
    (scannedPointer env { w with tick := w.tick + 1 } owner RECORD_CAPABILITIES)

/--
No stale pointer is in the way of the new one, and the node can get the index that its pointer names.
-/
structure Informed (env : Env) (s : Checking) (a : Announcement) : Prop where
  -- a scan of the store that breaks off finds nothing
  scanned : Pushed s.checker a → (localPointer env s.checker a.owner).isSome = true
  current : ∀ record, localPointer env s.checker a.owner = some record →
    RevokesAt a.owner a.id record.manifest
  obtainable : Obtainable env s.issuer s.checker
    ((localPointer env s.checker a.owner).getD a.record).manifest

def Sees : Turn × Env → Checking → Prop
  | (.checker (.checkCapability capability), env), s => ∀ a, Asks env capability s a →
    capability.verify = true →
    capability.isActiveAt (Capability.nowTs (env.clock s.checker.tick)) = true → Informed env s a
  | _, _ => True

end Specification

section Invariant

/--
The invariant: the pointers that were published with the acknowledged revocations are valid, and name
indexes that have these.
-/
def Published (s : Checking) : Prop :=
  ∀ a ∈ s.announced, RevokesAt a.owner a.id a.record.manifest ∧
    acceptRecord a.owner RECORD_CAPABILITIES (AppPointerRecord.codec.serialize a.record) =
      some a.record

theorem published_acknowledges (laws : SignatureLaws) (hash : CollisionFree) {env : Env}
    {w : Runtime} {op : NodeOp} {a : Announcement} (h : a ∈ acknowledges env w op) :
    RevokesAt a.owner a.id a.record.manifest ∧
      acceptRecord a.owner RECORD_CAPABILITIES (AppPointerRecord.codec.serialize a.record) =
        some a.record := by
  cases op with
  | revokeCapability id =>
    unfold acknowledges at h
    dsimp only at h
    cases hrevoke : exec (revokeCapability id) env w with
    | mk r v =>
      rw [hrevoke] at h
      cases r with
      | error e => cases h
      | ok u =>
        obtain ⟨record, hcached, hrevokes⟩ := pointer_of_revokeCapability laws hash hrevoke
        dsimp only at h
        rw [hcached, Option.map_some, Option.mem_toList] at h
        cases h
        exact ⟨hrevokes, acceptRecord_of_cached hcached⟩
  | _ => cases h

theorem published_step (laws : SignatureLaws) (hash : CollisionFree) (l : Turn × Env) {s : Checking}
    (h : Published s) : Published (step l s) := by
  obtain ⟨turn, env⟩ := l
  cases turn with
  | issuer op =>
    intro a ha
    rcases List.mem_append.mp ha with hnew | hold
    . exact published_acknowledges laws hash hnew
    . exact h a hold
  | checker op => exact h

end Invariant

variable {env : Env} {s : Checking} {capability : Capability} {a : Announcement}

theorem usedPointer_eq (env : Env) (w : Runtime) (owner : IdentityId) :
    usedPointer env { w with tick := w.tick + 1 } owner RECORD_CAPABILITIES =
      (localPointer env w owner).or
        (dhtPointerAt env { w with tick := w.tick + 1 + 1 } owner RECORD_CAPABILITIES) := by
  unfold usedPointer localPointer
  have hcached : cachedPointer { w with tick := w.tick + 1 } owner RECORD_CAPABILITIES =
      cachedPointer w owner RECORD_CAPABILITIES := rfl
  rw [hcached]
  cases cachedPointer w owner RECORD_CAPABILITIES with
  | some record => rfl
  | none =>
    cases scannedPointer env { w with tick := w.tick + 1 } owner RECORD_CAPABILITIES with
    | some record => rfl
    | none => rfl

theorem Informed.used (h : Informed env s a) (hpublished : Published s)
    (hasks : Asks env capability s a) :
    ∃ record, usedPointer env { s.checker with tick := s.checker.tick + 1 } a.owner
        RECORD_CAPABILITIES = some record ∧
      RevokesAt a.owner a.id record.manifest ∧
      Obtainable env s.issuer s.checker record.manifest := by
  have hscanned := h.scanned
  have hcurrent := h.current
  have hobtainable := h.obtainable
  rw [usedPointer_eq]
  cases hlocal : localPointer env s.checker a.owner with
  | some record =>
    rw [hlocal] at hobtainable
    exact ⟨record, rfl, hcurrent record hlocal, hobtainable⟩
  | none =>
    rw [hlocal] at hobtainable hscanned
    obtain ⟨hrevokes, haccepted⟩ := hpublished a hasks.mem
    rcases hasks.delivered with hdht | hpushed
    . refine ⟨a.record, ?_, hrevokes, hobtainable⟩
      rw [Option.none_or]
      unfold dhtPointerAt
      rw [hdht]
      exact haccepted
    . cases hscanned hpushed

theorem visible_of_informed (hash : CollisionFree) (hpublished : Published s)
    (hasks : Asks env capability s a)
    (hinformed : capability.verify = true →
      capability.isActiveAt (Capability.nowTs (env.clock s.checker.tick)) = true → Informed env s a)
    {verdict : Bool × String}
    (h : (exec (checkCapability capability) env s.checker).1 = .ok verdict) : verdict.1 = false := by
  have hother : capability.issuer ≠ s.checker.identity.id := by
    rw [hasks.issuer]
    exact hasks.elsewhere
  apply checkCapability_of_revocation hother _ h
  intro hverify hactive
  obtain ⟨record, hused, hrevokes, hobtainable⟩ :=
    (hinformed hverify hactive).used hpublished hasks
  rw [hasks.issuer, hasks.id]
  exact checkRemoteRevocation_finds hash hasks.connected hused hrevokes hobtainable

/--
In every run of both nodes in which no stale pointer is in the way and the indexes can be got, an
acknowledged and delivered revocation is visible to every check.
-/
theorem run_visible (laws : SignatureLaws) (hash : CollisionFree) (issuer checker : Runtime)
    (ls : List (Turn × Env)) (h : Run.Along step Sees ⟨issuer, checker, []⟩ ls) :
    Run.Along step Visible ⟨issuer, checker, []⟩ ls := by
  have hpublished : Run.Always step Published ⟨issuer, checker, []⟩ ls := by
    have halong : Run.Along step (fun _ _ => True) ⟨issuer, checker, []⟩ ls :=
      Run.along_of_forall (fun _ _ _ => trivial) _
    apply halong.always
    . intro a ha
      cases ha
    . intro l s _ hs
      exact published_step laws hash l hs
  have hsees : Run.Along step (fun l s => Sees l s → Visible l s) ⟨issuer, checker, []⟩ ls := by
    apply hpublished.along
    intro l s hs hsees
    unfold Visible
    split
    . intro a hasks verdict hverdict
      exact visible_of_informed hash hs hasks (hsees a hasks) hverdict
    . trivial
  exact (h.and hsees).mono fun _ _ hboth => hboth.2 hboth.1

section Attended

/--
The issuer's node is the only peer, and the DHT has the pointers of the acknowledged revocations.
-/
def attending (s : Checking) : Env :=
  { Env.quiet 0 with
    peers := fun _ => .ok [s.issuer.deviceKey.peerId]
    exchange := fun _ _ request => (exec (handleObjectRequest request) (Env.quiet 0) s.issuer).1
    record := fun _ key => .ok <|
      (s.announced.find? fun a => AppPointerRecord.key a.owner RECORD_CAPABILITIES = key).map
        fun a => AppPointerRecord.codec.serialize a.record }

theorem connected_attending (s : Checking) : Connected (attending s) s.issuer where
  peer _ := ⟨_, rfl, List.mem_singleton_self _⟩
  answers _ _ := ⟨Env.quiet 0, rfl⟩

theorem inDht_attending {announced : List Announcement} (h : s.announced = a :: announced) :
    InDht (attending s) a := by
  intro t
  simp [attending, h]

end Attended

end Checking

end Canopee

namespace Canopee.Checking

open Canopee.Runtime
open Prog (exec)

def tablet : DeviceKey where
  peerId := ⟨"dd"⟩
  deviceName := "tablet"

section Witness

open Canopee.Transparent

/--
A node of Bob that has Alice's index, and the pointer to it in its record cache.
-/
def told (index : CapabilityIndex) : Runtime :=
  storeRecord (recordFile (AppPointerRecord.key alice.id RECORD_CAPABILITIES))
    (AppPointerRecord.codec.serialize (indexPointer alice 0 index))
    (storeObject (index.toObject alice 0) (fresh bob tablet))

/--
Alice's node revokes the grant of the door after Bob's has heard of it.
-/
def heardBefore : Checking where
  issuer := nodeWith alice laptop 0 ⟨[⟨aliceGrant "door", false⟩], 1⟩
  checker := told (revokedIndex (aliceGrant "door"))
  announced := []

def revokesThenChecks : List (Turn × Env) :=
  [(.issuer (.revokeCapability (aliceGrant "door").id), Env.quiet 0),
    (.checker (.checkCapability (aliceGrant "door")), attending
      (step (.issuer (.revokeCapability (aliceGrant "door").id), Env.quiet 0) heardBefore))]

theorem localPointer_told (env : Env) (index : CapabilityIndex) :
    localPointer env (told index) alice.id = some (indexPointer alice 0 index) := by
  have hcached : cachedPointer (told index) alice.id RECORD_CAPABILITIES =
      some (indexPointer alice 0 index) :=
    cachedPointer_storeRecord signatureLaws 0 RECORD_CAPABILITIES _ _
  rw [localPointer, hcached]
  rfl

theorem readable_told (index : CapabilityIndex) :
    Readable (indexPointer alice 0 index).manifest (told index) :=
  readable_congr rfl (readable_storeObject_self (Object.verify_new signatureLaws alice 0 _ _) _)

theorem revokesAt_revokedIndex (capability : Capability) :
    RevokesAt alice.id capability.id (indexPointer alice 0 (revokedIndex capability)).manifest := by
  refine ⟨_, revokedIndex capability, rfl, rfl, decode_toObject _ _ _ alice 0, ?_⟩
  simp [revokedIn, revokedIndex, CapabilityIndex.byId]

theorem informed_told {env : Env} {s : Checking} {a : Announcement} {capability : Capability}
    (hchecker : s.checker = told (revokedIndex capability)) (howner : a.owner = alice.id)
    (hid : a.id = capability.id) : Informed env s a := by
  have hlocal : localPointer env s.checker a.owner =
      some (indexPointer alice 0 (revokedIndex capability)) := by
    rw [hchecker, howner]
    exact localPointer_told env _
  constructor
  . intro _
    rw [hlocal]
    rfl
  . intro record hrecord
    rw [hlocal, Option.some.injEq] at hrecord
    rw [← hrecord, howner, hid]
    exact revokesAt_revokedIndex capability
  . left
    rw [hlocal, hchecker]
    exact readable_told _

theorem run_visible_revokesThenChecks :
    Run.Along step Visible heardBefore revokesThenChecks := by
  apply run_visible signatureLaws collisionFree heardBefore.issuer heardBefore.checker
  refine ⟨trivial, ?_, trivial⟩
  intro a hasks _ _
  exact informed_told rfl hasks.issuer.symm hasks.id.symm

end Witness

section Counterexample

open Canopee.Compact

/--
Alice grants Bob the door and revokes the grant.
-/
def grantsThenRevokes : List (Turn × Env) :=
  [(.issuer (.grantCapability bob.id (.channel "door") [.read] none), Env.quiet 0),
    (.issuer (.revokeCapability Tasks.doorGrant.id), Env.quiet 0)]

def revokedDoor : Checking :=
  Run.run step ⟨fresh alice laptop, fresh bob tablet, []⟩ grantsThenRevokes

theorem revokedDoor_evaluated :
    revokedDoor.announced.map (fun a => (a.owner, a.id)) = [(alice.id, Tasks.doorGrant.id)] ∧
      revokedDoor.checker.identity.id ≠ alice.id ∧
      (exec (checkCapability Tasks.doorGrant) (attending revokedDoor) revokedDoor.checker).1 =
        .ok (true, "grant verified") := by
  decide +kernel

/--
The revocation is acknowledged, its pointer is in the DHT and Alice's node is connected, but her node
does not serve the index that the pointer names: the check on Bob's node reports the grant as valid.
-/
theorem not_visible_unserved :
    ¬ Run.Along step Visible ⟨fresh alice laptop, fresh bob tablet, []⟩
      (grantsThenRevokes ++
        [(.checker (.checkCapability Tasks.doorGrant), attending revokedDoor)]) := by
  intro h
  obtain ⟨hannounced, hother, hverdict⟩ := revokedDoor_evaluated
  have hvisible := h.at
  rw [← revokedDoor] at hvisible
  obtain ⟨a, ha, hentry⟩ := List.map_eq_singleton_iff.mp hannounced
  have howner : a.owner = alice.id := congrArg Prod.fst hentry
  have hid : a.id = Tasks.doorGrant.id := congrArg Prod.snd hentry
  have hasks : Asks (attending revokedDoor) Tasks.doorGrant revokedDoor a := {
    mem := by
      rw [ha]
      exact List.mem_singleton_self a
    id := hid.symm
    issuer := howner.symm
    elsewhere := by
      rw [howner]
      exact hother.symm
    delivered := .inl (inDht_attending ha)
    connected := connected_attending revokedDoor }
  have hinvalid := hvisible a hasks _ hverdict
  cases hinvalid

end Counterexample

end Canopee.Checking
