import Canopee.Results.Revocation

/-!
This module contains the capability index as a list that only grows: when a grant is appended to the
index that the pointer names, and when it starts a new one.
-/

namespace Canopee

open Primitives
open Canopee.Runtime
open Prog (Keeps Triple exec exec_bind_ok exec_bind_eq_ok)

variable [Primitives]

namespace Runtime

section Grant

variable {env : Env} {w : Runtime} {manifest : ObjectId} {index : CapabilityIndex}

/--
The part of `grant_capability` before the index is read.
-/
def issueGrant (subject : IdentityId) (resource : Resource) (permissions : List Permission)
    (expiresAt : Option UInt64) : RunM Capability := do
  let time ← now
  let w ← get
  let capability := Capability.issue w.identity time subject resource permissions expiresAt
  let stamp ← now
  putVerified (capability.toObject w.identity stamp)
  pure capability

theorem grantCapability_eq (subject : IdentityId) (resource : Resource)
    (permissions : List Permission) (expiresAt : Option UInt64) :
    grantCapability subject resource permissions expiresAt =
      issueGrant subject resource permissions expiresAt >>= fun capability =>
        loadCapabilityIndex >>= fun index =>
          grantCapabilityPublish (capability, index.getD CapabilityIndex.empty) := by
  unfold grantCapability grantCapabilityLoad issueGrant
  simp only [Prog.bind_assoc, Prog.pure_bind]

/--
The node that looks for the index, once the grant is stored.
-/
def asking (env : Env) (subject : IdentityId) (resource : Resource) (permissions : List Permission)
    (expiresAt : Option UInt64) (w : Runtime) : Runtime :=
  (exec (issueGrant subject resource permissions expiresAt) env w).2

/--
The object with this id, wherever it is, is the capability index `index`.
-/
def NamesIndex (manifest : ObjectId) (index : CapabilityIndex) : Prop :=
  ∃ payload, ObjectId.fromPayload payload = manifest ∧
    CapabilityIndex.codec.deserialize payload.data = some index

/--
What the node gets for `manifest`, from its store or from its peers.
-/
def obtained (env : Env) (w : Runtime) (manifest : ObjectId) : Option Object :=
  (exec (fetchObject manifest (ownerPeerId w.identity.id)) env w).1.toOption.filter
    fun object => object.payload.owner = w.identity.id

/--
The object is the one that was asked for, or it decodes to the same entries; no object will do for an
index without entries.
-/
inductive Stands (manifest : ObjectId) (index : CapabilityIndex) : Option Object → Prop where
  | missing (h : index.entries = []) : Stands manifest index none
  | same {object : Object} (h : object.id = manifest) : Stands manifest index (some object)
  | alike {object : Object} {other : CapabilityIndex}
      (h : object.decode CapabilityIndex.codec = some other)
      (hentries : other.entries = index.entries) : Stands manifest index (some object)

/--
The entries that a grant starts from.
-/
inductive Starts : Option Object → List CapabilityEntry → Prop where
  | empty : Starts none []
  | decoded {object : Object} {index : CapabilityIndex}
      (h : object.decode CapabilityIndex.codec = some index) : Starts (some object) index.entries

theorem ownedObject_eq (env : Env) (w : Runtime) (manifest : ObjectId) :
    (exec (ownedObject w.identity.id manifest) env w).1 = .ok (obtained env w manifest) := by
  have hget : exec (Prog.attempt (getVerified manifest)) env w =
      (.ok (w.storage.getVerified manifest), w) := by
    rw [Prog.exec_attempt, exec_getVerified]
  cases hstored : w.storage.getVerified manifest with
  | ok object =>
    rw [hstored] at hget
    have hfetch : (exec (fetchObject manifest (ownerPeerId w.identity.id)) env w).1 = .ok object := by
      unfold fetchObject
      rw [exec_bind_ok hget]
      rfl
    unfold ownedObject obtained
    rw [exec_bind_ok hget, hfetch]
    by_cases howner : object.payload.owner = w.identity.id
    . simp [howner, Except.toOption, Option.filter]
    . simp [howner, Except.toOption, Option.filter]
  | error e =>
    rw [hstored] at hget
    unfold ownedObject obtained
    rw [exec_bind_ok hget]
    dsimp only
    rw [exec_bind_ok (Prog.exec_attempt _ env w)]
    cases (exec (fetchObject manifest (ownerPeerId w.identity.id)) env w).1 with
    | error e => rfl
    | ok object =>
      by_cases howner : object.payload.owner = w.identity.id
      . simp [howner, Except.toOption, Option.filter]
      . simp [howner, Except.toOption, Option.filter]

theorem starts_of_loadCapabilityIndex {record : AppPointerRecord} {u : Runtime}
    {r : Option CapabilityIndex}
    (hresolves : exec (resolvePointer w.identity.id RECORD_CAPABILITIES) env w =
      (.ok (some record), u))
    (hidentity : u.identity = w.identity) (h : (exec loadCapabilityIndex env w).1 = .ok r) :
    Starts (obtained env u record.manifest) (r.getD CapabilityIndex.empty).entries := by
  unfold loadCapabilityIndex at h
  rw [exec_bind_ok (Prog.exec_get env w)] at h
  obtain ⟨found, hfound, hrest⟩ := exec_bind_eq_ok h
  unfold resolveOwnerObject at hfound
  rw [exec_bind_ok hresolves] at hfound
  dsimp only at hfound
  rw [← hidentity, ownedObject_eq, Except.ok.injEq] at hfound
  rw [hfound]
  cases found with
  | none =>
    cases hrest
    exact .empty
  | some object =>
    obtain ⟨index, hdecode, hreturned⟩ := exec_bind_eq_ok hrest
    rw [Prog.exec_pure, Except.ok.injEq] at hreturned
    rw [← hreturned]
    exact .decoded (ofOption_eq_ok.mp hdecode)

theorem verify_of_obtained {object : Object} (h : obtained env w manifest = some object) :
    object.verify = true := by
  have hobject := (Option.filter_eq_some_iff.mp h).1
  have hkeeps := (ingress_identity env w.identity).keeps_fetchObject manifest
    (ownerPeerId w.identity.id)
  have hfetched : ∀ other, (exec (fetchObject manifest (ownerPeerId w.identity.id)) env w).1 =
      .ok other → Fetched env manifest other := fun _ hother => hkeeps.result rfl hother
  generalize (exec (fetchObject manifest (ownerPeerId w.identity.id)) env w).1 = r at hobject hfetched
  cases r with
  | error e => contradiction
  | ok other =>
    cases hobject
    exact (hfetched object rfl).1

theorem starts_iff_stands (hash : CollisionFree) (hnames : NamesIndex manifest index)
    {entries : List CapabilityEntry} (h : Starts (obtained env w manifest) entries) :
    entries = index.entries ↔ Stands manifest index (obtained env w manifest) := by
  have hverify (object : Object) : obtained env w manifest = some object → object.verify = true :=
    verify_of_obtained
  generalize obtained env w manifest = found at h hverify
  cases h with
  | empty =>
    constructor
    . intro hentries
      exact .missing hentries.symm
    . intro hstands
      cases hstands with
      | missing hentries => exact hentries.symm
  | @decoded object other hdecode =>
    constructor
    . intro hentries
      exact .alike hdecode hentries
    . intro hstands
      cases hstands with
      | same hid =>
        obtain ⟨payload, hpayload, hindex⟩ := hnames
        rw [Object.id_of_verify (hverify object rfl), ← hpayload,
          ObjectId.fromPayload_inj hash] at hid
        rw [Object.decode, hid, hindex] at hdecode
        cases hdecode
        rfl
      | alike hother hentries =>
        rw [hdecode] at hother
        cases hother
        exact hentries

theorem keeps_issueGrant {I : Runtime → Prop} (h : Pushes env I (fun _ => True))
    (subject : IdentityId) (resource : Resource) (permissions : List Permission)
    (expiresAt : Option UInt64) :
    Keeps env I (issueGrant subject resource permissions expiresAt) := by
  apply Keeps.bind h.keeps_now
  intro time _
  apply Keeps.bind_get
  intro v _
  apply Keeps.bind h.keeps_now
  intro stamp _
  apply Keeps.bind (h.keeps_putVerified fun _ => trivial)
  intro _ _
  exact Keeps.pure trivial

/--
This node's published index has the entries, whatever its version.
-/
def Recorded (entries : List CapabilityEntry) (w : Runtime) : Prop :=
  ∃ version, Records CapabilityIndex.codec RECORD_CAPABILITIES ⟨entries, version⟩ w

theorem Recorded.unique {entries entries' : List CapabilityEntry} (h : Recorded entries w)
    (h' : Recorded entries' w) : entries = entries' := by
  obtain ⟨version, hrecords⟩ := h
  obtain ⟨version', hrecords'⟩ := h'
  have hload := hrecords.exec_loadCapabilityIndex (Env.quiet 0)
  rw [hrecords'.exec_loadCapabilityIndex (Env.quiet 0)] at hload
  cases hload
  rfl

/--
A grant that returns has published the entries that it started from and its own.
-/
theorem recorded_of_grantCapability (laws : SignatureLaws) (hash : CollisionFree)
    {subject : IdentityId} {resource : Resource} {permissions : List Permission}
    {expiresAt : Option UInt64} {capability : Capability} {record : AppPointerRecord} {u : Runtime}
    (hresolves : exec (resolvePointer w.identity.id RECORD_CAPABILITIES) env
      (asking env subject resource permissions expiresAt w) = (.ok (some record), u))
    (hgrant : (exec (grantCapability subject resource permissions expiresAt) env w).1 =
      .ok capability) :
    ∃ entries, Starts (obtained env u record.manifest) entries ∧
      Recorded (entries ++ [⟨capability, false⟩])
        (exec (grantCapability subject resource permissions expiresAt) env w).2 := by
  have hissuer := ingress_identity env w.identity
  have hasking : (asking env subject resource permissions expiresAt w).identity = w.identity :=
    (keeps_issueGrant hissuer.toPushes subject resource permissions expiresAt).state rfl
  have hu : u.identity = w.identity := by
    have := (hissuer.keeps_resolvePointer w.identity.id RECORD_CAPABILITIES).state hasking
    rw [hresolves] at this
    exact this
  rw [grantCapability_eq] at hgrant ⊢
  obtain ⟨issued, hissue, hrest⟩ := exec_bind_eq_ok hgrant
  obtain ⟨r, hload, hpublish⟩ := exec_bind_eq_ok hrest
  change (exec loadCapabilityIndex env (asking env subject resource permissions expiresAt w)).1 =
    .ok r at hload
  have hstarts := starts_of_loadCapabilityIndex (hasking ▸ hresolves) (hu.trans hasking.symm) hload
  refine ⟨_, hstarts, ?_⟩
  rw [exec_bind_ok (Prod.ext hissue rfl)]
  change Recorded _ (exec _ env (asking env subject resource permissions expiresAt w)).2
  rw [exec_bind_ok (Prod.ext hload rfl)]
  have hidentity := hissuer.keeps_loadCapabilityIndex.state hasking
  have hpublished := (grantCapabilityPublish_triple laws hash none
    (issued, r.getD CapabilityIndex.empty)).ok ⟨hidentity, nofun⟩ (Prod.ext hpublish rfl)
  obtain ⟨rfl, _, hindexed⟩ := hpublished
  exact ⟨_, hindexed _ rfl⟩

/--
A grant continues the index that the pointer names exactly when what the node got for the pointer
stands for that index.
-/
theorem grant_continues_iff (laws : SignatureLaws) (hash : CollisionFree) (env : Env) (w : Runtime)
    (subject : IdentityId) (resource : Resource) (permissions : List Permission)
    (expiresAt : Option UInt64) (record : AppPointerRecord) (index : CapabilityIndex)
    (capability : Capability) (u : Runtime)
    (hresolves : exec (resolvePointer w.identity.id RECORD_CAPABILITIES) env
      (asking env subject resource permissions expiresAt w) = (.ok (some record), u))
    (hnames : NamesIndex record.manifest index)
    (hgrant : (exec (grantCapability subject resource permissions expiresAt) env w).1 =
      .ok capability) :
    Recorded (index.entries ++ [⟨capability, false⟩])
        (exec (grantCapability subject resource permissions expiresAt) env w).2 ↔
      Stands record.manifest index (obtained env u record.manifest) := by
  obtain ⟨entries, hstarts, hrecorded⟩ := recorded_of_grantCapability laws hash hresolves hgrant
  rw [← starts_iff_stands hash hnames hstarts]
  constructor
  . intro hcontinues
    exact List.append_cancel_right (hrecorded.unique hcontinues)
  . intro hentries
    rw [← hentries]
    exact hrecorded

end Grant

section Succeeds

variable {env : Env} {w : Runtime} {manifest : ObjectId} {index : CapabilityIndex}

theorem exec_issueGrant (laws : SignatureLaws) (hdisk : ∀ t, env.fault t = none)
    (subject : IdentityId) (resource : Resource) (permissions : List Permission)
    (expiresAt : Option UInt64) (w : Runtime) :
    exec (issueGrant subject resource permissions expiresAt) env w =
      (.ok (.issue w.identity (env.clock w.tick) subject resource permissions expiresAt),
        storeObject (Capability.toObject
          (.issue w.identity (env.clock w.tick) subject resource permissions expiresAt)
          w.identity (env.clock (w.tick + 1))) { w with tick := w.tick + 1 + 1 + 1 }) := by
  have hverify (capability : Capability) (stamp : Int) :
      (capability.toObject w.identity stamp).verify = true := Object.verify_new laws _ _ _ _
  unfold issueGrant
  rw [exec_bind_ok (exec_now env w), exec_bind_ok (Prog.exec_get env _)]
  dsimp only
  rw [exec_bind_ok (exec_now env _), exec_bind_ok (exec_putVerified hdisk (hverify _ _) _)]
  rfl

theorem saveCapabilityIndex_succeeds (laws : SignatureLaws) (hdisk : ∀ t, env.fault t = none)
    (index : CapabilityIndex) (w : Runtime) :
    ∃ id w', exec (saveCapabilityIndex index) env w = (.ok id, w') := by
  unfold saveCapabilityIndex
  dsimp only
  rw [exec_bind_ok (exec_now env _), exec_bind_ok (Prog.exec_get env _)]
  obtain ⟨w', hpublish⟩ := publishObject_succeeds hdisk RECORD_CAPABILITIES
    (Object.verify_new laws _ _ _ _) _
  exact ⟨_, w', hpublish⟩

theorem grantCapabilityPublish_succeeds (laws : SignatureLaws) (hdisk : ∀ t, env.fault t = none)
    (loaded : Capability × CapabilityIndex) (w : Runtime) :
    ∃ w', exec (grantCapabilityPublish loaded) env w = (.ok loaded.1, w') := by
  obtain ⟨id, w', hsave⟩ := saveCapabilityIndex_succeeds laws hdisk
    { loaded.2 with entries := loaded.2.entries ++ [⟨loaded.1, false⟩] } w
  refine ⟨w', ?_⟩
  unfold grantCapabilityPublish
  rw [exec_bind_ok hsave]
  rfl

theorem exec_grantCapability (laws : SignatureLaws) (hash : CollisionFree)
    (hdisk : ∀ t, env.fault t = none) (subject : IdentityId) (resource : Resource)
    (permissions : List Permission) (expiresAt : Option UInt64)
    (h : Records CapabilityIndex.codec RECORD_CAPABILITIES index w) :
    (exec (grantCapability subject resource permissions expiresAt) env w).1 =
      .ok (.issue w.identity (env.clock w.tick) subject resource permissions expiresAt) := by
  rw [grantCapability_eq, exec_bind_ok (exec_issueGrant laws hdisk _ _ _ _ w)]
  generalize hcapability : Capability.issue w.identity (env.clock w.tick) subject resource
    permissions expiresAt = capability
  have hticked : Records CapabilityIndex.codec RECORD_CAPABILITIES index
      { w with tick := w.tick + 1 + 1 + 1 } := h.congr ⟨rfl, rfl, rfl⟩
  have hstored := (pushes_records hash env CapabilityIndex.codec RECORD_CAPABILITIES index).put _
    (capability.toObject w.identity (env.clock (w.tick + 1))) (Object.verify_new laws _ _ _ _) trivial
    hticked
  rw [exec_bind_ok (hstored.exec_loadCapabilityIndex env)]
  obtain ⟨w', hpublish⟩ := grantCapabilityPublish_succeeds laws hdisk (capability, index) _
  exact congrArg Prod.fst hpublish

theorem obtained_of_stored {object : Object} (h : w.storage.getVerified manifest = .ok object)
    (howner : object.payload.owner = w.identity.id) : obtained env w manifest = some object := by
  have hfetch : (exec (fetchObject manifest (ownerPeerId w.identity.id)) env w).1 = .ok object := by
    unfold fetchObject
    rw [exec_bind_ok (Prog.exec_attempt _ env w), exec_getVerified, h]
    rfl
  rw [obtained, hfetch]
  simp [Except.toOption, Option.filter, howner]

/--
The pointer to the index, signed like the index by `identity` at time `now`.
-/
def indexPointer (identity : Identity) (now : Int) (index : CapabilityIndex) : AppPointerRecord :=
  .sign identity now RECORD_CAPABILITIES (index.toObject identity now).id

/--
A new node on whose disk are the index and the pointer to it.
-/
def nodeWith (identity : Identity) (deviceKey : DeviceKey) (now : Int) (index : CapabilityIndex) :
    Runtime :=
  storeRecord (recordFile (AppPointerRecord.key identity.id RECORD_CAPABILITIES))
    (AppPointerRecord.codec.serialize (indexPointer identity now index))
    (storeObject (index.toObject identity now) (fresh identity deviceKey))

theorem records_nodeWith (laws : SignatureLaws) (identity : Identity) (deviceKey : DeviceKey)
    (now : Int) (index : CapabilityIndex) : Records CapabilityIndex.codec RECORD_CAPABILITIES
    index (nodeWith identity deviceKey now index) := by
  have hstored : Stores (index.toObject identity now).payload
      (storeObject (index.toObject identity now) (fresh identity deviceKey)) :=
    stores_storeObject_self (Object.verify_new laws _ _ _ _) _
  refine ⟨(index.toObject identity now).payload, ⟨⟨indexPointer identity now index, ?_, rfl⟩,
    stores_congr rfl hstored, rfl⟩, decode_toObject _ _ index identity now⟩
  exact cachedPointer_storeRecord laws now RECORD_CAPABILITIES _ _

theorem namesIndex_indexPointer (identity : Identity) (now : Int) (index : CapabilityIndex) :
    NamesIndex (indexPointer identity now index).manifest index :=
  ⟨_, rfl, decode_toObject _ _ index identity now⟩

theorem resolves_nodeWith (laws : SignatureLaws) (hdisk : ∀ t, env.fault t = none)
    (identity : Identity) (deviceKey : DeviceKey) (now : Int) (index : CapabilityIndex)
    (subject : IdentityId) (resource : Resource) (permissions : List Permission)
    (expiresAt : Option UInt64) :
    exec (resolvePointer (nodeWith identity deviceKey now index).identity.id RECORD_CAPABILITIES) env
        (asking env subject resource permissions expiresAt (nodeWith identity deviceKey now index)) =
      (.ok (some (indexPointer identity now index)),
        asking env subject resource permissions expiresAt
          (nodeWith identity deviceKey now index)) := by
  apply resolvePointer_of_cached
  rw [asking, exec_issueGrant laws hdisk]
  exact (cachedPointer_congr rfl _ _).trans (cachedPointer_storeRecord laws now _ _ _)

theorem stands_nodeWith (laws : SignatureLaws) (hash : CollisionFree) (env : Env)
    (identity : Identity) (deviceKey : DeviceKey) (now : Int) (index : CapabilityIndex)
    (subject : IdentityId) (resource : Resource) (permissions : List Permission)
    (expiresAt : Option UInt64) :
    Stands (indexPointer identity now index).manifest index
      (obtained env
        (asking env subject resource permissions expiresAt (nodeWith identity deviceKey now index))
        (indexPointer identity now index).manifest) := by
  have hnode : Stores (index.toObject identity now).payload (nodeWith identity deviceKey now index) :=
    stores_congr rfl (stores_storeObject_self (Object.verify_new laws _ _ _ _) _)
  have hidentity := (keeps_issueGrant (pushes_identity env identity) subject resource permissions
    expiresAt).state (s := nodeWith identity deviceKey now index) rfl
  obtain ⟨object, hstored, hpayload⟩ := (keeps_issueGrant (pushes_stores hash env _) subject resource
    permissions expiresAt).state hnode
  have howner : object.payload.owner = identity.id := by
    rw [hpayload]
    rfl
  have hobtained : obtained env
      (asking env subject resource permissions expiresAt (nodeWith identity deviceKey now index))
      (indexPointer identity now index).manifest = some object :=
    obtained_of_stored hstored (howner.trans (congrArg Identity.id hidentity.symm))
  rw [hobtained]
  exact .same (Storage.id_of_getVerified hstored)

theorem grants_nodeWith (laws : SignatureLaws) (hash : CollisionFree)
    (hdisk : ∀ t, env.fault t = none) {now : Int} (hclock : env.clock 0 = now) (identity : Identity)
    (deviceKey : DeviceKey) (index : CapabilityIndex) (subject : IdentityId) (resource : Resource)
    (permissions : List Permission) (expiresAt : Option UInt64) :
    (exec (grantCapability subject resource permissions expiresAt) env
        (nodeWith identity deviceKey now index)).1 =
      .ok (.issue identity now subject resource permissions expiresAt) := by
  rw [← hclock]
  exact exec_grantCapability laws hash hdisk subject resource permissions expiresAt
    (records_nodeWith laws identity deviceKey _ index)

end Succeeds

end Runtime

end Canopee

namespace Canopee.Runtime

open Prog (exec)

/--
An index in which the only entry is revoked.
-/
def revokedIndex [Primitives] (capability : Capability) : CapabilityIndex :=
  ⟨[⟨capability, true⟩], 2⟩

section Witness

open Canopee.Transparent

/--
The capability that Alice's node issues for a channel at time 0.
-/
def aliceGrant (channel : String) : Capability :=
  .issue alice 0 bob.id (.channel channel) [.read] none

theorem grant_continues_nodeWith :
    Recorded ((revokedIndex (aliceGrant "door")).entries ++ [⟨aliceGrant "gate", false⟩])
      (exec (grantCapability bob.id (.channel "gate") [.read] none) (Env.quiet 0)
        (nodeWith alice laptop 0 (revokedIndex (aliceGrant "door")))).2 := by
  have hdisk : ∀ t, (Env.quiet 0).fault t = none := fun _ => rfl
  have hclock : (Env.quiet 0).clock 0 = 0 := rfl
  generalize Env.quiet 0 = env at *
  generalize revokedIndex (aliceGrant "door") = index
  have hgrants := grants_nodeWith signatureLaws collisionFree hdisk hclock alice laptop index bob.id
    (.channel "gate") [.read] none
  have hresolves := resolves_nodeWith signatureLaws hdisk alice laptop 0 index bob.id
    (.channel "gate") [.read] none
  have hstands := stands_nodeWith signatureLaws collisionFree env alice laptop 0 index bob.id
    (.channel "gate") [.read] none
  have hnames := namesIndex_indexPointer alice 0 index
  exact (grant_continues_iff signatureLaws collisionFree env _ bob.id (.channel "gate") [.read] none
    _ index _ _ hresolves hnames hgrants).mpr hstands

end Witness

theorem not_recorded_of_length [Primitives] {env : Env} {w : Runtime} {entries : List CapabilityEntry}
    {n : Nat} (h : (exec loadCapabilityIndex env w).1.toOption.join.map (·.entries.length) = some n)
    (hne : entries.length ≠ n) : ¬ Recorded entries w := by
  intro ⟨version, hrecords⟩
  rw [hrecords.exec_loadCapabilityIndex env] at h
  exact hne (Option.some_inj.mp h)

section Counterexample

open Canopee.Compact

def deviceGrant (channel : String) : Capability :=
  .issue alice 0 bob.id (.channel channel) [.read] none

def doorPointer : AppPointerRecord :=
  indexPointer alice 0 (revokedIndex (deviceGrant "door"))

/--
The DHT has the pointer to the index; nobody who has the index is reachable.
-/
def unreachable : Env :=
  { Env.quiet 0 with record := fun _ _ => .ok (some (AppPointerRecord.codec.serialize doorPointer)) }

def afterRestart : Except String Capability × Runtime :=
  exec (grantCapability bob.id (.channel "gate") [.read] none) unreachable (fresh alice laptop)

theorem restarted_evaluated :
    (exec (resolvePointer alice.id RECORD_CAPABILITIES) unreachable
        (asking unreachable bob.id (.channel "gate") [.read] none (fresh alice laptop))).1 =
          .ok (some doorPointer) ∧
      afterRestart.1 = .ok (deviceGrant "gate") ∧
      (exec loadCapabilityIndex unreachable afterRestart.2).1.toOption.join.map (·.entries.length) =
        some 1 := by
  decide +kernel

/--
On a second device of the issuer the pointer resolves and the grant returns, but the index that it
publishes has forgotten the revoked entry.
-/
theorem restarted_not_continued :
    (exec (resolvePointer alice.id RECORD_CAPABILITIES) unreachable
        (asking unreachable bob.id (.channel "gate") [.read] none (fresh alice laptop))).1 =
          .ok (some doorPointer) ∧
      NamesIndex doorPointer.manifest (revokedIndex (deviceGrant "door")) ∧
      afterRestart.1 = .ok (deviceGrant "gate") ∧
      ¬ Recorded ((revokedIndex (deviceGrant "door")).entries ++ [⟨deviceGrant "gate", false⟩])
        afterRestart.2 :=
  ⟨restarted_evaluated.1, namesIndex_indexPointer alice 0 _, restarted_evaluated.2.1,
    not_recorded_of_length restarted_evaluated.2.2 (by simp [revokedIndex])⟩

end Counterexample

end Canopee.Runtime
