import Canopee.Results.Fetch
import Canopee.Results.Published

/-!
This module contains the effect of revocations at the issuer, over every sequence of grants and
revocations: what an acknowledged revocation guarantees, and exactly when it does.
-/

namespace Canopee

open Primitives
open Canopee.Runtime
open Prog (Keeps Triple exec exec_bind_ok exec_bind_eq_ok)

namespace CapabilityIndex

/--
Some entry of the index has this id.
-/
def Lists (index : CapabilityIndex) (id : CapabilityId) : Prop :=
  ∃ entry ∈ index.entries, entry.capability.id = id

/--
Every entry with one of these ids is revoked.
-/
def Revokes (index : CapabilityIndex) (ids : List CapabilityId) : Prop :=
  ∀ entry ∈ index.entries, entry.capability.id ∈ ids → entry.revoked = true

/--
Only the first entry with this id can be unrevoked.
-/
def OnlyFirst (id : CapabilityId) (entries : List CapabilityEntry) : Prop :=
  ∀ before entry after, entries = before ++ entry :: after → entry.capability.id = id →
    entry.revoked = false → ∀ e ∈ before, e.capability.id ≠ id

theorem onlyFirst_cons_of_ne {id : CapabilityId} {first : CapabilityEntry}
    {entries : List CapabilityEntry} (h : first.capability.id ≠ id) :
    OnlyFirst id (first :: entries) ↔ OnlyFirst id entries := by
  constructor
  . intro honly before entry after happend hid hrevoked e he
    exact honly (first :: before) entry after (by simp [happend]) hid hrevoked e
      (List.mem_cons_of_mem _ he)
  . intro honly before entry after happend hid hrevoked
    cases before with
    | nil => simp
    | cons b before =>
      simp only [List.cons_append, List.cons.injEq] at happend
      simp only [List.mem_cons, forall_eq_or_imp]
      exact ⟨happend.1 ▸ h, honly before entry after happend.2 hid hrevoked⟩

theorem onlyFirst_cons_of_eq {id : CapabilityId} {first : CapabilityEntry}
    {entries : List CapabilityEntry} (h : first.capability.id = id) :
    OnlyFirst id (first :: entries) ↔
      ∀ entry ∈ entries, entry.capability.id = id → entry.revoked = true := by
  constructor
  . intro honly entry hentry hid
    by_contra hrevoked
    obtain ⟨before, after, happend⟩ := List.append_of_mem hentry
    have := honly (first :: before) entry after (by simp [happend]) hid (by simpa using hrevoked)
    exact this first List.mem_cons_self h
  . intro hall before entry after happend hid hrevoked
    cases before with
    | nil => simp
    | cons b before =>
      simp only [List.cons_append, List.cons.injEq] at happend
      have := hall entry (by simp [happend.2]) hid
      rw [hrevoked] at this
      contradiction

/--
Revoking the first entry with an id revokes the id exactly when the other entries with it, if any,
are revoked already.
-/
theorem revokeFirst_revokes_iff {id : CapabilityId} {entries revoked : List CapabilityEntry}
    (h : revokeFirst id entries = some revoked) :
    (∀ entry ∈ revoked, entry.capability.id = id → entry.revoked = true) ↔
      OnlyFirst id entries := by
  induction entries generalizing revoked with
  | nil => contradiction
  | cons first entries ih =>
    rw [revokeFirst] at h
    split at h
    . next hid =>
      simp only [Option.some.injEq] at h
      subst h
      rw [onlyFirst_cons_of_eq hid]
      simp
    . next hid =>
      obtain ⟨rest, hrest, hrevoked⟩ := Option.map_eq_some_iff.mp h
      subst hrevoked
      rw [onlyFirst_cons_of_ne hid, ← ih hrest]
      simp [hid]

theorem mem_revokeFirst {id : CapabilityId} {entries revoked : List CapabilityEntry}
    (h : revokeFirst id entries = some revoked) :
    (∃ entry ∈ revoked, entry.capability.id = id) ∧
    (∀ entry ∈ entries, ∃ e ∈ revoked, e.capability = entry.capability) ∧
    ∀ entry ∈ revoked, entry ∈ entries ∨ entry.capability.id = id ∧ entry.revoked = true := by
  induction entries generalizing revoked with
  | nil => contradiction
  | cons first entries ih =>
    rw [revokeFirst] at h
    split at h
    . next hid =>
      simp only [Option.some.injEq] at h
      subst h
      refine ⟨⟨_, List.mem_cons_self, hid⟩, ?_, ?_⟩
      . intro entry hentry
        cases List.mem_cons.mp hentry with
        | inl hfirst =>
          exact ⟨_, List.mem_cons_self, by rw [hfirst]⟩
        | inr hrest => exact ⟨entry, List.mem_cons_of_mem _ hrest, rfl⟩
      . intro entry hentry
        cases List.mem_cons.mp hentry with
        | inl hfirst =>
          rw [hfirst]
          exact .inr ⟨hid, rfl⟩
        | inr hrest => exact .inl (List.mem_cons_of_mem _ hrest)
    . obtain ⟨rest, hrest, hrevoked⟩ := Option.map_eq_some_iff.mp h
      subst hrevoked
      obtain ⟨⟨found, hfound, hid⟩, hkept, hold⟩ := ih hrest
      refine ⟨⟨found, List.mem_cons_of_mem _ hfound, hid⟩, ?_, ?_⟩
      . intro entry hentry
        cases List.mem_cons.mp hentry with
        | inl hfirst => exact ⟨first, List.mem_cons_self, by rw [hfirst]⟩
        | inr hmem =>
          obtain ⟨e, he, hcapability⟩ := hkept entry hmem
          exact ⟨e, List.mem_cons_of_mem _ he, hcapability⟩
      . intro entry hentry
        cases List.mem_cons.mp hentry with
        | inl hfirst =>
          rw [hfirst]
          exact .inl List.mem_cons_self
        | inr hmem =>
          cases hold entry hmem with
          | inl hmem => exact .inl (List.mem_cons_of_mem _ hmem)
          | inr hrevoked => exact .inr hrevoked

theorem Lists.revokeFirst {index : CapabilityIndex} {id other : CapabilityId}
    {revoked : List CapabilityEntry} {version : UInt64} (h : index.Lists other)
    (hrevoked : CapabilityIndex.revokeFirst id index.entries = some revoked) :
    Lists ⟨revoked, version⟩ other := by
  obtain ⟨entry, hentry, hid⟩ := h
  obtain ⟨e, he, hcapability⟩ := (mem_revokeFirst hrevoked).2.1 entry hentry
  exact ⟨e, he, by rw [hcapability, hid]⟩

theorem Revokes.revokedIn {index : CapabilityIndex} {ids : List CapabilityId}
    (h : index.Revokes ids) {id : CapabilityId} (hlists : index.Lists id) (hid : id ∈ ids) :
    revokedIn id index = true := by
  obtain ⟨entry, hentry, hentryId⟩ := hlists
  have hfind : (index.byId id).isSome = true := by
    rw [byId, List.find?_isSome]
    exact ⟨entry, hentry, by simp [hentryId]⟩
  obtain ⟨found, hfound⟩ := Option.isSome_iff_exists.mp hfind
  have hfoundId : found.capability.id = id := by
    have := List.find?_some hfound
    simpa using this
  simp only [Runtime.revokedIn, hfound]
  exact h found (List.mem_of_find?_eq_some hfound) (hfoundId ▸ hid)

variable [Primitives]

theorem Revokes.not_mem_of_findActive {index : CapabilityIndex} {ids : List CapabilityId}
    (h : index.Revokes ids) {subject : IdentityId} {resource : Resource} {permission : Permission}
    {now : UInt64} {capability : Capability}
    (hactive : index.findActive subject resource permission now = some capability) :
    capability.id ∉ ids := by
  obtain ⟨entry, hentry, hmatch⟩ := List.exists_of_findSome?_eq_some hactive
  split at hmatch
  . next hpermits =>
    simp only [Option.some.injEq] at hmatch
    subst hmatch
    intro hid
    have := h entry hentry hid
    simp [this] at hpermits
  . contradiction

end CapabilityIndex

variable [Primitives]

namespace Runtime

variable {env : Env} {self : Identity}

/--
`index` is this node's published capability index, if `old` says that there is one.
-/
def Indexed (old : Option CapabilityIndex) (w : Runtime) : Prop :=
  ∀ index, old = some index → Records CapabilityIndex.codec RECORD_CAPABILITIES index w

theorem pushes_indexed (hash : CollisionFree) (env : Env) (old : Option CapabilityIndex) :
    Pushes env (Indexed old) (fun _ => True) := by
  apply Pushes.ofDisk
  . intro w w' hdisk hw index hindex
    exact (hw index hindex).congr hdisk
  . intro w object hverify hok hw index hindex
    exact (pushes_records hash env _ _ index).put w object hverify hok (hw index hindex)
  . intro _ _ _ _
    trivial

theorem pushes_issuer (hash : CollisionFree) (env : Env) (self : Identity)
    (old : Option CapabilityIndex) :
    Pushes env (fun w => w.identity = self ∧ Indexed old w) (fun _ => True) :=
  (pushes_identity env self).and (pushes_indexed hash env old)

theorem Records.exec_loadCapabilityIndex {index : CapabilityIndex} {w : Runtime}
    (h : Records CapabilityIndex.codec RECORD_CAPABILITIES index w) (env : Env) :
    exec loadCapabilityIndex env w = (.ok (some index), w) := by
  unfold loadCapabilityIndex
  rw [exec_bind_ok (Prog.exec_get env w)]
  exact h.exec_resolveOwnerRecord env

theorem loadCapabilityIndex_triple (old : Option CapabilityIndex) :
    Triple env (fun w => w.identity = self ∧ Indexed old w) loadCapabilityIndex
      (fun r w => (w.identity = self ∧ Indexed old w) ∧ ∀ index, old = some index → r = some index)
      (fun w => w.identity = self ∧ Indexed old w) := by
  cases old with
  | none =>
    apply Triple.conseq (ingress_identity env self).keeps_loadCapabilityIndex
    . intro w hw
      exact hw.1
    . intro r w hw
      exact ⟨⟨hw.1, by simp [Indexed]⟩, by simp⟩
    . intro w hw
      exact ⟨hw, by simp [Indexed]⟩
  | some index =>
    constructor
    intro w hw
    rw [(hw.2 index rfl).exec_loadCapabilityIndex env]
    exact ⟨hw, by simp⟩

/--
Saving an index either publishes it or leaves the published one.
-/
theorem saveCapabilityIndex_triple (laws : SignatureLaws) (hash : CollisionFree)
    (old : Option CapabilityIndex) (index : CapabilityIndex) :
    Triple env (fun w => w.identity = self ∧ Indexed old w) (saveCapabilityIndex index)
      (fun _ w => w.identity = self ∧
        Indexed (some { index with version := index.version + 1 }) w)
      (fun w => w.identity = self ∧ Indexed old w) := by
  have hbefore := pushes_issuer hash env self old
  unfold saveCapabilityIndex
  dsimp only
  apply Triple.bind (Q := fun _ w => w.identity = self ∧ Indexed old w)
  . exact hbefore.keeps_now.triple
  . intro time
    apply Triple.bind (Q := fun a w => a.identity = self ∧ w.identity = self ∧ Indexed old w)
    . exact Triple.get fun w hw => ⟨hw.1, hw⟩
    . intro a
      apply Triple.of_and
      intro hself
      rw [hself]
      have htrue : Spared env (AppPointerRecord.key self.id RECORD_CAPABILITIES) (fun _ => True) :=
        ⟨.ofDisk (fun _ _ _ _ => trivial) (fun _ _ _ _ _ => trivial) (fun _ _ _ _ => trivial),
          fun _ _ _ => trivial⟩
      apply (publishObject_records laws hash (pushes_indexed hash env old) htrue).conseq
      . intro w hw
        exact ⟨hw.1, hw.2, trivial⟩
      . intro _ w hw
        refine ⟨hw.1, ?_⟩
        intro saved hsaved
        simp only [Option.some.injEq] at hsaved
        rw [← hsaved]
        exact hw.2.2
      . intro w hw
        exact ⟨hw.1, hw.2.1⟩

/--
The index with a grant appended, as `grant_capability` saves it.
-/
def granted (index : CapabilityIndex) (capability : Capability) : CapabilityIndex where
  entries := index.entries ++ [{ capability := capability, revoked := false }]
  version := index.version + 1

theorem grantCapabilityLoad_triple (hash : CollisionFree) (old : Option CapabilityIndex)
    (subject : IdentityId) (resource : Resource) (permissions : List Permission)
    (expiresAt : Option UInt64) :
    Triple env (fun w => w.identity = self ∧ Indexed old w)
      (grantCapabilityLoad subject resource permissions expiresAt)
      (fun r w => (w.identity = self ∧ Indexed old w) ∧ ∀ index, old = some index → r.2 = index)
      (fun w => w.identity = self ∧ Indexed old w) := by
  have hissuer := pushes_issuer hash env self old
  have hnow : Triple env (fun w => w.identity = self ∧ Indexed old w) now
      (fun _ w => w.identity = self ∧ Indexed old w)
      (fun w => w.identity = self ∧ Indexed old w) :=
    hissuer.keeps_now.triple
  unfold grantCapabilityLoad
  apply Triple.bind hnow
  intro time
  apply Triple.bind (Q := fun _ w => w.identity = self ∧ Indexed old w)
  . exact Triple.get fun w hw => hw
  . intro a
    dsimp only
    apply Triple.bind hnow
    intro stamp
    apply Triple.bind (Q := fun _ w => w.identity = self ∧ Indexed old w)
    . exact (hissuer.keeps_putVerified fun _ => trivial).triple
    . intro _
      apply Triple.bind (loadCapabilityIndex_triple old)
      intro index
      apply Triple.pure
      intro w hw
      refine ⟨hw.1, ?_⟩
      intro published hpublished
      simp [hw.2 published hpublished]

theorem grantCapabilityPublish_triple (laws : SignatureLaws) (hash : CollisionFree)
    (old : Option CapabilityIndex) (loaded : Capability × CapabilityIndex) :
    Triple env (fun w => w.identity = self ∧ Indexed old w) (grantCapabilityPublish loaded)
      (fun c w => c = loaded.1 ∧ w.identity = self ∧ Indexed (some (granted loaded.2 loaded.1)) w)
      (fun w => w.identity = self ∧ Indexed old w) := by
  obtain ⟨capability, index⟩ := loaded
  apply Triple.bind (saveCapabilityIndex_triple laws hash old _)
  intro _
  apply Triple.pure
  intro w hw
  exact ⟨rfl, hw⟩

/--
A grant that returns has appended an entry to the published index; one that fails has changed
nothing.
-/
theorem grantCapability_triple (laws : SignatureLaws) (hash : CollisionFree)
    (old : Option CapabilityIndex) (subject : IdentityId) (resource : Resource)
    (permissions : List Permission) (expiresAt : Option UInt64) :
    Triple env (fun w => w.identity = self ∧ Indexed old w)
      (grantCapability subject resource permissions expiresAt)
      (fun c w => w.identity = self ∧ ∃ index, Indexed (some (granted index c)) w ∧
        ∀ published, old = some published → index = published)
      (fun w => w.identity = self ∧ Indexed old w) := by
  apply Triple.bind (grantCapabilityLoad_triple hash old subject resource permissions expiresAt)
  intro loaded
  apply Triple.of_and'
  intro hloaded
  apply (grantCapabilityPublish_triple laws hash old loaded).conseq (fun _ hw => hw)
  . intro c w hw
    exact ⟨hw.2.1, loaded.2, hw.1 ▸ hw.2.2, hloaded⟩
  . intro w hw
    exact hw

theorem revokeCapabilityPublish_triple (laws : SignatureLaws) (hash : CollisionFree)
    (old : Option CapabilityIndex) (id : CapabilityId) (index : CapabilityIndex) :
    Triple env (fun w => w.identity = self ∧ Indexed old w) (revokeCapabilityPublish id index)
      (fun _ w => w.identity = self ∧ ∃ entries,
        CapabilityIndex.revokeFirst id index.entries = some entries ∧
        Indexed (some ⟨entries, index.version + 1⟩) w)
      (fun w => w.identity = self ∧ Indexed old w) := by
  unfold revokeCapabilityPublish
  cases hrevoked : CapabilityIndex.revokeFirst id index.entries with
  | none =>
    apply Triple.bind (Q := fun _ _ => False)
    . exact Triple.throw fun w hw => hw
    . intro _
      exact ⟨fun w hw => hw.elim⟩
  | some entries =>
    apply Triple.bind (Q := fun a w => a = entries ∧ w.identity = self ∧ Indexed old w)
    . exact Triple.pure fun w hw => ⟨rfl, hw⟩
    . intro a
      apply Triple.of_and
      intro ha
      subst ha
      apply Triple.bind (saveCapabilityIndex_triple laws hash old _)
      intro _
      apply Triple.pure
      intro w hw
      exact ⟨hw.1, a, rfl, hw.2⟩

/--
A revocation that returns has published the index that it read with the entry revoked; one that
fails has changed nothing.
-/
theorem revokeCapability_triple (laws : SignatureLaws) (hash : CollisionFree)
    (old : Option CapabilityIndex) (id : CapabilityId) (w₀ : Runtime) :
    Triple env (fun w => w = w₀ ∧ w.identity = self ∧ Indexed old w) (revokeCapability id)
      (fun _ w => w.identity = self ∧ ∃ index entries,
        (exec loadCapabilityIndex env w₀).1 = .ok (some index) ∧
        CapabilityIndex.revokeFirst id index.entries = some entries ∧
        Indexed (some ⟨entries, index.version + 1⟩) w)
      (fun w => w.identity = self ∧ Indexed old w) := by
  unfold revokeCapability revokeCapabilityLoad
  apply Triple.bind (Q := fun index w => (w.identity = self ∧ Indexed old w) ∧
    (exec loadCapabilityIndex env w₀).1 = .ok (some index))
  . apply Triple.bind ((loadCapabilityIndex_triple old).traced w₀)
    intro r
    apply Triple.of_and
    intro hread
    cases r with
    | none => exact Triple.throw fun w hw => hw.1
    | some index => exact Triple.pure fun w hw => ⟨hw.1, hread⟩
  . intro index
    apply Triple.of_and'
    intro hread
    apply (revokeCapabilityPublish_triple laws hash old id index).conseq (fun _ hw => hw)
    . intro _ w ⟨hself, entries, hrevoked, hindexed⟩
      exact ⟨hself, index, entries, hread, hrevoked, hindexed⟩
    . intro w hw
      exact hw

end Runtime

/--
The node of an issuer, and the ids whose revocation it acknowledged.
-/
structure Issuer where
  node : Runtime
  revoked : List CapabilityId

inductive IssuerOp where
  | grant (subject : IdentityId) (resource : Resource) (permissions : List Permission)
      (expiresAt : Option UInt64)
  | revoke (id : CapabilityId)

namespace Issuer

def step : IssuerOp × Env → Issuer → Issuer
  | (.grant subject resource permissions expiresAt, env), i =>
    { i with node := (exec (grantCapability subject resource permissions expiresAt) env i.node).2 }
  | (.revoke id, env), i =>
    match exec (revokeCapability id) env i.node with
    | (.ok _, w) => { node := w, revoked := id :: i.revoked }
    | (.error _, w) => { i with node := w }

/--
What the acknowledged revocations promise: no index that is loaded has an unrevoked entry with such
an id, access is never granted through one, and a check of such a capability of this issuer fails.
-/
structure Effective (i : Issuer) : Prop where
  load : ∀ env index, (exec loadCapabilityIndex env i.node).1 = .ok (some index) →
    index.Revokes i.revoked
  access : ∀ env subject permission resource,
    (exec (checkAccess subject permission resource) env i.node).1 = .ok true →
      ∃ index time capability, (exec loadCapabilityIndex env i.node).1 = .ok (some index) ∧
        index.findActive subject resource permission time = some capability ∧
        capability.id ∉ i.revoked
  check : ∀ env capability verdict, capability.issuer = i.node.identity.id →
    capability.id ∈ i.revoked → (exec (checkCapability capability) env i.node).1 = .ok verdict →
      verdict.1 = false

/--
A grant does not get the id of an acknowledged revocation, and a revocation finds no unrevoked entry
with its id behind the first one.
-/
def Distinct : IssuerOp × Env → Issuer → Prop
  | (.grant subject resource permissions expiresAt, env), i => ∀ capability,
    (exec (grantCapability subject resource permissions expiresAt) env i.node).1 = .ok capability →
      capability.id ∉ i.revoked
  | (.revoke id, env), i => (exec (revokeCapability id) env i.node).1 = .ok () →
    ∀ index, (exec loadCapabilityIndex env i.node).1 = .ok (some index) →
      CapabilityIndex.OnlyFirst id index.entries

/--
The invariant: once a revocation was acknowledged, the published index lists all such ids and
revokes them.
-/
def Sound (i : Issuer) : Prop :=
  i.revoked = [] ∨ ∃ index, Records CapabilityIndex.codec RECORD_CAPABILITIES index i.node ∧
    (∀ id ∈ i.revoked, index.Lists id) ∧ index.Revokes i.revoked

theorem checkAccess_eq_true {env : Env} {w : Runtime} {subject : IdentityId}
    {permission : Permission} {resource : Resource}
    (h : (exec (checkAccess subject permission resource) env w).1 = .ok true) :
    ∃ index time capability, (exec loadCapabilityIndex env w).1 = .ok (some index) ∧
      index.findActive subject resource permission time = some capability := by
  obtain ⟨r, hread, hrest⟩ := exec_bind_eq_ok h
  cases r with
  | none => cases hrest
  | some index =>
    obtain ⟨time, _, hreturned⟩ := exec_bind_eq_ok hrest
    simp only [Prog.exec_pure, Except.ok.injEq, CapabilityIndex.grants] at hreturned
    obtain ⟨capability, hactive⟩ := Option.isSome_iff_exists.mp hreturned
    exact ⟨index, _, capability, hread, hactive⟩

theorem effective_of_nil {i : Issuer} (h : i.revoked = []) : Effective i where
  load _ _ _ entry _ hid := by simp [h] at hid
  access _ _ _ _ haccess := by
    obtain ⟨index, time, capability, hread, hactive⟩ := checkAccess_eq_true haccess
    exact ⟨index, time, capability, hread, hactive, by simp [h]⟩
  check _ _ _ _ hid := by simp [h] at hid

theorem checkCapability_of_revoked {env : Env} {w : Runtime} {index : CapabilityIndex}
    {capability : Capability} {verdict : Bool × String}
    (hrecords : Records CapabilityIndex.codec RECORD_CAPABILITIES index w)
    (hissuer : capability.issuer = w.identity.id) (hrevoked : revokedIn capability.id index = true)
    (h : (exec (checkCapability capability) env w).1 = .ok verdict) : verdict.1 = false := by
  have hticked : Records CapabilityIndex.codec RECORD_CAPABILITIES index
      { w with tick := w.tick + 1 } := by
    obtain ⟨payload, hpublishes, hdecode⟩ := hrecords
    exact ⟨payload, ⟨hpublishes.cached, hpublishes.stores, hpublishes.owner⟩, hdecode⟩
  have hcheck : exec (isRevoked capability) env { w with tick := w.tick + 1 } =
      (.ok true, { w with tick := w.tick + 1 }) := by
    unfold isRevoked
    rw [exec_bind_ok (Prog.exec_get env _)]
    simp only [hissuer, if_true]
    rw [exec_bind_ok (hticked.exec_loadCapabilityIndex env)]
    simp [hrevoked]
  unfold checkCapability at h
  rw [exec_bind_ok (exec_now env w)] at h
  dsimp only at h
  split at h
  . cases h
    rfl
  . split at h
    . cases h
      rfl
    . rw [exec_bind_ok hcheck] at h
      cases h
      rfl

theorem Sound.effective {i : Issuer} (h : Sound i) : Effective i := by
  rcases h with hnil | ⟨index, hrecords, hlists, hrevokes⟩
  . exact effective_of_nil hnil
  . have hload (env : Env) := congrArg Prod.fst (hrecords.exec_loadCapabilityIndex env)
    exact {
      load := by
        intro env other hother
        rw [hload env] at hother
        cases hother
        exact hrevokes
      access := by
        intro env subject permission resource haccess
        obtain ⟨other, time, capability, hread, hactive⟩ := checkAccess_eq_true haccess
        have hother := hread
        rw [hload env] at hother
        cases hother
        exact ⟨index, time, capability, hread, hactive, hrevokes.not_mem_of_findActive hactive⟩
      check := by
        intro env capability verdict hissuer hid hverdict
        have hrevoked := hrevokes.revokedIn (hlists _ hid) hid
        exact checkCapability_of_revoked hrecords hissuer hrevoked hverdict
    }

theorem indexed_some {index : CapabilityIndex} {w : Runtime} :
    Indexed (some index) w ↔ Records CapabilityIndex.codec RECORD_CAPABILITIES index w := by
  simp [Indexed]

theorem grant_cases (laws : SignatureLaws) (hash : CollisionFree) (env : Env) {i : Issuer}
    (subject : IdentityId) (resource : Resource) (permissions : List Permission)
    (expiresAt : Option UInt64) {index : CapabilityIndex}
    (h : Records CapabilityIndex.codec RECORD_CAPABILITIES index i.node) :
    match (exec (grantCapability subject resource permissions expiresAt) env i.node).1 with
    | .ok c => Records CapabilityIndex.codec RECORD_CAPABILITIES (granted index c)
        (step (.grant subject resource permissions expiresAt, env) i).node
    | .error _ => Records CapabilityIndex.codec RECORD_CAPABILITIES index
        (step (.grant subject resource permissions expiresAt, env) i).node := by
  have hspec : Triple env (fun w => w.identity = i.node.identity ∧ Indexed (some index) w) _ _ _ :=
    grantCapability_triple laws hash (some index) subject resource permissions expiresAt
  have := hspec.spec i.node ⟨rfl, indexed_some.mpr h⟩
  simp only [step]
  generalize exec (grantCapability subject resource permissions expiresAt) env i.node = res at this
  rcases res with ⟨e | c, w⟩
  . exact indexed_some.mp this.2
  . obtain ⟨_, read, hindexed, hread⟩ := this
    rw [← hread index rfl]
    exact indexed_some.mp hindexed

/--
What a revocation does to the run: if it returns, it has published the index that it read with the
first entry revoked.
-/
theorem revoke_cases (laws : SignatureLaws) (hash : CollisionFree) (env : Env) (i : Issuer)
    (id : CapabilityId) :
    match exec (revokeCapability id) env i.node with
    | (.ok _, w) => ∃ index entries, (exec loadCapabilityIndex env i.node).1 = .ok (some index) ∧
        CapabilityIndex.revokeFirst id index.entries = some entries ∧
        Records CapabilityIndex.codec RECORD_CAPABILITIES ⟨entries, index.version + 1⟩ w
    | (.error _, w) => ∀ index, Records CapabilityIndex.codec RECORD_CAPABILITIES index i.node →
        Records CapabilityIndex.codec RECORD_CAPABILITIES index w := by
  have htriple (old : Option CapabilityIndex) :
      Triple env (fun w => w = i.node ∧ w.identity = i.node.identity ∧ Indexed old w) _ _ _ :=
    revokeCapability_triple laws hash old id i.node
  have hspec (old : Option CapabilityIndex) := (htriple old).spec i.node
  generalize exec (revokeCapability id) env i.node = res at hspec
  rcases res with ⟨e | u, w⟩
  . intro index hindex
    exact indexed_some.mp (hspec (some index) ⟨rfl, rfl, indexed_some.mpr hindex⟩).2
  . obtain ⟨_, index, entries, hread, hrevoked, hindexed⟩ :=
      hspec none ⟨rfl, rfl, by simp [Indexed]⟩
    exact ⟨index, entries, hread, hrevoked, indexed_some.mp hindexed⟩

theorem Sound.read {i : Issuer} (h : Sound i) {env : Env} {index : CapabilityIndex}
    (hread : (exec loadCapabilityIndex env i.node).1 = .ok (some index)) :
    (∀ id ∈ i.revoked, index.Lists id) ∧ index.Revokes i.revoked := by
  rcases h with hnil | ⟨published, hrecords, hlists, hrevokes⟩
  . rw [hnil]
    exact ⟨by simp, by simp [CapabilityIndex.Revokes]⟩
  . rw [hrecords.exec_loadCapabilityIndex env] at hread
    cases hread
    exact ⟨hlists, hrevokes⟩

theorem sound_grant (laws : SignatureLaws) (hash : CollisionFree) {env : Env} {i : Issuer}
    {subject : IdentityId} {resource : Resource} {permissions : List Permission}
    {expiresAt : Option UInt64}
    (hdistinct : Distinct (.grant subject resource permissions expiresAt, env) i) (h : Sound i) :
    Sound (step (.grant subject resource permissions expiresAt, env) i) := by
  rcases h with hnil | ⟨index, hrecords, hlists, hrevokes⟩
  . exact .inl hnil
  . have hcases := grant_cases laws hash env subject resource permissions expiresAt hrecords
    simp only [Distinct] at hdistinct
    generalize (exec (grantCapability subject resource permissions expiresAt) env i.node).1 = r
      at hcases hdistinct
    right
    cases r with
    | error e => exact ⟨index, hcases, hlists, hrevokes⟩
    | ok c =>
      refine ⟨granted index c, hcases, ?_, ?_⟩
      . intro id hid
        obtain ⟨entry, hentry, hentryId⟩ := hlists id hid
        exact ⟨entry, List.mem_append_left _ hentry, hentryId⟩
      . intro entry hentry hid
        cases List.mem_append.mp hentry with
        | inl hold => exact hrevokes entry hold hid
        | inr hnew =>
          rw [List.mem_singleton] at hnew
          rw [hnew] at hid
          exact absurd hid (hdistinct c rfl)

theorem sound_revoke (laws : SignatureLaws) (hash : CollisionFree) {env : Env} {i : Issuer}
    {id : CapabilityId} (hdistinct : Distinct (.revoke id, env) i) (h : Sound i) :
    Sound (step (.revoke id, env) i) := by
  have hcases := revoke_cases laws hash env i id
  simp only [Distinct] at hdistinct
  simp only [step]
  generalize exec (revokeCapability id) env i.node = res at hcases hdistinct
  rcases res with ⟨e | u, w⟩
  . rcases h with hnil | ⟨index, hrecords, hlists, hrevokes⟩
    . exact .inl hnil
    . exact .inr ⟨index, hcases index hrecords, hlists, hrevokes⟩
  . obtain ⟨index, entries, hread, hrevoked, hrecords⟩ := hcases
    obtain ⟨hlists, hrevokes⟩ := h.read hread
    have honly := hdistinct rfl index hread
    refine .inr ⟨⟨entries, index.version + 1⟩, hrecords, ?_, ?_⟩
    . intro other hother
      cases List.mem_cons.mp hother with
      | inl heq =>
        rw [heq]
        exact (CapabilityIndex.mem_revokeFirst hrevoked).1
      | inr hmem => exact (hlists other hmem).revokeFirst hrevoked
    . intro entry hentry hid
      cases List.mem_cons.mp hid with
      | inl heq =>
        exact (CapabilityIndex.revokeFirst_revokes_iff hrevoked).mpr honly entry hentry heq
      | inr hmem =>
        cases (CapabilityIndex.mem_revokeFirst hrevoked).2.2 entry hentry with
        | inl hold => exact hrevokes entry hold hmem
        | inr hnew => exact hnew.2

theorem sound_step (laws : SignatureLaws) (hash : CollisionFree) {l : IssuerOp × Env} {i : Issuer}
    (hdistinct : Distinct l i) (h : Sound i) : Sound (step l i) := by
  obtain ⟨op, env⟩ := l
  cases op with
  | grant => exact sound_grant laws hash hdistinct h
  | revoke => exact sound_revoke laws hash hdistinct h

theorem distinct_of_effective (laws : SignatureLaws) (hash : CollisionFree) {l : IssuerOp × Env}
    {i : Issuer} (h : Sound i) (heffective : Effective (step l i)) : Distinct l i := by
  obtain ⟨op, env⟩ := l
  cases op with
  | grant subject resource permissions expiresAt =>
    intro c hreturned hid
    rcases h with hnil | ⟨index, hrecords, _, _⟩
    . simp [hnil] at hid
    . have hcases := grant_cases laws hash env subject resource permissions expiresAt hrecords
      rw [hreturned] at hcases
      have hload := heffective.load env (granted index c)
        (congrArg Prod.fst (hcases.exec_loadCapabilityIndex env))
      have := hload ⟨c, false⟩ (List.mem_append_right _ List.mem_cons_self) hid
      contradiction
  | revoke id =>
    intro hreturned index hread
    have hcases := revoke_cases laws hash env i id
    simp only [step] at heffective
    generalize exec (revokeCapability id) env i.node = res at hcases heffective hreturned
    rcases res with ⟨e | u, w⟩
    . contradiction
    . obtain ⟨other, entries, hother, hrevoked, hrecords⟩ := hcases
      rw [hread] at hother
      cases hother
      rw [← CapabilityIndex.revokeFirst_revokes_iff hrevoked]
      intro entry hentry hid
      have hload := heffective.load env ⟨entries, index.version + 1⟩
        (congrArg Prod.fst (hrecords.exec_loadCapabilityIndex env))
      exact hload entry hentry (hid ▸ List.mem_cons_self)

end Issuer

end Canopee

namespace Canopee.Issuer

open Canopee.Runtime
open Prog (exec)

section Witness

open Canopee.Transparent

/--
A revocation of an id that was never granted, then a grant.
-/
def unknownThenGrant : List (IssuerOp × Env) :=
  [(.revoke ⟨"00"⟩, Env.quiet 0), (.grant bob.id (.channel "door") [.read] none, Env.quiet 0)]

end Witness

section Counterexample

open Canopee.Compact

/--
The capability that Alice's node issues for the door at time 0.
-/
def doorCapability : Capability :=
  .issue alice 0 bob.id (.channel "door") [.read] none

/--
Two equal grants in the same second, then a revocation of their id.
-/
def grantedTwice : List (IssuerOp × Env) :=
  [(.grant bob.id (.channel "door") [.read] none, Env.quiet 0),
    (.grant bob.id (.channel "door") [.read] none, Env.quiet 0),
    (.revoke doorCapability.id, Env.quiet 0)]

def afterRevocation : Issuer :=
  Run.run step ⟨fresh alice laptop, []⟩ grantedTwice

theorem afterRevocation_evaluated :
    afterRevocation.revoked = [doorCapability.id] ∧
      (exec (checkCapability doorCapability) (Env.quiet 0) afterRevocation.node).1 =
        .ok (false, "revoked by the issuer") ∧
      (exec (checkAccess bob.id .read (.channel "door")) (Env.quiet 0) afterRevocation.node).1 =
        .ok true ∧
      (exec loadCapabilityIndex (Env.quiet 0) afterRevocation.node).1.toOption.join.any
        (fun index => index.entries.any fun entry =>
          entry.capability.id == doorCapability.id && !entry.revoked) = true := by
  decide +kernel

end Counterexample

end Canopee.Issuer
