import Canopee.Runtime.Enrich
import Canopee.Results.Resolution

/-!
This module contains whom a node takes its connected peers for.
-/

namespace Canopee

open Primitives
open Canopee.Runtime
open Prog (exec exec_bind exec_bind_ok Triple)

variable [Primitives]

namespace Runtime

section Registry

variable {env : Env} {w : Runtime} {peer : PeerId} {id : IdentityId}

/--
The registry record of a device that a lookup from `w` goes by: the cached one, or else that of the
DHT at this moment.
-/
def registryRecord (env : Env) (w : Runtime) (peer : PeerId) : Option Bytes :=
  match w.records.lookup (recordFile (deviceRegistryKey peer)) with
  | some bytes => some bytes
  | none => (env.record w.tick (deviceRegistryKey peer)).toOption.join

/--
The identity that it names.
-/
def registered (env : Env) (w : Runtime) (peer : PeerId) : Option IdentityId :=
  (registryRecord env w peer).bind fun bytes => (Codec.ofUtf8 bytes).map IdentityId.mk

theorem handleObjectRequest_returns (request : ObjectRequest) :
    Triple env (fun _ => True) (handleObjectRequest request) (fun _ _ => True) (fun _ => False) := by
  have hattempt {α : Type} (m : RunM α) :
      Triple env (fun _ => True) (Prog.attempt m) (fun _ _ => True) (fun _ => False) := by
    apply Triple.attempt
    exact Triple.of_forall (fun _ _ => trivial) (fun _ _ => trivial)
  unfold handleObjectRequest
  cases request with
  | getObject id =>
    apply Triple.bind (Q := fun _ _ => True)
    . unfold provide
      apply Triple.bind (hattempt _)
      intro verified
      split
      . exact Triple.pure fun _ _ => trivial
      . apply Triple.bind (Q := fun _ _ => True)
        . constructor
          intro s _
          trivial
        . intro cached
          split
          . apply Triple.bind (Q := fun _ _ => True)
            . constructor
              intro s _
              trivial
            . intro _
              exact Triple.pure fun _ _ => trivial
          . apply Triple.bind (Q := fun _ _ => True) (Triple.get fun _ _ => trivial)
            intro s
            split
            . exact Triple.pure fun _ _ => trivial
            . exact Triple.pure fun _ _ => trivial
    . intro bundle
      split
      . exact Triple.pure fun _ _ => trivial
      . exact Triple.pure fun _ _ => trivial
  | store bundle =>
    apply Triple.bind (hattempt _)
    intro accepted
    split
    . exact Triple.pure fun _ _ => trivial
    . exact Triple.pure fun _ _ => trivial

theorem handleAll_returns (env : Env) (requests : List ObjectRequest) :
    Triple env (fun _ => True) (handleAll requests) (fun _ _ => True) (fun _ => False) := by
  induction requests with
  | nil => exact Triple.pure fun _ _ => trivial
  | cons request requests ih => exact Triple.bind (handleObjectRequest_returns request) fun _ => ih

theorem settle_fst (env : Env) (w : Runtime) : (exec settle env w).1 = .ok w.tick := by
  unfold settle
  rw [exec_bind_ok (exec_nextTick env w), exec_bind_ok (Prog.exec_read env _), exec_bind]
  have hreturns := (handleAll_returns env (env.inbound w.tick)).spec
    { w with tick := w.tick + 1 } trivial
  generalize exec (handleAll _) _ _ = res at hreturns
  rcases res with ⟨_ | _, t⟩
  . exact hreturns.elim
  . rfl

theorem getRecord_fst (key : Bytes) : (exec (getRecord key) env w).1 = env.record w.tick key := by
  have hsettle := settle_fst env w
  unfold getRecord
  rw [exec_bind]
  generalize exec settle env w = res at hsettle
  rcases res with ⟨_, t⟩
  dsimp only at hsettle
  rw [hsettle]
  dsimp only
  rw [exec_bind_ok (Prog.exec_read env _), exec_ofExcept]

theorem resolveRecord_fst (key : Bytes) (env : Env) (w : Runtime) :
    (exec (resolveRecord key) env w).1 = .ok (match w.records.lookup (recordFile key) with
      | some bytes => some bytes
      | none => (env.record w.tick key).toOption.join) := by
  unfold resolveRecord
  rw [exec_bind_ok (Prog.exec_get env w)]
  cases w.records.lookup (recordFile key) with
  | some bytes => rfl
  | none =>
    dsimp only
    rw [exec_bind_ok (Prog.exec_attempt _ env w), getRecord_fst]
    cases env.record w.tick key with
    | error e => rfl
    | ok found =>
      cases found with
      | none => rfl
      | some value =>
        dsimp only
        rw [exec_bind_ok (Prog.exec_attempt _ env _)]
        rfl

theorem resolveDeviceIdentity_eq_some :
    (exec (resolveDeviceIdentity peer) env w).1 = .ok (some id) ↔
      registered env w peer = some id := by
  have hrecord := resolveRecord_fst (deviceRegistryKey peer) env w
  unfold resolveDeviceIdentity registered
  rw [exec_bind]
  generalize exec (resolveRecord _) env w = res at hrecord
  rcases res with ⟨_, t⟩
  dsimp only at hrecord
  rw [hrecord, ← registryRecord]
  cases registryRecord env w peer with
  | none => simp
  | some bytes =>
    dsimp only
    cases htext : Codec.ofUtf8 bytes with
    | none => simp [htext, ofOption, exec_bind]
    | some text => simp [htext, ofOption, exec_bind]

end Registry

/--
A device list under the signature of its owner.
-/
structure SignedList (owner : IdentityId) where
  object : Object
  list : DeviceList
  verified : object.verify = true
  derived : derives object.publicKey owner = true
  decoded : object.decode DeviceList.codec = some list

/--
The signed device list of the identity has the device, where `lists` are the lists that the
identities have signed.
-/
def Owns (lists : (owner : IdentityId) → Option (SignedList owner)) (id : IdentityId)
    (device : PeerId) : Prop :=
  ∃ signed, lists id = some signed ∧ signed.list.hasDevice device.base58 = true

/--
An identity that was resolved for the peer owns it.
-/
def PeerLabel.Owned (lists : (owner : IdentityId) → Option (SignedList owner))
    (label : PeerLabel) : Prop :=
  label.resolved = true → ∀ id, label.identity = some id → Owns lists id label.peerId

/--
The node takes its connected peers for devices of identities that own them.
-/
def LabelsOwned (lists : (owner : IdentityId) → Option (SignedList owner)) (env : Env)
    (w : Runtime) : Prop :=
  ∀ labels, (exec enrichPeers env w).1 = .ok labels → ∀ label ∈ labels, label.Owned lists

/--
Whenever a connected peer is looked up, the registry record of the device names an identity that
owns it, if any.
-/
def RegistryOwned (lists : (owner : IdentityId) → Option (SignedList owner)) (env : Env)
    (w : Runtime) : Prop :=
  ∀ peers, (exec connectedPeers env w).1 = .ok peers →
    Run.Along (fun peer u => (exec (enrichPeer peer) env u).2)
      (fun peer u => ∀ id, registered env u peer = some id → Owns lists id peer)
      (exec connectedPeers env w).2 peers

section Labels

variable {lists : (owner : IdentityId) → Option (SignedList owner)} {env : Env} {w : Runtime}

theorem exec_enrichPeer (peer : PeerId) (env : Env) (w : Runtime) :
    ∃ label u, exec (enrichPeer peer) env w = (.ok label, u) ∧ label.peerId = peer ∧
      ∀ id, label.resolved = true ∧ label.identity = some id ↔ registered env w peer = some id := by
  have hresolves (id : IdentityId) := @resolveDeviceIdentity_eq_some _ env w peer id
  unfold enrichPeer
  rw [exec_bind_ok (Prog.exec_attempt _ env w)]
  generalize exec (resolveDeviceIdentity peer) env w = res at hresolves
  rcases res with ⟨answer, t⟩
  dsimp only at hresolves ⊢
  have hidentity (id : IdentityId) : (peerIdentity peer answer).2 = true ∧
      (peerIdentity peer answer).1 = some id ↔ registered env w peer = some id := by
    rw [← hresolves]
    unfold peerIdentity
    split
    . simp
    -- the id that stands in for an identity is not marked as resolved
    . next hanswer =>
      simp only [Bool.false_eq_true, false_and, false_iff]
      intro heq
      exact hanswer _ heq
  generalize peerIdentity peer answer = pair at hidentity
  rcases pair with ⟨identity, resolved⟩
  cases identity with
  | none => exact ⟨_, _, rfl, rfl, hidentity⟩
  | some id =>
    dsimp only
    rw [exec_bind_ok (Prog.exec_attempt _ env _), exec_bind_ok (Prog.exec_attempt _ env _)]
    exact ⟨_, _, rfl, rfl, hidentity⟩

theorem exec_enrichAll (lists : (owner : IdentityId) → Option (SignedList owner)) (env : Env)
    (peers : List PeerId) (w : Runtime) :
    ∃ labels, (exec (enrichAll peers) env w).1 = .ok labels ∧
      ((∀ label ∈ labels, label.Owned lists) ↔
        Run.Along (fun peer u => (exec (enrichPeer peer) env u).2)
          (fun peer u => ∀ id, registered env u peer = some id → Owns lists id peer) w peers) := by
  induction peers generalizing w with
  | nil => exact ⟨[], rfl, by simp⟩
  | cons peer peers ih =>
    obtain ⟨label, u, hlabel, hpeer, hregistered⟩ := exec_enrichPeer peer env w
    obtain ⟨labels, hlabels, hiff⟩ := ih u
    have hfirst : label.Owned lists ↔
        ∀ id, registered env w peer = some id → Owns lists id peer := by
      unfold PeerLabel.Owned
      rw [hpeer]
      constructor
      . intro howned id hid
        have hlabelled := (hregistered id).mpr hid
        exact howned hlabelled.1 id hlabelled.2
      . intro howned hresolved id hid
        exact howned id ((hregistered id).mp ⟨hresolved, hid⟩)
    refine ⟨label :: labels, ?_, ?_⟩
    . unfold enrichAll
      rw [exec_bind_ok hlabel, exec_bind]
      generalize exec (enrichAll peers) env u = res at hlabels
      rcases res with ⟨_, t⟩
      dsimp only at hlabels
      rw [hlabels]
      rfl
    . rw [List.forall_mem_cons, Run.along_cons, hfirst, hiff, hlabel]

theorem enrichPeers_owned_iff : LabelsOwned lists env w ↔ RegistryOwned lists env w := by
  unfold LabelsOwned RegistryOwned enrichPeers
  rw [exec_bind]
  generalize exec connectedPeers env w = res
  rcases res with ⟨_ | peers, u⟩
  . simp
  . obtain ⟨labels, hlabels, hiff⟩ := exec_enrichAll lists env peers u
    dsimp only
    rw [exec_bind]
    generalize exec (enrichAll peers) env u = res at hlabels
    rcases res with ⟨_, t⟩
    dsimp only at hlabels
    rw [hlabels]
    dsimp only
    rw [Prog.exec_pure]
    -- only labels that were not resolved are dropped
    have hkept : (∀ label ∈ labels.filter fun label =>
        !(label.username.isNone && label.displayName.isNone && !label.resolved),
        label.Owned lists) ↔ ∀ label ∈ labels, label.Owned lists := by
      constructor
      . intro h label hlabel hresolved
        refine h label ?_ hresolved
        rw [List.mem_filter]
        exact ⟨hlabel, by simp [hresolved]⟩
      . intro h label hlabel
        exact h label (List.mem_of_mem_filter hlabel)
    simp only [Except.ok.injEq, forall_eq']
    rw [hkept, hiff]

end Labels

end Runtime

end Canopee

namespace Canopee.Runtime

open Canopee.Compact
open Prog (exec)

/--
The one device that Alice has signed for.
-/
def laptopList : DeviceList where
  devices := [⟨"aa", "laptop", none⟩]
  version := 1

theorem laptopList_verified : (laptopList.toObject alice 0).verify = true ∧
    derives (laptopList.toObject alice 0).publicKey alice.id = true := by decide +kernel

def aliceLists (owner : IdentityId) : Option (SignedList owner) :=
  if h : alice.id = owner then
    some {
      object := laptopList.toObject alice 0
      list := laptopList
      verified := laptopList_verified.1
      derived := h ▸ laptopList_verified.2
      decoded := decode_toObject DeviceList.codec .profile laptopList alice 0 }
  else
    none

theorem list_of_aliceLists {owner : IdentityId} {signed : SignedList owner}
    (h : aliceLists owner = some signed) : signed.list = laptopList := by
  unfold aliceLists at h
  split at h
  . rw [Option.some.injEq] at h
    rw [← h]
  . contradiction

/--
The device `bb` is connected and has put Alice's identity under its own registry key.
-/
def impersonating : Env :=
  { Env.quiet 4 with
    peers := fun _ => .ok [⟨"bb"⟩]
    record := fun _ key =>
      .ok (if key = deviceRegistryKey ⟨"bb"⟩ then some (Codec.utf8 alice.id.text) else none) }

/--
Bob's node then shows the device as one of Alice's.
-/
theorem not_labelsOwned_impersonating :
    ¬ LabelsOwned aliceLists impersonating (fresh bob laptop) := by
  have hlabels : (exec enrichPeers impersonating (fresh bob laptop)).1.toOption.any (fun labels =>
      labels.any fun label => label.resolved && label.identity == some alice.id &&
        label.peerId == ⟨"bb"⟩) = true := by decide +kernel
  have hlisted : laptopList.hasDevice "bb" = false := by decide
  intro howned
  unfold LabelsOwned at howned
  generalize exec enrichPeers impersonating (fresh bob laptop) = res at hlabels howned
  rcases res with ⟨e | labels, t⟩
  . simp [Except.toOption] at hlabels
  . simp only [Except.toOption, Option.any_some, List.any_eq_true, Bool.and_eq_true,
      beq_iff_eq] at hlabels
    obtain ⟨label, hmem, ⟨hresolved, hidentity⟩, hpeer⟩ := hlabels
    obtain ⟨signed, hsigned, hdevice⟩ := howned labels rfl label hmem hresolved _ hidentity
    rw [list_of_aliceLists hsigned, hpeer, hlisted] at hdevice
    contradiction

end Canopee.Runtime
