import Canopee.Results.JunkFiles
import Canopee.Runtime.Requests

/-!
This module contains whose username a name resolves to while other identities publish what they like.
-/

namespace Canopee

open Primitives
open Canopee.Runtime
open Prog (Keeps exec exec_bind_ok)

variable [Primitives]

namespace Runtime

section Rivals

variable {env : Env} {O : IdentityId} {u : String} {w : Runtime}

/--
An object that another identity than `O` is labelled with and that decodes as a username record for
`u`.
-/
def Rival (O : IdentityId) (u : String) (object : Object) : Prop :=
  object.payload.owner ≠ O ∧ ∃ record, object.decode UsernameRecord.codec = some record ∧
    record.username = u

/--
The store yields no rival of `O`.
-/
def Unrivalled (O : IdentityId) (u : String) (w : Runtime) : Prop :=
  ∀ id object, w.storage.getVerified id = .ok object → ¬ Rival O u object

theorem Unrivalled.congr {w' : Runtime} (h : Unrivalled O u w)
    (hfiles : w'.storage.files = w.storage.files) : Unrivalled O u w' := by
  intro id object hobject
  apply h id object
  rw [← hobject]
  apply Storage.getVerified_congr
  rw [hfiles]

theorem Unrivalled.storeObject {object : Object} (h : Unrivalled O u w)
    (hverify : object.verify = true) (hrival : ¬ Rival O u object) :
    Unrivalled O u (storeObject object w) := by
  intro id stored hstored
  by_cases hid : id = object.id
  . rw [hid, Runtime.storeObject, Storage.getVerified_write_self _ hverify,
      Except.ok.injEq] at hstored
    rw [← hstored]
    exact hrival
  . rw [Runtime.storeObject, Storage.getVerified_write_of_ne _ hid] at hstored
    exact h id stored hstored

/--
No valid object that is pushed or answered is a rival of `O`.
-/
structure BringsNone (env : Env) (O : IdentityId) (u : String) : Prop where
  pushed : ∀ t bundle, .store bundle ∈ env.inbound t → bundle.object.verify = true →
    ¬ Rival O u bundle.object
  answered : ∀ id bundle, Pushes.Answers env id bundle → bundle.object.verify = true →
    ¬ Rival O u bundle.object

theorem BringsNone.imports (h : BringsNone env O u) :
    Imports env (Unrivalled O u) (fun object => ¬ Rival O u object) where
  toPushes := .ofDisk (fun _ _ hdisk hw => hw.congr hdisk.files)
    (fun _ _ hverify hrival hw => hw.storeObject hverify hrival) h.pushed
  answered := h.answered

theorem keeps_none {I : Runtime → Prop} {α : Type} {Q : α → Prop} :
    Keeps env I (pure none : RunM (Option α)) (fun r => ∀ a, r = some a → Q a) := by
  apply Keeps.pure
  intro a ha
  contradiction

theorem keeps_resolveUsername (h : BringsNone env O u) (owner : IdentityId) :
    Keeps env (Unrivalled O u) (resolveUsername owner)
      (fun r => ∀ record, r = some record → record.username = u → owner = O) := by
  have hremembers : Remembers (Unrivalled O u) owner RECORD_USERNAME :=
    fun _ _ hw _ => hw.congr rfl
  apply (h.imports.keeps_resolveOwnerRecord_found UsernameRecord.codec hremembers).weaken
  intro r hr record hrecord hname
  -- what is found was in the store or was answered, and neither yields a rival
  obtain ⟨object, manifest, howner, hfound, hdecode⟩ := hr record hrecord
  by_contra hne
  have hrival : Rival O u object := ⟨howner ▸ hne, record, hdecode, hname⟩
  rcases hfound with ⟨w, hw, hstored⟩ | ⟨hverify, bundle, hanswer, hbundle⟩
  . exact hw manifest object hstored hrival
  . rw [← hbundle] at hverify hrival
    exact h.answered manifest bundle hanswer hverify hrival

theorem keeps_firstClaiming (h : BringsNone env O u) (owners : List IdentityId) :
    Keeps env (Unrivalled O u) (firstClaiming u owners)
      (fun r => ∀ owner, r = some owner → owner = O) := by
  induction owners with
  | nil => exact keeps_none
  | cons first owners ih =>
    apply Keeps.bind (Q := fun r => ∀ record, r = .ok (some record) → record.username = u → first = O)
    . apply Keeps.attempt
      . apply (keeps_resolveUsername h first).weaken
        intro r hr record hrecord
        rw [Except.ok.injEq] at hrecord
        exact hr record hrecord
      . intro e record hrecord
        contradiction
    . intro r hr
      split
      . next record =>
        split
        . next hname =>
          apply Keeps.pure
          intro owner howner
          rw [Option.some.injEq] at howner
          rw [← howner]
          exact hr record rfl hname
        . exact ih
      . exact ih
      . exact ih

theorem keeps_ownerClaimingUsername (h : BringsNone env O u) :
    Keeps env (Unrivalled O u) (ownerClaimingUsername u)
      (fun r => ∀ owner, r = some owner → owner = O) := by
  apply Keeps.bind (keeps_attempt h.imports.keeps_list)
  intro r _
  split
  . exact keeps_none
  . apply Keeps.bind_get
    intro w _
    split
    . exact keeps_none
    . exact keeps_firstClaiming h _

/--
While nobody else publishes a username record for the name, it resolves to nobody else.
-/
theorem keeps_resolveOwnerFromUsername (h : BringsNone env O u) {username : String}
    (hnormalized : normalizeUsername username = .ok u) :
    Keeps env (Unrivalled O u) (resolveOwnerFromUsername username)
      (fun r => ∀ owner, r = some owner → owner = O) := by
  apply Keeps.bind (keeps_ofExcept _)
  intro name hname
  rw [hnormalized, Except.ok.injEq] at hname
  rw [← hname]
  apply Keeps.bind (keeps_ownerClaimingUsername h)
  intro r hr
  split
  . next owner =>
    apply Keeps.pure
    exact hr
  . apply Keeps.bind (keeps_attempt (h.imports.keeps_getRecord _))
    intro answer _
    split
    . exact Keeps.throw
    . exact keeps_none
    . apply Keeps.bind (keeps_ofOption _ _)
      intro text _
      apply Keeps.bind (keeps_resolveUsername h _)
      intro record hrecord
      split
      . next found =>
        split
        . next hname' =>
          apply Keeps.pure
          intro owner howner
          rw [Option.some.injEq] at howner
          rw [← howner]
          exact hrecord found rfl hname'
        . exact keeps_none
      . exact keeps_none

end Rivals

section AllAtHand

variable {env : Env} {O : IdentityId} {u : String} {w : Runtime}

/--
The record cache has a username pointer of `owner`, and the store has what it names.
-/
def AtHand (w : Runtime) (owner : IdentityId) : Prop :=
  ∃ pointer object, cachedPointer w owner RECORD_USERNAME = some pointer ∧
    w.storage.getVerified pointer.manifest = .ok object

/--
`owner` has a username record at hand that says `u`.
-/
def SaysAtHand (w : Runtime) (owner : IdentityId) (u : String) : Prop :=
  ∃ pointer object record, cachedPointer w owner RECORD_USERNAME = some pointer ∧
    w.storage.getVerified pointer.manifest = .ok object ∧ object.payload.owner = owner ∧
      object.decode UsernameRecord.codec = some record ∧ record.username = u

theorem exec_resolveUsername_atHand {owner : IdentityId} (h : AtHand w owner) (env : Env) :
    (exec (resolveUsername owner) env w).2 = w ∧
      ((∃ record, (exec (resolveUsername owner) env w).1 = .ok (some record) ∧ record.username = u) ↔
        SaysAtHand w owner u) := by
  obtain ⟨pointer, object, hcached, hstored⟩ := h
  have hnames : SaysAtHand w owner u ↔ object.payload.owner = owner ∧
      ∃ record, object.decode UsernameRecord.codec = some record ∧ record.username = u := by
    unfold SaysAtHand
    simp only [hcached, Option.some.injEq, exists_and_left, exists_eq_left', hstored, Except.ok.injEq]
  unfold resolveUsername resolveOwnerRecord resolveOwnerObject ownedObject
  rw [hnames, Prog.bind_assoc, exec_bind_ok (resolvePointer_of_cached hcached)]
  dsimp only
  rw [Prog.bind_assoc, exec_bind_ok (Prog.exec_attempt _ env w), exec_getVerified, hstored]
  dsimp only
  by_cases howner : object.payload.owner = owner
  . rw [if_pos howner, exec_bind_ok (Prog.exec_pure _ env w)]
    unfold decodeObject
    dsimp only
    cases object.decode UsernameRecord.codec with
    | none => simp [ofOption, Prog.exec_bind]
    | some record => simp [ofOption, Prog.exec_bind, howner]
  . rw [if_neg howner, exec_bind_ok (Prog.exec_pure _ env w)]
    simp [howner]

theorem exec_firstClaiming_atHand {owners : List IdentityId} (hmem : O ∈ owners)
    (hnamed : SaysAtHand w O u) (hall : ∀ owner ∈ owners, AtHand w owner)
    (honly : ∀ owner ∈ owners, SaysAtHand w owner u → owner = O) (env : Env) :
    exec (firstClaiming u owners) env w = (.ok (some O), w) := by
  induction owners with
  | nil => exact absurd hmem List.not_mem_nil
  | cons first owners ih =>
    rw [List.forall_mem_cons] at hall honly
    obtain ⟨hstate, hnames⟩ := exec_resolveUsername_atHand (u := u) hall.1 env
    by_cases hfirst : first = O
    . rw [hfirst] at hstate hnames ⊢
      obtain ⟨record, hrecord, hname⟩ := hnames.mpr hnamed
      rw [firstClaiming, exec_bind_ok (Prog.exec_attempt _ env w), hrecord]
      simp [hname, hstate]
    -- the other owners are looked up without asking anybody, and none of them claims `u`
    . have hclaims : ¬ Claims env w first u := fun hclaims => hfirst (honly.1 (hnames.mp hclaims))
      rw [exec_firstClaiming_of_not_claims owners hclaims, hstate]
      apply ih _ hall.2 honly.2
      exact (List.mem_cons.mp hmem).resolve_left fun heq => hfirst heq.symm

/--
The scan for usernames goes through, `O` is among the owners it finds, their usernames are all at
hand, and that of `O` is `u`.
-/
structure AllAtHand (env : Env) (O : IdentityId) (u : String) (w : Runtime) : Prop where
  tidy : Tidy env w
  claims : UsernameClaim w O
  atHand : ∀ owner, UsernameClaim w owner → AtHand w owner
  named : SaysAtHand w O u

theorem resolveOwnerFromUsername_of_allAtHand (h : AllAtHand env O u w) (hrivals : Unrivalled O u w)
    {username : String} (hnormalized : normalizeUsername username = .ok u) :
    (exec (resolveOwnerFromUsername username) env w).1 = .ok (some O) := by
  obtain ⟨hlists, hplain⟩ := h.tidy
  obtain ⟨ids, hids⟩ := Option.isSome_iff_exists.mp hlists
  have hplain' : ∀ id ∈ ids, Plain w.storage id := by
    intro id hid
    rw [mem_listed hids] at hid
    exact hplain id.text hid.1 hid.2
  obtain ⟨owners, howners, hmem⟩ := scanUsernameOwners_of_plain [] hplain'
  have hclaim (owner : IdentityId) : owner ∈ owners ↔ UsernameClaim w owner := by
    rw [hmem, usernameClaim_iff hids]
    simp
  have hfound : exec (firstClaiming u (claimants env w)) env { w with tick := w.tick + 1 } =
      (.ok (some O), { w with tick := w.tick + 1 }) := by
    unfold claimants
    rw [hids, Option.bind_some, howners, Option.getD_some]
    apply exec_firstClaiming_atHand (w := { w with tick := w.tick + 1 })
      ((hclaim O).mpr h.claims) h.named
    . intro owner howner
      exact h.atHand owner ((hclaim owner).mp howner)
    . intro owner _ ⟨pointer, object, record, _, hstored, howner, hdecode, hname⟩
      by_contra hne
      exact hrivals pointer.manifest object hstored ⟨howner ▸ hne, record, hdecode, hname⟩
  have hok : exec (ofExcept (normalizeUsername username)) env w = (.ok u, w) := by
    rw [exec_ofExcept, hnormalized]
  unfold resolveOwnerFromUsername
  rw [exec_bind_ok hok, exec_bind_ok ((exec_ownerClaimingUsername u).trans hfound)]
  rfl

end AllAtHand

end Runtime

namespace NodeOp

/--
`env`, with the directory listed in another order.
-/
def relisted (env : Env) (listing : Nat → List String → Option (List String))
    (hperm : ∀ t names listed, listing t names = some listed → listed.Perm names) : Env :=
  { env with listing := listing, listing_perm := hperm }

/--
If the step resolves `u`, it resolves to `O` or to nobody, however the directory is listed; and to `O`
if the claims of all owners are at hand.
-/
def ResolvesOnly (O : IdentityId) (u : String) : NodeOp × Env → Runtime → Prop
  | (.resolveOwnerFromUsername username, env), w => normalizeUsername username = .ok u →
    ∀ listing hperm,
      (∀ owner, (exec (Runtime.resolveOwnerFromUsername username) (relisted env listing hperm) w).1 =
        .ok (some owner) → owner = O) ∧
      (AllAtHand (relisted env listing hperm) O u w →
        (exec (Runtime.resolveOwnerFromUsername username) (relisted env listing hperm) w).1 =
          .ok (some O))
  | _, _ => True

/--
If the step resolves `u`, the node has no username record for `u` of another identity than `O`, and
it is handed none meanwhile.
-/
def Sole (O : IdentityId) (u : String) : NodeOp × Env → Runtime → Prop
  | (.resolveOwnerFromUsername username, env), w => normalizeUsername username = .ok u →
    Unrivalled O u w ∧ ∀ object, HandedIn (.resolveOwnerFromUsername username, env) object →
      object.verify = true → ¬ Rival O u object
  | _, _ => True

theorem resolvesOnly {O : IdentityId} {u : String} (l : NodeOp × Env) (w : Runtime)
    (h : Sole O u l w) : ResolvesOnly O u l w := by
  obtain ⟨op, env⟩ := l
  cases op with
  | resolveOwnerFromUsername username =>
    intro hnormalized listing hperm
    obtain ⟨hunrivalled, hhanded⟩ := h hnormalized
    constructor
    . intro owner howner
      have hbrings : BringsNone (relisted env listing hperm) O u := {
        pushed := fun t bundle hbundle => hhanded bundle.object (.pushed hbundle)
        answered := fun id bundle hanswer => hhanded bundle.object (.answered hanswer)
      }
      exact (keeps_resolveOwnerFromUsername hbrings hnormalized).result hunrivalled howner owner rfl
    . intro hatHand
      exact resolveOwnerFromUsername_of_allAtHand hatHand hunrivalled hnormalized
  | _ => trivial

end NodeOp

end Canopee

namespace Canopee.NodeOp

open Canopee.Compact
open Canopee.Runtime
open Prog (exec)

section Witness

theorem unrivalled_of_keys {O : IdentityId} {u : String} {w : Runtime}
    (h : ∀ text ∈ w.storage.files.keys,
      ((w.storage.getVerified ⟨text⟩).toOption.map (·.payload.owner)).all (· = O) = true) :
    Unrivalled O u w := by
  intro id object hstored hrival
  have hmem : id.text ∈ w.storage.files.keys := by
    obtain ⟨bytes, hbytes, _⟩ := Storage.getVerified_eq_ok.mp hstored
    rw [← AList.mem_keys, ← AList.lookup_isSome, hbytes]
    rfl
  have hall := h id.text hmem
  rw [show (⟨id.text⟩ : ObjectId) = id from rfl, hstored] at hall
  exact hrival.1 (by simpa [Except.toOption] using hall)

theorem claimed_keys : ∀ text ∈ claimed.storage.files.keys,
    ((claimed.storage.getVerified ⟨text⟩).toOption.map (·.payload.owner)).all (· = alice.id) =
      true := by
  decide +kernel

end Witness

section Counterexample

/--
The username record of an identity and the pointer to it, as they arrive at Bob's node.
-/
def namePushes (identity : Identity) : List (NodeOp × Env) :=
  let record := UsernameRecord.toObject ⟨"alice", 1⟩ identity 0
  let pointer := AppPointerRecord.sign identity 0 RECORD_USERNAME record.id
  [(.objectRequest (.store ⟨1, record⟩), Env.quiet 0),
    (.objectRequest (.store ⟨1, Object.new identity 0 (AppPointerRecord.codec.serialize pointer)
      .appPointer⟩), Env.quiet 0)]

def aliceFirst : Runtime :=
  Run.run step (fresh bob laptop) (namePushes alice)

end Counterexample

end Canopee.NodeOp
