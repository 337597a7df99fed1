import Canopee.Results.Fetch
import Canopee.Results.Resolution

/-!
This module contains the authenticity of what is read through an owner's records: profiles,
usernames, device lists and the owners of usernames.
-/

namespace Canopee

open Primitives
open Canopee.Runtime
open Prog (Keeps exec exec_bind_ok exec_bind_eq_ok)

variable [Primitives]

namespace Runtime

/--
No peer answers a request for an object with a valid object that is labelled with `owner` and has
another id.
-/
def AnswersCarryFor (env : Env) (owner : IdentityId) : Prop :=
  ∀ id bundle, Pushes.Answers env id bundle → bundle.object.verify = true →
    bundle.object.payload.owner = owner → bundle.object.id = id

/--
A resolution of `(owner, name)` from `w` is misled neither by the store nor by a peer's answer.
-/
structure Unmisled (env : Env) (w : Runtime) (owner : IdentityId) (name : String) : Prop where
  pointer : (cachedPointer w owner name).isSome = true ∨ ¬ Shadowed env w owner name
  answers : AnswersCarryFor env owner

/--
`a` is the content of the object that an authentic pointer names, the pointer being the one that the
node resolves for `(owner, name)` from `w`.
-/
def Attested {α : Type} (c : Codec α) (env : Env) (w : Runtime) (owner : IdentityId)
    (name : String) (a : α) : Prop :=
  ∃ record, ∃ object : Object,
    (exec (resolvePointer owner name) env w).1 = .ok (some record) ∧ record.Authentic owner name ∧
    object.id = record.manifest ∧ object.verify = true ∧ object.payload.owner = owner ∧
    object.decode c = some a

theorem ownedObject_fetched {env : Env} {w : Runtime} {owner : IdentityId} {manifest : ObjectId}
    {object : Object} (h : (exec (ownedObject owner manifest) env w).1 = .ok (some object)) :
    object.payload.owner = owner ∧ Fetched env manifest object :=
  ((ingress_identity env w.identity).keeps_ownedObject owner manifest).result rfl h object rfl

theorem Fetched.id_eq_for {env : Env} {id : ObjectId} {object : Object}
    (h : Fetched env id object) (hanswers : AnswersCarryFor env object.payload.owner) :
    object.id = id := by
  cases h.2 with
  | inl hid => exact hid
  | inr hanswer =>
    obtain ⟨bundle, hbundle, hobject⟩ := hanswer
    subst hobject
    exact hanswers id bundle hbundle h.1 rfl

theorem resolveOwnerObject_eq_some {env : Env} {w : Runtime} {owner : IdentityId} {name : String}
    {object : Object} (h : (exec (resolveOwnerObject owner name) env w).1 = .ok (some object)) :
    ∃ record, (exec (resolvePointer owner name) env w).1 = .ok (some record) ∧
      object.payload.owner = owner ∧ Fetched env record.manifest object := by
  obtain ⟨r, hresolved, hrest⟩ := exec_bind_eq_ok h
  cases r with
  | none => cases hrest
  | some record => exact ⟨record, hresolved, ownedObject_fetched hrest⟩

theorem resolveOwnerRecord_eq_some {α : Type} {c : Codec α} {env : Env} {w : Runtime}
    {owner : IdentityId} {name : String} {a : α}
    (h : (exec (resolveOwnerRecord c owner name) env w).1 = .ok (some a)) :
    ∃ object, (exec (resolveOwnerObject owner name) env w).1 = .ok (some object) ∧
      object.decode c = some a := by
  obtain ⟨r, hresolved, hrest⟩ := exec_bind_eq_ok h
  cases r with
  | none => cases hrest
  | some object =>
    obtain ⟨b, hdecoded, hreturned⟩ := exec_bind_eq_ok hrest
    cases hreturned
    refine ⟨object, hresolved, ?_⟩
    exact ofOption_eq_ok.mp hdecoded

theorem resolveOwnerRecord_attested {α : Type} {c : Codec α} {env : Env} {w : Runtime}
    {owner : IdentityId} {name : String} (hunmisled : Unmisled env w owner name) (a : α)
    (h : (exec (resolveOwnerRecord c owner name) env w).1 = .ok (some a)) :
    Attested c env w owner name a := by
  obtain ⟨object, hobject, hdecode⟩ := resolveOwnerRecord_eq_some h
  obtain ⟨record, hrecord, howner, hfetched⟩ := resolveOwnerObject_eq_some hobject
  have hauthentic := resolvePointer_authentic_iff.mpr hunmisled.pointer record hrecord
  have hid := hfetched.id_eq_for (howner ▸ hunmisled.answers)
  exact ⟨record, object, hrecord, hauthentic, hid, hfetched.1, howner, hdecode⟩

section Usernames

/--
`resolve_owner_from_username` consults the username record of `owner` from the state `w'`: as the
next of the owners whose pointers are in the store, or as the one that the registry names.
-/
inductive Consults (env : Env) (w : Runtime) (username : String) : IdentityId → Runtime → Prop where
  | claimed {ids : List ObjectId} {before after : List IdentityId} {owner : IdentityId}
      (hlisted : listed env w = some ids)
      (howners : scanUsernameOwners w.storage ids [] = some (before ++ owner :: after)) :
      Consults env w username owner
        (exec (firstClaiming username before) env { w with tick := w.tick + 1 }).2
  | registered {bytes : Bytes} {text : String}
      (hrecord : (exec (getRecord (usernameRegistryKey username)) env
        (exec (ownerClaimingUsername username) env w).2).1 = .ok (some bytes))
      (htext : Codec.ofUtf8 bytes = some text) :
      Consults env w username ⟨text⟩ (exec (getRecord (usernameRegistryKey username)) env
        (exec (ownerClaimingUsername username) env w).2).2

/--
The owner's username record, as resolved from `w`, says `username`.
-/
def Claims (env : Env) (w : Runtime) (owner : IdentityId) (username : String) : Prop :=
  ∃ record, (exec (resolveUsername owner) env w).1 = .ok (some record) ∧
    record.username = username

theorem exec_firstClaiming_of_not_claims {env : Env} {w : Runtime} {owner : IdentityId}
    {username : String} (owners : List IdentityId) (h : ¬ Claims env w owner username) :
    exec (firstClaiming username (owner :: owners)) env w =
      exec (firstClaiming username owners) env (exec (resolveUsername owner) env w).2 := by
  rw [firstClaiming, exec_bind_ok (Prog.exec_attempt _ env w)]
  split
  . next record hrecord =>
    have : ¬ record.username = username := by
      intro hname
      exact h ⟨record, hrecord, hname⟩
    simp [this]
  . rfl
  . rfl

theorem firstClaiming_eq_some {env : Env} {w : Runtime} {username : String}
    {owners : List IdentityId} {owner : IdentityId}
    (h : (exec (firstClaiming username owners) env w).1 = .ok (some owner)) :
    ∃ before after, owners = before ++ owner :: after ∧
      Claims env (exec (firstClaiming username before) env w).2 owner username := by
  induction owners generalizing w with
  | nil => cases h
  | cons first owners ih =>
    by_cases hclaims : Claims env w first username
    . obtain ⟨record, hrecord, hname⟩ := hclaims
      rw [firstClaiming, exec_bind_ok (Prog.exec_attempt _ env w), hrecord] at h
      simp only [hname, if_true, Prog.exec_pure, Except.ok.injEq, Option.some.injEq] at h
      subst h
      exact ⟨[], owners, rfl, record, hrecord, hname⟩
    . rw [exec_firstClaiming_of_not_claims owners hclaims] at h
      obtain ⟨before, after, happend, hfound⟩ := ih h
      refine ⟨first :: before, after, by simp [happend], ?_⟩
      rw [exec_firstClaiming_of_not_claims before hclaims]
      exact hfound

theorem ownerClaimingUsername_eq_some {env : Env} {w : Runtime} {username : String}
    {owner : IdentityId}
    (h : (exec (ownerClaimingUsername username) env w).1 = .ok (some owner)) :
    ∃ w', Consults env w username owner w' ∧ Claims env w' owner username := by
  unfold ownerClaimingUsername at h
  rw [exec_bind_ok (Prog.exec_attempt list env w), exec_list] at h
  cases hlisted : listed env w with
  | none =>
    simp only [hlisted] at h
    cases h
  | some ids =>
    simp only [hlisted] at h
    rw [exec_bind_ok (Prog.exec_get env _)] at h
    dsimp only at h
    cases howners : scanUsernameOwners w.storage ids [] with
    | none =>
      rw [howners] at h
      cases h
    | some owners =>
      rw [howners] at h
      obtain ⟨before, after, happend, hclaims⟩ := firstClaiming_eq_some h
      subst happend
      exact ⟨_, .claimed hlisted howners, hclaims⟩

theorem resolveOwnerFromUsername_eq_some {env : Env} {w : Runtime} {username : String}
    {owner : IdentityId}
    (h : (exec (resolveOwnerFromUsername username) env w).1 = .ok (some owner)) :
    ∃ normalized w', normalizeUsername username = .ok normalized ∧
      Consults env w normalized owner w' ∧ Claims env w' owner normalized := by
  unfold resolveOwnerFromUsername at h
  cases hnormalized : normalizeUsername username with
  | error e =>
    rw [hnormalized] at h
    cases h
  | ok normalized =>
    rw [hnormalized] at h
    refine ⟨normalized, ?_⟩
    obtain ⟨claiming, hclaiming, hrest⟩ := exec_bind_eq_ok (m := ownerClaimingUsername normalized) h
    cases claiming with
    | some claimant =>
      cases hrest
      obtain ⟨w', hconsults, hclaims⟩ := ownerClaimingUsername_eq_some hclaiming
      exact ⟨w', rfl, hconsults, hclaims⟩
    | none =>
      simp only at hrest
      rw [exec_bind_ok (Prog.exec_attempt _ env _)] at hrest
      split at hrest
      . cases hrest
      . cases hrest
      . next bytes hrecord =>
        obtain ⟨text, htext, hrest⟩ := exec_bind_eq_ok hrest
        rw [ofOption_eq_ok] at htext
        rw [htext] at hrest
        obtain ⟨r, hresolved, hreturned⟩ := exec_bind_eq_ok hrest
        cases r with
        | none => cases hreturned
        | some record =>
          simp only at hreturned
          split at hreturned
          . next hname =>
            cases hreturned
            exact ⟨_, rfl, .registered hrecord htext, record, hresolved, hname⟩
          . cases hreturned

end Usernames

end Runtime

namespace NodeOp

/--
If the step reads an owner's record, or looks for the owner of a username, what it returns is
attested by that owner.
-/
def ReturnsAttested : NodeOp × Env → Runtime → Prop
  | (.resolveProfile owner, env), w =>
    ∀ profile, (exec (Runtime.resolveProfile owner) env w).1 = .ok (some profile) →
      Attested Profile.codec env w owner RECORD_PROFILE profile
  | (.resolveUsername owner, env), w =>
    ∀ record, (exec (Runtime.resolveUsername owner) env w).1 = .ok (some record) →
      Attested UsernameRecord.codec env w owner RECORD_USERNAME record
  | (.loadDeviceList owner, env), w =>
    ∀ list, (exec (Runtime.loadDeviceList owner) env w).1 = .ok (some list) →
      Attested DeviceList.codec env w owner RECORD_DEVICES list
  | (.resolveOwnerFromUsername username, env), w =>
    ∀ owner, (exec (Runtime.resolveOwnerFromUsername username) env w).1 = .ok (some owner) →
      ∃ normalized w' record, normalizeUsername username = .ok normalized ∧
        Consults env w normalized owner w' ∧ record.username = normalized ∧
        Attested UsernameRecord.codec env w' owner RECORD_USERNAME record
  | _, _ => True

/--
Wherever the step resolves the record that it returns, nothing misleads it.
-/
def ResolvesUnmisled : NodeOp × Env → Runtime → Prop
  | (.resolveProfile owner, env), w => Unmisled env w owner RECORD_PROFILE
  | (.resolveUsername owner, env), w => Unmisled env w owner RECORD_USERNAME
  | (.loadDeviceList owner, env), w => Unmisled env w owner RECORD_DEVICES
  | (.resolveOwnerFromUsername username, env), w =>
    ∀ normalized owner w', normalizeUsername username = .ok normalized →
      Consults env w normalized owner w' → Unmisled env w' owner RECORD_USERNAME
  | _, _ => True

theorem returnsAttested (l : NodeOp × Env) (w : Runtime) (h : ResolvesUnmisled l w) :
    ReturnsAttested l w := by
  obtain ⟨op, env⟩ := l
  cases op with
  | resolveProfile owner => exact resolveOwnerRecord_attested h
  | resolveUsername owner => exact resolveOwnerRecord_attested h
  | loadDeviceList owner => exact resolveOwnerRecord_attested h
  | resolveOwnerFromUsername username =>
    intro owner howner
    obtain ⟨normalized, w', hnormalized, hconsults, record, hrecord, hname⟩ :=
      resolveOwnerFromUsername_eq_some howner
    have hunmisled := h normalized owner w' hnormalized hconsults
    have hattested := resolveOwnerRecord_attested hunmisled record hrecord
    exact ⟨normalized, w', record, hnormalized, hconsults, hname, hattested⟩
  | _ => trivial

/--
In every run in which no resolution of a record is misled, everything that is read through an
owner's records is attested by that owner.
-/
theorem run_returnsAttested (identity : Identity) (deviceKey : DeviceKey)
    (ls : List (NodeOp × Env))
    (h : Run.Along step ResolvesUnmisled (fresh identity deviceKey) ls) :
    Run.Along step ReturnsAttested (fresh identity deviceKey) ls :=
  h.mono returnsAttested

end NodeOp

end Canopee

namespace Canopee.NodeOp

open Canopee.Compact
open Canopee.Runtime
open Prog (exec)

/--
Alice's node after she claimed a username.
-/
def claimed : Runtime :=
  step (.claimUsername "alice", Env.quiet 0) (fresh alice laptop)

theorem run_returnsAttested_claimed :
    (exec (Runtime.resolveUsername alice.id) (Env.quiet 0) claimed).1 = .ok (some ⟨"alice", 1⟩) ∧
      Run.Along step ReturnsAttested (fresh alice laptop)
        [(.claimUsername "alice", Env.quiet 0), (.resolveUsername alice.id, Env.quiet 0)] := by
  constructor
  . decide +kernel
  . apply run_returnsAttested
    have hcached : (cachedPointer claimed alice.id RECORD_USERNAME).isSome = true := by
      decide +kernel
    have hanswers : AnswersCarryFor (Env.quiet 0) alice.id := by
      intro id bundle ⟨t, peer, hanswer⟩
      simp [Env.quiet] at hanswer
    exact ⟨trivial, ⟨.inl hcached, hanswers⟩, trivial⟩

def forgedName : UsernameRecord where
  username := "mallory"
  version := 1

def forgedClaim : Object :=
  mislabelled .profile (UsernameRecord.codec.serialize forgedName)

def forgedPointer : AppPointerRecord :=
  AppPointerRecord.sign mallory 5 RECORD_USERNAME forgedClaim.id

def forgedPointerObject : Object :=
  mislabelled .appPointer (AppPointerRecord.codec.serialize forgedPointer)

/--
Bob's node after Mallory pushed both objects.
-/
def misled : Runtime :=
  Run.run step (fresh bob laptop)
    [(.objectRequest (.store ⟨1, forgedClaim⟩), Env.quiet 0),
      (.objectRequest (.store ⟨1, forgedPointerObject⟩), Env.quiet 0)]

/--
Bob's node then reads the name that Mallory chose as Alice's username.
-/
theorem resolveUsername_of_pushed :
    (exec (Runtime.resolveUsername alice.id) (Env.quiet 0) misled).1 = .ok (some forgedName) ∧
      ¬ Attested UsernameRecord.codec (Env.quiet 0) misled alice.id RECORD_USERNAME forgedName := by
  constructor
  . decide +kernel
  . intro ⟨record, _, hrecord, hauthentic, _⟩
    have hresolved : (exec (Runtime.resolvePointer alice.id RECORD_USERNAME) (Env.quiet 0)
        misled).1 = .ok (some forgedPointer) := by decide +kernel
    rw [hresolved] at hrecord
    cases hrecord
    have howner : forgedPointer.owner ≠ alice.id := by decide
    exact howner hauthentic.owner

end Canopee.NodeOp
