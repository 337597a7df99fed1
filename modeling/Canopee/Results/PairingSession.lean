import Canopee.Results.Adoption

/-!
This module contains when a pairing request is accepted, and what becomes of the session of the new
device when other requests come first.
-/

namespace Canopee

open Primitives
open Canopee.Runtime
open Prog (exec exec_bind_ok)

variable [Primitives]

namespace Runtime

section Accepted

variable {env : Env} {incoming : InboundPairing} {w : Runtime}

/--
The writes of an identity and of its records succeed.
-/
def Writable (env : Env) (imported : Identity) (records : List PairingRecord) (w : Runtime) : Prop :=
  (newKey env imported w).isSome = true ∧ WritesAll env (keyTick w + 1) records.length

theorem accepted_iff :
    (∃ message, (exec (acceptPairing incoming) env w).1 = .ok (.accepted message)) ↔
      ∃ imported records, opened incoming w = some (imported, records) ∧
        Writable env imported records w := by
  rcases acceptPairing_cases env incoming w with ⟨hnone, message, backups, tick, hexec⟩ |
    ⟨imported, records, bytes, hopened, hkey, hrun⟩
  . rw [hexec]
    constructor
    . intro ⟨_, h⟩
      cases h
    . intro ⟨imported, records, hopened, hkey, _⟩
      obtain ⟨bytes, hkey⟩ := Option.isSome_iff_exists.mp hkey
      exact absurd hkey (hnone imported records bytes hopened)
  . have hcondition : (∃ imported' records', opened incoming w = some (imported', records') ∧
        Writable env imported' records' w) ↔ WritesAll env (keyTick w + 1) records.length := by
      constructor
      . intro ⟨imported', records', hopened', _, hwrites⟩
        rw [hopened] at hopened'
        cases hopened'
        exact hwrites
      . intro hwrites
        exact ⟨imported, records, hopened, by simp [hkey], hwrites⟩
    rw [hcondition]
    rcases hrun with ⟨hwrites, message, hexec⟩ | ⟨hwrites, message, tick, hexec⟩
    . rw [hexec]
      simp [hwrites]
    . rw [hexec]
      simp [hwrites]

theorem pairing_of_acceptPairing (env : Env) (incoming : InboundPairing) (w : Runtime) :
    (exec (acceptPairing incoming) env w).2.pairing = none := by
  rcases acceptPairing_cases env incoming w with ⟨_, message, backups, tick, hexec⟩ |
    ⟨imported, records, bytes, _, _, hrun⟩
  . rw [hexec]
  . have hslot := (importedUntil_frame env imported records (keyed env bytes w)).2.2
    rcases hrun with ⟨_, message, hexec⟩ | ⟨_, message, tick, hexec⟩
    . rw [hexec]
      exact hslot
    . rw [hexec]
      exact hslot

end Accepted

section Genuine

/--
A request for this session and this device, from the peer that it names, whose payload is sealed
under the code of the session and carries `imported` with records that it signed.
-/
structure GenuineRequest (session : OwnPairing) (device : PeerId) (incoming : InboundPairing)
    (imported : Identity) (records : List PairingRecord) : Prop where
  pending : session.sessionId = incoming.request.sessionId
  sender : parsePeerId incoming.request.source = some incoming.peer
  addressee : parsePeerId incoming.request.deviceId = some device
  payload : ∃ key draws identityKey,
    Pairing.deriveSessionKey session.code
      (Pairing.salt incoming.request.sessionId incoming.peer device) = some key ∧
    Pairing.encryptPayload draws (PairingData.codec.serialize ⟨1, identityKey, records⟩) key =
      .ok incoming.request.encrypted ∧
    Identity.importBytes identityKey = some imported
  valid : ∀ record ∈ records, record.valid imported.id = true

theorem decryptPayload_encryptPayload (cipher : CipherLaws) {draws : Envelope.Random}
    {clear framed : Bytes} {key : Key32} (h : Pairing.encryptPayload draws clear key = .ok framed) :
    Pairing.decryptPayload framed key = .ok clear := by
  unfold Pairing.encryptPayload at h
  unfold Pairing.decryptPayload
  dsimp only at h
  split at h
  . next ciphertext hsealed =>
    cases h
    have hnonce : (draws 0 Pairing.nonceLen).toList.length = Pairing.nonceLen :=
      List.Vector.toList_length _
    rw [if_neg (by rw [List.length_append]; omega), List.take_left' hnonce, List.drop_left' hnonce,
      (cipher.decrypt_iff _ _ _ _).mpr hsealed]
  . cases h

variable {session : OwnPairing} {incoming : InboundPairing} {imported : Identity}
variable {records : List PairingRecord}

theorem openPairingRequest_of_genuine (cipher : CipherLaws) {device : PeerId}
    (h : GenuineRequest session device incoming imported records) :
    openPairingRequest session device incoming = .ok (imported, records) := by
  obtain ⟨key, draws, identityKey, hkey, hsealed, himport⟩ := h.payload
  unfold openPairingRequest
  rw [if_neg (by simp [h.sender]), if_neg (by simp [h.addressee]), hkey]
  dsimp only
  rw [decryptPayload_encryptPayload cipher hsealed]
  dsimp only
  rw [Codec.deserialize_serialize]
  dsimp only
  rw [if_neg (by simp), himport]
  dsimp only
  rw [if_pos (List.all_eq_true.mpr h.valid)]

theorem opened_of_genuine (cipher : CipherLaws) {w : Runtime} (hsession : w.pairing = some session)
    (h : GenuineRequest session w.deviceKey.peerId incoming imported records) :
    opened incoming w = some (imported, records) := by
  unfold opened
  rw [hsession]
  dsimp only
  rw [if_pos h.pending, openPairingRequest_of_genuine cipher h]
  rfl

theorem genuine_accepted_iff (cipher : CipherLaws) {env : Env} {w : Runtime}
    (hsession : w.pairing = some session)
    (h : GenuineRequest session w.deviceKey.peerId incoming imported records) :
    (∃ message, (exec (acceptPairing incoming) env w).1 = .ok (.accepted message)) ↔
      Writable env imported records w := by
  have hopened := opened_of_genuine cipher hsession h
  rw [accepted_iff]
  constructor
  . intro ⟨imported', records', hopened', hwritable⟩
    rw [hopened] at hopened'
    cases hopened'
    exact hwritable
  . intro hwritable
    exact ⟨imported, records, hopened, hwritable⟩

end Genuine

section Strangers

/--
The handler of pairing requests: one after the other, each in an environment of its own.
-/
def handlePairing (l : InboundPairing × Env) (w : Runtime) : Runtime :=
  (exec (acceptPairing l.1) l.2 w).2

variable {session : OwnPairing} {incoming : InboundPairing} {imported : Identity}
variable {records : List PairingRecord} {env env₀ : Env} {w w₀ : Runtime}

theorem exec_initiatePairing (env : Env) (w : Runtime) :
    exec initiatePairing env w =
      (.ok {
        sessionId := Pairing.generateSessionId (env.random (w.tick + 1))
        code := Pairing.generateCode (env.random w.tick)
      }, { w with
        pairing := some {
          sessionId := Pairing.generateSessionId (env.random (w.tick + 1))
          code := Pairing.generateCode (env.random w.tick)
        }
        tick := w.tick + 2 }) := rfl

theorem pairing_of_run {before : List (InboundPairing × Env)} (hne : before ≠ []) (w : Runtime) :
    (Run.run handlePairing w before).pairing = none := by
  induction before generalizing w with
  | nil => exact absurd rfl hne
  | cons l before ih =>
    rw [Run.run_cons]
    by_cases hrest : before = []
    . rw [hrest]
      exact pairing_of_acceptPairing l.2 l.1 w
    . exact ih hrest _

theorem not_accepted_of_none (hnone : w.pairing = none) (message : String) :
    (exec (acceptPairing incoming) env w).1 ≠ .ok (.accepted message) := by
  intro haccepted
  obtain ⟨imported, records, hopened, _⟩ := accepted_iff.mp ⟨message, haccepted⟩
  rw [opened, hnone] at hopened
  cases hopened

/--
Whatever requests come between the start of a session and a genuine request for it, they leave the
session alone and the genuine one is accepted exactly when there are none of them and the writes of
the genuine one succeed.
-/
theorem accepted_after_iff (cipher : CipherLaws)
    (hinit : exec initiatePairing env₀ w₀ = (.ok session, w))
    (h : GenuineRequest session w.deviceKey.peerId incoming imported records)
    (before : List (InboundPairing × Env)) (env : Env) :
    (Run.Always handlePairing (fun v => v.pairing = some session) w before ∧
      ∃ message, (exec (acceptPairing incoming) env (Run.run handlePairing w before)).1 =
        .ok (.accepted message)) ↔
      before = [] ∧ Writable env imported records w := by
  have hsession : w.pairing = some session := by
    rw [exec_initiatePairing] at hinit
    cases hinit
    rfl
  by_cases hnil : before = []
  . rw [hnil, Run.run_nil, genuine_accepted_iff cipher hsession h]
    simp [Run.Always, hsession]
  . constructor
    . rintro ⟨-, message, haccepted⟩
      exact absurd haccepted (not_accepted_of_none (pairing_of_run hnil w) message)
    . rintro ⟨hempty, -⟩
      exact absurd hempty hnil

end Strangers

end Runtime

end Canopee

namespace Canopee.NodeOp

open Canopee.Runtime
open Prog (exec)

section Example

open Canopee.Compact

theorem genuine_pairingRequest :
    GenuineRequest session laptop.peerId pairingRequest alice [contactsRecord] where
  pending := rfl
  sender := by decide
  addressee := by decide
  payload := by
    cases hkey : Pairing.deriveSessionKey session.code
        (Pairing.salt session.sessionId ⟨"bb"⟩ laptop.peerId) with
    | none =>
      have hsome : (Pairing.deriveSessionKey session.code
          (Pairing.salt session.sessionId ⟨"bb"⟩ laptop.peerId)).isSome = true := by
        decide
      rw [hkey] at hsome
      cases hsome
    | some key =>
      refine ⟨key, (Env.quiet 0).random 2, alice.exportBytes, hkey, ?_, rfl⟩
      simp only [pairingRequest, hkey]
      rfl
  valid := by
    intro record hrecord
    rw [List.mem_singleton] at hrecord
    rw [hrecord]
    decide +kernel

theorem exec_initiatePairing_fresh :
    exec Runtime.initiatePairing (Env.quiet 0) (fresh bob laptop) = (.ok session, waiting) := rfl

/--
A request for a session that the laptop does not have.
-/
def stranger : InboundPairing where
  peer := ⟨"cc"⟩
  request := {
    source := "cc"
    deviceId := laptop.peerId.base58
    sessionId := ""
    encrypted := []
  }

theorem accepted_after_stranger_iff :
    (Run.Always handlePairing (fun v => v.pairing = some session) waiting
        [(stranger, Env.quiet 0)] ∧
      ∃ message, (exec (Runtime.acceptPairing pairingRequest) (Env.quiet 0)
        (Run.run handlePairing waiting [(stranger, Env.quiet 0)])).1 = .ok (.accepted message)) ↔
      [(stranger, Env.quiet 0)] = [] ∧ Writable (Env.quiet 0) alice [contactsRecord] waiting :=
  accepted_after_iff cipherLaws exec_initiatePairing_fresh genuine_pairingRequest
    [(stranger, Env.quiet 0)] (Env.quiet 0)

theorem writable_waiting : Writable (Env.quiet 0) alice [contactsRecord] waiting := by
  constructor
  . decide
  . intro i _
    rfl

/--
The stranger's request is refused because of its session id, and takes the session with it: the
genuine request is refused after it, and accepted without it.
-/
theorem stranger_discards :
    stranger.request.sessionId ≠ session.sessionId ∧
      GenuineRequest session laptop.peerId pairingRequest alice [contactsRecord] ∧
      (∃ message, (exec (Runtime.acceptPairing pairingRequest) (Env.quiet 0) waiting).1 =
        .ok (.accepted message)) ∧
      (handlePairing (stranger, Env.quiet 0) waiting).pairing ≠ some session ∧
      ∀ message, (exec (Runtime.acceptPairing pairingRequest) (Env.quiet 0)
        (handlePairing (stranger, Env.quiet 0) waiting)).1 ≠ .ok (.accepted message) := by
  have hslot : (handlePairing (stranger, Env.quiet 0) waiting).pairing = none :=
    pairing_of_acceptPairing (Env.quiet 0) stranger waiting
  have haccepted : ∃ message,
      (exec (Runtime.acceptPairing pairingRequest) (Env.quiet 0) waiting).1 =
        .ok (.accepted message) :=
    (genuine_accepted_iff cipherLaws rfl genuine_pairingRequest).mpr writable_waiting
  refine ⟨by decide, genuine_pairingRequest, haccepted, ?_, ?_⟩
  . rw [hslot]
    nofun
  . exact not_accepted_of_none hslot

end Example

end Canopee.NodeOp
