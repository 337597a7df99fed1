import Canopee.Runtime.Devices

/-!
This module contains device pairing: the new device's session, the payload with the identity key and
the signed records of its owner, and the acceptance of that payload.
-/

namespace Canopee

open Primitives

variable [Primitives]

structure PairingRecord where
  name : String
  object : Object
  pointer : AppPointerRecord

def PairingRecord.codec : Codec PairingRecord :=
  (Codec.text.pair (Object.codec.pair AppPointerRecord.codec)).iso
    (fun r => (r.name, r.object, r.pointer))
    (fun (name, object, pointer) => ⟨name, object, pointer⟩) (by intro r; rfl)

structure PairingData where
  version : UInt8
  identityKey : Bytes
  records : List PairingRecord

def PairingData.codec : Codec PairingData :=
  (Codec.u8.pair (Codec.bytes.pair PairingRecord.codec.list)).iso
    (fun d => (d.version, d.identityKey, d.records))
    (fun (version, identityKey, records) => ⟨version, identityKey, records⟩) (by intro d; rfl)

/--
What the new device shows for the other one to scan, without its address.
-/
structure PairingQrData where
  version : UInt8
  deviceId : String
  deviceName : String
  code : String
  sessionId : String

structure CanopeePairingRequest where
  source : String
  deviceId : String
  sessionId : String
  encrypted : Bytes

/--
A pairing request, with the peer that libp2p authenticated as its sender.
-/
structure InboundPairing where
  peer : PeerId
  request : CanopeePairingRequest

inductive CanopeePairingResponse where
  | accepted (message : String)
  | error (message : String)
  deriving DecidableEq

namespace Pairing

def codeAlphabet : List Char := "ABCDEFGHIJKLMNOPQRSTUVWXYZ234567".toList

/--
`generate_code` and `generate_session_id`
-/
def generateCode (random : Envelope.Random) : String :=
  String.ofList ((random 0 12).toList.map fun b => codeAlphabet.getD (b.toNat % 32) 'A')

def generateSessionId (random : Envelope.Random) : String :=
  Codec.hex (random 0 16).toList

def codesMatch (a b : String) : Bool :=
  let a := Codec.utf8 a
  let b := Codec.utf8 b
  a.length == b.length && (a.zip b).foldl (fun diff (x, y) => diff ||| (x ^^^ y)) 0 == 0

omit [Primitives] in
theorem foldl_or_eq_zero (pairs : List (UInt8 × UInt8)) (diff : UInt8) :
    pairs.foldl (fun diff (x, y) => diff ||| (x ^^^ y)) diff = 0 ↔
      diff = 0 ∧ ∀ p ∈ pairs, p.1 = p.2 := by
  induction pairs generalizing diff with
  | nil => simp
  | cons p pairs ih =>
    have hstep : diff ||| (p.1 ^^^ p.2) = 0 ↔ diff = 0 ∧ p.1 = p.2 := by
      rw [UInt8.or_eq_zero_iff, UInt8.xor_eq_zero_iff]
    rw [List.foldl_cons, ih]
    simp [hstep, and_assoc]

omit [Primitives] in
theorem codesMatch_iff {a b : String} : codesMatch a b = true ↔ a = b := by
  unfold codesMatch
  simp only [Bool.and_eq_true, beq_iff_eq, foldl_or_eq_zero, true_and]
  rw [← Codec.utf8_inj]
  constructor
  . intro ⟨hlength, hpairs⟩
    apply List.ext_getElem hlength
    intro i hi hi'
    have hmem : ((Codec.utf8 a)[i], (Codec.utf8 b)[i]) ∈ (Codec.utf8 a).zip (Codec.utf8 b) := by
      rw [List.mem_iff_getElem]
      refine ⟨i, ?_, ?_⟩
      . rw [List.length_zip]
        omega
      . simp
    exact hpairs _ hmem
  . intro h
    rw [h]
    refine ⟨rfl, ?_⟩
    intro p hp
    rw [List.mem_iff_getElem] at hp
    obtain ⟨i, _, hp⟩ := hp
    simp [← hp]

def salt (sessionId : String) (source target : PeerId) : Bytes :=
  Codec.utf8 "canopee/pairing/v1" ++ Codec.utf8 sessionId ++ peerIdBytes source ++
    peerIdBytes target

end Pairing

/--
The record is one that `owner` signed, and its object is the one that the record names.
-/
def PairingRecord.valid (owner : IdentityId) (record : PairingRecord) : Bool :=
  record.pointer.owner == owner && record.pointer.manifest == record.object.id &&
    record.pointer.name == record.name && record.pointer.verify && record.object.verify &&
    record.object.payload.owner == owner

namespace Runtime

/--
What `initiate_pairing` returns for a session.
-/
def pairingQr (deviceKey : DeviceKey) (session : OwnPairing) : PairingQrData where
  version := 1
  deviceId := deviceKey.peerId.base58
  deviceName := deviceKey.deviceName
  code := session.code
  sessionId := session.sessionId

/--
`Runtime::initiate_pairing`, as far as the session that it opens.
-/
def initiatePairing : RunM OwnPairing := do
  let code ← random
  let sessionId ← random
  let session : OwnPairing := {
    sessionId := Pairing.generateSessionId sessionId
    code := Pairing.generateCode code
  }
  modify fun w => { w with pairing := some session }
  pure session

/--
The records that `encrypt_pairing_payload` sends: those in the record cache whose object is here.
-/
def pairingRecord (w : Runtime) (name : String) : Option PairingRecord :=
  match w.records.lookup (recordFile (AppPointerRecord.key w.identity.id name)) with
  | none => none
  | some bytes =>
    match AppPointerRecord.codec.deserialize bytes with
    | none => none
    | some pointer =>
      if pointer.owner ≠ w.identity.id ∨ pointer.verify = false then
        none
      else
        match w.storage.getVerified pointer.manifest with
        | .error _ => none
        | .ok object =>
          if object.verify = false ∨ object.payload.owner ≠ w.identity.id then
            none
          else
            some { name := name, object := object, pointer := pointer }

/--
`Runtime::encrypt_pairing_payload`
-/
def encryptPairingPayload (key : Key32) : RunM Bytes := do
  let w ← get
  let data : PairingData := {
    version := 1
    identityKey := w.identity.exportBytes
    records := [RECORD_DEVICES, RECORD_PROFILE, RECORD_CONTACTS].filterMap (pairingRecord w)
  }
  let draws ← random
  ofExcept (Pairing.encryptPayload draws (PairingData.codec.serialize data) key)

/--
`Runtime::complete_pairing`, as far as the request that it sends.
-/
def completePairing (qr : PairingQrData) (code : String) : RunM CanopeePairingRequest := do
  let w ← get
  if qr.version ≠ 1 then
    throw ("unsupported pairing protocol version " ++ toString qr.version)
  else if Pairing.codesMatch qr.code code = false then
    throw "pairing code does not match the code on the device — check it and retry"
  else
    let newDevice ← ofOption "device id in the QR is not a valid peer id" (parsePeerId qr.deviceId)
    if newDevice = w.deviceKey.peerId then
      throw "this device is already the one carrying the identity — nothing to pair"
    else
      let key ← ofOption "argon2 params are valid"
        (Pairing.deriveSessionKey code (Pairing.salt qr.sessionId w.deviceKey.peerId newDevice))
      let encrypted ← encryptPairingPayload key
      pure {
        source := w.deviceKey.peerId.base58
        deviceId := qr.deviceId
        sessionId := qr.sessionId
        encrypted := encrypted
      }

/--
`Runtime::set_identity_key`
-/
def setIdentityKey (imported : Identity) : RunM Unit := do
  let w ← get
  match w.keyFile with
  | none => pure ()
  | some old => do
    let time ← now
    writeInPlace (fun bytes w => { w with
      backups := w.backups.insert ("identity.key.bak-" ++ toString time) bytes }) old
  let draws ← random
  let env ← read
  let bytes ← ofExcept (imported.exportAtRest draws env.passphrase)
  writeAtomic fun w => { w with keyFile := some bytes }

/--
Decrypt and check the payload of a request: the identity that it carries, and its records.
-/
def openPairingRequest (session : OwnPairing) (device : PeerId) (incoming : InboundPairing) :
    Except String (Identity × List PairingRecord) :=
  if parsePeerId incoming.request.source ≠ some incoming.peer then
    .error "sender identity mismatch"
  else if parsePeerId incoming.request.deviceId ≠ some device then
    .error "wrong destination device"
  else
    match Pairing.deriveSessionKey session.code
        (Pairing.salt incoming.request.sessionId incoming.peer device) with
    | none => .error "argon2 params are valid"
    | some key =>
      match Pairing.decryptPayload incoming.request.encrypted key with
      | .error e => .error e
      | .ok clear =>
        match PairingData.codec.deserialize clear with
        | none => .error "malformed pairing payload"
        | some data =>
          if data.version ≠ 1 then
            .error "malformed pairing payload"
          else
            match Identity.importBytes data.identityKey with
            | none => .error "invalid identity keypair bytes"
            | some imported =>
              if data.records.all (PairingRecord.valid imported.id) then
                .ok (imported, data.records)
              else
                .error "the transferred records do not verify against the transferred identity"

/--
Store the transferred records, one after the other.
-/
def importRecords (imported : Identity) : List PairingRecord → RunM Unit
  | [] => pure ()
  | record :: records => do
    match ← Prog.attempt (putVerified record.object) with
    | .error e => throw ("record " ++ record.name ++ " could not be stored: " ++ e)
    | .ok _ =>
      markCached record.object.id
      let _ ← Prog.attempt (cacheRecord (AppPointerRecord.key imported.id record.name)
        (AppPointerRecord.codec.serialize record.pointer))
      importRecords imported records

/--
The session that `accept_pairing` takes out of its slot, when it is the one asked for.
-/
def takeSession (sessionId : String) : RunM OwnPairing := do
  let w ← get
  modify fun w => { w with pairing := none }
  match w.pairing with
  | none => throw "no pairing session for this request"
  | some session =>
    if session.sessionId = sessionId then
      pure session
    else
      throw "no pairing session for this request"

/--
`Runtime::accept_pairing`, whose failures are the answers it gives.
-/
def acceptPairingRun (incoming : InboundPairing) : RunM String := do
  let session ← takeSession incoming.request.sessionId
  let w ← get
  let (imported, records) ← ofExcept (openPairingRequest session w.deviceKey.peerId incoming)
  setIdentityKey imported
  importRecords imported records
  pure ("accepted — restart " ++ w.deviceKey.deviceName ++ " (" ++ imported.id.text ++
    " ) to take over the identity")

def acceptPairing (incoming : InboundPairing) : RunM CanopeePairingResponse := do
  match ← Prog.attempt (acceptPairingRun incoming) with
  | .ok message => pure (.accepted message)
  | .error message => pure (.error message)

end Runtime

end Canopee
