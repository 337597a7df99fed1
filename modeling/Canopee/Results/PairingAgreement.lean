import Canopee.Results.PairingSession

/-!
This module contains what the two devices of a pairing agree on: a request that is accepted comes
from a device that completed this session for this device, and an honest request is accepted.
-/

namespace Canopee

open Primitives
open Canopee.Runtime
open Prog (exec exec_bind_ok)

variable [Primitives]

namespace Pairing

/--
A session as `initiate_pairing` opens them.
-/
def Minted (session : OwnPairing) : Prop :=
  ∃ draws, session.sessionId = generateSessionId draws

/--
What the results ask of peer ids: one that is printed is parsed again, and the encoding of one tells
where it ends.
-/
structure PeerLaws (peers : PeerId → Prop) : Prop where
  parse : ∀ peer, peers peer → parsePeerId peer.base58 = some peer
  delimited : ∀ peer, peers peer → ∀ peer', peers peer' → ∀ rest rest',
    peerIdBytes peer ++ rest = peerIdBytes peer' ++ rest' → peer = peer'

theorem PeerLaws.mono {peers peers' : PeerId → Prop} (laws : PeerLaws peers)
    (h : ∀ peer, peers' peer → peers peer) : PeerLaws peers' where
  parse peer hpeer := laws.parse peer (h peer hpeer)
  delimited peer hpeer peer' hpeer' := laws.delimited peer (h peer hpeer) peer' (h peer' hpeer')

omit [Primitives] in
theorem Minted.length {session : OwnPairing} (h : Minted session) :
    (Codec.utf8 session.sessionId).length = 32 := by
  obtain ⟨draws, hsession⟩ := h
  rw [hsession, generateSessionId, Codec.length_utf8_hex, List.Vector.toList_length]

theorem salt_inj {peers : PeerId → Prop} (laws : PeerLaws peers) {sessionId sessionId' : String}
    (hlength : (Codec.utf8 sessionId).length = (Codec.utf8 sessionId').length)
    {source target source' target' : PeerId} (hsource : peers source) (hsource' : peers source')
    (htarget : peers target) (htarget' : peers target')
    (h : salt sessionId source target = salt sessionId' source' target') :
    sessionId = sessionId' ∧ source = source' ∧ target = target' := by
  unfold salt at h
  simp only [List.append_assoc, List.append_cancel_left_eq] at h
  obtain ⟨hid, hrest⟩ := List.append_inj h hlength
  have hsame := laws.delimited source hsource source' hsource' _ _ hrest
  refine ⟨Codec.utf8_inj.mp hid, hsame, ?_⟩
  rw [hsame, List.append_cancel_left_eq] at hrest
  apply laws.delimited target htarget target' htarget' [] []
  rw [hrest]

end Pairing

namespace Runtime

section Complete

variable {env : Env} {w : Runtime}

/--
What a device sends to a new one: its identity and its records.
-/
def pairingData (w : Runtime) : PairingData where
  version := 1
  identityKey := w.identity.exportBytes
  records := [RECORD_DEVICES, RECORD_PROFILE, RECORD_CONTACTS].filterMap (pairingRecord w)

theorem exec_encryptPairingPayload (key : Key32) (env : Env) (w : Runtime) :
    exec (encryptPairingPayload key) env w =
      (Pairing.encryptPayload (env.random w.tick) (PairingData.codec.serialize (pairingData w)) key,
        { w with tick := w.tick + 1 }) := by
  have hrandom : exec random env w = (.ok (env.random w.tick), { w with tick := w.tick + 1 }) := rfl
  unfold encryptPairingPayload
  rw [exec_bind_ok (Prog.exec_get env w), exec_bind_ok hrandom, exec_ofExcept]
  rfl

/--
The checks that `completePairing` makes, and the request that it sends.
-/
theorem completePairing_eq_ok {qr : PairingQrData} {code : String} {request : CanopeePairingRequest}
    (h : (exec (completePairing qr code) env w).1 = .ok request) :
    qr.code = code ∧ request.source = w.deviceKey.peerId.base58 ∧ request.deviceId = qr.deviceId ∧
      request.sessionId = qr.sessionId ∧
      ∃ newDevice key, parsePeerId qr.deviceId = some newDevice ∧
        Pairing.deriveSessionKey code (Pairing.salt qr.sessionId w.deviceKey.peerId newDevice) =
          some key ∧
        Pairing.encryptPayload (env.random w.tick)
          (PairingData.codec.serialize (pairingData w)) key = .ok request.encrypted := by
  unfold completePairing at h
  rw [exec_bind_ok (Prog.exec_get env w)] at h
  split at h
  . cases h
  split at h
  . cases h
  . next hcode =>
    rw [Bool.not_eq_false, Pairing.codesMatch_iff] at hcode
    cases hdevice : parsePeerId qr.deviceId with
    | none =>
      rw [hdevice] at h
      cases h
    | some newDevice =>
      rw [hdevice, ofOption, Prog.pure_bind] at h
      split at h
      . cases h
      . cases hkey : Pairing.deriveSessionKey code
            (Pairing.salt qr.sessionId w.deviceKey.peerId newDevice) with
        | none =>
          rw [hkey] at h
          cases h
        | some key =>
          rw [hkey, ofOption, Prog.pure_bind, Prog.exec_bind, exec_encryptPairingPayload] at h
          cases hencrypted : Pairing.encryptPayload (env.random w.tick)
              (PairingData.codec.serialize (pairingData w)) key with
          | error e =>
            rw [hencrypted] at h
            cases h
          | ok encrypted =>
            rw [hencrypted] at h
            cases h
            exact ⟨hcode, rfl, rfl, rfl, newDevice, key, rfl, hkey, hencrypted⟩

theorem pairingRecord_valid_iff {name : String} {record : PairingRecord}
    (h : pairingRecord w name = some record) :
    record.valid w.identity.id = true ↔ record.pointer.name = record.name := by
  unfold pairingRecord at h
  split at h
  . cases h
  split at h
  . cases h
  split at h
  . cases h
  next howner =>
  split at h
  . cases h
  next hobject =>
  split at h
  . cases h
  . next hverify =>
    cases h
    simp only [not_or, ne_eq, not_not, Bool.not_eq_false] at howner hverify
    have hid := Storage.id_of_getVerified hobject
    simp [PairingRecord.valid, howner.1, howner.2, hverify.1, hverify.2, hid]

/--
The pointers of the records that a device sends carry the names that they are cached under.
-/
def WellNamed (w : Runtime) : Prop :=
  ∀ record ∈ (pairingData w).records, record.pointer.name = record.name

theorem wellNamed_iff :
    WellNamed w ↔ ∀ record ∈ (pairingData w).records, record.valid w.identity.id = true := by
  have hiff : ∀ record ∈ (pairingData w).records,
      (record.valid w.identity.id = true ↔ record.pointer.name = record.name) := by
    intro record hrecord
    obtain ⟨name, _, hname⟩ := List.mem_filterMap.mp hrecord
    exact pairingRecord_valid_iff hname
  constructor
  . intro h record hrecord
    exact (hiff record hrecord).mpr (h record hrecord)
  . intro h record hrecord
    exact (hiff record hrecord).mp (h record hrecord)

end Complete

/--
A run of `complete_pairing` on what a device shows for a session of its own.
-/
structure Completion where
  source : Runtime
  env : Env
  device : DeviceKey
  session : OwnPairing
  minted : Pairing.Minted session
  code : String
  request : CanopeePairingRequest
  completes : (exec (completePairing (pairingQr device session) code) env source).1 = .ok request

namespace Completion

def salt (c : Completion) : Bytes :=
  Pairing.salt c.session.sessionId c.source.deviceKey.peerId c.device.peerId

def key (c : Completion) : Option Key32 :=
  Pairing.deriveSessionKey c.session.code c.salt

/--
The request as it arrives when nobody touches it.
-/
def inbound (c : Completion) : InboundPairing where
  peer := c.source.deviceKey.peerId
  request := c.request

theorem sealed (c : Completion) (hparse : parsePeerId c.device.peerId.base58 = some c.device.peerId) :
    ∃ key, c.key = some key ∧ Pairing.encryptPayload (c.env.random c.source.tick)
      (PairingData.codec.serialize (pairingData c.source)) key = .ok c.request.encrypted := by
  obtain ⟨hcode, _, _, _, newDevice, key, hdevice, hkey, hsealed⟩ := completePairing_eq_ok c.completes
  have hnew : newDevice = c.device.peerId := by
    have hdevice : parsePeerId c.device.peerId.base58 = some newDevice := hdevice
    rw [hparse] at hdevice
    exact (Option.some.inj hdevice).symm
  refine ⟨key, ?_, hsealed⟩
  rw [← hcode, hnew] at hkey
  exact hkey

end Completion

section Agreement

variable {sent : Completion → Prop} {session : OwnPairing} {incoming : InboundPairing}
variable {device : PeerId} {env : Env} {w : Runtime}

/--
Ideal cryptography, as far as a request to a session needs it: the key derivation tells the session
from the ones that were completed, and what opens under the key of the session was sealed under it.
-/
structure Ideal (sent : Completion → Prop) (session : OwnPairing) (device : PeerId)
    (incoming : InboundPairing) : Prop where
  derivation : ∀ c, sent c → ∀ key, c.key = some key →
    Pairing.deriveSessionKey session.code
      (Pairing.salt incoming.request.sessionId incoming.peer device) = some key →
    c.session.code = session.code ∧
      c.salt = Pairing.salt incoming.request.sessionId incoming.peer device
  unforged : ∀ key clear, Pairing.deriveSessionKey session.code
      (Pairing.salt incoming.request.sessionId incoming.peer device) = some key →
    Pairing.decryptPayload incoming.request.encrypted key = .ok clear →
    ∃ c, sent c ∧ c.key = some key ∧ c.request.encrypted = incoming.request.encrypted

/--
The devices of the completions, the device of the session and the one that sends the request.
-/
def Involved (sent : Completion → Prop) (device : PeerId) (incoming : InboundPairing)
    (peer : PeerId) : Prop :=
  peer = device ∨ peer = incoming.peer ∨
    ∃ c, sent c ∧ (peer = c.source.deviceKey.peerId ∨ peer = c.device.peerId)

/--
The request carries the payload of `c`, which completed this very session for this device from the
device that sends it, and the node holds the identity of that device now and the records that it
signed.
-/
structure Agreed (c : Completion) (session : OwnPairing) (incoming : InboundPairing) (env : Env)
    (w : Runtime) : Prop where
  code : c.session.code = session.code
  sessionId : c.session.sessionId = session.sessionId
  source : c.source.deviceKey.peerId = incoming.peer
  target : c.device.peerId = w.deviceKey.peerId
  payload : c.request.encrypted = incoming.request.encrypted
  adopted : ∃ draws bytes, c.source.identity.exportAtRest draws env.passphrase = .ok bytes ∧
    (exec (acceptPairing incoming) env w).2.keyFile = some bytes ∧
    (exec (acceptPairing incoming) env w).2 =
      importedUntil env c.source.identity (pairingData c.source).records (keyed env bytes w)
  signed : ∀ record ∈ (pairingData c.source).records,
    record.pointer.owner = c.source.identity.id ∧ record.pointer.verify = true ∧
      record.object.payload.owner = c.source.identity.id ∧ record.object.verify = true ∧
      record.pointer.manifest = record.object.id

theorem export_of_newKey {imported : Identity} {bytes : Bytes}
    (h : newKey env imported w = some bytes) :
    ∃ draws, imported.exportAtRest draws env.passphrase = .ok bytes := by
  unfold newKey at h
  split at h
  . refine ⟨env.random (keyTick w - 1), ?_⟩
    cases hexport : imported.exportAtRest (env.random (keyTick w - 1)) env.passphrase with
    | error e =>
      rw [hexport] at h
      cases h
    | ok exported =>
      rw [hexport] at h
      cases h
      rfl
  . cases h

theorem exec_of_accepted {message : String}
    (h : (exec (acceptPairing incoming) env w).1 = .ok (.accepted message)) :
    ∃ imported records bytes, opened incoming w = some (imported, records) ∧
      newKey env imported w = some bytes ∧
      (exec (acceptPairing incoming) env w).2 =
        importedUntil env imported records (keyed env bytes w) := by
  rcases acceptPairing_cases env incoming w with ⟨_, _, _, _, hexec⟩ |
    ⟨imported, records, bytes, hopened, hkey, hrun⟩
  . rw [hexec] at h
    cases h
  . refine ⟨imported, records, bytes, hopened, hkey, ?_⟩
    rcases hrun with ⟨_, _, hexec⟩ | ⟨_, _, _, hexec⟩
    . rw [hexec]
    . rw [hexec] at h
      cases h

theorem openPairingRequest_of_opened {imported : Identity} {records : List PairingRecord}
    (hsession : w.pairing = some session) (h : opened incoming w = some (imported, records)) :
    session.sessionId = incoming.request.sessionId ∧
      openPairingRequest session w.deviceKey.peerId incoming = .ok (imported, records) := by
  unfold opened at h
  rw [hsession] at h
  dsimp only at h
  split at h
  . next hid =>
    refine ⟨hid, ?_⟩
    cases hopen : openPairingRequest session w.deviceKey.peerId incoming with
    | error e =>
      rw [hopen] at h
      cases h
    | ok result =>
      rw [hopen] at h
      cases h
      rfl
  . cases h

/--
A request with the payload of a completion, sealed under the key of the session, carries the identity
and the records of the source.
-/
theorem carried_of_sealed (cipher : CipherLaws)
    (himport : ∀ identity : Identity, Identity.importBytes identity.exportBytes = some identity)
    {source imported : Identity} {data : PairingData} {records : List PairingRecord} {key : Key32}
    {draws : Envelope.Random} (hdata : data.identityKey = source.exportBytes)
    (hkey : Pairing.deriveSessionKey session.code
      (Pairing.salt incoming.request.sessionId incoming.peer device) = some key)
    (hsealed : Pairing.encryptPayload draws (PairingData.codec.serialize data) key =
      .ok incoming.request.encrypted)
    (h : openPairingRequest session device incoming = .ok (imported, records)) :
    imported = source ∧ records = data.records := by
  obtain ⟨_, _, key', clear, identityKey, hkey', hclear, hdecode, himported, _⟩ :=
    openPairingRequest_eq_ok h
  rw [hkey] at hkey'
  cases hkey'
  rw [decryptPayload_encryptPayload cipher hsealed] at hclear
  cases hclear
  rw [Codec.deserialize_serialize] at hdecode
  cases hdecode
  have hdata : identityKey = source.exportBytes := hdata
  rw [hdata, himport] at himported
  exact ⟨(Option.some.inj himported).symm, rfl⟩

/--
Whoever sends an accepted request and whatever it did to it, the payload is that of a completion of
this session, for this device and from this sender.
-/
theorem agreed_of_accepted (cipher : CipherLaws)
    (himport : ∀ identity : Identity, Identity.importBytes identity.exportBytes = some identity)
    (hsession : w.pairing = some session) (hminted : Pairing.Minted session)
    (peers : Pairing.PeerLaws (Involved sent w.deviceKey.peerId incoming))
    (ideal : Ideal sent session w.deviceKey.peerId incoming) {message : String}
    (haccepted : (exec (acceptPairing incoming) env w).1 = .ok (.accepted message)) :
    ∃ c, sent c ∧ Agreed c session incoming env w := by
  obtain ⟨imported, records, bytes, hopened, hnew, hexec⟩ := exec_of_accepted haccepted
  obtain ⟨hid, hopen⟩ := openPairingRequest_of_opened hsession hopened
  obtain ⟨_, _, key, clear, _, hkey, hclear, _, _, hvalid⟩ := openPairingRequest_eq_ok hopen
  obtain ⟨c, hc, hckey, hpayload⟩ := ideal.unforged key clear hkey hclear
  have hdevice : Involved sent w.deviceKey.peerId incoming c.device.peerId :=
    .inr (.inr ⟨c, hc, .inr rfl⟩)
  have hsource : Involved sent w.deviceKey.peerId incoming c.source.deviceKey.peerId :=
    .inr (.inr ⟨c, hc, .inl rfl⟩)
  -- the key tells the code and the salt, and the salt tells the rest
  obtain ⟨hcode, hsalt⟩ := ideal.derivation c hc key hckey hkey
  rw [Completion.salt, ← hid] at hsalt
  obtain ⟨hsessionId, hpeer, htarget⟩ := Pairing.salt_inj peers
    (c.minted.length.trans hminted.length.symm) hsource (.inr (.inl rfl)) hdevice (.inl rfl) hsalt
  -- the payload is the one that the source sealed
  obtain ⟨key', hkey', hsealed⟩ := c.sealed (peers.parse _ hdevice)
  rw [hckey] at hkey'
  cases hkey'
  rw [hpayload] at hsealed
  obtain ⟨himported, hrecords⟩ := carried_of_sealed cipher himport rfl hkey hsealed hopen
  rw [himported, hrecords] at hexec hvalid
  rw [himported] at hnew
  obtain ⟨draws, hexport⟩ := export_of_newKey hnew
  refine ⟨c, hc, hcode, hsessionId, hpeer, htarget, hpayload, ⟨draws, bytes, hexport, ?_, hexec⟩, ?_⟩
  . rw [hexec]
    exact (importedUntil_frame env _ _ _).1
  . intro record hrecord
    have := hvalid record hrecord
    simp only [PairingRecord.valid, Bool.and_eq_true, beq_iff_eq] at this
    obtain ⟨⟨⟨⟨⟨howner, hmanifest⟩, _⟩, hpointer⟩, hobject⟩, hpayloadOwner⟩ := this
    exact ⟨howner, hpointer, hpayloadOwner, hobject, hmanifest⟩

/--
An honest request that nobody touches is accepted exactly when its records carry their names and the
writes succeed.
-/
theorem honest_accepted_iff (cipher : CipherLaws)
    (himport : ∀ identity : Identity, Identity.importBytes identity.exportBytes = some identity)
    (c : Completion) (hsession : w.pairing = some c.session) (hdevice : w.deviceKey = c.device)
    (hparse : parsePeerId c.device.peerId.base58 = some c.device.peerId)
    (hparse' : parsePeerId c.source.deviceKey.peerId.base58 = some c.source.deviceKey.peerId) :
    (∃ message, (exec (acceptPairing c.inbound) env w).1 = .ok (.accepted message)) ↔
      WellNamed c.source ∧ Writable env c.source.identity (pairingData c.source).records w := by
  obtain ⟨_, hfrom, haddressee, hid, _⟩ := completePairing_eq_ok c.completes
  obtain ⟨key, hkey, hsealed⟩ := c.sealed hparse
  have hid : c.request.sessionId = c.session.sessionId := hid
  have hkey' : Pairing.deriveSessionKey c.session.code (Pairing.salt c.inbound.request.sessionId
      c.inbound.peer w.deviceKey.peerId) = some key := by
    rw [← hkey, Completion.key, Completion.salt, Completion.inbound, hid, hdevice]
  rw [wellNamed_iff]
  constructor
  . intro haccepted
    obtain ⟨imported, records, hopened, hwritable⟩ := accepted_iff.mp haccepted
    obtain ⟨_, hopen⟩ := openPairingRequest_of_opened hsession hopened
    obtain ⟨himported, hrecords⟩ := carried_of_sealed cipher himport rfl hkey' hsealed hopen
    have hvalid := valid_of_openPairingRequest hopen
    rw [himported, hrecords] at hvalid hwritable
    exact ⟨hvalid, hwritable⟩
  . intro ⟨hvalid, hwritable⟩
    have hgenuine : GenuineRequest c.session w.deviceKey.peerId c.inbound c.source.identity
        (pairingData c.source).records := {
      pending := hid.symm
      sender := by
        rw [Completion.inbound, hfrom]
        exact hparse'
      addressee := by
        rw [Completion.inbound, haddressee, hdevice]
        exact hparse
      payload := ⟨key, _, _, hkey', hsealed, himport _⟩
      valid := hvalid
    }
    exact (genuine_accepted_iff cipher hsession hgenuine).mpr hwritable

/--
Pairing agreement. A request that is accepted, whoever sends it, carries the payload of a completion
of this very session, and the node ends up with what the source sealed. A request that is such a
completion, untouched, is accepted exactly when its records carry their names and the writes succeed.
-/
theorem pairing_agreement (cipher : CipherLaws)
    (himport : ∀ identity : Identity, Identity.importBytes identity.exportBytes = some identity)
    (hsession : w.pairing = some session) (hminted : Pairing.Minted session)
    (peers : Pairing.PeerLaws (Involved sent w.deviceKey.peerId incoming))
    (ideal : Ideal sent session w.deviceKey.peerId incoming) (env : Env) :
    (∀ message, (exec (acceptPairing incoming) env w).1 = .ok (.accepted message) →
      ∃ c, sent c ∧ Agreed c session incoming env w) ∧
    (∀ c, sent c → c.session = session → c.device = w.deviceKey → incoming = c.inbound →
      ((∃ message, (exec (acceptPairing incoming) env w).1 = .ok (.accepted message)) ↔
        WellNamed c.source ∧
          Writable env c.source.identity (pairingData c.source).records w)) := by
  constructor
  . intro message haccepted
    exact agreed_of_accepted cipher himport hsession hminted peers ideal haccepted
  . intro c hc hpending hdevice hincoming
    have hparse := peers.parse c.device.peerId (.inr (.inr ⟨c, hc, .inr rfl⟩))
    have hparse' := peers.parse c.source.deviceKey.peerId (.inr (.inr ⟨c, hc, .inl rfl⟩))
    rw [hincoming]
    rw [← hpending] at hsession
    exact honest_accepted_iff cipher himport c hsession hdevice.symm hparse hparse'

end Agreement

end Runtime

end Canopee

namespace Canopee.NodeOp

open Canopee.Runtime
open Prog (exec)

section Example

open Canopee.Compact

def phone : DeviceKey where
  peerId := ⟨"bb"⟩
  deviceName := "phone"

/--
What Alice's phone does with what the laptop shows, when its state is `source`.
-/
def completing (source : Runtime) : Except String CanopeePairingRequest :=
  (exec (completePairing (pairingQr laptop session) session.code) (Env.quiet 0) source).1

theorem minted_session : Pairing.Minted session :=
  ⟨(Env.quiet 0).random 0, rfl⟩

/--
The completion from `source`, when it succeeds.
-/
def completion (source : Runtime) (h : (completing source).toOption.isSome = true) :
    Completion where
  source := source
  env := Env.quiet 0
  device := laptop
  session := session
  minted := minted_session
  code := session.code
  request := (completing source).toOption.get h
  completes := by
    change completing source = _
    generalize completing source = res at h
    cases res with
    | error e => cases h
    | ok request => rfl

/--
Alice's phone with her contact list.
-/
def contactsPhone : Runtime :=
  storeRecord (recordFile (AppPointerRecord.key alice.id RECORD_CONTACTS))
    (AppPointerRecord.codec.serialize contactsRecord.pointer)
    (storeObject contactsObject (fresh alice phone))

/--
The pointer to her contact list is in the file of her profile.
-/
def misnamedPhone : Runtime :=
  storeRecord (recordFile (AppPointerRecord.key alice.id RECORD_PROFILE))
    (AppPointerRecord.codec.serialize contactsRecord.pointer)
    (storeObject contactsObject (fresh alice phone))

theorem completing_contactsPhone : (completing contactsPhone).toOption.isSome = true := by
  decide

theorem completing_misnamedPhone : (completing misnamedPhone).toOption.isSome = true := by
  decide

theorem refused_evaluated :
    (exec (Runtime.acceptPairing (completion contactsPhone completing_contactsPhone).inbound)
        fullDisk waiting).1 =
      .ok (.error "record contacts could not be stored: write failed") ∧
    (exec (Runtime.acceptPairing (completion misnamedPhone completing_misnamedPhone).inbound)
        (Env.quiet 0) waiting).1 =
      .ok (.error "the transferred records do not verify against the transferred identity") := by
  decide +kernel

/--
What the phone sends, and how it arrives.
-/
def contactsCompletion : Completion :=
  completion contactsPhone completing_contactsPhone

def misnamedCompletion : Completion :=
  completion misnamedPhone completing_misnamedPhone

/--
An honest request is refused when the disk is full, and when a record is cached under another name
than its own.
-/
theorem honest_refused :
    (∃ message, (exec (Runtime.acceptPairing contactsCompletion.inbound) fullDisk waiting).1 =
      .ok (.error message)) ∧
    ∃ message, (exec (Runtime.acceptPairing misnamedCompletion.inbound) (Env.quiet 0) waiting).1 =
      .ok (.error message) :=
  ⟨⟨_, refused_evaluated.1⟩, _, refused_evaluated.2⟩

theorem peerLaws_laptop_phone :
    Pairing.PeerLaws fun peer => peer = laptop.peerId ∨ peer = phone.peerId where
  parse peer hpeer := by
    rcases hpeer with hpeer | hpeer
    . rw [hpeer]
      rfl
    . rw [hpeer]
      rfl
  delimited peer hpeer peer' hpeer' rest rest' h := by
    have hlaptop : Primitives.peerIdBytes laptop.peerId = [97, 97] := by decide
    have hphone : Primitives.peerIdBytes phone.peerId = [98, 98] := by decide
    rcases hpeer with hpeer | hpeer
    . rcases hpeer' with hpeer' | hpeer'
      . rw [hpeer, hpeer']
      . rw [hpeer, hpeer', hlaptop, hphone] at h
        cases h
    . rcases hpeer' with hpeer' | hpeer'
      . rw [hpeer, hpeer', hlaptop, hphone] at h
        cases h
      . rw [hpeer, hpeer']

theorem involved_contactsCompletion (peer : PeerId)
    (h : Involved (· = contactsCompletion) waiting.deviceKey.peerId contactsCompletion.inbound peer) :
    peer = laptop.peerId ∨ peer = phone.peerId := by
  rcases h with h | h | ⟨c, hc, h | h⟩
  . exact .inl h
  . exact .inr h
  . rw [hc] at h
    exact .inr h
  . rw [hc] at h
    exact .inl h

theorem ideal_contactsCompletion :
    Ideal (· = contactsCompletion) session waiting.deviceKey.peerId contactsCompletion.inbound where
  derivation c hc key _ _ := by
    rw [hc]
    exact ⟨rfl, rfl⟩
  unforged key clear hkey _ := by
    refine ⟨contactsCompletion, rfl, hkey, rfl⟩

theorem pairing_agreement_contactsCompletion :
    (∀ message, (exec (Runtime.acceptPairing contactsCompletion.inbound) (Env.quiet 0) waiting).1 =
        .ok (.accepted message) →
      ∃ c, c = contactsCompletion ∧
        Agreed c session contactsCompletion.inbound (Env.quiet 0) waiting) ∧
    (∀ c, c = contactsCompletion → c.session = session → c.device = waiting.deviceKey →
      contactsCompletion.inbound = c.inbound →
      ((∃ message, (exec (Runtime.acceptPairing contactsCompletion.inbound) (Env.quiet 0)
          waiting).1 = .ok (.accepted message)) ↔
        WellNamed c.source ∧
          Writable (Env.quiet 0) c.source.identity (pairingData c.source).records waiting)) :=
  pairing_agreement cipherLaws (fun _ => rfl) rfl minted_session
    (peerLaws_laptop_phone.mono involved_contactsCompletion) ideal_contactsCompletion (Env.quiet 0)

end Example

end Canopee.NodeOp
