import Canopee.Lib.Codec

/-!
This module contains what the node takes from its cryptography and networking crates: hashing,
signature keys and the peer ids derived from them, key agreement, authenticated encryption and the
password based key derivation.
-/

namespace Canopee

/--
A libp2p peer id, by its base58 text.
-/
structure PeerId where
  base58 : String
  deriving DecidableEq, Repr

abbrev Key32 := List.Vector UInt8 32

class Primitives where
  -- `Sha256::digest`
  sha256 : Bytes → Bytes
  PublicKey : Type
  Keypair : Type
  -- `PublicKey::try_decode_protobuf`
  decodePublicKey : Bytes → Option PublicKey
  -- `PublicKey::encode_protobuf`
  encodePublicKey : PublicKey → Bytes
  -- `PublicKey::verify(msg, sig)`
  verifySignature : PublicKey → Bytes → Bytes → Bool
  -- `Keypair::public`
  keypairPublic : Keypair → PublicKey
  -- `Keypair::sign`
  keypairSign : Keypair → Bytes → Bytes
  -- `Keypair::from_protobuf_encoding`
  decodeKeypair : Bytes → Option Keypair
  -- `Keypair::to_protobuf_encoding`
  encodeKeypair : Keypair → Bytes
  -- `PeerId::from(PublicKey)`
  peerIdOf : PublicKey → PeerId
  -- `str::parse::<PeerId>`
  parsePeerId : String → Option PeerId
  -- `PeerId::to_bytes`
  peerIdBytes : PeerId → Bytes
  -- `Keypair::derive_secret(DH_DOMAIN)`
  dhSecretOf : Keypair → Key32
  -- `x25519_dalek::PublicKey::from(&StaticSecret)`
  dhPublicOf : Key32 → Key32
  -- `StaticSecret::diffie_hellman`
  diffieHellman : Key32 → Key32 → Key32
  -- `Hkdf::<Sha256>::new(Some(salt), ikm).expand(info)`
  hkdf : Bytes → Bytes → Bytes → Key32
  -- `XChaCha20Poly1305::encrypt(nonce, plaintext)`
  aeadEncrypt : Key32 → Bytes → Bytes → Option Bytes
  -- `XChaCha20Poly1305::decrypt(nonce, ciphertext)`
  aeadDecrypt : Key32 → Bytes → Bytes → Option Bytes
  -- `Params::new(m_cost, t_cost, p_cost)`, then `hash_password_into(password, salt)`
  argon2 : Nat → Nat → Nat → Bytes → Bytes → Option Key32
  OffsetDateTime : Type
  -- the binary `serde` form of the `time` crate
  dateTimeCodec : Codec OffsetDateTime
  -- `OffsetDateTime::from_unix_timestamp`
  dateTimeAt : Int → OffsetDateTime

namespace Primitives

/--
What the results ask of signatures: a public key survives its encoding, and a signature made with a
key verifies under its public half.
-/
structure SignatureLaws [Primitives] : Prop where
  decode_encode : ∀ key, decodePublicKey (encodePublicKey key) = some key
  verify_sign : ∀ pair msg, verifySignature (keypairPublic pair) msg (keypairSign pair msg) = true

/--
What the results ask of the cipher: it opens what it has sealed and nothing else, and the tag is 16
bytes long.
-/
structure CipherLaws [Primitives] : Prop where
  decrypt_iff : ∀ key nonce plaintext ciphertext,
    aeadDecrypt key nonce ciphertext = some plaintext ↔
      aeadEncrypt key nonce plaintext = some ciphertext
  length : ∀ key nonce plaintext ciphertext, aeadEncrypt key nonce plaintext = some ciphertext →
    ciphertext.length = plaintext.length + 16

/--
What the results ask of the key agreement: both sides get the same secret, and no public key is the
zero point.
-/
structure AgreementLaws [Primitives] : Prop where
  comm : ∀ a b, diffieHellman a (dhPublicOf b) = diffieHellman b (dhPublicOf a)
  nonzero : ∀ a, (dhPublicOf a).toList ≠ List.replicate 32 0

/--
Collision resistance, in its ideal form.
-/
def CollisionFree [Primitives] : Prop :=
  Function.Injective sha256

end Primitives

/-
Implementations with nothing secret in them: a signature is the key followed by the message. The
signature laws hold of them and everything on top of them computes.
-/
namespace Transparent

def pad32 (bytes : Bytes) : Key32 :=
  ⟨(bytes ++ List.replicate 32 0).take 32, by simp⟩

/--
The key with its last byte set, so that it is not zero.
-/
def clamped (key : Key32) : Key32 :=
  ⟨key.toList.take 31 ++ [1], by simp⟩

def sealed (key : Key32) (nonce plaintext : Bytes) : Bytes :=
  plaintext ++ (key.toList ++ nonce).take 16

def unsealed (key : Key32) (nonce ciphertext : Bytes) : Option Bytes :=
  let plaintext := ciphertext.take (ciphertext.length - 16)
  if ciphertext = sealed key nonce plaintext then some plaintext else none

@[reducible]
def withDigest (digest : Bytes → Bytes) : Primitives where
  sha256 := digest
  PublicKey := UInt8
  Keypair := UInt8
  decodePublicKey
    | [key] => some key
    | _ => none
  encodePublicKey key := [key]
  verifySignature key msg signature := signature == key :: msg
  keypairPublic pair := pair
  keypairSign pair msg := pair :: msg
  decodeKeypair
    | [pair] => some pair
    | _ => none
  encodeKeypair pair := [pair]
  peerIdOf key := ⟨Codec.hex [key]⟩
  parsePeerId s := if s.length = 2 then some ⟨s⟩ else none
  peerIdBytes peer := Codec.utf8 peer.base58
  dhSecretOf pair := pad32 [pair]
  dhPublicOf secret := clamped secret
  diffieHellman secret key := ⟨(clamped secret).toList.zipWith (· + ·) key.toList, by simp⟩
  hkdf ikm _ _ := pad32 ikm
  aeadEncrypt key nonce plaintext := some (sealed key nonce plaintext)
  aeadDecrypt := unsealed
  argon2 _ _ _ password salt := some (pad32 (password ++ salt))
  OffsetDateTime := UInt64
  dateTimeCodec := Codec.u64
  dateTimeAt t := UInt64.ofNat t.toNat

theorem signatureLaws_withDigest (digest : Bytes → Bytes) :
    @Primitives.SignatureLaws (withDigest digest) :=
  @Primitives.SignatureLaws.mk (withDigest digest) (fun _ => rfl)
    (fun pair msg => beq_self_eq_true (show Bytes from pair :: msg))

theorem length_sealed (key : Key32) (nonce plaintext : Bytes) :
    (sealed key nonce plaintext).length = plaintext.length + 16 := by
  unfold sealed
  rw [List.length_append, List.length_take, List.length_append, List.Vector.toList_length]
  omega

theorem unsealed_iff {key : Key32} {nonce plaintext ciphertext : Bytes} :
    unsealed key nonce ciphertext = some plaintext ↔ sealed key nonce plaintext = ciphertext := by
  unfold unsealed
  constructor
  . intro h
    dsimp only at h
    split at h
    . next heq =>
      rw [Option.some.injEq] at h
      rw [heq, h]
    . contradiction
  . intro h
    have hlength := length_sealed key nonce plaintext
    have htake : ciphertext.take (ciphertext.length - 16) = plaintext := by
      rw [← h, hlength, Nat.add_sub_cancel]
      exact List.take_left
    rw [htake]
    exact if_pos h.symm

theorem take_of_sealed {key key' : Key32} {nonce plaintext plaintext' : Bytes}
    (h : sealed key' nonce plaintext' = sealed key nonce plaintext) :
    key'.toList.take 16 = key.toList.take 16 := by
  have htag (key : Key32) : (key.toList ++ nonce).take 16 = key.toList.take 16 :=
    List.take_append_of_le_length (by rw [List.Vector.toList_length]; omega)
  unfold sealed at h
  rw [htag, htag] at h
  exact List.append_inj_right' h (by simp)

theorem clamped_ne (key : Key32) : (clamped key).toList ≠ List.replicate 32 0 := by
  intro h
  have hlast := congrArg List.getLast? h
  simp [clamped, List.Vector.toList] at hlast

theorem cipherLaws_withDigest (digest : Bytes → Bytes) :
    @Primitives.CipherLaws (withDigest digest) :=
  @Primitives.CipherLaws.mk (withDigest digest)
    (fun _ _ _ _ => unsealed_iff.trans (Option.some_inj).symm)
    (fun key nonce plaintext _ h => by
      rw [← Option.some_inj.mp h]
      exact length_sealed key nonce plaintext)

theorem agreementLaws_withDigest (digest : Bytes → Bytes) :
    @Primitives.AgreementLaws (withDigest digest) :=
  @Primitives.AgreementLaws.mk (withDigest digest)
    (fun _ _ => List.Vector.eq _ _
      (List.zipWith_comm_of_comm fun x y : UInt8 => UInt8.add_comm x y))
    clamped_ne

/--
The digest of a message is the message.
-/
scoped instance primitives : Primitives :=
  withDigest id

theorem signatureLaws : Primitives.SignatureLaws :=
  signatureLaws_withDigest id

theorem cipherLaws : Primitives.CipherLaws :=
  cipherLaws_withDigest id

theorem agreementLaws : Primitives.AgreementLaws :=
  agreementLaws_withDigest id

theorem collisionFree : Primitives.CollisionFree :=
  Function.injective_id

section Recording

variable {inputs : List (Bytes × Bytes × Bytes)}

/--
What was encrypted is on record: nothing else has a ciphertext, and nothing else opens.
-/
@[reducible]
def recording (inputs : List (Bytes × Bytes × Bytes)) : Primitives :=
  { withDigest id with
    aeadEncrypt := fun key nonce plaintext =>
      if (key.toList, nonce, plaintext) ∈ inputs then some (sealed key nonce plaintext) else none
    aeadDecrypt := fun key nonce ciphertext =>
      (unsealed key nonce ciphertext).filter fun plaintext =>
        decide ((key.toList, nonce, plaintext) ∈ inputs) }

theorem recording_decrypt_iff {key : Key32} {nonce plaintext ciphertext : Bytes} :
    (recording inputs).aeadDecrypt key nonce ciphertext = some plaintext ↔
      sealed key nonce plaintext = ciphertext ∧ (key.toList, nonce, plaintext) ∈ inputs := by
  change (unsealed key nonce ciphertext).filter _ = some plaintext ↔ _
  rw [Option.filter_eq_some_iff, unsealed_iff, decide_eq_true_eq]

theorem recording_encrypt_iff {key : Key32} {nonce plaintext ciphertext : Bytes} :
    (recording inputs).aeadEncrypt key nonce plaintext = some ciphertext ↔
      sealed key nonce plaintext = ciphertext ∧ (key.toList, nonce, plaintext) ∈ inputs := by
  change (if _ then some (sealed key nonce plaintext) else none) = some ciphertext ↔ _
  split
  . next hmem => simp [hmem]
  . next hmem => simp [hmem]

theorem cipherLaws_recording : @Primitives.CipherLaws (recording inputs) :=
  @Primitives.CipherLaws.mk (recording inputs)
    (fun _ _ _ _ => recording_decrypt_iff.trans recording_encrypt_iff.symm)
    (fun key nonce plaintext _ h => by
      rw [← (recording_encrypt_iff.mp h).1]
      exact length_sealed key nonce plaintext)

theorem agreementLaws_recording : @Primitives.AgreementLaws (recording inputs) :=
  @Primitives.AgreementLaws.mk (recording inputs)
    (fun _ _ => List.Vector.eq _ _
      (List.zipWith_comm_of_comm fun x y : UInt8 => UInt8.add_comm x y))
    clamped_ne

end Recording

end Transparent

namespace Compact

/--
Two bytes of checksum.
-/
def checksum (bytes : Bytes) : Bytes :=
  Codec.leBytes 2 (bytes.foldl (fun sum b => (sum * 31 + b.toNat + 1) % 65521) 7)

/--
The digest of a message is a checksum, so that ids are short.
-/
scoped instance primitives : Primitives :=
  Transparent.withDigest checksum

theorem signatureLaws : Primitives.SignatureLaws :=
  Transparent.signatureLaws_withDigest checksum

theorem cipherLaws : Primitives.CipherLaws :=
  Transparent.cipherLaws_withDigest checksum

end Compact

end Canopee
