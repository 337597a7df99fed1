import Canopee.Identity.AtRest
import Canopee.Lib.Checked

/-!
This module contains the reading of envelopes once more, with every index, every slice and every sum
checked the way the language checks them as the program runs.
-/

namespace Canopee

open Primitives
open Checked (Fault)

variable [Primitives]

namespace Envelope.Checked

/--
`is_envelope`
-/
def isEnvelope (bytes : Bytes) : Except Fault Bool :=
  if headerLen < bytes.length then do
    let start ← Checked.range bytes 0 4
    return start == magic
  else
    return false

/--
The content key wrapped in the `i`-th recipient block.
-/
def unwrapAt (identity : Identity) (bytes salt : Bytes) (i : Nat) : Except Fault (Option Key32) := do
  let base ← Checked.add headerLen (← Checked.mul i perRecipientLen)
  let epk ← Checked.range bytes base (← Checked.add base keyLen)
  let wrapNonce ← Checked.range bytes (← Checked.add base keyLen)
    (← Checked.add (← Checked.add base keyLen) nonceLen)
  let wrapped ← Checked.range bytes (← Checked.add (← Checked.add base keyLen) nonceLen)
    (← Checked.add base perRecipientLen)
  let epk ← Checked.array 32 epk
  if epk.toList = List.replicate 32 0 then
    return none
  else
    let shared := diffieHellman identity.dhSecret epk
    let wrapKey := deriveWrapKey shared salt epk identity.dhPublicKey
    let wrapNonce ← Checked.array nonceLen wrapNonce
    match aeadDecrypt wrapKey wrapNonce.toList wrapped with
    | none => return none
    | some key =>
      if key.length = keyLen then
        return some (← Checked.array 32 key)
      else
        return none

/--
The loop over the recipient blocks, from the `i`-th on, with `count` blocks left.
-/
def findContentKey (identity : Identity) (bytes salt : Bytes) :
    Nat → Nat → Except Fault (Option Key32)
  | _, 0 => return none
  | i, count + 1 => do
    match ← unwrapAt identity bytes salt i with
    | some key => return some key
    | none => findContentKey identity bytes salt (i + 1) count

/--
`Identity::decrypt_envelope`
-/
def decryptEnvelope (identity : Identity) (bytes : Bytes) :
    Except Fault (Except EnvelopeError Bytes) := do
  if !(← isEnvelope bytes) then
    return .error .notEncrypted
  else
    let version ← Checked.index bytes 4
    if version != Envelope.version then
      return .error (.unsupportedVersion version)
    else
      let count := Codec.ofLeBytes [← Checked.index bytes 6, ← Checked.index bytes 7]
      if count = 0 then
        return .error (.malformed "envelope has no recipients")
      else
        let salt ← Checked.range bytes 8 (8 + saltLen)
        let contentNonce ← Checked.range bytes (8 + saltLen) headerLen
        match Checked.tryMul count perRecipientLen with
        | none => return .error (.malformed "recipient count overflows")
        | some recipients =>
          match Checked.tryAdd headerLen recipients with
          | none => return .error (.malformed "envelope length overflows")
          | some recipientsEnd =>
            if bytes.length < recipientsEnd then
              return .error (.malformed "envelope is truncated")
            else
              let ciphertext ← Checked.behind bytes recipientsEnd
              match ← findContentKey identity bytes salt 0 count with
              | none => return .error .noMatchingRecipient
              | some contentKey =>
                let contentNonce ← Checked.array nonceLen contentNonce
                match aeadDecrypt contentKey contentNonce.toList ciphertext with
                | some plaintext => return .ok plaintext
                | none => return .error .decryptFailed

end Envelope.Checked

namespace AtRest.Checked

/--
`is_encrypted_envelope`
-/
def isEncryptedEnvelope (bytes : Bytes) : Except Fault Bool :=
  if headerLen < bytes.length then do
    let start ← Checked.range bytes 0 encryptedMagic.length
    return start == encryptedMagic
  else
    return false

/--
A little-endian `u32` at `off`.
-/
def cost (bytes : Bytes) (off : Nat) : Except Fault Nat := do
  let bytes ← Checked.range bytes off (← Checked.add off 4)
  return Codec.ofLeBytes (← Checked.array 4 bytes).toList

/--
`decrypt_key_envelope`
-/
def decryptKeyEnvelope (bytes passphrase : Bytes) : Except Fault (Except String Bytes) := do
  if !(← isEncryptedEnvelope bytes) then
    return .error "not an encrypted-at-rest identity envelope"
  else
    let versionEnd ← Checked.add encryptedMagic.length encryptedVersion.length
    let version ← Checked.range bytes encryptedMagic.length versionEnd
    if version != encryptedVersion then
      return .error "unsupported encrypted-at-rest version"
    else
      let memory ← cost bytes versionEnd
      let time ← cost bytes (← Checked.add versionEnd 4)
      let lanes ← cost bytes (← Checked.add versionEnd 8)
      let off ← Checked.add versionEnd 12
      let salt ← Checked.range bytes off (← Checked.add off saltLen)
      let off ← Checked.add off saltLen
      let nonce ← Checked.range bytes off (← Checked.add off nonceLen)
      let off ← Checked.add off nonceLen
      let ciphertext ← Checked.behind bytes off
      match deriveKey (memory, time, lanes) passphrase salt with
      | none => return .error "identity envelope declares invalid argon2 params"
      | some key =>
        let nonce ← Checked.array nonceLen nonce
        match aeadDecrypt key nonce.toList ciphertext with
        | some plaintext => return .ok plaintext
        | none => return .error "wrong passphrase or tampered encrypted identity file"

end AtRest.Checked

end Canopee
