import Canopee.Identity.Envelope

/-!
This module contains the password protected forms of a signing key: the key file and the payload
that pairing sends.
-/

namespace Canopee

open Primitives

variable [Primitives]

namespace AtRest

def encryptedMagic : Bytes := Codec.utf8 "canopee-v1-ek"
def encryptedVersion : Bytes := Codec.utf8 "argon2id/xchacha20"
def saltLen : Nat := 16
def nonceLen : Nat := 24

def headerLen : Nat :=
  encryptedMagic.length + encryptedVersion.length + 3 * 4 + saltLen + nonceLen

/--
`Params::default()`: memory, time and parallelism.
-/
def defaultParams : Nat × Nat × Nat := (19456, 2, 1)

def deriveKey (params : Nat × Nat × Nat) (passphrase salt : Bytes) : Option Key32 :=
  argon2 params.1 params.2.1 params.2.2 passphrase salt

def isEncryptedEnvelope (bytes : Bytes) : Bool :=
  decide (headerLen < bytes.length) && bytes.take encryptedMagic.length == encryptedMagic

def encryptKeyEnvelope (random : Envelope.Random) (plaintext passphrase : Bytes) :
    Except String Bytes :=
  let salt := (random 0 saltLen).toList
  let nonce := (random 1 nonceLen).toList
  match (deriveKey defaultParams passphrase salt).bind fun key => aeadEncrypt key nonce plaintext with
  | none => .error "encryption failed"
  | some ciphertext =>
    .ok (encryptedMagic ++ encryptedVersion ++ Codec.leBytes 4 defaultParams.1 ++
      Codec.leBytes 4 defaultParams.2.1 ++ Codec.leBytes 4 defaultParams.2.2 ++ salt ++ nonce ++
      ciphertext)

def decryptKeyEnvelope (bytes passphrase : Bytes) : Except String Bytes :=
  if !isEncryptedEnvelope bytes then
    .error "not an encrypted-at-rest identity envelope"
  else
    let versionEnd := encryptedMagic.length + encryptedVersion.length
    if Envelope.slice bytes encryptedMagic.length versionEnd != encryptedVersion then
      .error "unsupported encrypted-at-rest version"
    else
      let cost := fun i => Codec.ofLeBytes
        (Envelope.slice bytes (versionEnd + 4 * i) (versionEnd + 4 * i + 4))
      let off := versionEnd + 12
      let salt := Envelope.slice bytes off (off + saltLen)
      let nonce := Envelope.slice bytes (off + saltLen) (off + saltLen + nonceLen)
      match deriveKey (cost 0, cost 1, cost 2) passphrase salt with
      | none => .error "identity envelope declares invalid argon2 params"
      | some key =>
        match aeadDecrypt key nonce (bytes.drop headerLen) with
        | some plaintext => .ok plaintext
        | none => .error "wrong passphrase or tampered encrypted identity file"

end AtRest

/--
The bytes of a key file, under the same policy as at start: encrypted when there is a passphrase.
-/
def Identity.exportAtRest (identity : Identity) (random : Envelope.Random)
    (passphrase : Option String) : Except String Bytes :=
  match passphrase with
  | some pass => AtRest.encryptKeyEnvelope random identity.exportBytes (Codec.utf8 pass)
  | none => .ok identity.exportBytes

/--
The identity in a key file, encrypted or not.
-/
def Identity.loadAtRest (bytes : Bytes) (passphrase : Option String) : Option Identity :=
  match passphrase with
  | some pass =>
    if AtRest.isEncryptedEnvelope bytes then
      (AtRest.decryptKeyEnvelope bytes (Codec.utf8 pass)).toOption.bind importBytes
    else
      importBytes bytes
  | none => importBytes bytes

/--
`Identity::export_encrypted`
-/
def Identity.exportEncrypted (identity : Identity) (random : Envelope.Random) (passphrase : String) :
    Except String Bytes :=
  AtRest.encryptKeyEnvelope random identity.exportBytes (Codec.utf8 passphrase)

/--
`Identity::load`, from the bytes of the file.
-/
def Identity.load (bytes : Bytes) : Except String Identity :=
  match importBytes bytes with
  | some identity => .ok identity
  | none => .error "invalid keypair file"

/--
`Identity::load_encrypted`, from the bytes of the file and from those it has when `load` reads it
again.
-/
def Identity.loadEncrypted (bytes again : Bytes) (passphrase : String) :
    Except String (Identity × Bool) :=
  if AtRest.isEncryptedEnvelope bytes then
    match AtRest.decryptKeyEnvelope bytes (Codec.utf8 passphrase) with
    | .error e => .error e
    | .ok plaintext =>
      match importBytes plaintext with
      | some identity => .ok (identity, true)
      | none => .error "decrypted identity is not a valid keypair"
  else
    (load again).map fun identity => (identity, false)

namespace Pairing

def nonceLen : Nat := 24

def deriveSessionKey (code : String) (salt : Bytes) : Option Key32 :=
  AtRest.deriveKey AtRest.defaultParams (Codec.utf8 code) salt

def encryptPayload (random : Envelope.Random) (clear : Bytes) (key : Key32) : Except String Bytes :=
  let nonce := (random 0 nonceLen).toList
  match aeadEncrypt key nonce clear with
  | some ciphertext => .ok (nonce ++ ciphertext)
  | none => .error "pairing payload encryption failed"

def decryptPayload (framed : Bytes) (key : Key32) : Except String Bytes :=
  if framed.length < nonceLen then
    .error "pairing payload is truncated"
  else
    match aeadDecrypt key (framed.take nonceLen) (framed.drop nonceLen) with
    | some clear => .ok clear
    | none => .error "wrong pairing code or tampered pairing payload"

end Pairing

end Canopee
