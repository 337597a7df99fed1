import Canopee.Identity.Basic

/-!
This module contains the envelope around encrypted payloads: one content key for the payload and one
wrapped copy of that key for each recipient.
-/

namespace Canopee

open Primitives

variable [Primitives]

namespace Envelope

def magic : Bytes := Codec.utf8 "CNP1"
def version : UInt8 := 1
def saltLen : Nat := 8
def nonceLen : Nat := 24
def keyLen : Nat := 32
def wrappedKeyLen : Nat := 48
def perRecipientLen : Nat := keyLen + nonceLen + wrappedKeyLen
def headerLen : Nat := 4 + 1 + 1 + 2 + saltLen + nonceLen
def wrapInfo : Bytes := Codec.utf8 "canopee/object-wrap/v1"

/--
`bytes` is an envelope rather than legacy cleartext.
-/
def isEnvelope (bytes : Bytes) : Bool :=
  decide (headerLen < bytes.length) && bytes.take 4 == magic

inductive EnvelopeError where
  | notEncrypted
  | unsupportedVersion (version : UInt8)
  | malformed (why : String)
  | noMatchingRecipient
  | decryptFailed
  deriving DecidableEq, Repr

def EnvelopeError.message : EnvelopeError → String
  | notEncrypted => "this object is not encrypted"
  | unsupportedVersion v => "unsupported envelope version " ++ v.toNat.repr
  | malformed why => "the encrypted object is malformed: " ++ why
  | noMatchingRecipient => "no recipient key in this envelope matches this identity"
  | decryptFailed => "decryption failed: the object is corrupt or was encrypted to someone else"

def deriveWrapKey (shared : Key32) (salt : Bytes) (epk recipientPub : Key32) : Key32 :=
  hkdf shared.toList salt (wrapInfo ++ epk.toList ++ recipientPub.toList)

/--
The operating system's random bytes, by the number of the draw.
-/
abbrev Random := Nat → (n : Nat) → List.Vector UInt8 n

/--
The recipients of an envelope: the identity itself, then the others without repetition.
-/
def recipientPubs (self : Key32) (alsoFor : List Key32) : List Key32 :=
  alsoFor.foldl (fun pubs pub => if pub ∈ pubs then pubs else pubs ++ [pub]) [self]

def wrapFor (random : Random) (draw : Nat) (salt : Bytes) (contentKey recipientPub : Key32) :
    Except EnvelopeError Bytes :=
  let ephemeralSecret := random draw keyLen
  let epk := dhPublicOf ephemeralSecret
  let shared := diffieHellman ephemeralSecret recipientPub
  let wrapKey := deriveWrapKey shared salt epk recipientPub
  let wrapNonce := (random (draw + 1) nonceLen).toList
  match aeadEncrypt wrapKey wrapNonce contentKey.toList with
  | some wrapped => .ok (epk.toList ++ wrapNonce ++ wrapped)
  | none => .error (.malformed "content key wrap failed")

def wrapAll (random : Random) (salt : Bytes) (contentKey : Key32) :
    Nat → List Key32 → Except EnvelopeError Bytes
  | _, [] => .ok []
  | draw, pub :: pubs =>
    match wrapFor random draw salt contentKey pub with
    | .error e => .error e
    | .ok wrapped => (wrapAll random salt contentKey (draw + 2) pubs).map (wrapped ++ ·)

def encryptForRecipients (identity : Identity) (random : Random) (plaintext : Bytes)
    (alsoFor : List Key32) : Except EnvelopeError Bytes :=
  let pubs := recipientPubs identity.dhPublicKey alsoFor
  let contentKey := random 0 keyLen
  let salt := (random 1 saltLen).toList
  let contentNonce := (random 2 nonceLen).toList
  match aeadEncrypt contentKey contentNonce plaintext with
  | none => .error (.malformed "content encryption failed")
  | some ciphertext =>
    match wrapAll random salt contentKey 3 pubs with
    | .error e => .error e
    | .ok wraps =>
      .ok (magic ++ [version, 0] ++ Codec.leBytes 2 pubs.length ++ salt ++ contentNonce ++ wraps ++
        ciphertext)

def slice (bytes : Bytes) (start stop : Nat) : Bytes :=
  (bytes.take stop).drop start

def key32? (bytes : Bytes) : Option Key32 :=
  if h : bytes.length = 32 then some ⟨bytes, h⟩ else none

/--
The content key wrapped at `base`, when it is wrapped for `identity`.
-/
def unwrapAt (identity : Identity) (bytes salt : Bytes) (base : Nat) : Option Key32 :=
  match key32? (slice bytes base (base + keyLen)) with
  | none => none
  | some epk =>
    if epk.toList = List.replicate 32 0 then
      none
    else
      let wrapNonce := slice bytes (base + keyLen) (base + keyLen + nonceLen)
      let wrapped := slice bytes (base + keyLen + nonceLen) (base + perRecipientLen)
      let shared := diffieHellman identity.dhSecret epk
      let wrapKey := deriveWrapKey shared salt epk identity.dhPublicKey
      (aeadDecrypt wrapKey wrapNonce wrapped).bind key32?

/--
The first recipient block from `base` on, of `count` of them, that opens.
-/
def findContentKey (identity : Identity) (bytes salt : Bytes) : Nat → Nat → Option Key32
  | _, 0 => none
  | base, count + 1 =>
    match unwrapAt identity bytes salt base with
    | some key => some key
    | none => findContentKey identity bytes salt (base + perRecipientLen) count

def decryptEnvelope (identity : Identity) (bytes : Bytes) : Except EnvelopeError Bytes :=
  if !isEnvelope bytes then
    .error .notEncrypted
  else if bytes.getD 4 0 != version then
    .error (.unsupportedVersion (bytes.getD 4 0))
  else
    let count := Codec.ofLeBytes (slice bytes 6 8)
    if count = 0 then
      .error (.malformed "envelope has no recipients")
    else
      let salt := slice bytes 8 (8 + saltLen)
      let contentNonce := slice bytes (8 + saltLen) headerLen
      let recipientsEnd := headerLen + count * perRecipientLen
      if bytes.length < recipientsEnd then
        .error (.malformed "envelope is truncated")
      else
        match findContentKey identity bytes salt headerLen count with
        | none => .error .noMatchingRecipient
        | some contentKey =>
          match aeadDecrypt contentKey contentNonce (bytes.drop recipientsEnd) with
          | some plaintext => .ok plaintext
          | none => .error .decryptFailed

end Envelope

end Canopee
