import Canopee.Primitives

/-!
This module contains identities: a person's signing key, the `canopee://identity/<peer-id>` name
derived from it and the check that a signature was made under such a name.
-/

namespace Canopee

open Primitives

variable [Primitives]

structure IdentityId where
  text : String
  deriving DecidableEq, Repr

namespace IdentityId

def codec : Codec IdentityId :=
  Codec.text.iso IdentityId.text IdentityId.mk (by intro id; rfl)

end IdentityId

def identityPrefix : String := "canopee://identity/"

/--
The identity a public key stands for.
-/
def identityIdOf (key : PublicKey) : IdentityId :=
  ⟨identityPrefix ++ (peerIdOf key).base58⟩

structure Identity where
  signingKey : Keypair

namespace Identity

def id (identity : Identity) : IdentityId :=
  identityIdOf (keypairPublic identity.signingKey)

def sign (identity : Identity) (data : Bytes) : Bytes :=
  keypairSign identity.signingKey data

def publicKeyBytes (identity : Identity) : Bytes :=
  encodePublicKey (keypairPublic identity.signingKey)

def dhSecret (identity : Identity) : Key32 :=
  dhSecretOf identity.signingKey

def dhPublicKey (identity : Identity) : Key32 :=
  dhPublicOf identity.dhSecret

def exportBytes (identity : Identity) : Bytes :=
  encodeKeypair identity.signingKey

def importBytes (bytes : Bytes) : Option Identity :=
  (decodeKeypair bytes).map Identity.mk

end Identity

/--
`publicKey` is a key of `owner`.
-/
def derives (publicKey : Bytes) (owner : IdentityId) : Bool :=
  match decodePublicKey publicKey with
  | some key => identityIdOf key == owner
  | none => false

/--
`signature` is one that `publicKey` verifies on `msg`.
-/
def signatureValid (publicKey msg signature : Bytes) : Bool :=
  match decodePublicKey publicKey with
  | some key => verifySignature key msg signature
  | none => false

theorem derives_publicKeyBytes (laws : SignatureLaws) (identity : Identity) :
    derives identity.publicKeyBytes identity.id = true := by
  unfold derives Identity.publicKeyBytes Identity.id
  rw [laws.decode_encode]
  simp

theorem signatureValid_sign (laws : SignatureLaws) (identity : Identity) (msg : Bytes) :
    signatureValid identity.publicKeyBytes msg (identity.sign msg) = true := by
  unfold signatureValid Identity.publicKeyBytes Identity.sign
  rw [laws.decode_encode]
  exact laws.verify_sign identity.signingKey msg

/--
`Option` view of the text up to the first `sep`: what `split(sep).next()` yields.
-/
def beforeFirst (sep : Char) (s : String) : String :=
  String.ofList (s.toList.takeWhile (· != sep))

def stripPrefix (pre s : String) : Option String :=
  if pre.toList.isPrefixOf s.toList then some (String.ofList (s.toList.drop pre.toList.length))
  else none

/--
The peer id embedded in an identity.
-/
def ownerPeerId (owner : IdentityId) : Option PeerId :=
  match stripPrefix identityPrefix owner.text with
  | some rest => parsePeerId (beforeFirst '/' rest)
  | none => none

section Username

/--
The characters of the Unicode `White_Space` property, which `str::trim` removes.
-/
def isWhitespace (c : Char) : Bool :=
  let n := c.toNat
  (9 ≤ n && n ≤ 13) || n == 0x20 || n == 0x85 || n == 0xA0 || n == 0x1680 ||
    (0x2000 ≤ n && n ≤ 0x200A) || n == 0x2028 || n == 0x2029 || n == 0x202F || n == 0x205F ||
    n == 0x3000

def trim (s : String) : String :=
  String.ofList ((s.toList.dropWhile isWhitespace).reverse.dropWhile isWhitespace).reverse

/--
Lowercasing as far as `normalizeUsername` can tell: of the characters beyond ASCII only the Kelvin
sign has a lowercase form that is ASCII as a whole.
-/
def toLowercase (c : Char) : Char :=
  if c.toNat = 0x212A then 'k' else c.toLower

def usernameChar (c : Char) : Bool :=
  ('a' ≤ c && c ≤ 'z') || ('A' ≤ c && c ≤ 'Z') || ('0' ≤ c && c ≤ '9') || c == '_' || c == '-' ||
    c == '.'

def normalizeUsername (username : String) : Except String String :=
  let normalized := String.ofList ((trim username).toList.map toLowercase)
  if normalized.isEmpty then
    .error "username must not be empty"
  else if normalized.toList.any fun c => !usernameChar c then
    .error ("username \"" ++ username ++
      "\" contains invalid characters: only letters, digits, '_', '-', '.' allowed")
  else
    .ok normalized

end Username

end Canopee

namespace Canopee.Transparent

variable (digest : Bytes → Bytes)

def aliceWith : @Identity (withDigest digest) := @Identity.mk (withDigest digest) (1 : UInt8)
def malloryWith : @Identity (withDigest digest) := @Identity.mk (withDigest digest) (2 : UInt8)
def bobWith : @Identity (withDigest digest) := @Identity.mk (withDigest digest) (3 : UInt8)

def alice : Identity := aliceWith id
def bob : Identity := bobWith id

end Canopee.Transparent

namespace Canopee.Compact

open Transparent (aliceWith malloryWith bobWith)

def alice : Identity := aliceWith checksum
def mallory : Identity := malloryWith checksum
def bob : Identity := bobWith checksum

end Canopee.Compact
