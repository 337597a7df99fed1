import Canopee.Lib.Text
import Canopee.Storage.User
import Mathlib.Data.List.Sort

/-!
This module contains capabilities: signed grants of permissions over a resource, and the index in
which an issuer lists its grants and marks them revoked.
-/

namespace Canopee

open Primitives

variable [Primitives]

def RECORD_CAPABILITIES : String := "capabilities"

inductive Permission where
  | read
  | write
  | publish
  deriving DecidableEq, Repr

namespace Permission

def asStr : Permission → String
  | read => "read"
  | write => "write"
  | publish => "publish"

def codec : Codec Permission :=
  Codec.u32.refine (fun | read => 0 | write => 1 | publish => 2)
    (fun n => if n = 0 then some read else if n = 1 then some write else
      if n = 2 then some publish else none)
    (by intro p; cases p <;> rfl)

end Permission

inductive Resource where
  | object (id : ObjectId)
  | sharedName (owner : IdentityId) (name : String)
  | channel (topic : String)
  deriving DecidableEq, Repr

namespace Resource

def canonical : Resource → String
  | object id => "object:" ++ id.text
  | sharedName owner name => "shared:" ++ owner.text ++ ":" ++ name
  | channel topic => "channel:" ++ topic

def parse (s : String) : Except String Resource :=
  match Text.splitOnce ':' s.toList with
  | none => .error "resource must be object:<id> | channel:<topic> | shared:<owner>:<name>"
  | some (kind, rest) =>
    if kind = "object".toList then
      .ok (object ⟨String.ofList rest⟩)
    else if kind = "channel".toList then
      .ok (channel (String.ofList rest))
    else if kind = "shared".toList then
      match Text.splitOnce ':' rest with
      | none => .error "shared resource must be shared:<owner>:<name>"
      | some (owner, name) => .ok (sharedName ⟨String.ofList owner⟩ (String.ofList name))
    else
      .error ("unknown resource kind \"" ++ String.ofList kind ++ "\"")

/--
The variant's tag, then its fields.
-/
def codec : Codec Resource where
  put
    | object id => Codec.u32.put 0 ++ ObjectId.codec.put id
    | sharedName owner name => Codec.u32.put 1 ++ (IdentityId.codec.pair Codec.text).put (owner, name)
    | channel topic => Codec.u32.put 2 ++ Codec.text.put topic
  get input :=
    match Codec.u32.get input with
    | none => none
    | some (tag, rest) =>
      if tag = 0 then
        (ObjectId.codec.get rest).map fun (id, rest) => (object id, rest)
      else if tag = 1 then
        ((IdentityId.codec.pair Codec.text).get rest).map fun (p, rest) =>
          (sharedName p.1 p.2, rest)
      else if tag = 2 then
        (Codec.text.get rest).map fun (topic, rest) => (channel topic, rest)
      else
        none
  get_put := by
    intro r rest
    cases r with
    | object id => simp [List.append_assoc, Codec.get_put]
    | sharedName owner name =>
      simp only [List.append_assoc, Codec.get_put]
      simp
    | channel topic =>
      simp only [List.append_assoc, Codec.get_put]
      simp

end Resource

structure CapabilityId where
  text : String
  deriving DecidableEq, Repr

def CapabilityId.codec : Codec CapabilityId :=
  Codec.text.iso CapabilityId.text CapabilityId.mk (by intro id; rfl)

structure Capability where
  id : CapabilityId
  issuer : IdentityId
  subject : IdentityId
  resource : Resource
  permissions : List Permission
  issuedAt : UInt64
  expiresAt : Option UInt64
  publicKey : Bytes
  signature : Bytes
  deriving DecidableEq

namespace Capability

def codec : Codec Capability :=
  (CapabilityId.codec.pair (IdentityId.codec.pair (IdentityId.codec.pair (Resource.codec.pair
    (Permission.codec.list.pair (Codec.u64.pair (Codec.u64.option.pair
      (Codec.bytes.pair Codec.bytes)))))))).iso
    (fun c => (c.id, c.issuer, c.subject, c.resource, c.permissions, c.issuedAt, c.expiresAt,
      c.publicKey, c.signature))
    (fun (id, issuer, subject, resource, permissions, issuedAt, expiresAt, publicKey, signature) =>
      ⟨id, issuer, subject, resource, permissions, issuedAt, expiresAt, publicKey, signature⟩)
    (by intro c; rfl)

def signingFields (subject : IdentityId) (resource : Resource) (permissions : List Permission)
    (issuedAt : UInt64) (expiresAt : Option UInt64) : String :=
  let perms := (permissions.map Permission.asStr).insertionSort (· ≤ ·)
  subject.text ++ ":" ++ resource.canonical ++ ":" ++ ",".intercalate perms ++ ":" ++
    issuedAt.toNat.repr ++ ":" ++ (expiresAt.map fun t => t.toNat.repr).getD ""

def signingBytes (id fields : String) : Bytes :=
  Codec.utf8 ("canopee/capability/v1:" ++ id ++ ":" ++ fields)

/--
`now_ts()`
-/
def nowTs (now : Int) : UInt64 :=
  asU64 (max now 0)

/--
The id that `Capability::issue` gives to a grant.
-/
def idOf (subject : IdentityId) (resource : Resource) (permissions : List Permission)
    (issuedAt : UInt64) (expiresAt : Option UInt64) : CapabilityId :=
  ⟨digestHex (Codec.utf8 (signingFields subject resource permissions issuedAt expiresAt))⟩

/--
`Capability::issue` at unix time `now`.
-/
def issue (issuer : Identity) (now : Int) (subject : IdentityId) (resource : Resource)
    (permissions : List Permission) (expiresAt : Option UInt64) : Capability :=
  let issuedAt := nowTs now
  let fields := signingFields subject resource permissions issuedAt expiresAt
  let id := idOf subject resource permissions issuedAt expiresAt
  {
    id := id
    issuer := issuer.id
    subject := subject
    resource := resource
    permissions := permissions
    issuedAt := issuedAt
    expiresAt := expiresAt
    publicKey := issuer.publicKeyBytes
    signature := issuer.sign (signingBytes id.text fields)
  }

def fields (capability : Capability) : String :=
  signingFields capability.subject capability.resource capability.permissions capability.issuedAt
    capability.expiresAt

def verify (capability : Capability) : Bool :=
  if !derives capability.publicKey capability.issuer then
    false
  else if capability.id.text != digestHex (Codec.utf8 capability.fields) then
    false
  else
    signatureValid capability.publicKey (signingBytes capability.id.text capability.fields)
      capability.signature

def isActiveAt (capability : Capability) (now : UInt64) : Bool :=
  decide (capability.issuedAt ≤ now) &&
    match capability.expiresAt with
    | some t => decide (now ≤ t)
    | none => true

def permits (capability : Capability) (subject : IdentityId) (permission : Permission)
    (resource : Resource) (now : UInt64) : Bool :=
  subject == capability.subject && capability.resource == resource &&
    capability.permissions.contains permission && capability.verify && capability.isActiveAt now

def toObject : Capability → Identity → Int → Object :=
  Canopee.toObject codec .capability

end Capability

structure CapabilityEntry where
  capability : Capability
  revoked : Bool

def CapabilityEntry.codec : Codec CapabilityEntry :=
  (Capability.codec.pair Codec.bool).iso (fun e => (e.capability, e.revoked))
    (fun (capability, revoked) => ⟨capability, revoked⟩) (by intro e; rfl)

structure CapabilityIndex where
  entries : List CapabilityEntry
  version : UInt64

namespace CapabilityIndex

def codec : Codec CapabilityIndex :=
  (CapabilityEntry.codec.list.pair Codec.u64).iso (fun i => (i.entries, i.version))
    (fun (entries, version) => ⟨entries, version⟩) (by intro i; rfl)

def toObject : CapabilityIndex → Identity → Int → Object :=
  Canopee.toObject codec .capabilityIndex

def empty : CapabilityIndex where
  entries := []
  version := 0

def byId (index : CapabilityIndex) (id : CapabilityId) : Option CapabilityEntry :=
  index.entries.find? (·.capability.id == id)

def findActive (index : CapabilityIndex) (subject : IdentityId) (resource : Resource)
    (permission : Permission) (now : UInt64) : Option Capability :=
  index.entries.findSome? fun entry =>
    if !entry.revoked && entry.capability.permits subject permission resource now then
      some entry.capability
    else
      none

def grants (index : CapabilityIndex) (subject : IdentityId) (resource : Resource)
    (permission : Permission) (now : UInt64) : Bool :=
  (index.findActive subject resource permission now).isSome

/--
`iter_mut().find(|e| e.capability.id == id)` followed by `entry.revoked = true`; `none` when there
is no such entry.
-/
def revokeFirst (id : CapabilityId) : List CapabilityEntry → Option (List CapabilityEntry)
  | [] => none
  | entry :: entries =>
    if entry.capability.id = id then
      some ({ entry with revoked := true } :: entries)
    else
      (revokeFirst id entries).map (entry :: ·)

end CapabilityIndex

end Canopee
