import Canopee.Runtime.Network

/-!
This module contains the object methods of the runtime: storing, sealing, importing, fetching and
reading objects.
-/

namespace Canopee

open Primitives

variable [Primitives]

namespace Runtime

section Shared

/--
`Runtime::announce`
-/
def announce (id : ObjectId) : RunM Unit := do
  insertShared id
  announceProvider id

def markShared (id : ObjectId) : RunM Unit :=
  insertShared id

/--
`id` is served to peers.
-/
def isShared (id : ObjectId) : RunM Bool := do
  let w ← get
  let cached ← isCached id
  pure (decide (id.text ∈ w.shared) || cached)

end Shared

section Fetch

/--
`Runtime::import`
-/
def importBundle (bundle : ExportBundle) : RunM Unit := do
  let w ← get
  if w.storage.existsObject bundle.object.id then
    throw "Object already exists"
  else
    let owned ← isOwned bundle.object
    putVerified bundle.object
    if owned then
      pure ()
    else
      markCached bundle.object.id

/--
Ask `peers` in turn; the first bundle that one of them answers is imported.
-/
def fetchFrom (id : ObjectId) : List PeerId → RunM (Option Object)
  | [] => pure none
  | peer :: peers => do
    match ← Prog.attempt (getObject peer id) with
    | .ok bundle =>
      importBundle bundle
      pure (some bundle.object)
    | .error _ => fetchFrom id peers

/--
`Runtime::fetch_object`: the local store, then the connected peers, then `source`, then the DHT
providers.
-/
def fetchObject (id : ObjectId) (source : Option PeerId) : RunM Object := do
  match ← Prog.attempt (getVerified id) with
  | .ok object => pure object
  | .error _ =>
    let connected ← connectedPeers
    match ← fetchFrom id (connected.filter fun peer => some peer ≠ source) with
    | some object => pure object
    | none =>
      match ← fetchFrom id source.toList with
      | some object => pure object
      | none =>
        let providers ← findProviders id
        match ← fetchFrom id providers with
        | some object => pure object
        | none => throw ("no provider for object " ++ id.text)

end Fetch

section Sealing

/--
`Runtime::is_encrypted`
-/
def isEncrypted (object : Object) : Bool :=
  Envelope.isEnvelope object.payload.data

/--
What `Runtime::open_object` returns to `identity`.
-/
def openWith (identity : Identity) (object : Object) : Except String Object :=
  if !isEncrypted object then
    .ok object
  else
    match Envelope.decryptEnvelope identity object.payload.data with
    | .error e => .error ("decrypting object " ++ object.id.text ++ ": " ++ e.message)
    | .ok plaintext => .ok { object with payload := { object.payload with data := plaintext } }

def openObject (object : Object) : RunM Object := do
  let w ← get
  ofExcept (openWith w.identity object)

/--
`Runtime::seal`
-/
def sealData (data : Bytes) (recipients : List Key32) : RunM Bytes := do
  let w ← get
  let draws ← random
  match Envelope.encryptForRecipients w.identity draws data recipients with
  | .ok sealed => pure sealed
  | .error e => throw ("encrypting object for its recipients failed: " ++ e.message)

/--
The object that `Runtime::reseal` stores.
-/
def resealed (identity : Identity) (object : Object) : Object :=
  { object with
    id := ObjectId.fromPayload object.payload
    signature := identity.sign (ObjectPayload.codec.serialize object.payload) }

/--
`Object::new` with this node's identity and clock.
-/
def newObject (bytes : Bytes) (objectType : ObjectType) : RunM Object := do
  let time ← now
  let w ← get
  pure (Object.new w.identity time bytes objectType)

def nameObject (id : ObjectId) : Option String → RunM Unit
  | some name => setName id name
  | none => pure ()

/--
`Runtime::put_object_for`
-/
def putObjectFor (data : Bytes) (objectType : ObjectType) (name : Option String)
    (recipients : List Key32) : RunM Object := do
  let w ← get
  let time ← now
  let object := Object.new w.identity time data objectType
  let sealed ← sealData data recipients
  let object := resealed w.identity { object with payload := { object.payload with data := sealed } }
  putVerified object
  nameObject object.id name
  pure object

def putObject (data : Bytes) (objectType : ObjectType) (name : Option String) : RunM Object :=
  putObjectFor data objectType name []

def put (data : Bytes) (name : Option String) : RunM ObjectId := do
  let object ← putObject data .blob name
  pure object.id

/--
`Runtime::put_object_public`
-/
def putObjectPublic (data : Bytes) (objectType : ObjectType) (name : Option String) :
    RunM Object := do
  let object ← newObject data objectType
  putVerified object
  nameObject object.id name
  pure object

end Sealing

section Reading

/--
The local copy of an object, or one from the network.
-/
def localOrFetched (id : ObjectId) : RunM Object := do
  match ← Prog.attempt (getVerified id) with
  | .ok object => pure object
  | .error _ => fetchObject id none

/--
`Runtime::get`
-/
def readObject (id : ObjectId) : RunM Object := do
  let object ← localOrFetched id
  openObject object

/--
The opened payloads of `ids`, one after the other.
-/
def concatData : List ObjectId → RunM Bytes
  | [] => pure []
  | id :: ids => do
    let object ← readObject id
    let rest ← concatData ids
    pure (object.payload.data ++ rest)

/--
`Runtime::concat_objects`
-/
def concatObjects (ids : List ObjectId) (name : Option String) : RunM ObjectId := do
  if ids.isEmpty then
    throw "concat needs at least one object"
  else
    let data ← concatData ids
    let object ← newObject data .blob
    putVerified object
    nameObject object.id name
    announce object.id
    let bundle ← ofExcept object.export
    let _ ← Prog.attempt (replicateObject bundle)
    pure object.id

/--
`Runtime::export`
-/
def exportObject (id : ObjectId) : RunM ExportBundle := do
  let object ← getVerified id
  ofExcept object.export

/--
`Runtime::evict`
-/
def evict (id : ObjectId) : RunM Unit := do
  delete id
  uncache id
  removeShared id
  let _ ← Prog.attempt (unannounce id)
  pure ()

end Reading

end Runtime

end Canopee
