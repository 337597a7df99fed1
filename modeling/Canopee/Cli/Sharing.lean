import Canopee.Cli.FetchApp
import Canopee.Runtime.Devices
import Canopee.Runtime.Sharing

/-!
This module contains how the command line tool passes an object on by a name: `share` publishes a copy
for contacts, `fetch` gets what an owner has shared under a name, and `get` reads it.
-/

namespace Canopee

open Primitives

variable [Primitives]

/--
`Storage::read_name`
-/
def Storage.readName (storage : Storage) (id : ObjectId) : Option String :=
  (storage.names.lookup id.text).filter fun name => name ≠ ""

/--
The object that the file of this name holds.
-/
def Storage.decoded (storage : Storage) (filename : String) : Option Object :=
  (storage.files.lookup filename).bind Object.codec.deserialize

structure ObjectInfo where
  id : ObjectId
  owner : IdentityId
  size : UInt64
  verified : Bool
  name : Option String
  objectType : ObjectType

namespace Runtime

def objectInfo (storage : Storage) (object : Object) : ObjectInfo where
  id := object.id
  owner := object.payload.owner
  size := object.payload.metadata.size
  verified := object.verify
  name := storage.readName object.id
  objectType := object.objectType

/--
`Storage::list_objects`, which leaves out the files that do not decode.
-/
def listObjects : RunM (List ObjectInfo) := do
  let ids ← list
  let w ← get
  pure ((ids.filterMap fun id => w.storage.decoded id.text).map (objectInfo w.storage))

end Runtime

namespace CanopeeClient

/--
`CanopeeClient::list`
-/
def list : RunM (List ObjectInfo) :=
  Runtime.listObjects

/--
`CanopeeClient::set_name`
-/
def setName (id : ObjectId) (name : String) : RunM Unit :=
  Runtime.setName id name

/--
`CanopeeClient::resolve_pointer`
-/
def resolvePointer (owner : IdentityId) (name : String) : RunM (Option AppPointerRecord) :=
  Runtime.resolvePointer owner name

/--
`CanopeeClient::resolve_username`
-/
def resolveUsername (username : String) : RunM (Option IdentityId) :=
  Runtime.resolveOwnerFromUsername username

/--
`CanopeeClient::resolve_owner_device`
-/
def resolveOwnerDevice (owner : IdentityId) : RunM (Option String) := do
  let peerId ← Runtime.resolveDevicePeerId owner
  pure (peerId.map (·.base58))

/--
`CanopeeClient::load_contact_list`
-/
def loadContactList : RunM (Option ContactList) :=
  Runtime.loadContactList

/--
`CanopeeClient::load_home_index`
-/
def loadHomeIndex : RunM (Option HomeIndex) :=
  Runtime.loadHomeIndex

/--
`CanopeeClient::share_object_for`
-/
def shareObjectFor (name : String) (object : ObjectId) (app : Option String)
    (recipients : List Key32) : RunM ObjectId :=
  Runtime.shareObjectFor name object app recipients

end CanopeeClient

namespace Cli

section Objects

def isAsciiHexdigit (c : Char) : Bool :=
  c.isDigit || ('a' ≤ c && c ≤ 'f') || ('A' ≤ c && c ≤ 'F')

/--
`looks_like_id`
-/
def looksLikeId (s : String) : Bool :=
  s.utf8ByteSize = 64 && s.toList.all isAsciiHexdigit

/--
The entries of the home index of that name, which are only looked at when no object has it.
-/
def homeMatches (arg : String) : RunM (List ObjectId) := do
  match ← CanopeeClient.loadHomeIndex with
  | some index => pure ((index.entries.filter fun entry => entry.name = arg).map (·.object))
  | none => pure []

/--
The objects that a name of `resolve_object_arg` may mean.
-/
def objectMatches (arg : String) : RunM (List ObjectId) := do
  let objects ← CanopeeClient.list
  let named := (objects.filter fun object => object.name = some arg).map (·.id)
  if named.isEmpty then homeMatches arg else pure named

/--
`resolve_object_arg`
-/
def resolveObjectArg (arg : String) : RunM (ObjectId × String) :=
  if looksLikeId arg then
    pure (⟨arg⟩, arg)
  else do
    let found ← objectMatches arg
    match found with
    | [] =>
      throw ("no local object named \"" ++ arg ++ "\" (put it first with `canopee put`, then try " ++
        "again — or pass the 64-char id)")
    | [id] => pure (id, arg)
    | _ =>
      throw ("ambiguous: " ++ found.length.repr ++ " local objects are named \"" ++ arg ++
        "\" — pass the 64-char id to disambiguate")

/--
`canopee get --output`: the bytes that it writes.
-/
def get (arg : String) : RunM Bytes := do
  let (id, _) ← resolveObjectArg arg
  let object ← CanopeeClient.get id
  pure object.payload.data

end Objects

section Share

/--
The contact of this name, or else of this peer id.
-/
def contactFor (contacts : List Contact) (arg : String) : Option Contact :=
  (contacts.find? fun contact => contact.name = arg).or
    (contacts.find? fun contact => contact.peerId = arg)

/--
The loop of `recipient_keys`.
-/
def keysFor (contacts : List Contact) : List String → Except String (List Key32)
  | [] => .ok []
  | arg :: wanted =>
    match contactFor contacts arg with
    | some contact => (keysFor contacts wanted).map (contact.dhPublicKey :: ·)
    | none =>
      -- the text of the source escapes the argument
      .error ("no contact matches \"" ++ arg ++ "\". Known contacts: " ++
        if contacts.isEmpty then "none" else ", ".intercalate (contacts.map (·.name)))

/--
`recipient_keys`
-/
def recipientKeys (wanted : List String) : RunM (List Key32) :=
  if wanted.isEmpty then
    pure []
  else do
    match ← CanopeeClient.loadContactList with
    | some list => Runtime.ofExcept (keysFor list.contacts wanted)
    | none =>
      throw ("--to needs contacts, but you have no contact list yet. Add the person with `canopee " ++
        "contact add <name> <peer-id> <dh-key>` first.")

/--
`canopee share`
-/
def share (name : String) (id : Option String) (toArgs : List String) : RunM Unit := do
  let (objectId, _) ← resolveObjectArg (id.getD name)
  let recipients ← recipientKeys toArgs
  let _ ← CanopeeClient.shareObjectFor name objectId (some "cli") recipients

end Share

section Fetch

/--
The peer id in a canonical identity.
-/
def embeddedPeerId (identity : String) : Option String :=
  (Text.stripPrefix "canopee://identity/".toList identity.toList).map String.ofList

/--
The owner that an argument of `resolve_owner_arg` means, unless that is a peer id.
-/
def ownerOf (arg : String) : RunM (Option IdentityId) :=
  match embeddedPeerId arg with
  | some peerId => pure (some ⟨"canopee://identity/" ++ peerId⟩)
  | none => CanopeeClient.resolveUsername arg

/--
`resolve_owner_arg`: the owner and the peer to dial.
-/
def resolveOwnerArg (arg : String) : RunM (IdentityId × String) := do
  let arg := String.ofList (Text.trimBy isWhitespace arg.toList)
  if "12D3KooW".toList.isPrefixOf arg.toList then
    pure (⟨"canopee://identity/" ++ arg⟩, arg)
  else
    match ← ownerOf arg with
    | none =>
      throw ("\"" ++ arg ++ "\" is not a valid peer id, and no username \"" ++ arg ++
        "\" is claimed (check with `canopee username lookup " ++ arg ++ "`)")
    | some owner =>
      match ← CanopeeClient.resolveOwnerDevice owner with
      | some device => pure (owner, device)
      | none =>
        match embeddedPeerId owner.text with
        | some peerId => pure (owner, peerId)
        | none => throw ("cannot resolve \"" ++ arg ++ "\" to a dialable peer")

/--
`resolve_peer_arg`
-/
def resolvePeerArg (arg : String) : RunM String := do
  let (_, peerId) ← resolveOwnerArg arg
  pure peerId

/--
`import_idempotent`
-/
def importIdempotent (bundle : ExportBundle) : RunM Unit := do
  match ← Prog.attempt (CanopeeClient.importObject bundle) with
  | .ok _ => pure ()
  | .error e =>
    if Text.contains "already exists".toList e.toList then
      pure ()
    else
      throw e

/--
`canopee fetch` of an id
-/
def fetchById (peer : String) (id : ObjectId) : RunM ObjectId := do
  let peerId ← resolvePeerArg peer
  let bundle ← CanopeeClient.fetchObject peerId id
  importIdempotent bundle
  pure id

/--
`canopee fetch` of a name, once the owner is known
-/
def fetchShared (peer name : String) (owner : IdentityId) (device : String) : RunM ObjectId := do
  match ← CanopeeClient.resolvePointer owner ("entry:" ++ name) with
  | none => throw ("\"" ++ peer ++ "\" has not shared anything named \"" ++ name ++ "\"")
  | some record =>
    let bundle ← CanopeeClient.fetchObject device record.manifest
    importIdempotent bundle
    CanopeeClient.setName record.manifest name
    pure record.manifest

/--
`canopee fetch`
-/
def fetch (peer id : String) : RunM ObjectId := do
  if looksLikeId id then
    fetchById peer ⟨id⟩
  else
    let (owner, device) ← resolveOwnerArg peer
    fetchShared peer id owner device

end Fetch

end Cli

end Canopee
