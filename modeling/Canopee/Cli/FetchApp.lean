import Canopee.Cli.Publish
import Canopee.Runtime.AppFiles

/-!
This module contains how the command line tool gets the files of an app that it does not have, through
the client of its node: object by object, from the local store or from a peer.
-/

namespace Canopee

open Primitives

variable [Primitives]

namespace CanopeeClient

/--
`CanopeeClient::get`
-/
def get (id : ObjectId) : RunM Object :=
  Runtime.readObject id

/--
`CanopeeClient::import`
-/
def importObject (bundle : ExportBundle) : RunM Unit :=
  Runtime.importBundle bundle

/--
`CanopeeClient::announce`
-/
def announce (id : ObjectId) : RunM Unit :=
  Runtime.announce id

/--
`CanopeeClient::find_providers`
-/
def findProviders (id : ObjectId) : RunM (List String) := do
  let peerIds ← Runtime.findProviders id
  pure (peerIds.map (·.base58))

/--
`CanopeeClient::fetch_object`
-/
def fetchObject (peerId : String) (id : ObjectId) : RunM ExportBundle :=
  match parsePeerId peerId with
  | some peer => Runtime.getObject peer id
  -- the text of the source goes on with the parser's own
  | none => throw "Invalid peer id: "

end CanopeeClient

namespace Cli

/--
`resolve_providers`
-/
def resolveProviders (id : ObjectId) (peer : Option String) : RunM (List String) := do
  let dhtProviders ← CanopeeClient.findProviders id
  pure (dhtProviders.foldl (fun providers p => if p ∈ providers then providers else providers ++ [p])
    peer.toList)

/--
The loop of `get_or_fetch` over the providers. The first one that answers decides how it ends.
-/
def fetchFromProviders (id : ObjectId) (lastErr : String) : List String → RunM Object
  | [] => throw lastErr
  | peerId :: providers => do
    match ← Prog.attempt (CanopeeClient.fetchObject peerId id) with
    | .ok bundle => do
      CanopeeClient.importObject bundle
      -- a failure to announce is only reported
      let _ ← Prog.attempt (CanopeeClient.announce id)
      CanopeeClient.get id
    | .error e => fetchFromProviders id e providers

/--
`get_or_fetch`
-/
def getOrFetch (id : ObjectId) (peer : Option String) : RunM Object := do
  match ← Prog.attempt (CanopeeClient.get id) with
  | .ok object => pure object
  | .error _ => do
    let providers ← resolveProviders id peer
    if providers.isEmpty then
      throw ("no providers found for " ++ id.text ++ "; try passing --peer")
    else
      fetchFromProviders id "no providers available" providers

/--
The assets of an app. The source fetches them at the same time: to one of these fetches, what the
others store meanwhile is as if peers had pushed it.
-/
def fetchAssets (peer : Option String) : List (String × ObjectId) → RunM (List (String × Bytes))
  | [] => pure []
  | (path, objectId) :: assets => do
    let object ← getOrFetch objectId peer
    let files ← fetchAssets peer assets
    pure ((path, object.payload.data) :: files)

/--
`fetch_app`
-/
def fetchApp (manifestId : ObjectId) (peer : Option String) : RunM (AppManifest × Files) := do
  let manifestObject ← getOrFetch manifestId peer
  let manifest ← Runtime.decodeObject AppManifest.codec manifestObject
  let entrypoint ← getOrFetch manifest.entrypoint peer
  let assets ← Runtime.iterate manifest.assets
  let files ← fetchAssets peer assets
  pure (manifest, Latest.insertAll ((∅ : Files).insert "/" entrypoint.payload.data) files)

end Cli

end Canopee
