import Canopee.Runtime.Basic

/-!
This module contains the commands that a node gives to its network manager. While a command waits
for its outcome the event loop handles the requests of peers.
-/

namespace Canopee

variable [Primitives]

namespace Runtime

/--
Wait for the network: the requests that arrive meanwhile are handled first.
-/
def settle : RunM Nat := do
  let t ← nextTick
  let env ← read
  handleAll (env.inbound t)
  pure t

/--
`NetworkManager::peers`
-/
def connectedPeers : RunM (List PeerId) := do
  let t ← settle
  let env ← read
  ofExcept (env.peers t)

/--
The outcome of a `GetObject` request, from the response that the event loop matched to it.
-/
def objectOutcome : Except String ObjectResponse → Except String ExportBundle
  | .ok (.object bundle) => .ok bundle
  | .ok .notFound => .error "Object not found"
  | .ok .stored => .error "peer answered a GetObject request with a Store response"
  | .ok (.storeFailed _) => .error "peer answered a GetObject request with a Store response"
  | .error e => .error ("Request failed: " ++ e)

/--
`NetworkManager::get_object`
-/
def getObject (peer : PeerId) (id : ObjectId) : RunM ExportBundle := do
  let t ← settle
  let env ← read
  let answer := objectOutcome (env.exchange t peer (.getObject id))
  modify (log (.asked peer id answer))
  ofExcept answer

/--
`NetworkManager::find_providers`
-/
def findProviders (id : ObjectId) : RunM (List PeerId) := do
  let t ← settle
  let env ← read
  ofExcept (env.providers t id)

/--
`NetworkManager::get_record`
-/
def getRecord (key : Bytes) : RunM (Option Bytes) := do
  let t ← settle
  let env ← read
  ofExcept (env.record t key)

/--
`NetworkManager::put_record`, whose outcome its callers only log.
-/
def putRecord (key value : Bytes) : RunM Unit :=
  modify (log (.putRecord key value))

/--
`NetworkManager::announce`, which hands the command over and does not wait for its outcome.
-/
def announceProvider (id : ObjectId) : RunM Unit := do
  let t ← nextTick
  let env ← read
  if env.accepts t then
    modify (log (.announced id))
  else
    throw "channel closed"

/--
`NetworkManager::unannounce`
-/
def unannounce (id : ObjectId) : RunM Unit := do
  let t ← nextTick
  let env ← read
  if env.accepts t then
    modify (log (.unannounced id))
  else
    throw "channel closed"

/--
The outcome of a `Store` request.
-/
def storeOutcome : Except String ObjectResponse → Except String Unit
  | .ok .stored => .ok ()
  | .ok (.storeFailed e) => .error ("Pushed object refused by peer: " ++ e)
  | .ok (.object _) => .error "peer answered a Store request with a GetObject response"
  | .ok .notFound => .error "peer answered a Store request with a GetObject response"
  | .error e => .error ("Store request failed: " ++ e)

/--
One stored copy is a success; with none the first failure is the outcome.
-/
def replicateOutcome (verdicts : List (Except String Unit)) : Except String Unit :=
  if verdicts.any (·.toBool) then
    .ok ()
  else
    match verdicts with
    | .error e :: _ => .error e
    | _ => .ok ()

/--
`NetworkManager::replicate_object` to every connected peer.
-/
def replicateObject (bundle : ExportBundle) : RunM Unit := do
  let t ← settle
  let env ← read
  let targets ← ofExcept (env.peers t)
  modify (log (.replicated bundle))
  ofExcept (replicateOutcome
    (targets.map fun peer => storeOutcome (env.exchange t peer (.store bundle))))

end Runtime

end Canopee
