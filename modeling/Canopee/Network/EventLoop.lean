import Canopee.Edge.Registry
import Canopee.Network.Message
import Canopee.Runtime.Network
import Canopee.Runtime.Pairing
import Mathlib.Data.Finset.Basic
import Mathlib.Data.List.AList

/-!
This module contains the event loop of the network manager: the map of connected peers, the topics
it is subscribed to and the tables of pending requests, which the commands of the node fill and the
events of the swarm empty.
-/

namespace Canopee

structure Peer where
  peerId : PeerId
  identity : Option IdentityId
  username : Option String
  displayName : Option String
  addresses : List String
deriving DecidableEq

def Peer.new (peerId : PeerId) : Peer where
  peerId := peerId
  identity := none
  username := none
  displayName := none
  addresses := []

/--
The sender of a oneshot channel, on which a caller waits for one reply.
-/
abbrev Ticket := Nat

inductive Reply where
  | providers (providers : List PeerId)
  | putRecord (result : Except String Unit)
  | getRecord (result : Except String (Option Bytes))
  | object (result : Except String ExportBundle)
  | replicated (result : Except String Unit)
  | pairing (result : Except String String)
  | registration (result : Except String ServeRegistrationResponse)
  | serve (result : Except String ServeResponse)
  | peers (peers : List Peer)
  | subscribed (result : Except String Unit)
  | published (result : Except String Unit)

inductive Command where
  | findProviders (objectId : ObjectId) (reply : Ticket)
  | putRecord (key value : Bytes) (reply : Ticket)
  | getRecord (key : Bytes) (reply : Ticket)
  | getObject (peer : PeerId) (objectId : ObjectId) (reply : Ticket)
  | replicateObject (peer : Option PeerId) (bundle : ExportBundle) (reply : Ticket)
  | sendPairing (peer : PeerId) (request : CanopeePairingRequest) (reply : Ticket)
  | sendServeRegistration (edge : PeerId) (registration : ServeRegistration) (reply : Ticket)
  | sendServeRequest (peer : PeerId) (request : ServeRequest) (reply : Ticket)
  | listPeers (reply : Ticket)
  | setPeerMeta (peer : PeerId) (identity : Option IdentityId)
    (username displayName : Option String)
  | subscribe (topic : String) (reply : Ticket)
  | unsubscribe (topic : String)
  | publish (topic : String) (data : Bytes) (reply : Ticket)

/--
What the swarm and the hash map answer while a command is handled.
-/
structure Answer where
  -- the ids of the queries and requests that the command starts, in order
  ids : Nat → Nat
  -- why the record store does not take a record
  refusal : Option String
  -- what gossipsub says to a subscription or a message
  gossip : Except String Unit
  -- a hash map with these keys, iterated
  iteration : List PeerId → List PeerId
  iteration_perm : ∀ keys, (iteration keys).Perm keys

inductive GetProvidersOk where
  | foundProviders (providers : List PeerId)
  | finishedWithNoAdditionalRecord

def GetProvidersOk.providers : GetProvidersOk → List PeerId
  | foundProviders providers => providers
  | finishedWithNoAdditionalRecord => []

inductive GetRecordOk where
  | foundRecord (value : Bytes)
  | finishedWithNoAdditionalRecord

inductive GetRecordError where
  | notFound
  | other (text : String)

/--
The events that the loop has an arm for, other than the requests of peers. An event of a query or of
a request carries the id that the swarm gave to it.
-/
inductive SwarmEvent where
  | connectionEstablished (peer : PeerId) (connection : Nat)
  | connectionClosed (peer : PeerId) (connection : Nat)
  | identifyReceived (peer : PeerId) (listenAddrs : List String)
  | getProviders (id : Nat) (result : Except String GetProvidersOk)
  | putRecord (id : Nat) (result : Except String Unit)
  | getRecord (id : Nat) (result : Except GetRecordError GetRecordOk)
  | exchange (id : Nat) (result : Except String ObjectResponse)
  | pairing (id : Nat) (result : Except String CanopeePairingResponse)
  | serve (id : Nat) (result : Except String ServeResponse)
  | serveRegistry (id : Nat) (result : Except String ServeRegistrationResponse)

/--
The tables of pending requests.
-/
inductive Table where
  | getProviders
  | putRecord
  | getRecord
  | getObject
  | replicate
  | pairingRequest
  | serveRegistration
  | serveRequest
deriving DecidableEq

/--
The task that waits for the verdicts of the peers that an object is replicated to.
-/
structure Gather where
  reply : Ticket
  -- the requests by target, with the verdicts that have arrived
  requests : List (Nat × Option (Except String Unit))

namespace Gather

def receive (id : Nat) (verdict : Except String Unit) (task : Gather) : Gather where
  reply := task.reply
  requests := task.requests.map fun (i, v) => if i = id then (i, some verdict) else (i, v)

/--
What the task replies once it has all verdicts.
-/
def outcome (task : Gather) : Option Reply :=
  (task.requests.mapM Prod.snd).map fun verdicts => .replicated (Runtime.replicateOutcome verdicts)

end Gather

structure EventLoop where
  localPeer : PeerId
  peers : AList fun _ : PeerId => Peer
  -- for `replicate`, by request, the task that waits for the verdict
  pending : Table → AList fun _ : Nat => Ticket
  gathers : List Gather
  -- what the swarm is subscribed to
  topics : Finset String
  -- the replies so far, the latest first
  sent : List (Ticket × Reply)

namespace EventLoop

def start (localPeer : PeerId) : EventLoop where
  localPeer := localPeer
  peers := ∅
  pending _ := ∅
  gathers := []
  topics := ∅
  sent := []

def send (reply : Ticket) (value : Reply) (s : EventLoop) : EventLoop :=
  { s with sent := (reply, value) :: s.sent }

def insertPending (t : Table) (id : Nat) (reply : Ticket) (s : EventLoop) : EventLoop :=
  { s with pending := Function.update s.pending t ((s.pending t).insert id reply) }

def removePending (t : Table) (id : Nat) (s : EventLoop) : EventLoop :=
  { s with pending := Function.update s.pending t ((s.pending t).erase id) }

section Commands

def replicateTo (answer : Answer) (targets : List PeerId) (reply : Ticket) (s : EventLoop) :
    EventLoop :=
  if targets.isEmpty then
    s.send reply (.replicated (.ok ()))
  else
    let ids := (List.range targets.length).map answer.ids
    let s := ids.foldl (fun s id => s.insertPending .replicate id reply) s
    { s with gathers := ⟨reply, ids.map (·, none)⟩ :: s.gathers }

/--
The metadata of a peer that is still connected.
-/
def setPeerMeta (peer : PeerId) (identity : Option IdentityId)
    (username displayName : Option String) (s : EventLoop) : EventLoop :=
  match s.peers.lookup peer with
  | none => s
  | some old =>
    let new := { old with
      identity := identity.or old.identity
      username := username.or old.username
      displayName := displayName.or old.displayName }
    { s with peers := s.peers.insert peer new }

/--
`handle_command`
-/
def handleCommand (answer : Answer) (command : Command) (s : EventLoop) : EventLoop :=
  match command with
  | .findProviders _ reply => s.insertPending .getProviders (answer.ids 0) reply
  | .putRecord _ _ reply =>
    match answer.refusal with
    | none => s.insertPending .putRecord (answer.ids 0) reply
    | some e => s.send reply (.putRecord (.error ("Failed to put record: " ++ e)))
  | .getRecord _ reply => s.insertPending .getRecord (answer.ids 0) reply
  | .getObject _ _ reply => s.insertPending .getObject (answer.ids 0) reply
  | .replicateObject peer _ reply =>
    match peer with
    | some peer =>
      if peer ∈ s.peers then
        s.replicateTo answer [peer] reply
      else
        s.send reply (.replicated (.error ("peer " ++ peer.base58 ++ " is not connected")))
    | none => s.replicateTo answer (answer.iteration s.peers.keys) reply
  | .sendPairing _ _ reply => s.insertPending .pairingRequest (answer.ids 0) reply
  | .sendServeRegistration _ _ reply => s.insertPending .serveRegistration (answer.ids 0) reply
  | .sendServeRequest _ _ reply => s.insertPending .serveRequest (answer.ids 0) reply
  | .listPeers reply => s.send reply (.peers (s.peers.entries.map Sigma.snd))
  | .setPeerMeta peer identity username displayName =>
    s.setPeerMeta peer identity username displayName
  | .subscribe topic reply =>
    match answer.gossip with
    | .ok () => { s with topics := insert topic s.topics }.send reply (.subscribed (.ok ()))
    | .error e => s.send reply (.subscribed (.error ("Failed to subscribe: " ++ e)))
  | .unsubscribe topic => { s with topics := s.topics.erase topic }
  | .publish _ _ reply =>
    s.send reply (.published (answer.gossip.mapError fun e => "Failed to publish: " ++ e))

end Commands

section Events

/--
Take the caller that waits for the query or request out of its table and send it `value`.
-/
def settle (t : Table) (id : Nat) (value : Reply) (s : EventLoop) : EventLoop :=
  match (s.pending t).lookup id with
  | none => s
  | some reply => (s.removePending t id).send reply value

/--
The verdict on one target of a replication: the task that waits for the last one replies and ends.
-/
def settleReplicate (id : Nat) (verdict : Except String Unit) (s : EventLoop) : EventLoop :=
  match (s.pending .replicate).lookup id with
  | none => s
  | some reply =>
    let s := s.removePending .replicate id
    match s.gathers.find? (·.reply = reply) with
    | none => s
    | some task =>
      let task := task.receive id verdict
      let others := s.gathers.filter (·.reply ≠ reply)
      match task.outcome with
      | some value => { s with gathers := others }.send reply value
      | none => { s with gathers := task :: others }

def pairingOutcome : Except String CanopeePairingResponse → Except String String
  | .ok (.accepted message) => .ok message
  | .ok (.error e) => .error ("Pairing refused by remote: " ++ e)
  | .error e => .error ("Pairing request failed: " ++ e)

def getRecordOutcome : Except GetRecordError GetRecordOk → Except String (Option Bytes)
  | .ok (.foundRecord value) => .ok (some value)
  | .ok .finishedWithNoAdditionalRecord => .ok none
  | .error .notFound => .ok none
  | .error (.other e) => .error ("Failed to get record: " ++ e)

/--
`handle_swarm_event`
-/
def handleSwarmEvent (event : SwarmEvent) (s : EventLoop) : EventLoop :=
  match event with
  | .connectionEstablished peer _ =>
    if peer = s.localPeer then
      s
    else if peer ∈ s.peers then
      s
    else
      { s with peers := s.peers.insert peer (.new peer) }
  | .connectionClosed peer _ => { s with peers := s.peers.erase peer }
  | .identifyReceived peer listenAddrs =>
    if peer = s.localPeer then
      s
    else
      let old := (s.peers.lookup peer).getD (.new peer)
      { s with peers := s.peers.insert peer { old with addresses := listenAddrs } }
  | .getProviders id (.ok result) => s.settle .getProviders id (.providers result.providers)
  -- no arm matches a failed query, so that its event falls through to `_ => {}`
  | .getProviders _ (.error _) => s
  | .putRecord id result =>
    s.settle .putRecord id (.putRecord (result.mapError fun e => "Failed to put record: " ++ e))
  | .getRecord id result => s.settle .getRecord id (.getRecord (getRecordOutcome result))
  | .exchange id result =>
    -- the two kinds of exchange requests share their ids
    if id ∈ s.pending .replicate then
      s.settleReplicate id (Runtime.storeOutcome result)
    else
      s.settle .getObject id (.object (Runtime.objectOutcome result))
  | .pairing id result => s.settle .pairingRequest id (.pairing (pairingOutcome result))
  | .serve id result =>
    s.settle .serveRequest id (.serve (result.mapError fun e => "Serve request failed: " ++ e))
  | .serveRegistry id result =>
    s.settle .serveRegistration id
      (.registration (result.mapError fun e => "Serve registration request failed: " ++ e))

end Events

inductive Label where
  | command (answer : Answer) (command : Command)
  | event (event : SwarmEvent)

/--
One round of `run_event_loop`
-/
def step : Label → EventLoop → EventLoop
  | .command answer command, s => s.handleCommand answer command
  | .event event, s => s.handleSwarmEvent event

end EventLoop

end Canopee
