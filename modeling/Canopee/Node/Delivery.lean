import Canopee.Lib.Broadcast
import Canopee.Node.Subscriptions
import Canopee.Sdk.Frames

/-!
This module contains what the connections that subscribe to a topic are sent: each has a receiver of
the one channel on which the event loop hands on the messages of all topics.
-/

namespace Canopee

/--
`PubSubMessage`, as the network hands it on.
-/
structure GossipMessage where
  topic : String
  source : Option PeerId
  data : Bytes

def GossipMessage.response (message : GossipMessage) : SubscriptionResponse :=
  .pubSub ⟨message.topic, message.source.map PeerId.base58, message.data⟩

namespace Delivery

/--
The capacity of the channel.
-/
def CAPACITY : Nat := 256

/--
How far `handle_subscribe` has come: it waits for the network, it has its receiver, it is in its loop,
or it has returned.
-/
inductive Stage where
  | subscribing
  | receiving
  | serving
  | ended
deriving DecidableEq

structure Connection where
  topic : String
  stage : Stage
  receiver : Broadcast GossipMessage CAPACITY
  -- what has been written to the socket
  written : Bytes

namespace Connection

def start (topic : String) : Connection where
  topic := topic
  stage := .subscribing
  receiver := .empty
  written := []

/--
`write_response`; of a write that fails, the bytes up to `cut` have been written.
-/
def write (response : SubscriptionResponse) (cut : Option Nat) (connection : Connection) :
    Connection :=
  let frame := Socket.writeResponse SubscriptionResponse.codec response
  match cut with
  | none => { connection with written := connection.written ++ frame }
  | some n => { connection with written := connection.written ++ frame.take n }

/--
The connection has a receiver.
-/
def listens (connection : Connection) : Bool :=
  connection.stage = .receiving || connection.stage = .serving

end Connection

end Delivery

open Delivery in
structure Delivery where
  loop : EventLoop
  connections : Nat → Option Connection

namespace Delivery

def start (localPeer : PeerId) : Delivery where
  loop := .start localPeer
  connections _ := none

def set (c : Nat) (connection : Connection) (s : Delivery) : Delivery :=
  { s with connections := Function.update s.connections c (some connection) }

/--
`NetworkManager::subscribe` up to the answer of the event loop. When it fails the task writes the error
and returns.
-/
def subscribe (c : Nat) (topic : String) (answer : Answer) (cut : Option Nat) (s : Delivery) :
    Delivery :=
  match s.connections c with
  | some _ => s
  | none =>
    let s := { s with loop := s.loop.handleCommand answer (.subscribe topic c) }
    match answer.gossip with
    | .ok () => s.set c (.start topic)
    | .error e =>
      s.set c { (Connection.start topic).write (.error ("Failed to subscribe: " ++ e)) cut with
        stage := .ended }

/--
The end of `NetworkManager::subscribe`: the task gets its receiver.
-/
def receive (c : Nat) (s : Delivery) : Delivery :=
  match s.connections c with
  | none => s
  | some connection =>
    if connection.stage = .subscribing then
      s.set c { connection with stage := .receiving, receiver := .empty }
    else
      s

/--
The write of `Subscribed`, whose error leaves the task at once.
-/
def acknowledge (c : Nat) (cut : Option Nat) (s : Delivery) : Delivery :=
  match s.connections c with
  | none => s
  | some connection =>
    if connection.stage = .receiving then
      s.set c { connection.write .subscribed cut with
        stage := if cut.isNone then .serving else .ended }
    else
      s

/--
A message of the swarm goes to every receiver.
-/
def publish (message : GossipMessage) (s : Delivery) : Delivery :=
  { s with connections := fun c => (s.connections c).map fun connection =>
      if connection.listens then
        { connection with receiver := connection.receiver.send message }
      else
        connection }

/--
What comes after the loop.
-/
def leave (c : Nat) (connection : Connection) (s : Delivery) : Delivery :=
  { s with loop := s.loop.handleCommand .plain (.unsubscribe connection.topic) }.set c
    { connection with stage := .ended }

/--
The arm of the loop that receives. A receiver that lags ends the loop, and so does a failed write.
-/
def poll (c : Nat) (cut : Option Nat) (s : Delivery) : Delivery :=
  match s.connections c with
  | none => s
  | some connection =>
    if connection.stage = .serving then
      match connection.receiver.recv with
      | (.empty, _) => s
      | (.lagged _, receiver) => s.leave c { connection with receiver := receiver }
      | (.value message, receiver) =>
        let connection := { connection with receiver := receiver }
        if message.topic ≠ connection.topic then
          s.set c connection
        else
          match cut with
          | none => s.set c (connection.write message.response none)
          | some n => s.leave c (connection.write message.response (some n))
    else
      s

/--
The arm of the loop that waits for the shutdown.
-/
def shutdown (c : Nat) (s : Delivery) : Delivery :=
  match s.connections c with
  | none => s
  | some connection => if connection.stage = .serving then s.leave c connection else s

inductive Label where
  | subscribe (c : Nat) (topic : String) (answer : Answer) (cut : Option Nat)
  | receive (c : Nat)
  | acknowledge (c : Nat) (cut : Option Nat)
  | publish (message : GossipMessage)
  | poll (c : Nat) (cut : Option Nat)
  | shutdown (c : Nat)

/--
The tasks and the event loop take turns.
-/
def step : Label → Delivery → Delivery
  | .subscribe c topic answer cut, s => s.subscribe c topic answer cut
  | .receive c, s => s.receive c
  | .acknowledge c cut, s => s.acknowledge c cut
  | .publish message, s => s.publish message
  | .poll c cut, s => s.poll c cut
  | .shutdown c, s => s.shutdown c

end Delivery

end Canopee
