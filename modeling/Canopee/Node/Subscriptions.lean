import Canopee.Network.EventLoop

/-!
This module contains the connections to the node that subscribe to a topic: a task for each of them,
and one event loop whose swarm they share.
-/

namespace Canopee

/--
A swarm that has nothing to say.
-/
def Answer.plain : Answer where
  ids i := i
  refusal := none
  gossip := .ok ()
  iteration keys := keys
  iteration_perm keys := .refl keys

/--
`handle_subscribe`, from the answer of the network on.
-/
structure SubscribeTask where
  topic : String
  -- the task has written `Subscribed` and is in its loop
  acknowledged : Bool
  -- the client has not closed its end of the connection
  connected : Bool
deriving DecidableEq

structure Subscriptions where
  loop : EventLoop
  -- by connection
  tasks : AList fun _ : Nat => SubscribeTask

namespace Subscriptions

def start (localPeer : PeerId) : Subscriptions where
  loop := .start localPeer
  tasks := ∅

/--
`NetworkManager::subscribe`; when it fails the task writes the error and returns.
-/
def subscribe (c : Nat) (topic : String) (answer : Answer) (s : Subscriptions) : Subscriptions :=
  if c ∈ s.tasks then
    s
  else
    let loop := s.loop.handleCommand answer (.subscribe topic c)
    match answer.gossip with
    | .error _ => { s with loop := loop }
    | .ok () => { loop := loop, tasks := s.tasks.insert c ⟨topic, false, true⟩ }

/--
`write_response` of `Subscribed`, whose error leaves the task at once.
-/
def acknowledge (c : Nat) (written : Bool) (s : Subscriptions) : Subscriptions :=
  match s.tasks.lookup c with
  | none => s
  | some task =>
    if task.acknowledged then
      s
    else if written then
      { s with tasks := s.tasks.insert c { task with acknowledged := true } }
    else
      { s with tasks := s.tasks.erase c }

/--
What comes after the loop.
-/
def unsubscribe (c : Nat) (topic : String) (s : Subscriptions) : Subscriptions where
  loop := s.loop.handleCommand .plain (.unsubscribe topic)
  tasks := s.tasks.erase c

/--
The arms of the loop that break out of it: a receiver that lags or is closed, and the shutdown.
-/
def leave (c : Nat) (s : Subscriptions) : Subscriptions :=
  match s.tasks.lookup c with
  | none => s
  | some task => if task.acknowledged then s.unsubscribe c task.topic else s

/--
A message that the swarm has got, for the task of this connection.
-/
def message (c : Nat) (topic : String) (written : Bool) (s : Subscriptions) : Subscriptions :=
  match s.tasks.lookup c with
  | none => s
  | some task => if topic ≠ task.topic ∨ written then s else s.leave c

/--
The client closes its end. Nothing of the task reads from the connection.
-/
def close (c : Nat) (s : Subscriptions) : Subscriptions :=
  match s.tasks.lookup c with
  | none => s
  | some task => { s with tasks := s.tasks.insert c { task with connected := false } }

inductive Label where
  | subscribe (c : Nat) (topic : String) (answer : Answer)
  | acknowledge (c : Nat) (written : Bool)
  | message (c : Nat) (topic : String) (written : Bool)
  | lagged (c : Nat)
  | shutdown (c : Nat)
  | close (c : Nat)

/--
The commands to the event loop are handled in the order in which they are sent.
-/
def step : Label → Subscriptions → Subscriptions
  | .subscribe c topic answer, s => s.subscribe c topic answer
  | .acknowledge c written, s => s.acknowledge c written
  | .message c topic written, s => s.message c topic written
  | .lagged c, s => s.leave c
  | .shutdown c, s => s.leave c
  | .close c, s => s.close c

end Subscriptions

end Canopee
