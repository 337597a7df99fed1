import Canopee.Lib.Broadcast
import Canopee.Runtime.Pairing

/-!
This module contains the task that answers pairing requests, the channel on which the event loop
hands them to it, and what the event loop answers when the task is not there.
-/

namespace Canopee

open Prog (exec)

variable [Primitives]

/--
The capacity of the channel of pairing requests, in `NetworkManager::new`.
-/
def pairingCapacity : Nat := 64

/--
`spawn_pairing_handler`, with its receiver of pairing requests.
-/
structure PairingHandler where
  channel : Broadcast InboundPairing pairingCapacity
  running : Bool
  -- the request that the task is at
  processing : Option InboundPairing
  node : Runtime
  -- the requests that the task has answered, with the answers
  answered : List (InboundPairing × CanopeePairingResponse)
  -- the requests whose reply channel was dropped
  dropped : List InboundPairing

namespace PairingHandler

def start (node : Runtime) : PairingHandler where
  channel := .empty
  running := true
  processing := none
  node := node
  answered := []
  dropped := []

/--
The arm of `handle_swarm_event` for a pairing request of a peer: without a receiver the channel takes
nothing.
-/
def inbound (incoming : InboundPairing) (s : PairingHandler) : PairingHandler :=
  if s.running then
    { s with
      channel := s.channel.send incoming
      dropped := s.dropped ++ s.channel.overwritten incoming }
  else
    { s with dropped := s.dropped ++ [incoming] }

/--
The condition of the loop, `let Ok(incoming) = events.recv().await`.
-/
def recv (s : PairingHandler) : PairingHandler :=
  match s.running, s.processing with
  | true, none =>
    match s.channel.recv with
    | (.empty, _) => s
    | (.value incoming, channel) => { s with channel := channel, processing := some incoming }
    -- `Err(Lagged)`: the task ends and drops its receiver
    | (.lagged _, channel) =>
      { s with channel := .empty, running := false, dropped := s.dropped ++ channel.unread }
  | _, _ => s

/--
The body of the loop.
-/
def finish (env : Env) (s : PairingHandler) : PairingHandler :=
  match s.processing with
  | none => s
  | some incoming =>
    let (result, node) := exec (Runtime.acceptPairing incoming) env s.node
    match result with
    | .ok response =>
      { s with node := node, processing := none, answered := s.answered ++ [(incoming, response)] }
    | .error _ => { s with node := node }

/--
What the peers get: the answers of the task, and of the event loop for the requests that were
dropped.
-/
def responses (s : PairingHandler) : List (InboundPairing × CanopeePairingResponse) :=
  s.answered ++ s.dropped.map fun incoming => (incoming, .error "pairing handler unavailable")

inductive Label where
  | inbound (incoming : InboundPairing)
  | recv
  | finish (env : Env)
  -- the other tasks of the node, which start pairing sessions among other things
  | node (f : Runtime → Runtime)

def step : Label → PairingHandler → PairingHandler
  | .inbound incoming, s => s.inbound incoming
  | .recv, s => s.recv
  | .finish env, s => s.finish env
  | .node f, s => { s with node := f s.node }

end PairingHandler

end Canopee
