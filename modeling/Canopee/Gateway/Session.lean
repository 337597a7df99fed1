import Canopee.Gateway.WebSocket
import Canopee.Lib.Run

/-!
This module contains the session of a gateway with one browser: the select between the next command
and the events of a subscription.
-/

namespace Canopee

namespace Gateway

open Incremental

/--
A command from the browser; every command but one is handed to `dispatch`.
-/
inductive GatewayCommand (Request : Type) where
  | subscribe (topic : String)
  | request (command : Request)
deriving DecidableEq

/--
What `read_command` comes to with the bytes that have arrived. While it waits it holds those that it
has taken of a frame.
-/
inductive CommandRead (Request : Type) where
  | pending (taken : Bytes)
  | failed
  | closed
  | command (command : GatewayCommand Request) (rest : Bytes)

variable {Event Request : Type} (decode : Bytes → Option (GatewayCommand Request))

/--
`WebSocket::read_command`: pings are answered and pongs are dropped.
-/
def readCommand (bytes : Bytes) : CommandRead Request :=
  match _h : readFrame.run bytes with
  | .wait => .pending bytes
  | .fail => .failed
  | .done (.data payload) rest =>
    match decode payload with
    | some command => .command command rest
    | none => .failed
  | .done (.ping _) rest => readCommand rest
  | .done (.pong _) rest => readCommand rest
  | .done (.close _) _ => .closed
termination_by bytes.length
decreasing_by
  . exact readFrame_length _h
  . exact readFrame_length _h

/--
The channel of the active subscription: its events, and whether the pump that fills it has ended.
-/
structure Subscription (Event : Type) where
  events : List Event
  ended : Bool
deriving DecidableEq

inductive End where
  | closed
  | failed
  | subscriptionEnded
deriving DecidableEq

structure Session (Event Request : Type) where
  -- What the `read_command` of the select has taken of a frame.
  taken : Bytes
  -- What can be read.
  buffer : Bytes
  -- What the client has written and what has not arrived.
  wire : Bytes
  subscription : Option (Subscription Event)
  -- The commands that were run.
  handled : List (GatewayCommand Request)
  -- The events that were sent to the browser.
  replied : List Event
  ended : Option End
deriving DecidableEq

namespace Session

def start (wire : Bytes) : Session Event Request where
  taken := []
  buffer := []
  wire := wire
  subscription := none
  handled := []
  replied := []
  ended := none

/--
The channel has something for the session.
-/
def ready (s : Session Event Request) : Bool :=
  match s.subscription with
  | none => false
  | some subscription => !subscription.events.isEmpty || subscription.ended

/--
The select ends with the channel, and the `read_command` that it polled is dropped.
-/
def takeEvent (s : Session Event Request) : Session Event Request :=
  match s.subscription with
  | some ⟨event :: events, ended⟩ =>
    { s with
      taken := []
      subscription := some ⟨events, ended⟩
      replied := s.replied ++ [event] }
  | _ => { s with taken := [], ended := some .subscriptionEnded }

/--
A command is run; a subscription takes the place of the one before.
-/
def handle (s : Session Event Request) (command : GatewayCommand Request) (rest : Bytes) :
    Session Event Request :=
  { s with
    taken := []
    buffer := rest
    handled := s.handled ++ [command]
    subscription :=
      match command with
      | .subscribe _ => some ⟨[], false⟩
      | .request _ => s.subscription }

/--
One turn of the loop, in which the select polls the channel first or last.
-/
def poll (channelFirst : Bool) (s : Session Event Request) : Session Event Request :=
  if s.ended.isSome then
    s
  else if channelFirst && s.ready then
    s.takeEvent
  else
    match readCommand decode (s.taken ++ s.buffer) with
    | .pending taken =>
      let s := { s with taken := taken, buffer := [] }
      if s.ready then s.takeEvent else s
    | .failed => { s with ended := some .failed }
    | .closed => { s with ended := some .closed }
    | .command command rest => s.handle command rest

end Session

inductive Label (Event : Type) where
  | arrive (n : Nat)
  | push (event : Event)
  | finish
  | poll (channelFirst : Bool)

open Session in
def step (l : Label Event) (s : Session Event Request) : Session Event Request :=
  match l with
  | .arrive n => { s with buffer := s.buffer ++ s.wire.take n, wire := s.wire.drop n }
  | .push event =>
    { s with subscription := s.subscription.map fun subscription =>
        if subscription.ended then
          subscription
        else
          { subscription with events := subscription.events ++ [event] } }
  | .finish =>
    { s with subscription := s.subscription.map fun subscription =>
        { subscription with ended := true } }
  | .poll channelFirst => s.poll decode channelFirst

end Gateway

end Canopee
