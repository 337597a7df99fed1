import Canopee.Lib.Broadcast
import Canopee.Runtime.Http
import Mathlib.Logic.Function.Basic

/-!
This module contains the serve sessions of a node: the calls that start and stop them and the two
tasks of each, which run at the same time.
-/

namespace Canopee

/--
The capacity of the channel of forwarded requests, in `NetworkManager::new`.
-/
def serveCapacity : Nat := 64

def DEREGISTER_TIMESTAMP : UInt64 := 0

/--
A request that an edge has forwarded. Reply channels are numbered.
-/
structure InboundServe where
  request : ServeRequest
  reply : Nat

/--
The task that answers forwarded requests.
-/
inductive ServeHandler where
  -- it has not run yet
  | spawned
  -- it is in its loop, with its receiver
  | serving (events : Broadcast InboundServe serveCapacity)
  | ended

/--
The task of `heartbeat_loop`.
-/
inductive Heartbeat where
  | sleeping
  -- it has found `running` set and has signed a registration
  | signed (registration : ServeRegistration)
  -- the edge has not answered the registration yet
  | sent
  | ended

structure ServeSession where
  running : Bool
  handler : ServeHandler
  heartbeat : Heartbeat
  -- the `Arc`s of the session; `shutdown` is dropped with the last one
  owners : Nat

/--
How far a call of `stop_serve_session` has come that has taken a session out of the slot.
-/
inductive Stopping where
  | taken
  -- the deregistration is sent
  | deregistering
  -- in `terminate`
  | awaitingHandler
  | awaitingHeartbeat
  -- `running` is cleared
  | terminated

/--
How far a call of `start_serve_session` or `stop_serve_session` has come. A session goes by the call
that starts it.
-/
inductive ServeCall (ι : Type) where
  | start
  -- at the start of `stop_serve_session`; with `restart` it is called by `start_serve_session`
  | stop (restart : Bool)
  | stopping (restart : Bool) (session : ι) (progress : Stopping)
  | connecting
  -- the first registration is sent
  | registering
  -- the tasks are spawned, and the session is not in the slot yet
  | spawned
  -- the caller holds the session
  | returned
  | done

/--
What the node has sent, and the returns of calls that stop a session.
-/
inductive ServeEvent (ι : Type) where
  | registered (session : ι) (edgePeerId : PeerId) (registration : ServeRegistration)
  | deregistered (session : ι) (edgePeerId : PeerId) (registration : ServeRegistration)
  | answered (session : ι) (reply : Nat) (response : ServeResponse)
  | stopped (session : ι)

structure ServeState (ι : Type) where
  -- `Runtime::serve`
  slot : Option ι
  calls : ι → ServeCall ι
  sessions : ι → Option ServeSession
  -- oldest first
  log : List (ServeEvent ι)

inductive ServeLabel (ι : Type) where
  -- the next step of a call: what it waits for has come about, or has failed or timed out
  | call (i : ι) (good : Bool) (now : UInt64)
  | inbound (incoming : InboundServe)
  -- the next step of a task: its shutdown arm, or the other one
  | handler (session : ι) (shutdown : Bool)
  | heartbeat (session : ι) (shutdown : Bool) (now : UInt64)

/--
An app with its pinned files, and the edge to serve it through.
-/
structure ServedApp where
  appId : String
  files : Files
  edgePeerId : PeerId

/--
The node, with the app that each call of `start_serve_session` is for.
-/
structure ServingNode [Primitives] (ι : Type) where
  identity : Identity
  gzip : Bytes → Option Bytes
  apps : ι → ServedApp

/--
What comes after `stop_serve_session`.
-/
def ServeCall.afterStop {ι : Type} (restart : Bool) : ServeCall ι :=
  if restart then .connecting else .done

namespace ServeHandler

def isServing : ServeHandler → Bool
  | serving _ => true
  | _ => false

def isEnded : ServeHandler → Bool
  | ended => true
  | _ => false

/--
The event loop sends a request to every receiver.
-/
def deliver (incoming : InboundServe) : ServeHandler → ServeHandler
  | serving events => serving (events.send incoming)
  | handler => handler

end ServeHandler

def Heartbeat.isEnded : Heartbeat → Bool
  | ended => true
  | _ => false

namespace ServeState

variable {ι : Type} [DecidableEq ι]

section Updates

/--
No call has done anything yet; `starts` says which of them are of `start_serve_session`.
-/
def begin (starts : ι → Bool) : ServeState ι where
  slot := none
  calls i := if starts i then .start else .stop false
  sessions _ := none
  log := []

def setCall (s : ServeState ι) (i : ι) (call : ServeCall ι) : ServeState ι :=
  { s with calls := Function.update s.calls i call }

def setSession (s : ServeState ι) (k : ι) (session : ServeSession) : ServeState ι :=
  { s with sessions := Function.update s.sessions k (some session) }

def record (s : ServeState ι) (event : ServeEvent ι) : ServeState ι :=
  { s with log := s.log ++ [event] }

def update (s : ServeState ι) (k : ι) (f : ServeSession → ServeSession) : ServeState ι :=
  match s.sessions k with
  | some session => s.setSession k (f session)
  | none => s

@[simp]
theorem calls_update (s : ServeState ι) (k : ι) (f : ServeSession → ServeSession) :
    (s.update k f).calls = s.calls := by
  unfold update
  split
  . rfl
  . rfl

@[simp]
theorem log_update (s : ServeState ι) (k : ι) (f : ServeSession → ServeSession) :
    (s.update k f).log = s.log := by
  unfold update
  split
  . rfl
  . rfl

def clone (s : ServeState ι) (k : ι) : ServeState ι :=
  s.update k fun session => { session with owners := session.owners + 1 }

def release (s : ServeState ι) (k : ι) : ServeState ι :=
  s.update k fun session => { session with owners := session.owners - 1 }

/--
What the slot holds is dropped.
-/
def releaseSlot (s : ServeState ι) : ServeState ι :=
  match s.slot with
  | some k => s.release k
  | none => s

end Updates

section Steps

/--
`ServeSession::terminate` waits for each task, for five seconds at most.
-/
def awaited (s : ServeState ι) (k : ι) (ended : ServeSession → Bool) (good : Bool) : Bool :=
  !good || (s.sessions k).any ended

def inboundStep (incoming : InboundServe) (s : ServeState ι) : ServeState ι :=
  { s with
    sessions := fun k => (s.sessions k).map fun session =>
      { session with handler := session.handler.deliver incoming } }

variable [Primitives] (p : ServingNode ι)

/--
`Runtime::stop_serve_session` from the session `k` on. The clone of `shutdown` that `terminate` drops
leaves the sender of the session, so that no task hears of it.
-/
def stopSession (s : ServeState ι) (i : ι) (restart : Bool) (k : ι) (good : Bool) :
    Stopping → ServeState ι
  | .taken =>
    let dereg := ServeRegistration.sign p.identity (p.apps k).appId DEREGISTER_TIMESTAMP
    (s.record (.deregistered k (p.apps k).edgePeerId dereg)).setCall i
      (.stopping restart k .deregistering)
  | .deregistering => s.setCall i (.stopping restart k .awaitingHandler)
  | .awaitingHandler =>
    if s.awaited k (·.handler.isEnded) good then
      s.setCall i (.stopping restart k .awaitingHeartbeat)
    else
      s
  | .awaitingHeartbeat =>
    if s.awaited k (·.heartbeat.isEnded) good then
      (s.update k fun session => { session with running := false }).setCall i
        (.stopping restart k .terminated)
    else
      s
  | .terminated => ((s.record (.stopped k)).release k).setCall i (.afterStop restart)

/--
`Runtime::start_serve_session` and `Runtime::stop_serve_session`
-/
def callStep (i : ι) (good : Bool) (now : UInt64) (s : ServeState ι) : ServeState ι :=
  match s.calls i with
  | .start => s.setCall i (if s.slot.isSome then .stop true else .connecting)
  | .stop restart =>
    match s.slot with
    | none => s.setCall i (.afterStop restart)
    | some k => { s with slot := none }.setCall i (.stopping restart k .taken)
  | .stopping restart k progress => s.stopSession p i restart k good progress
  | .connecting =>
    if good then
      let registration := ServeRegistration.sign p.identity (p.apps i).appId now
      (s.record (.registered i (p.apps i).edgePeerId registration)).setCall i .registering
    else
      s.setCall i .done
  | .registering =>
    if good then
      (s.setSession i {
        running := true
        handler := .spawned
        heartbeat := .sleeping
        owners := 1 }).setCall i .spawned
    else
      s.setCall i .done
  | .spawned =>
    { (s.clone i).releaseSlot with slot := some i }.setCall i .returned
  | .returned => (s.release i).setCall i .done
  | .done => s

/--
The loop of the handler
-/
def handlerStep (k : ι) (shutdown : Bool) (s : ServeState ι) : ServeState ι :=
  match s.sessions k with
  | none => s
  | some session =>
    match session.handler with
    | .spawned => s.setSession k { session with handler := .serving .empty }
    | .serving events =>
      if shutdown then
        if session.owners = 0 then
          s.setSession k { session with handler := .ended, running := false }
        else
          s
      else
        match events.recv with
        | (.empty, _) => s
        | (.lagged _, events) => s.setSession k { session with handler := .serving events }
        | (.value incoming, events) =>
          match Runtime.serveRequest p.gzip (p.apps k).files incoming.request with
          | .ok response =>
            (s.setSession k { session with handler := .serving events }).record
              (.answered k incoming.reply response)
          -- the task panics
          | .error _ => s.setSession k { session with handler := .ended }
    | .ended => s

/--
`heartbeat_loop`
-/
def heartbeatStep (k : ι) (shutdown : Bool) (now : UInt64) (s : ServeState ι) : ServeState ι :=
  match s.sessions k with
  | none => s
  | some session =>
    match session.heartbeat with
    | .sleeping =>
      if shutdown then
        if session.owners = 0 then s.setSession k { session with heartbeat := .ended } else s
      else if session.running then
        let registration := ServeRegistration.sign p.identity (p.apps k).appId now
        s.setSession k { session with heartbeat := .signed registration }
      else
        s.setSession k { session with heartbeat := .ended }
    | .signed registration =>
      (s.setSession k { session with heartbeat := .sent }).record
        (.registered k (p.apps k).edgePeerId registration)
    | .sent => s.setSession k { session with heartbeat := .sleeping }
    | .ended => s

def step : ServeLabel ι → ServeState ι → ServeState ι
  | .call i good now, s => s.callStep p i good now
  | .inbound incoming, s => s.inboundStep incoming
  | .handler k shutdown, s => s.handlerStep p k shutdown
  | .heartbeat k shutdown now, s => s.heartbeatStep p k shutdown now

end Steps

end ServeState

end Canopee
