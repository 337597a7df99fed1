import Canopee.Lib.Codec
import Canopee.Lib.Prog

/-!
This module contains the length-prefixed frames on the node's Unix socket: the two writers and the
three readers of the node and of its client.
-/

namespace Canopee

inductive ReadError where
  | unexpectedEof
  | deserialize
  | unexpectedResponse
deriving DecidableEq

/--
A program that reads from a stream. Its state is what comes before the end of the stream.
-/
abbrev ReadM := Prog Unit ReadError Bytes

namespace Socket

variable {α : Type}

def readExact (n : Nat) : ReadM Bytes := do
  let stream ← get
  match Codec.takeExact n stream with
  | some (bytes, rest) =>
    set rest
    pure bytes
  | none =>
    -- the bytes that are there are read before the end is seen
    set ([] : Bytes)
    throw .unexpectedEof

def readU32 : ReadM UInt32 := do
  let bytes ← readExact 4
  pure (UInt32.ofNat (Codec.ofBeBytes bytes))

def deserialize (c : Codec α) (buffer : Bytes) : ReadM α :=
  match c.deserialize buffer with
  | some a => pure a
  | none => throw .deserialize

/--
`NodeClient::write_frame`
-/
def writeFrame (bytes : Bytes) : Bytes :=
  Codec.beBytes 4 (UInt32.ofNat bytes.length).toNat ++ bytes

/--
`Node::write_response`
-/
def writeResponse (c : Codec α) (response : α) : Bytes :=
  let bytes := c.serialize response
  Codec.beBytes 4 (UInt32.ofNat bytes.length).toNat ++ bytes

/--
`NodeClient::read_frame`
-/
def readFrame (c : Codec α) : ReadM α := do
  let size ← readU32
  let buffer ← readExact size.toNat
  deserialize c buffer

/--
`NodeClient::read_frame_opt`: the end of the stream before the first byte is no error.
-/
def readFrameOpt (c : Codec α) : ReadM (Option α) := do
  match ← Prog.attempt (readExact 1) with
  | .error _ => pure none
  | .ok first =>
    let header ← readExact 3
    let size := Codec.ofLeBytes (first ++ header)
    let buffer ← readExact size
    let a ← deserialize c buffer
    pure (some a)

/--
`Node::read_command`
-/
def readCommand (c : Codec α) : ReadM α := do
  let size ← readU32
  let buffer ← readExact size.toNat
  deserialize c buffer

end Socket

structure PubSubMessage where
  topic : String
  source : Option String
  data : Bytes
deriving DecidableEq

/--
The part of `NodeResponse` that a subscription's connection carries.
-/
inductive SubscriptionResponse where
  | error (message : String)
  | subscribed
  | pubSub (message : PubSubMessage)
deriving DecidableEq

namespace SubscriptionResponse

def messageCodec : Codec PubSubMessage :=
  (Codec.text.pair (Codec.text.option.pair Codec.bytes)).iso
    (fun m => (m.topic, m.source, m.data)) (fun (topic, source, data) => ⟨topic, source, data⟩)
    (by intro m; rfl)

/--
The variant's tag in `NodeResponse`, then its fields.
-/
def codec : Codec SubscriptionResponse where
  put
    | error message => Codec.u32.put 10 ++ Codec.text.put message
    | subscribed => Codec.u32.put 16
    | pubSub message => Codec.u32.put 17 ++ messageCodec.put message
  get input :=
    match Codec.u32.get input with
    | none => none
    | some (tag, rest) =>
      if tag = 10 then
        (Codec.text.get rest).map fun (message, rest) => (error message, rest)
      else if tag = 16 then
        some (subscribed, rest)
      else if tag = 17 then
        (messageCodec.get rest).map fun (message, rest) => (pubSub message, rest)
      else
        none
  get_put := by
    intro response rest
    cases response with
    | error message => simp [List.append_assoc, Codec.get_put]
    | subscribed =>
      simp only [Codec.get_put]
      simp
    | pubSub message =>
      simp only [List.append_assoc, Codec.get_put]
      simp

end SubscriptionResponse

/--
`Subscription::next`
-/
def Subscription.next : ReadM (Option PubSubMessage) := do
  match ← Socket.readFrameOpt SubscriptionResponse.codec with
  | some (.pubSub message) => pure (some message)
  | some _ => throw .unexpectedResponse
  | none => pure none

end Canopee
