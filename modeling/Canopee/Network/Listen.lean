import Canopee.Lib.Segments
import Canopee.Primitives

/-!
This module contains the addresses that the node listens on, as the event loop records them, and the
one of them that a pairing code advertises.
-/

namespace Canopee

/--
An IPv6 address, by its text.
-/
structure Ipv6Addr where
  text : String
  colon : ':' ∈ text.toList
  plain : '/' ∉ text.toList
deriving DecidableEq

/--
A part of an address that nothing here looks into, such as a port or the name of a host.
-/
structure OtherProtocol where
  name : String
  value : Option String
  plain : ∀ segment ∈ name :: value.toList, '/' ∉ segment.toList
  name_not_mem : name ∉ ["ip4", "ip6", "p2p", "p2p-circuit"]
  -- the one host name that would be taken for a peer id's
  value_ne : value ≠ some "p2p"
deriving DecidableEq

inductive Protocol where
  | ip4 (a b c d : UInt8)
  | ip6 (addr : Ipv6Addr)
  | p2p (peer : PeerId)
  | p2pCircuit
  | other (protocol : OtherProtocol)
deriving DecidableEq

abbrev Multiaddr := List Protocol

/--
What stands between the slashes in the text of a part.
-/
def Protocol.segments : Protocol → List (List Char)
  | ip4 a b c d =>
    ["ip4".toList, a.toNat.repr.toList ++ '.' :: (b.toNat.repr.toList ++ '.' ::
      (c.toNat.repr.toList ++ '.' :: d.toNat.repr.toList))]
  | ip6 addr => ["ip6".toList, addr.text.toList]
  | p2p peer => ["p2p".toList, peer.base58.toList]
  | p2pCircuit => ["p2p-circuit".toList]
  | other protocol => (protocol.name :: protocol.value.toList).map String.toList

/--
`Multiaddr::to_string`
-/
def Multiaddr.text (addr : Multiaddr) : List Char :=
  Segments.join '/' (addr.flatMap Protocol.segments)

/--
The `NewListenAddr` arm of `handle_swarm_event`.
-/
def newListenAddr (addrs : List Multiaddr) (address : Multiaddr) : List Multiaddr :=
  if address ∈ addrs then addrs else addrs ++ [address]

/--
What the event loop has recorded after these events.
-/
def listenAddrs (events : List Multiaddr) : List Multiaddr :=
  events.foldl newListenAddr []

namespace Lan

def isIp (s : List Char) : Bool :=
  "/ip4/".toList.isPrefixOf s || "/ip6/".toList.isPrefixOf s

def isLoopback (s : List Char) : Bool :=
  "/ip4/127.".toList.isPrefixOf s || "/ip6/::1".toList.isPrefixOf s

/--
`s.split("/p2p/").next()`
-/
def base (s : List Char) : List Char :=
  ((Text.splitOnceOn "/p2p/".toList s).map Prod.fst).getD s

/--
`dialable_lan_addr`
-/
def dialableLanAddr (addrs : List Multiaddr) (peerId : PeerId) : Except String (List Char) :=
  let texts := addrs.map Multiaddr.text
  match (texts.find? fun s => isIp s && !isLoopback s).or (texts.find? isIp) with
  | none => .error "no listen address available to pair over"
  | some pick =>
    if !isIp (base pick) then
      .error ("listen address " ++ String.ofList pick ++ " is not a dialable ip address")
    else
      .ok (base pick ++ "/p2p/".toList ++ peerId.base58.toList)

end Lan

end Canopee
