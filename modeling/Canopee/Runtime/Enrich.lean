import Canopee.Runtime.Devices

/-!
This module contains the labels that a node puts on its connected peers: whose device each of them
is, and the username and display name of that identity.
-/

namespace Canopee

variable [Primitives]

namespace Runtime

/--
What `enrich_peers` has found out about a peer.
-/
structure PeerLabel where
  peerId : PeerId
  identity : Option IdentityId
  username : Option String
  displayName : Option String
  -- `resolve_device_identity` answered the identity
  resolved : Bool

/--
The identity of a peer and whether it was resolved: else the peer is taken for a device whose id is
embedded in its identity.
-/
def peerIdentity (peer : PeerId) : Except String (Option IdentityId) → Option IdentityId × Bool
  | .ok (some id) => (some id, true)
  | _ => (some ⟨identityPrefix ++ peer.base58⟩, false)

/--
What `enrich_peers` finds out about one peer. A call that times out counts like one that fails.
-/
def enrichPeer (peer : PeerId) : RunM PeerLabel := do
  let (identity, resolved) := peerIdentity peer (← Prog.attempt (resolveDeviceIdentity peer))
  match identity with
  | some id =>
    let username ← Prog.attempt (resolveUsername id)
    let profile ← Prog.attempt (resolveProfile id)
    pure {
      peerId := peer
      identity := identity
      username := username.toOption.join.map UsernameRecord.username
      displayName := profile.toOption.join.map Profile.displayName
      resolved := resolved }
  | none =>
    pure {
      peerId := peer
      identity := identity
      username := none
      displayName := none
      resolved := resolved }

def enrichAll : List PeerId → RunM (List PeerLabel)
  | [] => pure []
  | peer :: peers => do
    let label ← enrichPeer peer
    let labels ← enrichAll peers
    pure (label :: labels)

/--
`Runtime::enrich_peers`, with what it hands to `set_peer_meta`.
-/
def enrichPeers : RunM (List PeerLabel) := do
  let peers ← connectedPeers
  let results ← enrichAll peers
  pure (results.filter fun label =>
    !(label.username.isNone && label.displayName.isNone && !label.resolved))

end Runtime

end Canopee
