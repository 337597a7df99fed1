import Canopee.Lib.Text

/-!
This module contains how a gateway decides on an opening handshake: by the upgrade, the key, the origin
and the session token.
-/

namespace Canopee

namespace Gateway

/--
A parsed opening request.
-/
structure Handshake where
  method : String
  path : String
  upgradeWebsocket : Bool
  origin : Option String
  secWebsocketKey : Option String

/--
`query_param`: the value of the first pair with this key.
-/
def queryParam (path name : String) : Option String := do
  let (_, query) ← Text.splitOnce '?' path.toList
  let pairs := (query.splitOn '&').map fun pair => (Text.splitOnce '=' pair).getD (pair, [])
  let (_, value) ← pairs.find? fun (key, _) => key = name.toList
  return String.ofList value

/--
The host that `is_loopback_origin` cuts out of an origin: of the second piece between `://`, or of the
whole origin, what comes before the first `/`, and of that what comes before the first `:`.
-/
def originHost (origin : List Char) : List Char :=
  let behind :=
    match Text.splitOnceOn "://".toList origin with
    | none => origin
    | some (_, rest) =>
      match Text.splitOnceOn "://".toList rest with
      | none => rest
      | some (piece, _) => piece
  Text.firstPiece ':' (Text.firstPiece '/' behind)

/--
`is_loopback_origin`
-/
def isLoopbackOrigin : Option String → Bool
  | none => true
  | some origin =>
    let host := originHost origin.toList
    Text.eqIgnoreCase host "127.0.0.1".toList || Text.eqIgnoreCase host "localhost".toList

/--
`validate_handshake`, with the comparison of the session token.
-/
def validateHandshake (request : Handshake) (tokenMatches : String → Bool) : Except String Unit :=
  if !request.upgradeWebsocket then
    .error "not a websocket upgrade request"
  else if request.secWebsocketKey.isNone then
    .error "missing Sec-WebSocket-Key"
  else if !isLoopbackOrigin request.origin then
    .error "origins outside this machine cannot reach the gateway"
  else
    match queryParam request.path "token" with
    | some candidate =>
      if tokenMatches candidate then .ok () else .error "invalid session token"
    | none => .error "missing session token in query string"

theorem validateHandshake_eq_ok_iff {request : Handshake} {tokenMatches : String → Bool} :
    validateHandshake request tokenMatches = .ok () ↔
      request.upgradeWebsocket = true ∧ request.secWebsocketKey.isSome = true ∧
        isLoopbackOrigin request.origin = true ∧
        ∃ candidate, queryParam request.path "token" = some candidate ∧
          tokenMatches candidate = true := by
  unfold validateHandshake
  cases hupgrade : request.upgradeWebsocket with
  | false => simp
  | true =>
    cases hkey : request.secWebsocketKey with
    | none => simp
    | some key =>
      cases horigin : isLoopbackOrigin request.origin with
      | false => simp
      | true =>
        cases htoken : queryParam request.path "token" with
        | none => simp
        | some candidate => simp

end Gateway

end Canopee
