import Canopee.Gateway.Handshake
import Canopee.Gateway.Session
import Canopee.Lib.Base64
import Canopee.Lib.HttpHead
import Canopee.Lib.Source
import Canopee.Lib.Utf8
import Canopee.Runtime.Http

/-!
This module contains how a gateway takes a connection in: it reads the head of an opening request,
answers it, and goes on with a WebSocket session on what follows.
-/

namespace Canopee

namespace Gateway

open Http (trimChars)

/--
The token that a page presents in the query of its opening request.
-/
structure SessionToken where
  text : String

/--
`SessionToken::matches`, whose fold does not depend on where the first difference is.
-/
def SessionToken.matches (token : SessionToken) (candidate : String) : Bool :=
  if token.text.utf8ByteSize ≠ candidate.utf8ByteSize then
    false
  else
    ((Codec.utf8 token.text).zip (Codec.utf8 candidate)).foldl
      (fun acc (a, b) => acc ||| (a ^^^ b)) 0 == 0

section Reading

/--
`read_http_line`: the end of the stream ends a line, too, unless there is nothing of it.
-/
def readHttpLine (source : Source UInt8) : Except String (List Char × Source UInt8) :=
  let (bytes, rest) := source.readUntil (· = 10)
  if bytes.isEmpty then
    .error "connection closed during handshake"
  else
    let line := if bytes.getLast? = some 10 then bytes.dropLast else bytes
    .ok (HttpHead.chomp (Codec.fromUtf8Lossy line).toList, rest)

theorem readHttpLine_length {source rest : Source UInt8} {line : List Char}
    (h : readHttpLine source = .ok (line, rest)) : rest.rest.length < source.rest.length := by
  have ⟨hline, hrest⟩ := source.readUntil_rest (p := (· = 10))
  unfold readHttpLine at h
  dsimp only at h
  split at h
  . cases h
  . next hne =>
    cases h
    have hcut := congrArg List.length (Source.cut_append (p := (· = 10)) source.rest)
    rw [List.isEmpty_iff, hline] at hne
    rw [List.length_append] at hcut
    have hpos := List.length_pos_of_ne_nil hne
    rw [hrest]
    omega

/--
The variables that the loop of `read_handshake` sets.
-/
structure Fields where
  upgradeWebsocket : Bool
  origin : Option String
  secWebsocketKey : Option String

namespace Fields

def start : Fields where
  upgradeWebsocket := false
  origin := none
  secWebsocketKey := none

/--
One header line; a line without a colon is passed over.
-/
def read (fields : Fields) (line : List Char) : Fields :=
  match Text.splitOnce ':' line with
  | none => fields
  | some (name, value) =>
    let name := String.ofList (Text.lower (trimChars name))
    let value := trimChars value
    if name = "upgrade" ∧ Text.eqIgnoreCase value "websocket".toList then
      { fields with upgradeWebsocket := true }
    else if name = "sec-websocket-key" then
      { fields with secWebsocketKey := some (String.ofList value) }
    else if name = "origin" then
      { fields with origin := some (String.ofList value) }
    else
      fields

end Fields

/--
The loop of `read_handshake` over the header lines.
-/
def readFields (source : Source UInt8) (fields : Fields) : Except String (Fields × Source UInt8) :=
  match _h : readHttpLine source with
  | .error e => .error e
  | .ok (line, rest) =>
    if line.isEmpty then .ok (fields, rest) else readFields rest (fields.read line)
termination_by source.rest.length
decreasing_by exact readHttpLine_length _h

/--
`read_handshake`, without its time limit
-/
def readHandshake (source : Source UInt8) : Except String (Handshake × Source UInt8) := do
  let (line, rest) ← readHttpLine source
  let parts := Text.splitBy isWhitespace line
  let (fields, rest) ← readFields rest Fields.start
  return ({
    method := (parts[0]?.map String.ofList).getD "GET"
    path := (parts[1]?.map String.ofList).getD "/"
    upgradeWebsocket := fields.upgradeWebsocket
    origin := fields.origin
    secWebsocketKey := fields.secWebsocketKey }, rest)

end Reading

section Accepting

variable (sha1 : Bytes → Bytes) (demoPage : String → String)

def WS_GUID : String := "258EAFA5-E914-47DA-95CA-C5AB0DC85B11"

/--
`accept_key`
-/
def acceptKey (request : Handshake) : List Char :=
  Base64.encode (sha1 (Codec.utf8 (request.secWebsocketKey.getD "") ++ Codec.utf8 WS_GUID))

def forbidden : String := "HTTP/1.1 403 Forbidden\r\nContent-Length: 0\r\n\r\n"

def pageResponse (page : String) : String :=
  "HTTP/1.1 200 OK\r\nContent-Type: text/html; charset=utf-8\r\nContent-Length: " ++
    page.utf8ByteSize.repr ++ "\r\nConnection: close\r\n\r\n" ++ page

def switchingProtocols (accept : List Char) : String :=
  "HTTP/1.1 101 Switching Protocols\r\nUpgrade: websocket\r\nConnection: Upgrade\r\n" ++
    "Sec-WebSocket-Accept: " ++ String.ofList accept ++ "\r\n\r\n"

/--
`Accepted`; of a socket, what it reads from.
-/
inductive Accepted where
  | socket (reader : Source UInt8)
  | served

/--
`WebSocket::accept` on a connection that takes what is written: the result, and what was written.
-/
def accept (token : SessionToken) (source : Source UInt8) : Except String Accepted × String :=
  match readHandshake source with
  | .error e => (.error e, "")
  | .ok (request, rest) =>
    if !request.upgradeWebsocket then
      if request.method = "GET" ∧ request.path = "/" then
        (.ok .served, pageResponse (demoPage token.text))
      else
        (.error "not a websocket upgrade request", forbidden)
    else
      match validateHandshake request token.matches with
      | .error e => (.error e, forbidden)
      | .ok _ => (.ok (.socket rest), switchingProtocols (acceptKey sha1 request))

variable (Event Request : Type)

/--
The session that reads on from a source, of which the buffer has arrived.
-/
def Session.reading (reader : Source UInt8) : Session Event Request :=
  { Session.start reader.chunks.flatten with buffer := reader.buffer }

/--
`handle_client` up to its loop over the commands, on a node that it can connect to: the session of a
connection that was taken in.
-/
def handleClient (token : SessionToken) (source : Source UInt8) : Option (Session Event Request) :=
  match (accept sha1 demoPage token source).1 with
  | .ok (.socket reader) => some (Session.reading Event Request reader)
  | .ok .served => none
  | .error _ => none

end Accepting

end Gateway

end Canopee
