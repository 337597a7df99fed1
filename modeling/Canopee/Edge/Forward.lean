import Canopee.Edge.Httpd

/-!
This module contains how an edge answers what it reads from a connection: it forwards a request to the
publisher that is registered for its host, and writes back what that publisher answers.
-/

namespace Canopee

namespace Edge

/--
What comes of a request to a publisher.
-/
inductive Upstream where
  | answered (response : ServeResponse)
  | failed (e : String)
  | timedOut

/--
What a request meets: the map and the clock of the edge, and the network.
-/
structure Moment where
  entries : Entries
  instant : Nat
  send : PeerId → ServeRequest → Upstream

def plainText : String × String :=
  ("Content-Type", "text/plain; charset=utf-8")

def notFound (message : String) : ServeResponse where
  status := "404 Not Found"
  headers := [plainText, ("Content-Length", (Codec.utf8 message).length.repr)]
  body := Codec.utf8 message

def badGateway (e : String) : ServeResponse where
  status := "502 Bad Gateway"
  headers := [plainText]
  body := Codec.utf8 ("upstream error: " ++ e)

def gatewayTimeout : ServeResponse where
  status := "504 Gateway Timeout"
  headers := [plainText]
  body := Codec.utf8 "publisher did not respond in time"

def Request.serveRequest (request : Request) : ServeRequest where
  method := request.method
  path := request.path
  headers := request.forwarded

/--
`forward`
-/
def forward (moment : Moment) (request : Request) : ServeResponse :=
  match resolve moment.entries request.username moment.instant with
  | none => notFound ("no serving node at `" ++ request.username ++ "`")
  | some peer =>
    match moment.send peer request.serveRequest with
    | .answered response => response
    | .failed e => badGateway e
    | .timedOut => gatewayTimeout

/--
The bytes that answer a request.
-/
def respond (moment : Moment) (request : Request) : Bytes :=
  let (header, body) :=
    writeResponse request.closeAfterResponse request.method (forward moment request)
  Codec.utf8 header ++ body

/--
`handle_client`: what it writes, and whether it ends without an error. The first of the requests meets
the first moment.
-/
def converse (moments : Nat → Moment) (source : Source UInt8) : Bytes × Bool :=
  match _h : readRequest source with
  | .done => ([], true)
  | .failed => ([], false)
  | .request _ request rest =>
    if request.closeAfterResponse then
      (respond (moments 0) request, true)
    else
      let (later, clean) := converse (fun k => moments (k + 1)) rest
      (respond (moments 0) request ++ later, clean)
termination_by source.rest.length
decreasing_by exact readRequest_length _h

end Edge

end Canopee
