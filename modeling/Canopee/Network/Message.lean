import Canopee.Lib.Codec

/-!
This module contains the messages between an edge and the publishers that it forwards HTTP requests
to.
-/

namespace Canopee

/--
`SERVE_FORWARDED_HEADERS`
-/
def serveForwardedHeaders : List String :=
  ["accept-encoding", "range", "if-none-match"]

structure ServeRequest where
  method : String
  path : String
  headers : List (String × String)
deriving DecidableEq

structure ServeResponse where
  status : String
  headers : List (String × String)
  body : Bytes
deriving DecidableEq

end Canopee
