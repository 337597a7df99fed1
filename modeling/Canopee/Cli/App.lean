import Canopee.Edge.Httpd
import Canopee.Runtime.Bounds

/-!
This module contains the local server of the command line tool for the files of an app.
-/

namespace Canopee

variable [Primitives]

namespace Cli

open Http (trimChars trimQuotes)

/--
A request as far as the local server understands it.
-/
structure Request where
  method : String
  path : String
  closeAfterResponse : Bool
  range : Option String
  acceptsGzip : Bool
  ifNoneMatch : Option String
deriving DecidableEq

namespace Request

/--
The request before its header lines are read.
-/
def start (requestLine : List Char) : Request :=
  let (method, target, version) := Edge.requestParts requestLine
  { method := method
    path := String.ofList (Text.firstPiece '?' target)
    closeAfterResponse := version = "HTTP/1.0".toList
    range := none
    acceptsGzip := false
    ifNoneMatch := none }

/--
One header line. Of a range the whole line is kept, in its own case.
-/
def read (request : Request) (line : List Char) : Request :=
  let lower := Text.lower line
  if let some value := Text.stripPrefix "connection:".toList lower then
    { request with closeAfterResponse := trimChars value = "close".toList }
  else if (Text.stripPrefix "range:".toList lower).isSome then
    { request with range := some (String.ofList (trimChars line)) }
  else if let some value := Text.stripPrefix "accept-encoding:".toList lower then
    { request with acceptsGzip := Text.contains "gzip".toList value }
  else if let some value := Text.stripPrefix "if-none-match:".toList lower then
    { request with ifNoneMatch := some (String.ofList (trimChars value)) }
  else
    request

end Request

/--
The request of a request line and the header lines that follow it.
-/
def request (requestLine : List Char) (lines : List (List Char)) : Request :=
  lines.foldl Request.read (Request.start requestLine)

abbrev Etags := AList fun _ : String => String

def computeEtags (files : Files) : Etags where
  entries := files.entries.map fun file => ⟨file.1, Http.etag file.2⟩
  nodupKeys := by
    have hkeys := files.nodupKeys
    simpa [List.NodupKeys, List.keys, Function.comp_def] using hkeys

/--
`parse_range`, for a whole header line.
-/
def parseRange (header : Option String) (len : Nat) : Except Http.Panic (Option Http.RangeSpec) :=
  match header with
  | none => .ok none
  | some line =>
    match Text.splitOnce ':' (trimChars line.toList) with
    | none => .ok none
    | some (_, spec) => Http.parseRangeSpec (trimChars spec) len

/--
`parse_range` with its slices and lengths checked.
-/
def Checked.parseRange (header : Option String) (len : Nat) :
    Except Http.Checked.Fault (Option Http.RangeSpec) :=
  match header with
  | none => pure none
  | some line =>
    match Text.splitOnce ':' (trimChars line.toList) with
    | none => pure none
    | some (_, spec) => Http.Checked.parseRangeSpec (trimChars spec) len

/--
The status line and the headers that are always present.
-/
def pushHeader (status contentType : String) (contentLength : Option Nat) (connection : String) :
    String :=
  "HTTP/1.1 " ++ status ++ "\r\nContent-Type: " ++ contentType ++
    (match contentLength with
    | some len => "\r\nContent-Length: " ++ len.repr
    | none => "") ++
    ("\r\nConnection: " ++ connection ++ "\r\n")

def etagLine (etag : Option String) : String :=
  match etag with
  | some etag => "ETag: \"" ++ etag ++ "\"\r\n"
  | none => ""

def matchesEtag (ifNoneMatch : Option String) (etag : String) : Bool :=
  match ifNoneMatch with
  | none => false
  | some value => trimQuotes value.toList = etag.toList

/--
`prepare_response`: the text of the head, and the body if there is one.
-/
def prepareResponse (gzip : Bytes → Option Bytes) (request : Request) (files : Files)
    (etags : Etags) : Except Http.Panic (String × Option Bytes) := do
  let (servedKey, found) := Http.resolve files request.path
  let contentType := Http.guessContentType servedKey
  let connection := if request.closeAfterResponse then "close" else "keep-alive"
  let etag := etags.lookup servedKey
  if (request.method = "GET" ∨ request.method = "HEAD") ∧
      (etag.map (matchesEtag request.ifNoneMatch)).getD false then
    pure (pushHeader "304 Not Modified" contentType none connection ++ etagLine etag ++ "\r\n", none)
  else
    match found with
    | none => pure (pushHeader "404 Not Found" contentType (some 0) connection ++ "\r\n", none)
    | some body =>
      let spec ← if request.method = "GET" then parseRange request.range body.length else pure none
      match spec with
      | some .unsatisfiable =>
        pure (pushHeader "416 Range Not Satisfiable" contentType (some 0) connection ++
          "Accept-Ranges: bytes\r\n" ++
          ("Content-Range: bytes */" ++ body.length.repr ++ "\r\n") ++ "\r\n", none)
      | some (.bytes first last) =>
        let part := (body.drop first).take (last - first + 1)
        pure (pushHeader "206 Partial Content" contentType (some part.length) connection ++
          "Accept-Ranges: bytes\r\n" ++
          ("Content-Range: bytes " ++ first.repr ++ "-" ++ last.repr ++ "/" ++ body.length.repr ++
            "\r\n") ++ etagLine etag ++ "\r\n", some part)
      | none =>
        let encoded := Http.encode gzip request.acceptsGzip contentType body
        let payload := encoded.getD body
        let encoding :=
          if Http.isCompressible contentType then
            "Vary: Accept-Encoding\r\n" ++
              (if encoded.isSome then "Content-Encoding: gzip\r\n" else "")
          else
            ""
        pure (pushHeader "200 OK" contentType (some payload.length) connection ++ etagLine etag ++
          "Accept-Ranges: bytes\r\n" ++ encoding ++ "\r\n",
          if request.method = "GET" then some payload else none)

end Cli

end Canopee
