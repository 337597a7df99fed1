import Canopee.Edge.Registry
import Canopee.Lib.Text
import Canopee.Network.Message
import Canopee.Storage.Store

/-!
This module contains how a publisher renders the response to a forwarded HTTP request from the files
of an app.
-/

namespace Canopee

open Primitives

variable [Primitives]

namespace Http

def minCompressibleLen : Nat := 256

/--
Slicing a string in the middle of a character.
-/
inductive Panic where
  | charBoundary
deriving DecidableEq

/--
`str::trim`
-/
def trimChars (s : List Char) : List Char :=
  Text.trimBy isWhitespace s

section Helpers

def header (headers : List (String × String)) (want : String) : Option String :=
  (headers.find? fun (k, _) => Text.eqIgnoreCase k.toList want.toList).map Prod.snd

def isCompressible (contentType : String) : Bool :=
  contentType = "application/javascript" || contentType = "application/json" ||
    contentType = "image/svg+xml" || "text/".toList.isPrefixOf contentType.toList

/--
The type that belongs to a file extension.
-/
def contentTypeOf : String → String
  | "html" => "text/html; charset=utf-8"
  | "htm" => "text/html; charset=utf-8"
  | "css" => "text/css"
  | "js" => "application/javascript"
  | "mjs" => "application/javascript"
  | "json" => "application/json"
  | "map" => "application/json"
  | "txt" => "text/plain; charset=utf-8"
  | "xml" => "application/xml"
  | "wasm" => "application/wasm"
  | "png" => "image/png"
  | "jpg" => "image/jpeg"
  | "jpeg" => "image/jpeg"
  | "gif" => "image/gif"
  | "webp" => "image/webp"
  | "avif" => "image/avif"
  | "svg" => "image/svg+xml"
  | "ico" => "image/x-icon"
  | "woff" => "font/woff"
  | "woff2" => "font/woff2"
  | "ttf" => "font/ttf"
  | "otf" => "font/otf"
  | "eot" => "application/vnd.ms-fontobject"
  | "mp4" => "video/mp4"
  | "webm" => "video/webm"
  | "mp3" => "audio/mpeg"
  | _ => "application/octet-stream"

def guessContentType (path : String) : String :=
  let name := if path = "/" then "index.html" else path
  contentTypeOf (String.ofList (Text.lastPiece '.' name.toList))

def isAssetRequest (path : String) : Bool :=
  (Text.lastPiece '/' path.toList).contains '.'

def etag (body : Bytes) : String :=
  digestHex body

def quoted (s : String) : String :=
  "\"" ++ s ++ "\""

def trimQuotes (s : List Char) : List Char :=
  Text.trimBy (· = '"') s

end Helpers

section Range

inductive RangeSpec where
  | unsatisfiable
  | bytes (first last : Nat)
deriving DecidableEq

def byteLength (s : List Char) : Nat :=
  (s.map Char.utf8Size).sum

/--
The part of `parse_range` after the unit.
-/
def parseRangeValue (value : List Char) (len : Nat) : Option RangeSpec :=
  if value.contains ',' then
    none
  else
    let (first, last) := (Text.splitOnce '-' value).getD (value, [])
    if first.isEmpty then
      if len = 0 then
        some .unsatisfiable
      else
        match Text.parseU64 last with
        | none => none
        | some n =>
          if n = 0 then
            some .unsatisfiable
          else
            some (.bytes (len - min n len) (len - 1))
    else
      match Text.parseU64 first with
      | none => none
      | some start =>
        if start ≥ len then
          some .unsatisfiable
        else if last.isEmpty then
          some (.bytes start (len - 1))
        else
          match Text.parseU64 last with
          | none => none
          | some stop => if stop < start then none else some (.bytes start (min stop (len - 1)))

/--
The part of `parse_range` after the header's name. The slice up to the unit's length panics when a
character lies across its end.
-/
def parseRangeSpec (spec : List Char) (len : Nat) : Except Panic (Option RangeSpec) :=
  if byteLength spec < 6 then
    .ok none
  else
    match prefixOfSize 6 spec with
    | none => .error .charBoundary
    | some unit =>
      if Text.eqIgnoreCase unit "bytes=".toList then
        .ok (parseRangeValue (spec.drop unit.length) len)
      else
        .ok none

/--
`parse_range`, for the bare value or for a whole header line.
-/
def parseRange (value : Option String) (len : Nat) : Except Panic (Option RangeSpec) :=
  match value with
  | none => .ok none
  | some value =>
    let spec := trimChars value.toList
    match Text.splitOnce ':' spec with
    | some (_, value) => parseRangeSpec (trimChars value) len
    | none => parseRangeSpec spec len

end Range

/--
The file that is served for a path, with the key it is served under.
-/
def resolve (files : Files) (path : String) : String × Option Bytes :=
  match files.lookup path with
  | some body => (path, some body)
  | none =>
    if isAssetRequest path then
      (path, none)
    else
      match files.lookup "/" with
      | some entrypoint => ("/", some entrypoint)
      | none => (path, none)

/--
A conditional request matches the file.
-/
def matchesEtag (ifNoneMatch : Option String) (body : Bytes) : Bool :=
  match ifNoneMatch with
  | none => false
  | some sent => trimChars (trimQuotes sent.toList) = trimQuotes (quoted (etag body)).toList

/--
What is sent in full: the file, or its `gzip` form where that is smaller.
-/
def encode (gzip : Bytes → Option Bytes) (acceptsGzip : Bool) (contentType : String)
    (body : Bytes) : Option Bytes :=
  if acceptsGzip && minCompressibleLen ≤ body.length && isCompressible contentType then
    (gzip body).filter fun gz => gz.length < body.length
  else
    none

section Responses

def notModified (contentType : String) (body : Bytes) : ServeResponse where
  status := "304 Not Modified"
  headers := [("Content-Type", contentType), ("ETag", quoted (etag body))]
  body := []

def notFound (contentType : String) : ServeResponse where
  status := "404 Not Found"
  headers := [("Content-Type", contentType)]
  body := []

def unsatisfiable (contentType : String) (len : Nat) : ServeResponse where
  status := "416 Range Not Satisfiable"
  headers := [("Content-Type", contentType), ("Accept-Ranges", "bytes"),
    ("Content-Range", "bytes */" ++ len.repr)]
  body := []

def partialContent (contentType : String) (body : Bytes) (first last : Nat) : ServeResponse where
  status := "206 Partial Content"
  headers := [("Content-Type", contentType), ("Content-Length", (last - first + 1).repr),
    ("Accept-Ranges", "bytes"),
    ("Content-Range", "bytes " ++ first.repr ++ "-" ++ last.repr ++ "/" ++ body.length.repr),
    ("ETag", quoted (etag body))]
  body := (body.drop first).take (last - first + 1)

def full (contentType : String) (body : Bytes) (encoded : Option Bytes) (sendBody : Bool) :
    ServeResponse :=
  let payload := encoded.getD body
  { status := "200 OK"
    headers := [("Content-Type", contentType), ("Content-Length", payload.length.repr),
        ("ETag", quoted (etag body)), ("Accept-Ranges", "bytes")] ++
      (if isCompressible contentType then
        ("Vary", "Accept-Encoding") ::
          (if encoded.isSome then [("Content-Encoding", "gzip")] else [])
      else
        [])
    body := if sendBody then payload else [] }

end Responses

/--
`render_response`
-/
def renderResponse (gzip : Bytes → Option Bytes) (files : Files) (method path : String)
    (headers : List (String × String)) : Except Panic ServeResponse := do
  let acceptsGzip :=
    ((header headers "accept-encoding").map fun v => Text.contains "gzip".toList v.toList).getD false
  let range := header headers "range"
  let ifNoneMatch := header headers "if-none-match"
  let (servedKey, found) := resolve files path
  let contentType := guessContentType servedKey
  match found with
  | none => pure (notFound contentType)
  | some body =>
    if (method = "GET" ∨ method = "HEAD") ∧ matchesEtag ifNoneMatch body then
      pure (notModified contentType body)
    else
      let spec ← if method = "GET" then parseRange range body.length else pure none
      match spec with
      | some .unsatisfiable => pure (unsatisfiable contentType body.length)
      | some (.bytes first last) => pure (partialContent contentType body first last)
      | none =>
        pure (full contentType body (encode gzip acceptsGzip contentType body) (method = "GET"))

end Http

namespace Runtime

/--
The path within the app, without a query.
-/
def appPath (path : String) : String :=
  let noQuery := Text.firstPiece '?' path.toList
  let path := if noQuery.isEmpty then path.toList else noQuery
  if "/".toList.isPrefixOf path then String.ofList path else "/"

/--
`Runtime::serve_request`
-/
def serveRequest (gzip : Bytes → Option Bytes) (files : Files) (request : ServeRequest) :
    Except Http.Panic ServeResponse :=
  Http.renderResponse gzip files request.method (appPath request.path) request.headers

end Runtime

end Canopee
