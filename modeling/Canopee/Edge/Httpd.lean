import Canopee.Lib.Source
import Canopee.Runtime.Http

/-!
This module contains the HTTP side of an edge: how it reads the requests of browsers and writes the
responses of publishers.
-/

namespace Canopee

namespace Edge

open Http (trimChars)

/--
A request as far as the edge understands it.
-/
structure Request where
  method : String
  path : String
  username : String
  closeAfterResponse : Bool
  forwarded : List (String × String)
deriving DecidableEq

/--
The method, the target and the version of a request line, with the defaults for what it lacks.
-/
def requestParts (requestLine : List Char) : String × List Char × List Char :=
  match Text.splitBy isWhitespace requestLine with
  | [] => ("GET", ['/'], "HTTP/1.1".toList)
  | [method] => (String.ofList method, ['/'], "HTTP/1.1".toList)
  | [method, target] => (String.ofList method, target, "HTTP/1.1".toList)
  | method :: target :: version :: _ => (String.ofList method, target, version)

/--
The variables that the loop over the header lines sets.
-/
structure Head where
  closeAfterResponse : Bool
  range : Option String
  acceptsGzip : Bool
  ifNoneMatch : Option String
  host : Option String
deriving DecidableEq

namespace Head

def start (version : List Char) : Head where
  closeAfterResponse := version = "HTTP/1.0".toList
  range := none
  acceptsGzip := false
  ifNoneMatch := none
  host := none

/--
One header line.
-/
def read (head : Head) (line : List Char) : Head :=
  let lower := Text.lower line
  if let some value := Text.stripPrefix "connection:".toList lower then
    { head with closeAfterResponse := trimChars value = "close".toList }
  else if let some value := Text.stripPrefix "host:".toList lower then
    { head with host := some (String.ofList (trimChars value)) }
  else if let some value := Text.stripPrefix "range:".toList lower then
    { head with range := some (String.ofList (trimChars value)) }
  else if let some value := Text.stripPrefix "accept-encoding:".toList lower then
    { head with acceptsGzip := Text.contains "gzip".toList value }
  else if let some value := Text.stripPrefix "if-none-match:".toList lower then
    { head with ifNoneMatch := some (String.ofList (trimChars value)) }
  else
    head

def forwarded (head : Head) : List (String × String) :=
  (head.range.map fun range => ("range", range)).toList ++
    (if head.acceptsGzip then [("accept-encoding", "gzip")] else []) ++
    (head.ifNoneMatch.map fun ifNoneMatch => ("if-none-match", ifNoneMatch)).toList

end Head

/--
The first DNS label of the `Host` header.
-/
def hostSubdomain (host : String) : String :=
  let host := trimChars (Text.firstPiece ':' host.toList)
  String.ofList (Text.lower (Text.firstPiece '.' host))

/--
The request that is made of a request line and of what was read from the header lines.
-/
def Head.request (head : Head) (requestLine : List Char) : Request where
  method := (requestParts requestLine).1
  path := String.ofList (Text.firstPiece '?' (requestParts requestLine).2.1)
  username := (head.host.map hostSubdomain).getD ""
  closeAfterResponse := head.closeAfterResponse
  forwarded := head.forwarded

/--
The request of a request line and the header lines that follow it.
-/
def request (requestLine : List Char) (lines : List (List Char)) : Request :=
  (lines.foldl Head.read (Head.start (requestParts requestLine).2.2)).request requestLine

section Reading

/--
What reading a line gives: no bytes at all, bytes that are no text, or a line with its end.
-/
inductive LineRead where
  | eof
  | invalid
  | line (text : List Char) (rest : Source UInt8)

def readLine (source : Source UInt8) : LineRead :=
  let (bytes, rest) := source.readUntil (· = 10)
  if bytes.isEmpty then
    .eof
  else
    match Codec.ofUtf8 bytes with
    | none => .invalid
    | some text => .line text.toList rest

theorem readLine_length {source rest : Source UInt8} {text : List Char}
    (h : readLine source = .line text rest) : rest.rest.length < source.rest.length := by
  have ⟨hline, hrest⟩ := source.readUntil_rest (p := (· = 10))
  unfold readLine at h
  dsimp only at h
  split at h
  . cases h
  . next hne =>
    split at h
    . cases h
    . cases h
      have hcut := congrArg List.length (Source.cut_append (p := (· = 10)) source.rest)
      rw [List.isEmpty_iff, hline] at hne
      rw [List.length_append] at hcut
      have hpos := List.length_pos_of_ne_nil hne
      rw [hrest]
      omega

/--
The loop over the header lines, which ends with an empty line or with the stream. No line that is
not a text is survived.
-/
def readHeaders (source : Source UInt8) (head : Head) : Option (Head × Source UInt8) :=
  match _h : readLine source with
  | .eof => some (head, source)
  | .invalid => none
  | .line text rest =>
    if text = "\r\n".toList ∨ text = "\n".toList then
      some (head, rest)
    else
      readHeaders rest (head.read text)
termination_by source.rest.length
decreasing_by exact readLine_length _h

inductive RequestRead where
  | done
  | failed
  | request (start : Bytes) (request : Request) (rest : Source UInt8)

/--
`read_request`; `start` is what the stream held from the first character of the request line on.
-/
def readRequest (source : Source UInt8) : RequestRead :=
  match _h : readLine source with
  | .eof => .done
  | .invalid => .failed
  | .line text rest =>
    if (trimChars text).isEmpty then
      readRequest rest
    else
      match readHeaders rest (Head.start (requestParts text).2.2) with
      | none => .failed
      | some (head, left) =>
        .request (Codec.utf8 (String.ofList (text.dropWhile isWhitespace)) ++ rest.rest)
          (head.request text) left
termination_by source.rest.length
decreasing_by exact readLine_length _h

theorem readHeaders_length {source rest : Source UInt8} {head head' : Head}
    (h : readHeaders source head = some (head', rest)) :
    rest.rest.length ≤ source.rest.length := by
  fun_induction readHeaders source head with
  | case1 source head heof =>
    cases h
    rfl
  | case2 => cases h
  | case3 source head text left hline hblank =>
    cases h
    exact (readLine_length hline).le
  | case4 source head text left hline hblank ih => exact (ih h).trans (readLine_length hline).le

theorem readRequest_length {source rest : Source UInt8} {start : Bytes} {request : Request}
    (h : readRequest source = .request start request rest) :
    rest.rest.length < source.rest.length := by
  fun_induction readRequest source with
  | case1 => cases h
  | case2 => cases h
  | case3 source text left hline hblank ih => exact (ih h).trans (readLine_length hline)
  | case4 => cases h
  | case5 source text left hline hblank head left' hheaders =>
    cases h
    exact (readHeaders_length hheaders).trans_lt (readLine_length hline)

/--
The loop of `handle_client`: the requests that it answers, each with what the stream held from its
start on, and whether it ends without an error.
-/
def handleClient (source : Source UInt8) : List (Bytes × Request) × Bool :=
  match _h : readRequest source with
  | .done => ([], true)
  | .failed => ([], false)
  | .request start request rest =>
    if request.closeAfterResponse then
      ([(start, request)], true)
    else
      let (later, clean) := handleClient rest
      ((start, request) :: later, clean)
termination_by source.rest.length
decreasing_by exact readRequest_length _h

end Reading

/--
The status codes with which `write_response` sends a body.
-/
def bodyStatuses : List String := ["200", "206", "404", "500", "502", "504"]

/--
`write_response`: the text of the head, and the body that follows it.
-/
def writeResponse (closeAfterResponse : Bool) (method : String) (response : ServeResponse) :
    String × Bytes :=
  let connection := if closeAfterResponse then "close" else "keep-alive"
  let hasContentLength := response.headers.any fun (name, _) =>
    Text.eqIgnoreCase name.toList "content-length".toList
  let sendsBody := bodyStatuses.any fun code => code.toList.isPrefixOf response.status.toList
  let header := response.headers.foldl (fun header (name, value) =>
    header ++ (name ++ ": " ++ value ++ "\r\n")) ("HTTP/1.1 " ++ response.status ++ "\r\n")
  let header :=
    if sendsBody && !hasContentLength then
      header ++ ("Content-Length: " ++ response.body.length.repr ++ "\r\n")
    else
      header
  (header ++ ("Connection: " ++ connection ++ "\r\n\r\n"),
    if sendsBody && !response.body.isEmpty && method != "HEAD" then response.body else [])

end Edge

end Canopee
