import Canopee.Edge.Forward
import Canopee.Lib.HttpStream
import Canopee.Results.Distribution
import Canopee.Results.LinkCheck
import Canopee.Results.RequestFraming

/-!
This module contains what a browser gets from an edge over a connection that stays open: one answer for
each of its requests, and for the requests that reach the publisher the pages of the published
directory.
-/

namespace Canopee

open Primitives

namespace Edge

open HttpStream (Message readMessage readMessages)

section Connection

/--
The answers to these requests, the first of which meets the first moment.
-/
def responses (moments : Nat → Moment) : List Request → Bytes
  | [] => []
  | request :: requests =>
    respond (moments 0) request ++ responses (fun k => moments (k + 1)) requests

theorem converse_eq (moments : Nat → Moment) (source : Source UInt8) :
    converse moments source =
      (responses moments ((handleClient source).1.map Prod.snd), (handleClient source).2) := by
  fun_induction converse moments source with
  | case1 moments source hdone =>
    rw [handleClient_of_done hdone]
    rfl
  | case2 moments source hfailed =>
    rw [handleClient_of_failed hfailed]
    rfl
  | case3 moments source start request rest hrequest hclose =>
    rw [handleClient_of_request hrequest, if_pos hclose, List.map_singleton, responses, responses,
      List.append_nil]
  | case4 moments source start request rest hrequest hclose later clean hlater ih =>
    rw [hlater, Prod.mk.injEq] at ih
    rw [handleClient_of_request hrequest, if_neg hclose, List.map_cons, responses, ih.1, ih.2]

/--
The message that a client reads of a response.
-/
def received (closeAfterResponse : Bool) (method : String) (response : ServeResponse) : Message where
  status := response.status.toList
  fields := (sentHeaders closeAfterResponse response).map fieldChars
  body := (writeResponse closeAfterResponse method response).2

theorem mem_fields_of_header {closeAfterResponse : Bool} {method : String} {response : ServeResponse}
    {field : String × String} (h : field ∈ response.headers) :
    fieldChars field ∈ (received closeAfterResponse method response).fields := by
  apply List.mem_map_of_mem
  unfold sentHeaders
  rw [List.append_assoc]
  exact List.mem_append_left _ h

theorem fst_of_mem_addedHeaders {response : ServeResponse} {field : String × String}
    (h : field ∈ addedHeaders response) : field.1 = "Content-Length" := by
  unfold addedHeaders at h
  split at h
  . rw [List.mem_singleton] at h
    rw [h]
  . cases h

theorem received_body {closeAfterResponse : Bool} {method : String} {response : ServeResponse}
    (hmethod : method ≠ "HEAD") (hsends : sendsBody response = true) :
    (received closeAfterResponse method response).body = response.body := by
  unfold received
  dsimp only
  rw [writeResponse_body, if_pos ⟨hsends, hmethod⟩]

def message (moment : Moment) (request : Request) : Message :=
  received request.closeAfterResponse request.method (forward moment request)

def messages (moments : Nat → Moment) : List Request → List Message
  | [] => []
  | request :: requests =>
    message (moments 0) request :: messages (fun k => moments (k + 1)) requests

theorem messages_getElem? (moments : Nat → Moment) (requests : List Request) (k : Nat) :
    (messages moments requests)[k]? = requests[k]?.map (message (moments k)) := by
  induction requests generalizing moments k with
  | nil => rfl
  | cons request requests ih =>
    cases k with
    | zero => rfl
    | succ k => exact ih (fun k => moments (k + 1)) k

theorem length_messages (moments : Nat → Moment) (requests : List Request) :
    (messages moments requests).length = requests.length := by
  induction requests generalizing moments with
  | nil => rfl
  | cons request requests ih => exact congrArg (· + 1) (ih _)

/--
A client can read what answers this request.
-/
structure Readable (moment : Moment) (request : Request) : Prop where
  relayable : Relayable (forward moment request)
  delimited : Delimited request.method
    (writeResponse request.closeAfterResponse request.method (forward moment request))

theorem bodyLength_sent {method : String} {closeAfterResponse : Bool} {response : ServeResponse}
    (hrelayable : Relayable response)
    (h : Delimited method (writeResponse closeAfterResponse method response)) :
    HttpStream.bodyLength method response.status.toList
        ((sentHeaders closeAfterResponse response).map fieldChars) =
      some (writeResponse closeAfterResponse method response).2.length := by
  obtain ⟨status, fields, hparse, hbody⟩ := h
  rw [parse_writeResponse hrelayable, Option.some.injEq, Prod.mk.injEq] at hparse
  obtain ⟨rfl, rfl⟩ := hparse
  unfold HttpStream.bodyLength
  split
  . next hbodyless =>
    rw [if_pos hbodyless] at hbody
    rw [hbody, List.length_nil]
  . next hbodyless =>
    rw [if_neg hbodyless] at hbody
    have hlengths : HttpStream.lengths ((sentHeaders closeAfterResponse response).map fieldChars) = _ :=
      hbody
    rw [hlengths]
    exact HttpStream.decimal_repr _

theorem readMessage_respond {moment : Moment} {request : Request} (h : Readable moment request)
    (rest : Bytes) :
    readMessage request.method (respond moment request ++ rest) =
      some (message moment request, rest) := by
  have hhead : Codec.utf8 (writeResponse request.closeAfterResponse request.method
      (forward moment request)).1 =
      Codec.utf8 (String.ofList (HttpHead.render (forward moment request).status.toList
        ((sentHeaders request.closeAfterResponse (forward moment request)).map fieldChars))) := by
    rw [← writeResponse_head request.closeAfterResponse request.method, String.ofList_toList]
  unfold respond
  dsimp only
  rw [hhead]
  exact HttpStream.readMessage_written h.relayable.status (plain_sentHeaders h.relayable _)
    (bodyLength_sent h.relayable h.delimited) rest

/--
A client reads one answer for each request from what is written back, in the order of the requests.
-/
theorem readMessages_responses {moments : Nat → Moment} {requests : List Request}
    (h : ∀ k request, requests[k]? = some request → Readable (moments k) request) :
    readMessages (requests.map Request.method) (responses moments requests) =
      some (messages moments requests) := by
  induction requests generalizing moments with
  | nil => rfl
  | cons request requests ih =>
    have hlater := @ih (fun k => moments (k + 1)) fun k other hother => h (k + 1) other hother
    rw [List.map_cons, responses, readMessages, readMessage_respond (h 0 request rfl),
      Option.bind_some]
    dsimp only
    rw [hlater]
    rfl

theorem map_requests (rs : List WireRequest) :
    (requests rs).map Prod.snd = rs.map WireRequest.request := by
  induction rs with
  | nil => rfl
  | cons r rs ih => exact congrArg (r.request :: ·) ih

/--
However the requests of a client arrive, it reads one answer for each of them.
-/
theorem readMessages_converse {rs : List WireRequest} (hrs : ∀ r ∈ rs, r.WellFormed)
    (hframable : Framable rs) {source : Source UInt8} (hrest : source.rest = stream rs)
    {moments : Nat → Moment}
    (h : ∀ k r, rs[k]? = some r → Readable (moments k) r.request) :
    converse moments source = (responses moments (rs.map WireRequest.request), true) ∧
      readMessages (rs.map fun r => String.ofList r.method) (converse moments source).1 =
        some (messages moments (rs.map WireRequest.request)) := by
  have hread := (handleClient_eq_iff hrs hrest).mpr hframable
  have hconverse : converse moments source =
      (responses moments (rs.map WireRequest.request), true) := by
    rw [converse_eq, hread, map_requests]
  have hmethods : (rs.map fun r => String.ofList r.method) =
      (rs.map WireRequest.request).map Request.method := by
    rw [List.map_map]
    apply List.map_congr_left
    intro r hr
    exact (WireRequest.request_target (hrs r hr)).1.symm
  refine ⟨hconverse, ?_⟩
  rw [hconverse, hmethods]
  apply readMessages_responses
  intro k request hk
  rw [List.getElem?_map, Option.map_eq_some_iff] at hk
  obtain ⟨r, hr, rfl⟩ := hk
  exact h k r hr

end Connection

section Own

theorem plain_plainText : PlainHeader plainText :=
  ⟨by decide, by decide, by decide⟩

theorem not_contentLength_plainText : isContentLength plainText.1.toList = false := by
  decide

theorem delimited_of_sendsBody {response : ServeResponse} (h : Relayable response)
    (hsends : sendsBody response = true)
    (hstatus : "304".toList.isPrefixOf response.status.toList = false)
    (hlengths : ownLengths response = [] ∨ ownLengths response = [response.body.length.repr.toList])
    (closeAfterResponse : Bool) (method : String) :
    Delimited method (writeResponse closeAfterResponse method response) := by
  by_cases hhead : method = "HEAD"
  . exact delimited_bodyless h (.inl hhead) (.inl hhead)
  . rw [delimited_iff h hhead hstatus, if_pos hsends]
    cases hlengths with
    | inl hnone => rw [if_pos ⟨hsends, hnone⟩]
    | inr hone => rw [hone, if_neg (by simp)]

theorem relayable_notFound (message : String) : Relayable (notFound message) where
  status := by
    simp only [notFound]
    decide
  headers := by
    simp only [notFound, List.forall_mem_cons, List.not_mem_nil, false_implies, implies_true, and_true]
    exact ⟨plain_plainText, plain_contentLength _⟩

theorem relayable_badGateway (e : String) : Relayable (badGateway e) where
  status := by
    simp only [badGateway]
    decide
  headers := by
    simp only [badGateway, List.mem_singleton, forall_eq]
    exact plain_plainText

theorem relayable_gatewayTimeout : Relayable gatewayTimeout where
  status := by
    simp only [gatewayTimeout]
    decide
  headers := by
    simp only [gatewayTimeout, List.mem_singleton, forall_eq]
    exact plain_plainText

theorem delimited_notFound (text : String) (closeAfterResponse : Bool) (method : String) :
    Delimited method (writeResponse closeAfterResponse method (notFound text)) := by
  apply delimited_of_sendsBody (relayable_notFound text)
  . simp only [sendsBody, notFound]
    decide
  . simp only [notFound]
    decide
  . right
    simp only [ownLengths, notFound, List.filter_cons, not_contentLength_plainText,
      isContentLength_contentLength]
    rfl

theorem delimited_badGateway (e : String) (closeAfterResponse : Bool) (method : String) :
    Delimited method (writeResponse closeAfterResponse method (badGateway e)) := by
  apply delimited_of_sendsBody (relayable_badGateway e)
  . simp only [sendsBody, badGateway]
    decide
  . simp only [badGateway]
    decide
  . left
    simp [ownLengths, badGateway, not_contentLength_plainText]

theorem delimited_gatewayTimeout (closeAfterResponse : Bool) (method : String) :
    Delimited method (writeResponse closeAfterResponse method gatewayTimeout) := by
  apply delimited_of_sendsBody relayable_gatewayTimeout
  . simp only [sendsBody, gatewayTimeout]
    decide
  . simp only [gatewayTimeout]
    decide
  . left
    simp [ownLengths, gatewayTimeout, not_contentLength_plainText]

/--
The publisher that this request reaches has answered it.
-/
def Moment.Answered (moment : Moment) (request : Request) (response : ServeResponse) : Prop :=
  ∃ peer, resolve moment.entries request.username moment.instant = some peer ∧
    moment.send peer request.serveRequest = .answered response

theorem forward_of_answered {moment : Moment} {request : Request} {response : ServeResponse}
    (h : moment.Answered request response) : forward moment request = response := by
  obtain ⟨peer, hresolve, hsend⟩ := h
  unfold forward
  rw [hresolve]
  dsimp only
  rw [hsend]

/--
What the edge says itself can be read.
-/
theorem readable_of_answered {moment : Moment} {request : Request}
    (h : ∀ response, moment.Answered request response → Relayable response ∧
      Delimited request.method (writeResponse request.closeAfterResponse request.method response)) :
    Readable moment request := by
  have hforward : Relayable (forward moment request) ∧ Delimited request.method
      (writeResponse request.closeAfterResponse request.method (forward moment request)) := by
    unfold forward
    split
    . exact ⟨relayable_notFound _, delimited_notFound _ _ _⟩
    . next peer hresolve =>
      split
      . next response hsend => exact h response ⟨peer, hresolve, hsend⟩
      . exact ⟨relayable_badGateway _, delimited_badGateway _ _ _⟩
      . exact ⟨relayable_gatewayTimeout, delimited_gatewayTimeout _ _⟩
  exact ⟨hforward.1, hforward.2⟩

end Own

end Edge

variable [Primitives]

namespace Http

open Edge (Relayable sentHeaders writeResponse sendsBody)
open HttpStream (Message)

section Rendered

variable {gzip gunzip : Bytes → Option Bytes} {files : Files} {method path : String} {page : Bytes}
variable {headers : List (String × String)} {response : ServeResponse}

/--
What is rendered, and for what file.
-/
inductive Rendered (gzip : Bytes → Option Bytes) (files : Files) (method path : String)
    (headers : List (String × String)) : ServeResponse → Prop where
  | missing (hfound : (resolve files path).2 = none) :
      Rendered gzip files method path headers
        (notFound (guessContentType (resolve files path).1))
  | unchanged {page : Bytes} (hfound : (resolve files path).2 = some page)
      (hmatches : matchesEtag (header headers "if-none-match") page = true) :
      Rendered gzip files method path headers
        (notModified (guessContentType (resolve files path).1) page)
  | unsatisfiable {page : Bytes} (hfound : (resolve files path).2 = some page)
      (hmatches : matchesEtag (header headers "if-none-match") page = false)
      (hget : method = "GET")
      (hrange : parseRange (header headers "range") page.length = .ok (some .unsatisfiable)) :
      Rendered gzip files method path headers
        (unsatisfiable (guessContentType (resolve files path).1) page.length)
  | part {page : Bytes} {first last : Nat} (hfound : (resolve files path).2 = some page)
      (hrange : parseRange (header headers "range") page.length = .ok (some (.bytes first last))) :
      Rendered gzip files method path headers
        (partialContent (guessContentType (resolve files path).1) page first last)
  | whole {page : Bytes} (acceptsGzip : Bool) (hfound : (resolve files path).2 = some page) :
      Rendered gzip files method path headers
        (full (guessContentType (resolve files path).1) page
          (encode gzip acceptsGzip (guessContentType (resolve files path).1) page) (method = "GET"))

theorem rendered (h : renderResponse gzip files method path headers = .ok response) :
    Rendered gzip files method path headers response := by
  rw [renderResponse_eq] at h
  cases hfound : (resolve files path).2 with
  | none =>
    rw [hfound] at h
    cases h
    exact .missing hfound
  | some page =>
    rw [hfound, respond] at h
    cases hmatches : matchesEtag (header headers "if-none-match") page with
    | true =>
      rw [hmatches] at h
      split at h
      . cases h
        exact .unchanged hfound hmatches
      . next hneither =>
        have hget : method ≠ "GET" := fun hget => hneither ⟨.inl hget, rfl⟩
        rw [if_neg hget] at h
        cases h
        exact .whole _ hfound
    | false =>
      rw [hmatches, if_neg (fun hboth => Bool.false_ne_true hboth.2)] at h
      by_cases hget : method = "GET"
      . rw [if_pos hget] at h
        cases hrange : parseRange (header headers "range") page.length with
        | error panic =>
          rw [hrange] at h
          cases h
        | ok spec =>
          rw [hrange] at h
          cases h
          cases spec with
          | none => exact .whole _ hfound
          | some spec =>
            cases spec with
            | unsatisfiable => exact .unsatisfiable hfound hmatches hget hrange
            | bytes first last => exact .part hfound hrange
      . rw [if_neg hget] at h
        cases h
        exact .whole _ hfound

theorem Rendered.relayable (h : Rendered gzip files method path headers response) :
    Relayable response := by
  cases h with
  | missing => exact relayable_notFound _
  | unchanged => exact relayable_notModified _ _
  | unsatisfiable => exact relayable_unsatisfiable _ _
  | part => exact relayable_partialContent _ _ _ _
  | whole => exact relayable_full _ _ _ _

/--
The content of a message, whose body may be compressed.
-/
def content (gunzip : Bytes → Option Bytes) (message : Message) : Option Bytes :=
  if fieldChars ("Content-Encoding", "gzip") ∈ message.fields then
    gunzip message.body
  else
    some message.body

/--
The `ETag` of a message.
-/
def tag (message : Message) : Option (List Char) :=
  (message.fields.find? fun field => Text.eqIgnoreCase field.1 "etag".toList).map Prod.snd

/--
What the answer to a `GET` with these headers shows of a page: all of it, the part that was asked for,
or that it is the one that the client holds.
-/
inductive Shows (gunzip : Bytes → Option Bytes) (headers : List (String × String)) (page : Bytes)
    (message : Message) : Prop where
  | whole (hstatus : message.status = "200 OK".toList)
      (htag : tag message = some (quoted (etag page)).toList)
      (hcontent : content gunzip message = some page)
  | part {first last : Nat} (hstatus : message.status = "206 Partial Content".toList)
      (hasked : parseRange (header headers "range") page.length = .ok (some (.bytes first last)))
      (hbody : message.body = (page.drop first).take (last - first + 1))
  | unchanged (hstatus : message.status = "304 Not Modified".toList)
      (hmatches : matchesEtag (header headers "if-none-match") page = true)

omit [Primitives] in
theorem encode_eq_some {acceptsGzip : Bool} {contentType : String} {gz : Bytes}
    (h : encode gzip acceptsGzip contentType page = some gz) :
    isCompressible contentType = true ∧ gzip page = some gz := by
  unfold encode at h
  split at h
  . next hencodes =>
    rw [Bool.and_eq_true] at hencodes
    exact ⟨hencodes.2, (Option.filter_eq_some_iff.mp h).1⟩
  . cases h

theorem mem_names_of_plain {closeAfterResponse : Bool} {contentType : String}
    {field : String × String}
    (h : field ∈ sentHeaders closeAfterResponse (full contentType page none true)) :
    field.1 ∈ ["Content-Type", "Content-Length", "ETag", "Accept-Ranges", "Vary", "Connection"] := by
  unfold sentHeaders at h
  simp only [List.mem_append, List.mem_singleton] at h
  rcases h with (h | h) | rfl
  . simp only [full, Option.isSome_none, Bool.false_eq_true, if_false, List.mem_append, List.mem_cons,
      List.not_mem_nil, or_false] at h
    rcases h with (rfl | rfl | rfl | rfl) | h
    . simp
    . simp
    . simp
    . simp
    . split at h
      . rw [List.mem_singleton] at h
        rw [h]
        simp
      . cases h
  . rw [Edge.fst_of_mem_addedHeaders h]
    simp
  . simp

theorem content_full (hgzip : ∀ gz, gzip page = some gz → gunzip gz = some page)
    (closeAfterResponse acceptsGzip : Bool) (contentType : String) :
    content gunzip (Edge.received closeAfterResponse "GET"
      (full contentType page (encode gzip acceptsGzip contentType page) true)) = some page := by
  have hbody : (Edge.received closeAfterResponse "GET"
      (full contentType page (encode gzip acceptsGzip contentType page) true)).body =
        (full contentType page (encode gzip acceptsGzip contentType page) true).body :=
    Edge.received_body (by decide) (by simp only [sendsBody, full]; decide)
  unfold content
  rw [hbody]
  cases hencode : encode gzip acceptsGzip contentType page with
  | some gz =>
    obtain ⟨hcompressible, hgz⟩ := encode_eq_some hencode
    rw [if_pos]
    . exact hgzip gz hgz
    . apply Edge.mem_fields_of_header
      simp [full, hcompressible]
  | none =>
    rw [if_neg]
    . rfl
    . intro hmem
      obtain ⟨field, hfield, hencoding⟩ := List.mem_map.mp hmem
      have hname : field.1 = "Content-Encoding" :=
        String.toList_inj.mp (congrArg Prod.fst hencoding)
      have hnames := mem_names_of_plain hfield
      rw [hname] at hnames
      exact absurd hnames (by decide)

theorem tag_full (closeAfterResponse : Bool) (contentType : String) (encoded : Option Bytes)
    (sendBody : Bool) :
    tag (Edge.received closeAfterResponse "GET" (full contentType page encoded sendBody)) =
      some (quoted (etag page)).toList := by
  have htype : Text.eqIgnoreCase "Content-Type".toList "etag".toList = false := by decide
  have hlength : Text.eqIgnoreCase "Content-Length".toList "etag".toList = false := by decide
  have htag : Text.eqIgnoreCase "ETag".toList "etag".toList = true := by decide
  unfold tag Edge.received sentHeaders full
  simp only [List.append_assoc, List.map_append, List.map_cons, List.cons_append, fieldChars,
    List.find?_cons, htype, hlength, htag]
  rfl

/--
The rendered answer to a `GET` shows the page that is served for its path.
-/
theorem Rendered.shows (h : Rendered gzip files "GET" path headers response)
    (hframable : Framable files "GET" path headers) (hfound : (resolve files path).2 = some page)
    (hgzip : ∀ gz, gzip page = some gz → gunzip gz = some page) (closeAfterResponse : Bool) :
    Shows gunzip headers page (Edge.received closeAfterResponse "GET" response) := by
  have hsame {other : Bytes} (hother : (resolve files path).2 = some other) : other = page :=
    Option.some.inj (hother.symm.trans hfound)
  cases h with
  | missing hmissing =>
    rw [hfound] at hmissing
    cases hmissing
  | unchanged hother hmatches =>
    obtain rfl := hsame hother
    exact .unchanged (by simp only [Edge.received, notModified]) hmatches
  | unsatisfiable hother hmatches _ hrange =>
    obtain rfl := hsame hother
    exact absurd hrange ((hframable _ hfound).1 rfl hmatches)
  | part hother hrange =>
    obtain rfl := hsame hother
    apply Shows.part (by simp only [Edge.received, partialContent]) hrange
    rw [Edge.received_body (by decide)]
    . rfl
    . simp only [sendsBody, partialContent]
      decide
  | whole acceptsGzip hother =>
    obtain rfl := hsame hother
    apply Shows.whole (by simp only [Edge.received, full])
    . exact tag_full _ _ _ _
    . exact content_full hgzip _ _ _

theorem Rendered.not_found (h : Rendered gzip files method path headers response)
    (hfound : (resolve files path).2 = none) :
    response = notFound (guessContentType (resolve files path).1) := by
  cases h with
  | missing => rfl
  | unchanged hother => cases hfound.symm.trans hother
  | unsatisfiable hother => cases hfound.symm.trans hother
  | part hother => cases hfound.symm.trans hother
  | whole _ hother => cases hfound.symm.trans hother

end Rendered

end Http

namespace Edge

open HttpStream (Message readMessages)
open Http (Shows)

section Publisher

variable {gzip gunzip : Bytes → Option Bytes} {files : Files} {moment : Moment} {request : Request}

/--
What a publisher of these files answers, if the request reaches it: what it renders. No range is
unsatisfiable and no file with content meets another method.
-/
def Moment.Publishes (moment : Moment) (gzip : Bytes → Option Bytes) (files : Files)
    (request : Request) : Prop :=
  ∀ response, moment.Answered request response →
    Runtime.serveRequest gzip files request.serveRequest = .ok response ∧
      Http.Framable files request.method (Runtime.appPath request.path) request.forwarded

theorem Moment.Publishes.readable (h : moment.Publishes gzip files request)
    (hgzip : ∀ body gz, gzip body = some gz → gz ≠ []) : Readable moment request := by
  apply readable_of_answered
  intro response hanswered
  obtain ⟨hserve, hframable⟩ := h response hanswered
  exact ⟨(Http.rendered hserve).relayable,
    (Http.delimited_renderResponse_iff hgzip hserve request.closeAfterResponse).mpr hframable⟩

theorem Moment.Publishes.shows (h : moment.Publishes gzip files request)
    (hgunzip : ∀ body gz, gzip body = some gz → gunzip gz = some body) {response : ServeResponse}
    (hanswered : moment.Answered request response) (hget : request.method = "GET") {page : Bytes}
    (hpage : (Http.resolve files (Runtime.appPath request.path)).2 = some page) :
    Shows gunzip request.forwarded page (message moment request) := by
  obtain ⟨hserve, hframable⟩ := h response hanswered
  unfold Runtime.serveRequest Request.serveRequest at hserve
  rw [hget] at hserve hframable
  unfold message
  rw [forward_of_answered hanswered, hget]
  exact (Http.rendered hserve).shows hframable hpage (hgunzip page) _

theorem Moment.Publishes.not_found (h : moment.Publishes gzip files request)
    {response : ServeResponse} (hanswered : moment.Answered request response)
    (hpage : (Http.resolve files (Runtime.appPath request.path)).2 = none) :
    (message moment request).status = "404 Not Found".toList ∧ (message moment request).body = [] := by
  obtain ⟨hserve, _⟩ := h response hanswered
  have hresponse := (Http.rendered hserve).not_found hpage
  unfold message
  rw [forward_of_answered hanswered, hresponse]
  constructor
  . simp only [received, Http.notFound]
  . unfold received
    dsimp only
    rw [writeResponse_body, Http.notFound, ite_self]

end Publisher

end Edge

namespace Cli

open Edge (Moment WireRequest converse)
open HttpStream (Message readMessages)
open Canopee.Runtime (appPath loadAppFiles)
open Prog (exec)

section Browse

/--
The page that the site has for a path. A path that names no asset is left to the first page.
-/
def Site.opens (site : Site) (path : String) : Option Bytes :=
  match site.page path with
  | some page => some page
  | none => if Http.isAssetRequest path then none else site.page "/"

omit [Primitives] in
theorem resolve_eq_opens {site : Site} {files : Files}
    (h : ∀ path, files.lookup path = site.page path) (path : String) :
    (Http.resolve files path).2 = site.opens path := by
  unfold Http.resolve Site.opens
  rw [h path, h "/"]
  cases site.page path with
  | some page => rfl
  | none =>
    dsimp only
    split
    . rfl
    . cases site.page "/" with
      | some page => rfl
      | none => rfl

/--
What a browser reads of the answer to a request for a path of the site.
-/
def Site.Answers (site : Site) (gunzip : Bytes → Option Bytes) (request : Edge.Request)
    (message : Message) : Prop :=
  match site.opens (appPath request.path) with
  | some page => Http.Shows gunzip request.forwarded page message
  | none => message.status = "404 Not Found".toList ∧ message.body = []

end Browse

end Cli

end Canopee

namespace Canopee.Cli

open Canopee.Transparent
open Edge (Moment WireRequest converse)
open HttpStream (readMessages)
open Prog (exec)

section Witness

/--
A request for the style sheet.
-/
def styling : WireRequest where
  method := "GET".toList
  target := "/css/main.css".toList
  headers := [Codec.utf8 "Host: garden.edge"]
  body := []

theorem fieldLine_garden : Edge.FieldLine (Codec.utf8 "Host: garden.edge") := by
  refine ⟨Codec.utf8 "Host", Codec.utf8 " garden.edge", by decide, by decide, ?_, ?_⟩
  . apply Codec.forall_mem_of_all
    decide
  . apply Codec.forall_mem_of_all
    decide

theorem wellFormed_styling : styling.WellFormed where
  method := ⟨by decide, Codec.forall_mem_of_all (by decide)⟩
  target := ⟨by decide, Codec.forall_mem_of_all (by decide)⟩
  headers := by
    simp only [styling, List.mem_singleton, forall_eq]
    exact fieldLine_garden
  body := .inl (by decide)

theorem framable_styling : Edge.Framable [styling] := by
  refine ⟨?_, ?_⟩
  . unfold WireRequest.Decodable
    decide
  . rw [if_neg (by decide)]
    exact ⟨Edge.blank_nil, trivial⟩

theorem request_styling : styling.request = ⟨"GET", "/css/main.css", "garden", false, []⟩ := by
  decide

/--
The publisher is registered, and answers with what it renders.
-/
def serving (files : Files) : Moment where
  entries := AList.singleton "garden" ⟨⟨"p"⟩, alice.id.text, 0⟩
  instant := 0
  send _ request :=
    match Runtime.serveRequest Http.stored files request with
    | .ok response => .answered response
    | .error _ => .failed "connection closed"

theorem publishes_serving (files : Files) :
    (serving files).Publishes Http.stored files styling.request := by
  rintro response ⟨peer, _, hsend⟩
  constructor
  . unfold serving at hsend
    dsimp only at hsend
    split at hsend
    . next rendered hrendered =>
      cases hsend
      exact hrendered
    . cases hsend
  . rw [request_styling]
    intro body _
    refine ⟨?_, ?_⟩
    . intro _ _ hrange
      cases hrange
    . intro hne
      exact absurd rfl hne

theorem answered_serving {files : Files} {page : Bytes}
    (h : (Http.resolve files "/css/main.css").2 = some page) :
    ∃ response, (serving files).Answered styling.request response := by
  have hpath : Runtime.appPath "/css/main.css" = "/css/main.css" := by decide
  have hserve : ∃ response, Runtime.serveRequest Http.stored files styling.request.serveRequest =
      .ok response := by
    rw [request_styling]
    unfold Runtime.serveRequest Edge.Request.serveRequest
    dsimp only
    rw [hpath, Http.renderResponse_eq, h]
    exact ⟨_, rfl⟩
  obtain ⟨response, hresponse⟩ := hserve
  refine ⟨response, ⟨"p"⟩, ?_, ?_⟩
  . rw [request_styling]
    have hresolve : Edge.resolve (AList.singleton "garden" ⟨⟨"p"⟩, alice.id.text, 0⟩) "garden" 0 =
        some ⟨"p"⟩ := by
      decide
    exact hresolve
  . unfold serving
    dsimp only
    rw [hresponse]

end Witness

end Canopee.Cli
