import Canopee.Results.Browsing

/-!
This module contains that a browser that holds pages and asks whether they are still current never
shows one that is not.
-/

namespace Canopee

open Primitives

variable [Primitives]

namespace Edge

open Http (content etag header matchesEtag quoted tag trimChars Shows)
open HttpStream (Message readMessage)

section Browser

/--
A page that a browser holds, with the tag that it came with.
-/
structure Held where
  tag : List Char
  page : Bytes

/--
What a browser holds, under the host and the path that it got it for.
-/
abbrev Cache := AList fun _ : List Char × List Char => Held

def fieldLine (name value : List Char) : Bytes :=
  Codec.utf8 (String.ofList (name ++ ": ".toList ++ value))

/--
The request of a browser for a path, of which it may hold a page.
-/
def ask (host path : List Char) (held : Option Held) : WireRequest where
  method := "GET".toList
  target := path
  headers := fieldLine "Host".toList host :: fieldLine "Accept-Encoding".toList "gzip".toList ::
    (held.map fun held => fieldLine "If-None-Match".toList held.tag).toList
  body := []

/--
What a browser holds and what it shows after an answer, given what it has held.
-/
def display (gunzip : Bytes → Option Bytes) (held : Option Held) (message : Message) :
    Option Held × Option Bytes :=
  if message.status = "304 Not Modified".toList then
    (held, held.map Held.page)
  else if message.status = "200 OK".toList then
    match tag message, content gunzip message with
    | some tag, some page => (some ⟨tag, page⟩, some page)
    | _, _ => (held, none)
  else
    (held, none)

/--
A visit of a path: what the request meets at the edge, and how its bytes arrive there.
-/
structure Visit where
  host : List Char
  path : List Char
  moment : Moment
  arrive : Bytes → Source UInt8

def Visit.url (visit : Visit) : List Char × List Char :=
  (visit.host, visit.path)

def Visit.asked (visit : Visit) (cache : Cache) : WireRequest :=
  ask visit.host visit.path (cache.lookup visit.url)

/--
What the browser holds after a visit, and what it shows.
-/
def Visit.make (gunzip : Bytes → Option Bytes) (visit : Visit) (cache : Cache) :
    Cache × Option Bytes :=
  let written := (converse (fun _ => visit.moment) (visit.arrive (visit.asked cache).serialize)).1
  match readMessage "GET" written with
  | none => (cache, none)
  | some (message, _) =>
    match display gunzip (cache.lookup visit.url) message with
    | (some held, shown) => (cache.insert visit.url held, shown)
    | (none, shown) => (cache, shown)

/--
What the browser shows in one visit after the other.
-/
def tour (gunzip : Bytes → Option Bytes) (cache : Cache) : List Visit → List (Option Bytes)
  | [] => []
  | visit :: visits =>
    (visit.make gunzip cache).2 :: tour gunzip (visit.make gunzip cache).1 visits

end Browser

section Asking

variable {host path : List Char} {held : Option Held}

omit [Primitives] in
theorem read_host (head : Head) (value : List Char) :
    head.read ("Host: ".toList ++ value) =
      { head with host := some (String.ofList (trimChars (' ' :: Text.lower value))) } := by
  have hlower : Text.lower ("Host: ".toList ++ value) = "host:".toList ++ (' ' :: Text.lower value) := by
    simp [Text.lower]
  have hstrip := Text.stripPrefix_eq_some_iff.mpr hlower
  unfold Head.read
  dsimp only
  rw [Text.stripPrefix_eq_none_of_some hstrip (by decide), hstrip]

omit [Primitives] in
theorem read_encoding (head : Head) :
    head.read "Accept-Encoding: gzip\r\n".toList = { head with acceptsGzip := true } := by
  have hlower : Text.lower "Accept-Encoding: gzip\r\n".toList =
      "accept-encoding:".toList ++ " gzip\r\n".toList := by
    decide
  have hstrip := Text.stripPrefix_eq_some_iff.mpr hlower
  unfold Head.read
  dsimp only
  rw [Text.stripPrefix_eq_none_of_some hstrip (by decide),
    Text.stripPrefix_eq_none_of_some hstrip (by decide),
    Text.stripPrefix_eq_none_of_some hstrip (by decide), hstrip]
  have hcontains : Text.contains "gzip".toList " gzip\r\n".toList = true := by decide
  dsimp only
  rw [hcontains]

omit [Primitives] in
theorem read_match (head : Head) (value : List Char) :
    head.read ("If-None-Match: ".toList ++ value) =
      { head with ifNoneMatch := some (String.ofList (trimChars (' ' :: Text.lower value))) } := by
  have hlower : Text.lower ("If-None-Match: ".toList ++ value) =
      "if-none-match:".toList ++ (' ' :: Text.lower value) := by
    simp [Text.lower]
  have hstrip := Text.stripPrefix_eq_some_iff.mpr hlower
  unfold Head.read
  dsimp only
  rw [Text.stripPrefix_eq_none_of_some hstrip (by decide),
    Text.stripPrefix_eq_none_of_some hstrip (by decide),
    Text.stripPrefix_eq_none_of_some hstrip (by decide),
    Text.stripPrefix_eq_none_of_some hstrip (by decide), hstrip]

omit [Primitives] in
theorem ofUtf8_fieldLine (name value : List Char) :
    Codec.ofUtf8 (fieldLine name value ++ crlf) =
      some (String.ofList (name ++ ": ".toList ++ value ++ "\r\n".toList)) := by
  have hbytes : fieldLine name value ++ crlf =
      Codec.utf8 (String.ofList (name ++ ": ".toList ++ value ++ "\r\n".toList)) := by
    rw [utf8_append_ofList]
    rfl
  rw [hbytes, Codec.ofUtf8_utf8]

omit [Primitives] in
theorem mem_utf8_printable {value : List Char} (h : ∀ c ∈ value, 32 ≤ c.toNat ∧ c.toNat < 127)
    {b : UInt8} (hb : b ∈ Codec.utf8 (String.ofList value)) : 32 ≤ b ∧ b ≠ 127 := by
  rw [Codec.utf8_ofList, List.mem_flatMap] at hb
  obtain ⟨c, hc, hb⟩ := hb
  have hrange := h c hc
  rw [Codec.utf8EncodeChar_ascii (by omega), List.mem_singleton] at hb
  have htoNat : b.toNat = c.toNat := by
    rw [hb, UInt8.toNat_ofNat', Nat.mod_eq_of_lt (by omega)]
  constructor
  . rw [UInt8.le_iff_toNat_le, htoNat]
    exact hrange.1
  . rintro rfl
    have hdelete : (127 : UInt8).toNat = 127 := rfl
    omega

omit [Primitives] in
theorem fieldLine_field {name value : List Char} (hne : Codec.utf8 (String.ofList name) ≠ [])
    (hname : ∀ b ∈ Codec.utf8 (String.ofList name), 33 ≤ b ∧ b < 127 ∧ b ≠ 58)
    (hvalue : ∀ c ∈ value, 32 ≤ c.toNat ∧ c.toNat < 127) : FieldLine (fieldLine name value) := by
  refine ⟨Codec.utf8 (String.ofList name), Codec.utf8 (String.ofList (' ' :: value)), ?_, hne, hname, ?_⟩
  . unfold fieldLine
    rw [List.append_assoc, utf8_append_ofList]
    have hcolon : Codec.utf8 (String.ofList (": ".toList ++ value)) =
        Codec.utf8 (String.ofList [':']) ++ Codec.utf8 (String.ofList (' ' :: value)) :=
      utf8_append_ofList [':'] (' ' :: value)
    rw [hcolon]
    rfl
  . intro b hb
    right
    apply mem_utf8_printable _ hb
    intro c hc
    rcases List.mem_cons.mp hc with rfl | hc
    . decide
    . exact hvalue c hc

omit [Primitives] in
theorem contentLength?_fieldLine {name : List Char} {lower : Bytes}
    (hlower : (Codec.utf8 (String.ofList name)).map (fun b =>
      if 65 ≤ b ∧ b ≤ 90 then b + 32 else b) = lower)
    (hother : ¬ lower <+: Codec.utf8 "content-length:" ∧ ¬ Codec.utf8 "content-length:" <+: lower)
    (value : List Char) : contentLength? (fieldLine name value) = none := by
  unfold contentLength? fieldLine
  dsimp only
  rw [List.append_assoc, utf8_append_ofList, List.map_append, hlower]
  rw [Text.stripPrefix_eq_none_of_some (Text.stripPrefix_eq_some_iff.mpr rfl) hother]
  rfl

/--
The tag that comes with a page is a text in quotation marks, in lower case.
-/
theorem tag_chars (page : Bytes) : ∀ c ∈ (quoted (etag page)).toList,
    c.toLower = c ∧ isWhitespace c = false ∧ 32 ≤ c.toNat ∧ c.toNat < 127 := by
  have hhex : ∀ k : Fin 16, (Nat.digitChar k).toLower = Nat.digitChar k ∧
      isWhitespace (Nat.digitChar k) = false ∧ 32 ≤ (Nat.digitChar k).toNat ∧
      (Nat.digitChar k).toNat < 127 := by
    decide
  intro c hc
  simp only [quoted, String.toList_append, List.mem_append] at hc
  rcases hc with (hc | hc) | hc
  . have hquote : c = '"' := List.mem_singleton.mp hc
    rw [hquote]
    decide
  . obtain ⟨k, rfl⟩ := Codec.mem_hex hc
    exact hhex k
  . have hquote : c = '"' := List.mem_singleton.mp hc
    rw [hquote]
    decide

theorem trim_lower_tag (page : Bytes) :
    trimChars (' ' :: Text.lower ((quoted (etag page)).toList ++ "\r\n".toList)) =
      (quoted (etag page)).toList := by
  have hlower : Text.lower (quoted (etag page)).toList = (quoted (etag page)).toList := by
    unfold Text.lower
    rw [List.map_congr_left (fun c hc => (tag_chars page c hc).1), List.map_id']
  have hsplit : Text.lower ((quoted (etag page)).toList ++ "\r\n".toList) =
      (quoted (etag page)).toList ++ "\r\n".toList := by
    rw [Text.lower, List.map_append, ← Text.lower, hlower]
    congr 1
  unfold trimChars
  rw [hsplit, Text.trimBy_cons _ (by decide), Text.trimBy_append_right _ (Codec.forall_mem_of_all (by decide))]
  apply Text.trimBy_eq_self
  . intro c hc
    exact (tag_chars page c (List.mem_of_head? hc)).2.1
  . intro c hc
    exact (tag_chars page c (List.mem_of_getLast? hc)).2.1

/--
The tag that is held is the one of the page that is held.
-/
def Held.Truthful (held : Held) : Prop :=
  held.tag = (quoted (etag held.page)).toList

theorem wellFormed_ask (hhost : ∀ c ∈ host, visible c) (hpath : path ≠ [] ∧ ∀ c ∈ path, visible c)
    (hheld : ∀ h ∈ held, h.Truthful) : (ask host path held).WellFormed where
  method := by
    have hne : "GET".toList ≠ [] := by decide
    have hvisible : ∀ c ∈ "GET".toList, visible c := Codec.forall_mem_of_all (by decide)
    exact ⟨hne, hvisible⟩
  target := hpath
  headers := by
    intro line hline
    simp only [ask, List.mem_cons, Option.mem_toList, Option.map_eq_some_iff] at hline
    rcases hline with rfl | rfl | ⟨h, hh, rfl⟩
    . apply fieldLine_field (by decide) (Codec.forall_mem_of_all (by decide))
      intro c hc
      have hvisible := hhost c hc
      unfold visible at hvisible
      omega
    . apply fieldLine_field (by decide) (Codec.forall_mem_of_all (by decide))
      exact Codec.forall_mem_of_all (by decide)
    . apply fieldLine_field (by decide) (Codec.forall_mem_of_all (by decide))
      intro c hc
      rw [hheld h hh] at hc
      exact (tag_chars h.page c hc).2.2
  body := by
    left
    refine ⟨?_, rfl⟩
    rw [List.filterMap_eq_nil_iff]
    intro line hline
    simp only [ask, List.mem_cons, Option.mem_toList, Option.map_eq_some_iff] at hline
    rcases hline with rfl | rfl | ⟨h, _, rfl⟩
    . exact @contentLength?_fieldLine _ (Codec.utf8 "host") (by decide) (by decide) _
    . exact @contentLength?_fieldLine _ (Codec.utf8 "accept-encoding") (by decide)
        (by decide) _
    . exact @contentLength?_fieldLine _ (Codec.utf8 "if-none-match") (by decide)
        (by decide) _

omit [Primitives] in
theorem decodable_ask (host path : List Char) (held : Option Held) : (ask host path held).Decodable := by
  intro line hline
  simp only [ask, List.mem_cons, Option.mem_toList, Option.map_eq_some_iff] at hline
  rcases hline with rfl | rfl | ⟨h, _, rfl⟩
  . rw [ofUtf8_fieldLine]
    rfl
  . rw [ofUtf8_fieldLine]
    rfl
  . rw [ofUtf8_fieldLine]
    rfl

omit [Primitives] in
theorem framable_ask (host path : List Char) (held : Option Held) : Framable [ask host path held] := by
  refine ⟨decodable_ask host path held, ?_⟩
  split
  . rfl
  . exact ⟨blank_nil, trivial⟩

omit [Primitives] in
theorem lines_ask (host path : List Char) (held : Option Held) :
    (ask host path held).lines =
      ("Host: ".toList ++ (host ++ "\r\n".toList)) :: "Accept-Encoding: gzip\r\n".toList ::
        (held.map fun held => "If-None-Match: ".toList ++ (held.tag ++ "\r\n".toList)).toList := by
  unfold WireRequest.lines ask
  simp only [List.map_cons, ofUtf8_fieldLine, Option.getD_some, String.toList_ofList]
  cases held with
  | none => simp
  | some held => simp [ofUtf8_fieldLine]

omit [Primitives] in
theorem trim_lower_host (host : List Char) :
    trimChars (' ' :: Text.lower (host ++ "\r\n".toList)) = trimChars (Text.lower host) := by
  have hsplit : Text.lower (host ++ "\r\n".toList) = Text.lower host ++ "\r\n".toList := by
    rw [Text.lower, List.map_append, ← Text.lower]
    congr 1
  unfold trimChars
  rw [hsplit, Text.trimBy_cons _ (by decide), Text.trimBy_append_right _ (Codec.forall_mem_of_all (by decide))]

/--
What the edge reads of the header lines: the host, and the tag that the browser holds.
-/
theorem foldl_ask (host path : List Char) (hheld : ∀ h ∈ held, h.Truthful) (head : Head) :
    (ask host path held).lines.foldl Head.read head =
      { head with
        host := some (String.ofList (trimChars (Text.lower host)))
        acceptsGzip := true
        ifNoneMatch := (held.map fun held => quoted (etag held.page)).or head.ifNoneMatch } := by
  rw [lines_ask, List.foldl_cons, read_host, trim_lower_host, List.foldl_cons, read_encoding]
  cases held with
  | none => rfl
  | some held =>
    have htag : held.tag = (quoted (etag held.page)).toList := hheld held rfl
    rw [Option.map_some, Option.toList_some, List.foldl_cons, List.foldl_nil, read_match, htag,
      trim_lower_tag, String.ofList_toList]
    rfl

/--
The edge forwards the tag that the browser holds.
-/
theorem forwarded_ask (host path : List Char) (hheld : ∀ h ∈ held, h.Truthful) :
    (ask host path held).request.forwarded =
      ("accept-encoding", "gzip") ::
        (held.map fun held => ("if-none-match", quoted (etag held.page))).toList := by
  unfold WireRequest.request Edge.request Head.request
  dsimp only
  rw [foldl_ask host path hheld]
  cases held with
  | none => rfl
  | some held => rfl

theorem username_ask (host path : List Char) (hheld : ∀ h ∈ held, h.Truthful) :
    (ask host path held).request.username =
      hostSubdomain (String.ofList (trimChars (Text.lower host))) := by
  unfold WireRequest.request Edge.request Head.request
  dsimp only
  rw [foldl_ask host path hheld]
  rfl

theorem header_range_ask (host path : List Char) (hheld : ∀ h ∈ held, h.Truthful) :
    header (ask host path held).request.forwarded "range" = none := by
  have hencoding : Text.eqIgnoreCase "accept-encoding".toList "range".toList = false := by decide
  have hmatch : Text.eqIgnoreCase "if-none-match".toList "range".toList = false := by decide
  rw [forwarded_ask host path hheld]
  cases held with
  | none =>
    simp only [header, Option.map_none, Option.toList_none, List.find?_cons, hencoding, List.find?_nil]
  | some held =>
    simp only [header, Option.map_some, Option.toList_some, List.find?_cons, hencoding, hmatch,
      List.find?_nil, Option.map_none]

theorem header_match_ask (host path : List Char) (hheld : ∀ h ∈ held, h.Truthful) :
    header (ask host path held).request.forwarded "if-none-match" =
      held.map fun held => quoted (etag held.page) := by
  have hencoding : Text.eqIgnoreCase "accept-encoding".toList "if-none-match".toList = false := by
    decide
  have hmatch : Text.eqIgnoreCase "if-none-match".toList "if-none-match".toList = true := by decide
  rw [forwarded_ask host path hheld]
  cases held with
  | none =>
    simp only [header, Option.map_none, Option.toList_none, List.find?_cons, hencoding, List.find?_nil]
  | some held =>
    simp only [header, Option.map_some, Option.toList_some, List.find?_cons, hencoding, hmatch]

end Asking

section Current

variable {gzip gunzip : Bytes → Option Bytes} {files : Files} {visit : Visit} {cache : Cache}

/--
The page that the files have for the path of the visit.
-/
def Visit.page (visit : Visit) (files : Files) : Option Bytes :=
  (Http.resolve files
    (Runtime.appPath (String.ofList (Text.firstPiece '?' visit.path)))).2

/--
A visit of a browser that can be made: its bytes arrive as they were sent, and who answers renders
these files.
-/
structure Visit.Sound (visit : Visit) (gzip : Bytes → Option Bytes) (files : Files) : Prop where
  host : ∀ c ∈ visit.host, visible c
  path : visit.path ≠ [] ∧ ∀ c ∈ visit.path, visible c
  arrive : ∀ bytes, (visit.arrive bytes).rest = bytes
  rendered : ∀ peer request response, visit.moment.send peer request = .answered response →
    Runtime.serveRequest gzip files request = .ok response

/--
The edge has a publisher for the host, and it answers with what it renders.
-/
def Visit.Reaches (visit : Visit) (gzip : Bytes → Option Bytes) (files : Files) : Prop :=
  ∃ peer, resolve visit.moment.entries
      (hostSubdomain (String.ofList (trimChars (Text.lower visit.host)))) visit.moment.instant =
        some peer ∧
    ∀ request response, Runtime.serveRequest gzip files request = .ok response →
      visit.moment.send peer request = .answered response

def Cache.Truthful (cache : Cache) : Prop :=
  ∀ url held, cache.lookup url = some held → held.Truthful

omit [Primitives] in
theorem statuses_of_not_answered {moment : Moment} {request : Request}
    (h : ∀ response, ¬ moment.Answered request response) :
    (forward moment request).status ∈ ["404 Not Found", "502 Bad Gateway", "504 Gateway Timeout"] := by
  unfold forward
  split
  . simp [notFound]
  . next peer hresolve =>
    split
    . next response hsend => exact absurd ⟨peer, hresolve, hsend⟩ (h response)
    . simp [badGateway]
    . simp [gatewayTimeout]

omit [Primitives] in
theorem display_of_status {held : Option Held} {message : Message} {status : String}
    (hmessage : message.status = status.toList)
    (h : status ∈ ["404 Not Found", "502 Bad Gateway", "504 Gateway Timeout"]) :
    display gunzip held message = (held, none) := by
  have hstatus : message.status ≠ "304 Not Modified".toList ∧ message.status ≠ "200 OK".toList := by
    simp only [List.mem_cons, List.not_mem_nil, or_false] at h
    rw [hmessage]
    rcases h with rfl | rfl | rfl
    . decide
    . decide
    . decide
  unfold display
  rw [if_neg hstatus.1, if_neg hstatus.2]

/--
What is displayed of an answer that shows a page is that page.
-/
theorem display_of_shows (hash : CollisionFree) {held : Option Held} {message : Message}
    {page : Bytes} {host path : List Char} (hheld : ∀ h ∈ held, h.Truthful)
    (h : Shows gunzip (ask host path held).request.forwarded page message) :
    ∃ now : Held, now.Truthful ∧ display gunzip held message = (some now, some page) := by
  unfold display
  cases h with
  | whole hstatus htag hcontent =>
    rw [hstatus, if_neg (by decide), if_pos rfl, htag, hcontent]
    exact ⟨⟨(quoted (etag page)).toList, page⟩, rfl, rfl⟩
  | part hstatus hasked hbody =>
    rw [header_range_ask host path hheld] at hasked
    cases hasked
  | unchanged hstatus hmatches =>
    rw [header_match_ask host path hheld] at hmatches
    rw [hstatus, if_pos rfl]
    cases held with
    | none => cases hmatches
    | some held =>
      have hetag : etag held.page = etag page := by
        simpa only [Option.map_some, matchesEtag, decide_eq_true_eq, Http.trimQuotes_quoted_etag,
          Http.trimChars_etag, String.toList_inj] using hmatches
      have hpage : held.page = page := by
        apply Http.quoted_etag_inj hash
        rw [hetag]
      exact ⟨held, hheld held rfl, by rw [Option.map_some, hpage]⟩

theorem Visit.Sound.wellFormed (h : visit.Sound gzip files) (hcache : cache.Truthful) :
    (visit.asked cache).WellFormed :=
  wellFormed_ask h.host h.path (hcache visit.url)

theorem Visit.Sound.target (h : visit.Sound gzip files) (hcache : cache.Truthful) :
    (visit.asked cache).request.method = "GET" ∧
      (visit.asked cache).request.path = String.ofList (Text.firstPiece '?' visit.path) :=
  WireRequest.request_target (h.wellFormed hcache)

theorem Visit.Sound.publishes (h : visit.Sound gzip files) (hcache : cache.Truthful) :
    visit.moment.Publishes gzip files (visit.asked cache).request := by
  rintro response ⟨peer, _, hsend⟩
  refine ⟨h.rendered peer _ response hsend, ?_⟩
  have hrange := header_range_ask visit.host visit.path (hcache visit.url)
  intro body _
  rw [(h.target hcache).1]
  constructor
  . intro _ _ hunsatisfiable
    rw [show header (visit.asked cache).request.forwarded "range" = none from hrange] at hunsatisfiable
    cases hunsatisfiable
  . intro hne
    exact absurd rfl hne

theorem Visit.Reaches.answered (h : visit.Reaches gzip files) (hcache : cache.Truthful) :
    ∃ response, visit.moment.Answered (visit.asked cache).request response := by
  obtain ⟨peer, hresolve, hsend⟩ := h
  have hrange := header_range_ask visit.host visit.path (hcache visit.url)
  have hserve : ∃ response, Runtime.serveRequest gzip files (visit.asked cache).request.serveRequest =
      .ok response := by
    unfold Runtime.serveRequest Request.serveRequest
    dsimp only
    rw [Http.renderResponse_eq]
    rw [show header (visit.asked cache).request.forwarded "range" = none from hrange]
    unfold Http.respond
    split
    . exact ⟨_, rfl⟩
    . split
      . exact ⟨_, rfl⟩
      . split
        . exact ⟨_, rfl⟩
        . exact ⟨_, rfl⟩
  obtain ⟨response, hresponse⟩ := hserve
  refine ⟨response, peer, ?_, hsend _ _ hresponse⟩
  rw [← hresolve]
  exact congrArg (resolve _ · _) (username_ask visit.host visit.path (hcache visit.url))

/--
The browser reads the one answer that is written for its request.
-/
theorem Visit.Sound.read (h : visit.Sound gzip files) (hcache : cache.Truthful)
    (hgzip : ∀ body gz, gzip body = some gz → gz ≠ []) :
    readMessage "GET" (converse (fun _ => visit.moment)
        (visit.arrive (visit.asked cache).serialize)).1 =
      some (message visit.moment (visit.asked cache).request, []) := by
  have hread := (h.publishes hcache).readable hgzip
  have hwellFormed : ∀ r ∈ [visit.asked cache], r.WellFormed := by
    simpa using h.wellFormed hcache
  have hrest : (visit.arrive (visit.asked cache).serialize).rest = stream [visit.asked cache] := by
    rw [h.arrive]
    simp [stream]
  have hreads : ∀ (k : Nat) (r : WireRequest), [visit.asked cache][k]? = some r →
      Readable visit.moment r.request := by
    intro k r hr
    rw [List.mem_singleton.mp (List.mem_of_getElem? hr)]
    exact hread
  have hconverse := (@readMessages_converse _ hwellFormed
    (framable_ask visit.host visit.path (cache.lookup visit.url)) _ hrest (fun _ => visit.moment)
    hreads).1
  have hmessage := readMessage_respond hread []
  rw [(h.target hcache).1] at hmessage
  rw [hconverse]
  exact hmessage

theorem display_of_sound (hash : CollisionFree)
    (hgunzip : ∀ body gz, gzip body = some gz → gunzip gz = some body)
    (h : visit.Sound gzip files) (hcache : cache.Truthful) :
    ∃ now shown, display gunzip (cache.lookup visit.url)
        (message visit.moment (visit.asked cache).request) = (now, shown) ∧
      (∀ held ∈ now, held.Truthful) ∧ (shown = none ∨ shown = visit.page files) ∧
      (visit.Reaches gzip files → shown = visit.page files) := by
  have hresolve : (Http.resolve files (Runtime.appPath (visit.asked cache).request.path)).2 =
      visit.page files := by
    rw [(h.target hcache).2]
    rfl
  by_cases hanswered : ∃ response, visit.moment.Answered (visit.asked cache).request response
  . obtain ⟨response, hanswered⟩ := hanswered
    cases hpage : visit.page files with
    | none =>
      have hnotFound := (h.publishes hcache).not_found hanswered (hresolve.trans hpage)
      have hdisplay : display gunzip (cache.lookup visit.url)
          (message visit.moment (visit.asked cache).request) = (cache.lookup visit.url, none) :=
        display_of_status hnotFound.1 (by simp)
      exact ⟨_, _, hdisplay, hcache visit.url, .inl rfl, fun _ => rfl⟩
    | some page =>
      have hshows := (h.publishes hcache).shows hgunzip hanswered (h.target hcache).1
        (hresolve.trans hpage)
      obtain ⟨now, hnow, hdisplay⟩ := display_of_shows hash (hcache visit.url) hshows
      exact ⟨_, _, hdisplay, by simpa using hnow, .inr rfl, fun _ => rfl⟩
  . have hstatus := statuses_of_not_answered fun response hresponse => hanswered ⟨response, hresponse⟩
    have hdisplay : display gunzip (cache.lookup visit.url)
        (message visit.moment (visit.asked cache).request) = (cache.lookup visit.url, none) :=
      display_of_status rfl hstatus
    exact ⟨_, _, hdisplay, hcache visit.url, .inl rfl,
      fun hreaches => absurd (hreaches.answered hcache) hanswered⟩

/--
A visit shows nothing or the page of the files, and it shows the page if it reaches the publisher.
-/
theorem Visit.make_spec (hash : CollisionFree) (hgzip : ∀ body gz, gzip body = some gz → gz ≠ [])
    (hgunzip : ∀ body gz, gzip body = some gz → gunzip gz = some body)
    (h : visit.Sound gzip files) (hcache : cache.Truthful) :
    (visit.make gunzip cache).1.Truthful ∧
      ((visit.make gunzip cache).2 = none ∨ (visit.make gunzip cache).2 = visit.page files) ∧
      (visit.Reaches gzip files → (visit.make gunzip cache).2 = visit.page files) := by
  obtain ⟨now, shown, hdisplay, hnow, hshown⟩ := display_of_sound hash hgunzip h hcache
  unfold Visit.make
  dsimp only
  rw [h.read hcache hgzip]
  dsimp only
  rw [hdisplay]
  cases now with
  | none => exact ⟨hcache, hshown⟩
  | some held =>
    refine ⟨?_, hshown⟩
    intro url other hother
    by_cases hurl : url = visit.url
    . rw [hurl, AList.lookup_insert, Option.some.injEq] at hother
      rw [← hother]
      exact hnow held rfl
    . rw [AList.lookup_insert_ne hurl] at hother
      exact hcache url other hother

/--
Whatever is published between the visits, a browser that asks whether the pages that it holds are
current never shows one that is not.
-/
theorem tour_current (hash : CollisionFree) (hgzip : ∀ body gz, gzip body = some gz → gz ≠ [])
    (hgunzip : ∀ body gz, gzip body = some gz → gunzip gz = some body) {visits : List Visit}
    {files : Nat → Files}
    (h : ∀ k (visit : Visit), visits[k]? = some visit → visit.Sound gzip (files k))
    (hcache : cache.Truthful) :
    ∀ k (visit : Visit) shown, visits[k]? = some visit → (tour gunzip cache visits)[k]? = some shown →
      (shown = none ∨ shown = visit.page (files k)) ∧
      (visit.Reaches gzip (files k) → shown = visit.page (files k)) := by
  induction visits generalizing cache files with
  | nil =>
    intro k visit shown hvisit
    cases hvisit
  | cons first visits ih =>
    have hfirst := first.make_spec hash hgzip hgunzip (h 0 first rfl) hcache
    intro k visit shown hvisit hshown
    cases k with
    | zero =>
      cases hvisit
      cases hshown
      exact hfirst.2
    | succ k =>
      have hlater : ∀ k (visit : Visit), visits[k]? = some visit → visit.Sound gzip (files (k + 1)) :=
        fun k visit hvisit => h (k + 1) visit hvisit
      exact @ih _ (fun k => files (k + 1)) hlater hfirst.1 k visit shown hvisit hshown

end Current

end Edge

end Canopee

namespace Canopee.Edge

open Canopee.Transparent

section Witness

/--
The first page of an app before and after it is published anew.
-/
def editions : Nat → Files
  | 0 => AList.singleton "/" (Codec.utf8 "<p>")
  | _ => AList.singleton "/" (Codec.utf8 "<q>")

def reading (files : Files) : Visit where
  host := "garden.edge".toList
  path := "/".toList
  moment := Cli.serving files
  arrive bytes := ⟨bytes, []⟩

theorem visible_garden : (∀ c ∈ "garden.edge".toList, visible c) ∧
    "/".toList ≠ [] ∧ ∀ c ∈ "/".toList, visible c :=
  ⟨Codec.forall_mem_of_all (by decide), by decide,
    Codec.forall_mem_of_all (by decide)⟩

theorem sound_reading (files : Files) : (reading files).Sound Http.stored files where
  host := visible_garden.1
  path := visible_garden.2
  arrive bytes := List.append_nil bytes
  rendered := by
    intro peer request response hsend
    unfold reading Cli.serving at hsend
    dsimp only at hsend
    split at hsend
    . next rendered hrendered =>
      cases hsend
      exact hrendered
    . cases hsend

theorem username_garden :
    hostSubdomain (String.ofList (Http.trimChars (Text.lower "garden.edge".toList))) = "garden" := by
  decide

theorem reaches_reading (files : Files) : (reading files).Reaches Http.stored files := by
  refine ⟨⟨"p"⟩, ?_, ?_⟩
  . unfold reading Cli.serving
    dsimp only
    rw [username_garden]
    decide
  . intro request response hresponse
    unfold reading Cli.serving
    dsimp only
    rw [hresponse]

/--
The second visit shows the new page.
-/
theorem tour_current_editions :
    (tour (fun gz => some (gz.drop 3)) ∅ [reading (editions 0), reading (editions 1)])[1]? =
      some (some (Codec.utf8 "<q>")) := by
  have hunpack : ∀ body gz, Http.stored body = some gz → some (gz.drop 3) = some body := by
    rintro body gz ⟨⟩
    rfl
  have hsound : ∀ k (visit : Visit), [reading (editions 0), reading (editions 1)][k]? = some visit →
      visit.Sound Http.stored (editions k) := by
    intro k visit hvisit
    match k with
    | 0 =>
      cases hvisit
      exact sound_reading _
    | 1 =>
      cases hvisit
      exact sound_reading _
    | _ + 2 => cases hvisit
  have hempty : Cache.Truthful ∅ := by
    intro url held hheld
    cases hheld
  have hcurrent := tour_current collisionFree Http.stored_ne_nil hunpack hsound hempty 1
    (reading (editions 1)) _ rfl rfl
  have hpage : (reading (editions 1)).page (editions 1) = some (Codec.utf8 "<q>") := by
    unfold Visit.page reading
    decide
  rw [← hpage, ← hcurrent.2 (reaches_reading _)]
  rfl

end Witness

end Canopee.Edge
