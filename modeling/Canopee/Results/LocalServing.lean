import Canopee.Cli.App
import Canopee.Results.ResponseFraming

/-!
This module contains when the local server of the command line tool and an edge answer a request for
an app alike.
-/

namespace Canopee

open Primitives

namespace Http

section Lower

theorem isWhitespace_toLower (c : Char) : isWhitespace c.toLower = isWhitespace c :=
  Text.toLower_cases (P := fun c d => isWhitespace d = isWhitespace c) (fun _ => rfl) (by decide) c

theorem trimChars_lower (s : List Char) : trimChars (Text.lower s) = Text.lower (trimChars s) :=
  Text.trimBy_map isWhitespace_toLower s

theorem trimChars_trimChars (s : List Char) : trimChars (trimChars s) = trimChars s :=
  Text.trimBy_trimBy s

theorem byteLength_lower (s : List Char) : byteLength (Text.lower s) = byteLength s := by
  simp [byteLength, Text.lower, Function.comp_def, Text.utf8Size_toLower]

theorem prefixOfSize_lower (n : Nat) (s : List Char) :
    prefixOfSize n (Text.lower s) = (prefixOfSize n s).map Text.lower := by
  unfold Text.lower
  induction s generalizing n with
  | nil =>
    simp only [List.map_nil, prefixOfSize]
    split
    . rfl
    . rfl
  | cons c s ih =>
    simp only [List.map_cons, prefixOfSize, Text.utf8Size_toLower, ih]
    split
    . rfl
    . split
      . simp [Function.comp_def]
      . rfl

theorem caseless_comma : Text.Caseless ',' :=
  Text.caseless (by decide)

theorem caseless_dash : Text.Caseless '-' :=
  Text.caseless (by decide)

theorem caseless_colon : Text.Caseless ':' :=
  Text.caseless (by decide)

theorem isEmpty_lower (s : List Char) : (Text.lower s).isEmpty = s.isEmpty := by
  simp [Text.lower]

theorem parseRangeValue_lower (value : List Char) (len : Nat) :
    parseRangeValue (Text.lower value) len = parseRangeValue value len := by
  have hpieces : (Text.splitOnce '-' (Text.lower value)).getD (Text.lower value, []) =
      (Text.lower ((Text.splitOnce '-' value).getD (value, [])).1,
        Text.lower ((Text.splitOnce '-' value).getD (value, [])).2) := by
    rw [Text.splitOnce_lower caseless_dash]
    cases Text.splitOnce '-' value with
    | none => rfl
    | some pieces => rfl
  unfold parseRangeValue
  rw [Text.contains_lower caseless_comma, hpieces]
  simp only [isEmpty_lower, Text.parseU64_lower]

theorem parseRangeSpec_lower (spec : List Char) (len : Nat) :
    parseRangeSpec (Text.lower spec) len = parseRangeSpec spec len := by
  unfold parseRangeSpec
  rw [byteLength_lower, prefixOfSize_lower]
  split
  . rfl
  . cases prefixOfSize 6 spec with
    | none => rfl
    | some unit =>
      have hdrop : (Text.lower spec).drop (Text.lower unit).length =
          Text.lower (spec.drop unit.length) := by
        simp [Text.lower, List.map_drop]
      simp only [Option.map_some, Text.eqIgnoreCase_lower, hdrop, parseRangeValue_lower]

end Lower

end Http

namespace Cli

open Http (trimChars isWhitespace_toLower trimChars_lower trimChars_trimChars caseless_colon)

/--
What `parse_range` takes from the header line that was kept.
-/
def rangeSpec (header : Option String) : Option (List Char) :=
  header.bind fun line =>
    (Text.splitOnce ':' (trimChars line.toList)).map fun (_, spec) => trimChars spec

theorem parseRange_eq (header : Option String) (len : Nat) :
    parseRange header len =
      match rangeSpec header with
      | none => .ok none
      | some spec => Http.parseRangeSpec spec len := by
  unfold parseRange rangeSpec
  cases header with
  | none => rfl
  | some line =>
    simp only [Option.bind_some]
    cases Text.splitOnce ':' (trimChars line.toList) with
    | none => rfl
    | some pieces => rfl

theorem rangeSpec_line {line value : List Char}
    (h : Text.stripPrefix "range:".toList (Text.lower line) = some value) :
    ∃ spec, rangeSpec (some (String.ofList (trimChars line))) = some spec ∧
      trimChars value = Text.lower spec := by
  have hunit : "range:".toList = "range".toList ++ [':'] := by decide
  have hlower := Text.stripPrefix_eq_some_iff.mp h
  rw [hunit, List.append_assoc, List.singleton_append] at hlower
  unfold Text.lower at hlower
  obtain ⟨name, rest, rfl, hname, hrest⟩ := List.map_eq_append_iff.mp hlower
  obtain ⟨c, rest, rfl, hc, rfl⟩ := List.map_eq_cons_iff.mp hrest
  obtain rfl := (caseless_colon c).mp hc
  have hletter : ∀ c ∈ name, isWhitespace c.toLower = false ∧ c.toLower ≠ ':' := by
    have hletters : ∀ c ∈ "range".toList, isWhitespace c = false ∧ c ≠ ':' := by
      apply Codec.forall_mem_of_all
      decide
    intro c hmem
    apply hletters
    rw [← hname]
    apply List.mem_map_of_mem hmem
  have hcolon : ':' ∉ name := by
    intro hmem
    exact (hletter _ hmem).2 ((caseless_colon _).mpr rfl)
  have hkept : ∀ c ∈ name ++ [':'], isWhitespace c = false := by
    intro c hmem
    rw [List.mem_append, List.mem_singleton] at hmem
    cases hmem with
    | inl hmem => rw [← isWhitespace_toLower, (hletter c hmem).1]
    | inr heq =>
      rw [heq]
      decide
  obtain ⟨t, htrim, ht⟩ := Text.trimBy_append rest (by simp) hkept
  refine ⟨trimChars rest, ?_, trimChars_lower rest⟩
  have hline : trimChars (trimChars (name ++ ':' :: rest)) = name ++ ':' :: t := by
    rw [trimChars_trimChars]
    rw [List.append_assoc, List.append_assoc] at htrim
    exact htrim
  simp only [rangeSpec, Option.bind_some, String.toList_ofList, hline,
    Text.splitOnce_append t hcolon, Option.map_some, Option.some.injEq]
  exact ht

/--
Both loops read the same from the same lines.
-/
structure Reads (head : Edge.Head) (request : Request) : Prop where
  range : head.range = (rangeSpec request.range).map fun spec => String.ofList (Text.lower spec)
  acceptsGzip : head.acceptsGzip = request.acceptsGzip
  ifNoneMatch : head.ifNoneMatch = request.ifNoneMatch

theorem reads_start (version requestLine : List Char) :
    Reads (.start version) (.start requestLine) :=
  ⟨rfl, rfl, rfl⟩

theorem Reads.read {head : Edge.Head} {request : Request} (h : Reads head request)
    (line : List Char) : Reads (head.read line) (request.read line) := by
  have hexclusive {name other : List Char} (value : List Char)
      (hname : Text.stripPrefix name (Text.lower line) = some value)
      (hother : ¬ name <+: other ∧ ¬ other <+: name) :
      Text.stripPrefix other (Text.lower line) = none :=
    Text.stripPrefix_eq_none_of_some hname hother
  unfold Edge.Head.read Request.read
  dsimp only
  cases hconnection : Text.stripPrefix "connection:".toList (Text.lower line) with
  | some value => exact ⟨h.range, h.acceptsGzip, h.ifNoneMatch⟩
  | none =>
    cases hhost : Text.stripPrefix "host:".toList (Text.lower line) with
    | some value =>
      rw [hexclusive value hhost (by decide), hexclusive value hhost (by decide),
        hexclusive value hhost (by decide)]
      exact ⟨h.range, h.acceptsGzip, h.ifNoneMatch⟩
    | none =>
      cases hrange : Text.stripPrefix "range:".toList (Text.lower line) with
      | some value =>
        obtain ⟨spec, hspec, hlower⟩ := rangeSpec_line hrange
        refine ⟨?_, h.acceptsGzip, h.ifNoneMatch⟩
        change some (String.ofList (trimChars value)) = _
        rw [hlower]
        change _ = (rangeSpec (some (String.ofList (trimChars line)))).map _
        rw [hspec]
        rfl
      | none =>
        cases hgzip : Text.stripPrefix "accept-encoding:".toList (Text.lower line) with
        | some value => exact ⟨h.range, rfl, h.ifNoneMatch⟩
        | none =>
          cases hmatch : Text.stripPrefix "if-none-match:".toList (Text.lower line) with
          | some value => exact ⟨h.range, h.acceptsGzip, rfl⟩
          | none => exact h

theorem reads_foldl (lines : List (List Char)) {head : Edge.Head} {request : Request}
    (h : Reads head request) :
    Reads (lines.foldl Edge.Head.read head) (lines.foldl Request.read request) := by
  induction lines generalizing head request with
  | nil => exact h
  | cons line lines ih => exact ih (h.read line)

theorem read_target (request : Request) (line : List Char) :
    (request.read line).method = request.method ∧ (request.read line).path = request.path := by
  unfold Request.read
  dsimp only
  split
  . exact ⟨rfl, rfl⟩
  . split
    . exact ⟨rfl, rfl⟩
    . split
      . exact ⟨rfl, rfl⟩
      . split
        . exact ⟨rfl, rfl⟩
        . exact ⟨rfl, rfl⟩

theorem foldl_target (lines : List (List Char)) (request : Request) :
    (lines.foldl Request.read request).method = request.method ∧
      (lines.foldl Request.read request).path = request.path := by
  induction lines generalizing request with
  | nil => exact ⟨rfl, rfl⟩
  | cons line lines ih =>
    have htarget := read_target request line
    rw [List.foldl_cons, (ih _).1, (ih _).2]
    exact htarget

theorem request_reads (requestLine : List Char) (lines : List (List Char)) :
    ∃ head, Reads head (request requestLine lines) ∧
      (Edge.request requestLine lines).forwarded = head.forwarded ∧
      (Edge.request requestLine lines).method = (request requestLine lines).method ∧
      (Edge.request requestLine lines).path = (request requestLine lines).path := by
  have htarget := foldl_target lines (Request.start requestLine)
  refine ⟨_, reads_foldl lines (reads_start (Edge.requestParts requestLine).2.2 requestLine), rfl,
    ?_, ?_⟩
  . exact htarget.1.symm
  . exact htarget.2.symm

end Cli

namespace Edge

theorem header_forwarded (head : Head) :
    Http.header head.forwarded "range" = head.range ∧
      (((Http.header head.forwarded "accept-encoding").map fun v =>
        Text.contains "gzip".toList v.toList).getD false) = head.acceptsGzip ∧
      Http.header head.forwarded "if-none-match" = head.ifNoneMatch := by
  have hnames : ∀ a ∈ ["range", "accept-encoding", "if-none-match"],
      ∀ b ∈ ["range", "accept-encoding", "if-none-match"],
        Text.eqIgnoreCase a.toList b.toList = decide (a = b) := by
    decide
  have hgzip : Text.contains "gzip".toList "gzip".toList = true := by
    decide
  obtain ⟨close, range, gzip, ifNoneMatch, host⟩ := head
  unfold Http.header Head.forwarded
  cases range <;> cases gzip <;> cases ifNoneMatch <;>
    simp [hnames, hgzip, -String.reduceToList]

end Edge

namespace Http

/--
What the two servers have in common in their answers; of a header, the values it is sent with.
-/
structure View where
  status : List Char
  contentType : List (List Char)
  contentRange : List (List Char)
  etag : List (List Char)
  vary : List (List Char)
  contentEncoding : List (List Char)
  body : Bytes
deriving DecidableEq

def fieldValues (name : String) (fields : List (List Char × List Char)) : List (List Char) :=
  (fields.filter fun f => Text.eqIgnoreCase f.1 name.toList).map Prod.snd

def View.of (status : List Char) (fields : List (List Char × List Char)) (body : Bytes) : View where
  status := status
  contentType := fieldValues "Content-Type" fields
  contentRange := fieldValues "Content-Range" fields
  etag := fieldValues "ETag" fields
  vary := fieldValues "Vary" fields
  contentEncoding := fieldValues "Content-Encoding" fields
  body := body

def view (response : ServeResponse) : View :=
  .of response.status.toList (response.headers.map fieldChars) response.body

/--
What a client reads of a head and the body after it.
-/
def readView (written : String × Option Bytes) : Option View :=
  (HttpHead.parse written.1.toList).map fun (status, fields) =>
    .of status fields (written.2.getD [])

section Views

theorem eqIgnoreCase_names :
    ∀ a ∈ ["Content-Type", "Content-Length", "Content-Range", "ETag", "Vary", "Content-Encoding",
      "Accept-Ranges", "Connection"],
    ∀ b ∈ ["Content-Type", "Content-Range", "ETag", "Vary", "Content-Encoding"],
      Text.eqIgnoreCase a.toList b.toList = decide (a = b) := by
  decide

theorem readView_eq {text : String} (status : String) (headers : List (String × String))
    (body : Option Bytes)
    (htext : text.toList = HttpHead.render status.toList (headers.map fieldChars))
    (hstatus : '\n' ∉ status.toList) (h : ∀ field ∈ headers, PlainHeader field) :
    readView (text, body) =
      some (.of status.toList (headers.map fieldChars) (body.getD [])) := by
  unfold readView
  rw [htext, HttpHead.parse_render hstatus]
  . rfl
  . intro f hf
    obtain ⟨field, hfield, rfl⟩ := List.mem_map.mp hf
    exact h field hfield

theorem readView_notFound (path : String) (close : Bool) :
    readView (Cli.pushHeader "404 Not Found" (guessContentType path) (some 0)
      (if close then "close" else "keep-alive") ++ "\r\n", none) =
      some (view (notFound (guessContentType path))) := by
  rw [readView_eq "404 Not Found" [("Content-Type", guessContentType path),
    ("Content-Length", (0 : Nat).repr), ("Connection", if close then "close" else "keep-alive")]]
  . simp [view, notFound, View.of, fieldValues, fieldChars, eqIgnoreCase_names, -String.reduceToList]
  . simp [Cli.pushHeader, HttpHead.render, HttpHead.renderField, fieldChars, HttpHead.crlf,
      HttpHead.version]
  . decide
  . simp only [List.forall_mem_cons, List.not_mem_nil, false_implies, implies_true]
    exact ⟨plain_contentType path, Edge.plain_contentLength 0, Edge.plain_connection close, trivial⟩

theorem readView_unsatisfiable (path : String) (len : Nat) (close : Bool) :
    readView (Cli.pushHeader "416 Range Not Satisfiable" (guessContentType path) (some 0)
      (if close then "close" else "keep-alive") ++ "Accept-Ranges: bytes\r\n" ++
      ("Content-Range: bytes */" ++ len.repr ++ "\r\n") ++ "\r\n", none) =
      some (view (unsatisfiable (guessContentType path) len)) := by
  have hplain := (relayable_unsatisfiable path len).headers
  simp only [unsatisfiable, List.forall_mem_cons] at hplain
  rw [readView_eq "416 Range Not Satisfiable" [("Content-Type", guessContentType path),
    ("Content-Length", (0 : Nat).repr), ("Connection", if close then "close" else "keep-alive"),
    ("Accept-Ranges", "bytes"), ("Content-Range", "bytes */" ++ len.repr)]]
  . simp [view, unsatisfiable, View.of, fieldValues, fieldChars, eqIgnoreCase_names,
      -String.reduceToList]
  . simp [Cli.pushHeader, HttpHead.render, HttpHead.renderField, fieldChars, HttpHead.crlf,
      HttpHead.version]
  . decide
  . simp only [List.forall_mem_cons, List.not_mem_nil, false_implies, implies_true]
    exact ⟨plain_contentType path, Edge.plain_contentLength 0, Edge.plain_connection close,
      hplain.2.1, hplain.2.2.1, trivial⟩

variable [Primitives]

theorem readView_notModified (path : String) (body : Bytes) (close : Bool) :
    readView (Cli.pushHeader "304 Not Modified" (guessContentType path) none
      (if close then "close" else "keep-alive") ++ Cli.etagLine (some (etag body)) ++ "\r\n", none) =
      some (view (notModified (guessContentType path) body)) := by
  rw [readView_eq "304 Not Modified" [("Content-Type", guessContentType path),
    ("Connection", if close then "close" else "keep-alive"), ("ETag", quoted (etag body))]]
  . simp [view, notModified, View.of, fieldValues, fieldChars, eqIgnoreCase_names,
      -String.reduceToList]
  . simp [Cli.pushHeader, Cli.etagLine, quoted, HttpHead.render, HttpHead.renderField, fieldChars,
      HttpHead.crlf, HttpHead.version]
  . decide
  . simp only [List.forall_mem_cons, List.not_mem_nil, false_implies, implies_true]
    exact ⟨plain_contentType path, Edge.plain_connection close, plain_etag body, trivial⟩

theorem readView_partialContent (path : String) (body : Bytes) {first last : Nat}
    (hbounds : first ≤ last ∧ last < body.length) (close : Bool) :
    readView (Cli.pushHeader "206 Partial Content" (guessContentType path)
      (some ((body.drop first).take (last - first + 1)).length)
      (if close then "close" else "keep-alive") ++ "Accept-Ranges: bytes\r\n" ++
      ("Content-Range: bytes " ++ first.repr ++ "-" ++ last.repr ++ "/" ++ body.length.repr ++
        "\r\n") ++ Cli.etagLine (some (etag body)) ++ "\r\n",
      some ((body.drop first).take (last - first + 1))) =
      some (view (partialContent (guessContentType path) body first last)) := by
  have hplain := (relayable_partialContent path body first last).headers
  simp only [partialContent, List.forall_mem_cons] at hplain
  have hlength : ((body.drop first).take (last - first + 1)).length = last - first + 1 := by
    simp only [List.length_take, List.length_drop]
    omega
  rw [hlength, readView_eq "206 Partial Content" [("Content-Type", guessContentType path),
    ("Content-Length", (last - first + 1).repr),
    ("Connection", if close then "close" else "keep-alive"), ("Accept-Ranges", "bytes"),
    ("Content-Range", "bytes " ++ first.repr ++ "-" ++ last.repr ++ "/" ++ body.length.repr),
    ("ETag", quoted (etag body))]]
  . simp [view, partialContent, View.of, fieldValues, fieldChars, eqIgnoreCase_names,
      -String.reduceToList]
  . simp [Cli.pushHeader, Cli.etagLine, quoted, HttpHead.render, HttpHead.renderField, fieldChars,
      HttpHead.crlf, HttpHead.version]
  . decide
  . simp only [List.forall_mem_cons, List.not_mem_nil, false_implies, implies_true]
    exact ⟨plain_contentType path, hplain.2.1, Edge.plain_connection close, hplain.2.2.1,
      hplain.2.2.2.1, hplain.2.2.2.2.1, trivial⟩

theorem readView_full (path : String) (body : Bytes) (encoded : Option Bytes) (sendBody close : Bool) :
    readView (Cli.pushHeader "200 OK" (guessContentType path) (some (encoded.getD body).length)
      (if close then "close" else "keep-alive") ++ Cli.etagLine (some (etag body)) ++
      "Accept-Ranges: bytes\r\n" ++
      (if isCompressible (guessContentType path) then
        "Vary: Accept-Encoding\r\n" ++
          (if encoded.isSome then "Content-Encoding: gzip\r\n" else "")
      else
        "") ++ "\r\n", if sendBody then some (encoded.getD body) else none) =
      some (view (full (guessContentType path) body encoded sendBody)) := by
  have hplain := (relayable_full path body encoded sendBody).headers
  simp only [full, List.forall_mem_append] at hplain
  have hfirst := hplain.1
  simp only [List.forall_mem_cons] at hfirst
  rw [readView_eq "200 OK" ([("Content-Type", guessContentType path),
    ("Content-Length", (encoded.getD body).length.repr),
    ("Connection", if close then "close" else "keep-alive"),
    ("ETag", quoted (etag body)), ("Accept-Ranges", "bytes")] ++
      (if isCompressible (guessContentType path) then
        ("Vary", "Accept-Encoding") ::
          (if encoded.isSome then [("Content-Encoding", "gzip")] else [])
      else
        []))]
  . unfold view full
    dsimp only
    cases sendBody <;> cases isCompressible (guessContentType path) <;> cases encoded <;>
      simp [View.of, fieldValues, fieldChars, eqIgnoreCase_names, -String.reduceToList]
  . cases isCompressible (guessContentType path) <;> cases encoded <;>
      simp [Cli.pushHeader, Cli.etagLine, quoted, HttpHead.render, HttpHead.renderField, fieldChars,
        HttpHead.crlf, HttpHead.version]
  . decide
  . rw [List.forall_mem_append]
    refine ⟨?_, hplain.2⟩
    simp only [List.forall_mem_cons, List.not_mem_nil, false_implies, implies_true]
    exact ⟨plain_contentType path, hfirst.2.1, Edge.plain_connection close, hfirst.2.2.1,
      hfirst.2.2.2.1, trivial⟩

end Views

section Respond

variable [Primitives]

/--
What is sent of a file that the client does not hold.
-/
def sent (gzip : Bytes → Option Bytes) (contentType method : String) (acceptsGzip : Bool)
    (body : Bytes) : Option RangeSpec → ServeResponse
  | some .unsatisfiable => unsatisfiable contentType body.length
  | some (.bytes first last) => partialContent contentType body first last
  | none => full contentType body (encode gzip acceptsGzip contentType body) (method = "GET")

/--
The answer for a file, given how the file is matched and how the range is read.
-/
def respond (gzip : Bytes → Option Bytes) (contentType method : String) (acceptsGzip : Bool)
    (matched : Bytes → Bool) (range : Nat → Except Panic (Option RangeSpec)) :
    Option Bytes → Except Panic ServeResponse
  | none => .ok (notFound contentType)
  | some body =>
    if (method = "GET" ∨ method = "HEAD") ∧ matched body then
      .ok (notModified contentType body)
    else
      (if method = "GET" then range body.length else .ok none).map
        (sent gzip contentType method acceptsGzip body)

theorem renderResponse_eq (gzip : Bytes → Option Bytes) (files : Files) (method path : String)
    (headers : List (String × String)) :
    renderResponse gzip files method path headers =
      respond gzip (guessContentType (resolve files path).1) method
        (((header headers "accept-encoding").map fun v =>
          Text.contains "gzip".toList v.toList).getD false)
        (matchesEtag (header headers "if-none-match")) (parseRange (header headers "range"))
        (resolve files path).2 := by
  unfold renderResponse
  cases hresolve : resolve files path with
  | mk key found =>
    cases found with
    | none => rfl
    | some body =>
      simp only [respond]
      split
      . rfl
      . generalize parseRange (header headers "range") body.length = range
        split
        . cases range with
          | error panic => rfl
          | ok spec =>
            cases spec with
            | none => rfl
            | some spec => cases spec <;> rfl
        . rfl

omit [Primitives] in
theorem lookup_resolve (files : Files) (path : String) :
    files.lookup (resolve files path).1 = (resolve files path).2 := by
  unfold resolve
  cases hpath : files.lookup path with
  | some body => exact hpath
  | none =>
    dsimp only
    by_cases hasset : isAssetRequest path = true
    . rw [if_pos hasset]
      exact hpath
    . rw [if_neg hasset]
      cases hindex : files.lookup "/" with
      | some entrypoint => exact hindex
      | none => exact hpath

theorem lookup_computeEtags (files : Files) (key : String) :
    (Cli.computeEtags files).lookup key = (files.lookup key).map etag := by
  apply List.dlookup_map₂ (f := fun _ => etag) key

theorem prepareResponse_eq (gzip : Bytes → Option Bytes) (request : Cli.Request) (files : Files) :
    (Cli.prepareResponse gzip request files (Cli.computeEtags files)).map readView =
      (respond gzip (guessContentType (resolve files request.path).1) request.method
        request.acceptsGzip (fun body => Cli.matchesEtag request.ifNoneMatch (etag body))
        (Cli.parseRange request.range) (resolve files request.path).2).map (some ∘ view) := by
  have hetag := lookup_computeEtags files (resolve files request.path).1
  rw [lookup_resolve] at hetag
  unfold Cli.prepareResponse
  cases hresolve : resolve files request.path with
  | mk key found =>
    rw [hresolve] at hetag
    dsimp only at hetag ⊢
    cases found with
    | none =>
      simp only [hetag, Option.map_none, Option.getD_none, Bool.false_eq_true, and_false, if_false,
        respond]
      exact congrArg Except.ok (readView_notFound key request.closeAfterResponse)
    | some body =>
      simp only [hetag, Option.map_some, Option.getD_some, respond]
      split
      . exact congrArg Except.ok (readView_notModified key body request.closeAfterResponse)
      . have hbounds : ∀ {first last : Nat}, Cli.parseRange request.range body.length =
            .ok (some (.bytes first last)) → first ≤ last ∧ last < body.length := by
          intro first last hrange
          rw [Cli.parseRange_eq] at hrange
          split at hrange
          . cases hrange
          . exact parseRangeSpec_bounds hrange
        have hfull := congrArg (Except.ok (ε := Panic)) (readView_full key body
          (encode gzip request.acceptsGzip (guessContentType key) body) (request.method = "GET")
          request.closeAfterResponse)
        by_cases hget : request.method = "GET"
        . simp only [if_pos hget]
          cases hrange : Cli.parseRange request.range body.length with
          | error panic => rfl
          | ok spec =>
            cases spec with
            | none =>
              simp only [decide_eq_true_eq, if_pos hget] at hfull
              exact hfull
            | some spec =>
              cases spec with
              | unsatisfiable =>
                exact congrArg Except.ok
                  (readView_unsatisfiable key body.length request.closeAfterResponse)
              | bytes first last =>
                exact congrArg Except.ok (readView_partialContent key body (hbounds hrange)
                  request.closeAfterResponse)
        . simp only [if_neg hget]
          simp only [decide_eq_true_eq, if_neg hget] at hfull
          exact hfull

end Respond

section Alike

variable [Primitives]

omit [Primitives] in
theorem view_notFound (contentType : String) :
    view (notFound contentType) =
      ⟨"404 Not Found".toList, [contentType.toList], [], [], [], [], []⟩ := by
  simp [view, notFound, View.of, fieldValues, fieldChars, eqIgnoreCase_names, -String.reduceToList]

theorem view_notModified (contentType : String) (body : Bytes) :
    view (notModified contentType body) =
      ⟨"304 Not Modified".toList, [contentType.toList], [], [(quoted (etag body)).toList], [], [],
        []⟩ := by
  simp [view, notModified, View.of, fieldValues, fieldChars, eqIgnoreCase_names,
    -String.reduceToList]

omit [Primitives] in
theorem view_unsatisfiable (contentType : String) (len : Nat) :
    view (unsatisfiable contentType len) =
      ⟨"416 Range Not Satisfiable".toList, [contentType.toList], [("bytes */" ++ len.repr).toList],
        [], [], [], []⟩ := by
  simp [view, unsatisfiable, View.of, fieldValues, fieldChars, eqIgnoreCase_names,
    -String.reduceToList]

theorem view_partialContent (contentType : String) (body : Bytes) (first last : Nat) :
    view (partialContent contentType body first last) =
      ⟨"206 Partial Content".toList, [contentType.toList],
        [("bytes " ++ first.repr ++ "-" ++ last.repr ++ "/" ++ body.length.repr).toList],
        [(quoted (etag body)).toList], [], [], (body.drop first).take (last - first + 1)⟩ := by
  simp [view, partialContent, View.of, fieldValues, fieldChars, eqIgnoreCase_names,
    -String.reduceToList]

theorem view_full (contentType : String) (body : Bytes) (encoded : Option Bytes) (sendBody : Bool) :
    ∃ vary encoding sent, view (full contentType body encoded sendBody) =
      ⟨"200 OK".toList, [contentType.toList], [], [(quoted (etag body)).toList], vary, encoding,
        sent⟩ := by
  unfold view full
  dsimp only
  cases isCompressible contentType <;> cases encoded <;>
    simp [View.of, fieldValues, fieldChars, eqIgnoreCase_names, -String.reduceToList]

omit [Primitives] in
theorem dash_not_mem_repr (n : Nat) : '-' ∉ n.repr.toList := by
  intro hmem
  exact absurd (Text.isDigit_of_mem_repr hmem) (by decide)

omit [Primitives] in
theorem contentRange_inj {f l f' l' n : Nat}
    (h : ("bytes " ++ f.repr ++ "-" ++ l.repr ++ "/" ++ n.repr).toList =
      ("bytes " ++ f'.repr ++ "-" ++ l'.repr ++ "/" ++ n.repr).toList) : f = f' ∧ l = l' := by
  have hrange (f l : Nat) : ("bytes " ++ f.repr ++ "-" ++ l.repr ++ "/" ++ n.repr).toList =
      "bytes ".toList ++ (f.repr.toList ++ '-' :: (l.repr.toList ++ '/' :: n.repr.toList)) := by
    simp
  rw [hrange, hrange, List.append_cancel_left_eq] at h
  have hsplit := congrArg (Text.splitOnce '-') h
  rw [Text.splitOnce_append _ (dash_not_mem_repr f), Text.splitOnce_append _ (dash_not_mem_repr f'),
    Option.some.injEq, Prod.mk.injEq, List.append_cancel_right_eq] at hsplit
  exact ⟨Text.repr_toList_inj.mp hsplit.1, Text.repr_toList_inj.mp hsplit.2⟩

theorem quoted_etag_inj (hash : CollisionFree) {body body' : Bytes}
    (h : (quoted (etag body)).toList = (quoted (etag body')).toList) : body = body' := by
  simp only [quoted, String.toList_append, List.append_cancel_left_eq, List.append_cancel_right_eq,
    String.toList_inj, etag, digestHex, Codec.hex_inj] at h
  exact hash h

def statusOf : Option RangeSpec → List Char
  | none => "200 OK".toList
  | some .unsatisfiable => "416 Range Not Satisfiable".toList
  | some (.bytes _ _) => "206 Partial Content".toList

theorem view_sent (gzip : Bytes → Option Bytes) (ct method : String) (acceptsGzip : Bool)
    (body : Bytes) (spec : Option RangeSpec) :
    (view (sent gzip ct method acceptsGzip body spec)).status = statusOf spec ∧
      (view (sent gzip ct method acceptsGzip body spec)).contentType = [ct.toList] ∧
      (spec ≠ some .unsatisfiable →
        (view (sent gzip ct method acceptsGzip body spec)).etag = [(quoted (etag body)).toList]) := by
  cases spec with
  | none =>
    obtain ⟨vary, encoding, payload, hview⟩ := view_full ct body
      (encode gzip acceptsGzip ct body) (method = "GET")
    simp only [sent]
    rw [hview]
    exact ⟨rfl, rfl, fun _ => rfl⟩
  | some spec =>
    cases spec with
    | unsatisfiable =>
      simp only [sent]
      rw [view_unsatisfiable]
      exact ⟨rfl, rfl, fun hne => absurd rfl hne⟩
    | bytes first last =>
      simp only [sent]
      rw [view_partialContent]
      exact ⟨rfl, rfl, fun _ => rfl⟩

omit [Primitives] in
theorem statusOf_cases {spec spec' : Option RangeSpec} (h : statusOf spec = statusOf spec') :
    (spec = none ∧ spec' = none) ∨
      (spec = some .unsatisfiable ∧ spec' = some .unsatisfiable) ∨
      ∃ f l f' l', spec = some (.bytes f l) ∧ spec' = some (.bytes f' l') := by
  have ⟨hwhole, hpart, hbeyond⟩ : "200 OK".toList ≠ "416 Range Not Satisfiable".toList ∧
      "200 OK".toList ≠ "206 Partial Content".toList ∧
      "416 Range Not Satisfiable".toList ≠ "206 Partial Content".toList := by
    decide
  match spec, spec' with
  | none, none => exact .inl ⟨rfl, rfl⟩
  | none, some .unsatisfiable => exact absurd h hwhole
  | none, some (.bytes _ _) => exact absurd h hpart
  | some .unsatisfiable, none => exact absurd h.symm hwhole
  | some .unsatisfiable, some .unsatisfiable => exact .inr (.inl ⟨rfl, rfl⟩)
  | some .unsatisfiable, some (.bytes _ _) => exact absurd h hbeyond
  | some (.bytes _ _), none => exact absurd h.symm hpart
  | some (.bytes _ _), some .unsatisfiable => exact absurd h.symm hbeyond
  | some (.bytes f l), some (.bytes f' l') => exact .inr (.inr ⟨f, l, f', l', rfl, rfl⟩)

theorem view_sent_eq_iff (hash : CollisionFree) {gzip : Bytes → Option Bytes} {ct ct' method : String}
    {acceptsGzip : Bool} {body body' : Bytes} {spec spec' : Option RangeSpec} :
    view (sent gzip ct method acceptsGzip body spec) =
        view (sent gzip ct' method acceptsGzip body' spec') ↔
      ct = ct' ∧ spec = spec' ∧
        (body = body' ∨ spec = some .unsatisfiable ∧ body.length = body'.length) := by
  have ⟨hstatus, htype, hetag⟩ := view_sent gzip ct method acceptsGzip body spec
  have ⟨hstatus', htype', hetag'⟩ := view_sent gzip ct' method acceptsGzip body' spec'
  constructor
  . intro h
    rw [h] at hstatus htype hetag
    rw [hstatus] at hstatus'
    have hct : ct = ct' := by
      rw [htype] at htype'
      rw [← String.toList_inj]
      simpa using htype'
    refine ⟨hct, ?_⟩
    have hsame (hne : spec ≠ some .unsatisfiable) (hne' : spec' ≠ some .unsatisfiable) :
        body = body' := by
      have htag := (hetag hne).symm.trans (hetag' hne')
      rw [List.cons.injEq] at htag
      exact quoted_etag_inj hash htag.1
    have hrange := congrArg View.contentRange h
    rcases statusOf_cases hstatus' with ⟨rfl, rfl⟩ | ⟨rfl, rfl⟩ | ⟨f, l, f', l', rfl, rfl⟩
    . exact ⟨rfl, .inl (hsame (by simp) (by simp))⟩
    . refine ⟨rfl, .inr ⟨rfl, ?_⟩⟩
      simp only [sent] at hrange
      rw [view_unsatisfiable, view_unsatisfiable, List.cons.injEq, String.toList_append,
        String.toList_append, List.append_cancel_left_eq] at hrange
      exact Text.repr_toList_inj.mp hrange.1
    . obtain rfl := hsame (by simp) (by simp)
      simp only [sent] at hrange
      rw [view_partialContent, view_partialContent, List.cons.injEq] at hrange
      obtain ⟨rfl, rfl⟩ := contentRange_inj hrange.1
      exact ⟨rfl, .inl rfl⟩
  . rintro ⟨rfl, rfl, heq⟩
    cases heq with
    | inl heq => rw [heq]
    | inr hlength =>
      rw [hlength.1]
      simp only [sent, hlength.2]

/--
The files and their types, as far as the answer to a range tells of them.
-/
def SameFile (spec : Except Panic (Option RangeSpec)) (ct ct' : String) (body body' : Bytes) : Prop :=
  match spec with
  | .error _ => True
  | .ok (some .unsatisfiable) => ct = ct' ∧ body.length = body'.length
  | .ok _ => ct = ct' ∧ body = body'

/--
Both find a file of one type, or none; both take it for known or not, and if not, both read the same
range.
-/
def SameAnswer (ct ct' method : String) (matched matched' : Bytes → Bool)
    (range range' : Nat → Except Panic (Option RangeSpec)) : Option Bytes → Option Bytes → Prop
  | none, none => ct = ct'
  | some body, some body' =>
    if (method = "GET" ∨ method = "HEAD") ∧ matched body then
      matched' body' = true ∧ ct = ct'
    else
      ((method = "GET" ∨ method = "HEAD") → matched' body' = false) ∧
        (method = "GET" → range body.length = range' body'.length) ∧
        SameFile (if method = "GET" then range body.length else .ok none) ct ct' body body'
  | _, _ => False

theorem map_view_sent_eq_iff (hash : CollisionFree) {gzip : Bytes → Option Bytes}
    {ct ct' method : String} {acceptsGzip : Bool} {body body' : Bytes}
    {spec spec' : Except Panic (Option RangeSpec)} :
    (spec.map (sent gzip ct method acceptsGzip body)).map view =
        (spec'.map (sent gzip ct' method acceptsGzip body')).map view ↔
      spec = spec' ∧ SameFile spec ct ct' body body' := by
  cases spec with
  | error panic =>
    cases spec' with
    | error panic' =>
      cases panic
      cases panic'
      exact iff_of_true rfl ⟨rfl, trivial⟩
    | ok spec' =>
      apply iff_of_false
      . intro h
        cases h
      . rintro ⟨h, -⟩
        cases h
  | ok spec =>
    cases spec' with
    | error panic' =>
      apply iff_of_false
      . intro h
        cases h
      . rintro ⟨h, -⟩
        cases h
    | ok spec' =>
      simp only [Except.map, Except.ok.injEq]
      rw [view_sent_eq_iff hash]
      match spec with
      | none => simp [SameFile, and_left_comm]
      | some .unsatisfiable =>
        simp only [SameFile, true_and]
        constructor
        . rintro ⟨hct, hspec, hfile⟩
          refine ⟨hspec, hct, ?_⟩
          cases hfile with
          | inl hfile => rw [hfile]
          | inr hlength => exact hlength
        . rintro ⟨hspec, hct, hlength⟩
          exact ⟨hct, hspec, .inr hlength⟩
      | some (.bytes f l) => simp [SameFile, and_left_comm]

omit [Primitives] in
theorem statusOf_ne (spec : Option RangeSpec) :
    statusOf spec ≠ "304 Not Modified".toList ∧ statusOf spec ≠ "404 Not Found".toList := by
  have hstatuses : ∀ status ∈ ["200 OK", "416 Range Not Satisfiable", "206 Partial Content"],
      status.toList ≠ "304 Not Modified".toList ∧ status.toList ≠ "404 Not Found".toList := by
    decide
  match spec with
  | none => exact hstatuses "200 OK" (by simp)
  | some .unsatisfiable => exact hstatuses "416 Range Not Satisfiable" (by simp)
  | some (.bytes _ _) => exact hstatuses "206 Partial Content" (by simp)

theorem map_view_sent_ne_notModified (gzip : Bytes → Option Bytes) (ct ct' method : String)
    (acceptsGzip : Bool) (body body' : Bytes) (spec : Except Panic (Option RangeSpec)) :
    (spec.map (sent gzip ct method acceptsGzip body)).map view ≠
      .ok (view (notModified ct' body')) := by
  intro h
  cases spec with
  | error panic => cases h
  | ok spec =>
    have hstatus := (view_sent gzip ct method acceptsGzip body spec).1
    simp only [Except.map, Except.ok.injEq] at h
    rw [h, view_notModified] at hstatus
    exact (statusOf_ne spec).1 hstatus.symm

theorem map_view_sent_ne_notFound (gzip : Bytes → Option Bytes) (ct ct' method : String)
    (acceptsGzip : Bool) (body : Bytes) (spec : Except Panic (Option RangeSpec)) :
    (spec.map (sent gzip ct method acceptsGzip body)).map view ≠ .ok (view (notFound ct')) := by
  intro h
  cases spec with
  | error panic => cases h
  | ok spec =>
    have hstatus := (view_sent gzip ct method acceptsGzip body spec).1
    simp only [Except.map, Except.ok.injEq] at h
    rw [h, view_notFound] at hstatus
    exact (statusOf_ne spec).2 hstatus.symm

theorem view_notModified_ne (ct ct' : String) (body : Bytes) :
    view (notModified ct body) ≠ view (notFound ct') := by
  have hne : "304 Not Modified".toList ≠ "404 Not Found".toList := by
    decide
  intro h
  rw [view_notModified, view_notFound, View.mk.injEq] at h
  exact hne h.1

theorem respond_eq_iff (hash : CollisionFree) (gzip : Bytes → Option Bytes) {ct ct' method : String}
    (acceptsGzip : Bool) {matched matched' : Bytes → Bool}
    {range range' : Nat → Except Panic (Option RangeSpec)} {found found' : Option Bytes}
    (hmatched : ∀ body body', matched body = true → matched' body' = true → etag body = etag body') :
    (respond gzip ct method acceptsGzip matched range found).map view =
        (respond gzip ct' method acceptsGzip matched' range' found').map view ↔
      SameAnswer ct ct' method matched matched' range range' found found' := by
  match found, found' with
  | none, none =>
    simp only [respond, SameAnswer, Except.map, Except.ok.injEq, view_notFound, View.mk.injEq,
      List.cons.injEq, String.toList_inj, and_true, true_and]
  | none, some body' =>
    apply iff_of_false _ id
    simp only [respond]
    split
    . simp only [Except.map, Except.ok.injEq]
      exact fun h => view_notModified_ne _ _ _ h.symm
    . exact fun h => map_view_sent_ne_notFound _ _ _ _ _ _ _ h.symm
  | some body, none =>
    apply iff_of_false _ id
    simp only [respond]
    split
    . simp only [Except.map, Except.ok.injEq]
      exact fun h => view_notModified_ne _ _ _ h
    . apply map_view_sent_ne_notFound
  | some body, some body' =>
    simp only [respond, SameAnswer]
    by_cases hknown : (method = "GET" ∨ method = "HEAD") ∧ matched body = true
    . rw [if_pos hknown, if_pos hknown]
      by_cases hknown' : matched' body' = true
      . rw [if_pos ⟨hknown.1, hknown'⟩]
        simp only [Except.map, Except.ok.injEq, view_notModified, View.mk.injEq, List.cons.injEq,
          String.toList_inj, and_true, true_and, hmatched body body' hknown.2 hknown', hknown']
      . rw [if_neg (fun h => hknown' h.2)]
        apply iff_of_false
        . exact fun h => map_view_sent_ne_notModified _ _ _ _ _ _ _ _ h.symm
        . exact fun h => hknown' h.1
    . rw [if_neg hknown, if_neg hknown]
      by_cases hknown' : (method = "GET" ∨ method = "HEAD") ∧ matched' body' = true
      . rw [if_pos hknown']
        apply iff_of_false
        . apply map_view_sent_ne_notModified
        . intro h
          rw [hknown'.2] at h
          cases h.1 hknown'.1
      . have hunknown : (method = "GET" ∨ method = "HEAD") → matched' body' = false := by
          intro h
          rw [Bool.eq_false_iff]
          exact fun htrue => hknown' ⟨h, htrue⟩
        rw [if_neg hknown', map_view_sent_eq_iff hash, and_iff_right hunknown]
        by_cases hget : method = "GET"
        . simp only [hget, if_true, true_implies]
        . simp only [hget, if_false, false_implies, true_and]

omit [Primitives] in
theorem parseRange_lower (spec : Option (List Char)) (len : Nat) :
    parseRange (spec.map fun spec => String.ofList (Text.lower spec)) len =
      parseRange (spec.map String.ofList) len := by
  cases spec with
  | none => rfl
  | some spec =>
    simp only [parseRange, Option.map_some, String.toList_ofList, trimChars_lower,
      Text.splitOnce_lower caseless_colon]
    cases Text.splitOnce ':' (trimChars spec) with
    | none => exact parseRangeSpec_lower _ len
    | some pieces =>
      simp only [Option.map_some, trimChars_lower]
      exact parseRangeSpec_lower _ len

omit [Primitives] in
theorem hex_chars : ∀ k : Fin 16, isWhitespace (Nat.digitChar k) = false ∧ Nat.digitChar k ≠ '"' := by
  decide

theorem etag_chars {body : Bytes} {c : Char} (h : c ∈ (etag body).toList) :
    isWhitespace c = false ∧ c ≠ '"' := by
  obtain ⟨k, rfl⟩ := Codec.mem_hex h
  exact hex_chars k

theorem trimQuotes_quoted_etag (body : Bytes) :
    trimQuotes (quoted (etag body)).toList = (etag body).toList := by
  have hquotes : (quoted (etag body)).toList = '"' :: (etag body).toList ++ ['"'] := by
    simp [quoted]
  have hkeeps : ∀ c ∈ (etag body).toList, decide (c = '"') = false := by
    intro c hc
    exact decide_eq_false (etag_chars hc).2
  unfold trimQuotes
  rw [hquotes, Text.trimBy_append_right _ (by simp), Text.trimBy_cons _ (by simp)]
  apply Text.trimBy_eq_self
  . intro c hc
    exact hkeeps c (List.mem_of_head? hc)
  . intro c hc
    exact hkeeps c (List.mem_of_getLast? hc)

theorem trimChars_etag (body : Bytes) : trimChars (etag body).toList = (etag body).toList := by
  apply Text.trimBy_eq_self
  . intro c hc
    exact (etag_chars (List.mem_of_head? hc)).1
  . intro c hc
    exact (etag_chars (List.mem_of_getLast? hc)).1

theorem etag_eq_of_matches {ifNoneMatch : Option String} {body body' : Bytes}
    (h : Cli.matchesEtag ifNoneMatch (etag body) = true)
    (h' : matchesEtag ifNoneMatch body' = true) : etag body = etag body' := by
  cases ifNoneMatch with
  | none => cases h
  | some value =>
    simp only [Cli.matchesEtag, decide_eq_true_eq] at h
    simp only [matchesEtag, decide_eq_true_eq] at h'
    rw [h, trimChars_etag, trimQuotes_quoted_etag, String.toList_inj] at h'
    exact h'

omit [Primitives] in
theorem map_some_comp_eq_iff {ε α β : Type} {f : α → β} {x y : Except ε α} :
    x.map (some ∘ f) = (y.map f).map some ↔ x.map f = y.map f := by
  cases x <;> cases y <;> simp [Except.map]

end Alike

end Http

variable [Primitives]

open Http (View view readView guessContentType etag matchesEtag parseRange SameAnswer Panic)

namespace Edge

/--
The answer that the local server gives to a request.
-/
def localView (gzip : Bytes → Option Bytes) (files : Files) (requestLine : List Char)
    (lines : List (List Char)) : Except Panic (Option View) :=
  (Cli.prepareResponse gzip (Cli.request requestLine lines) files (Cli.computeEtags files)).map
    readView

/--
The answer that a publisher gives to the request that the edge forwards.
-/
def servedView (gzip : Bytes → Option Bytes) (files : Files) (requestLine : List Char)
    (lines : List (List Char)) : Except Panic View :=
  let request := Edge.request requestLine lines
  (Runtime.serveRequest gzip files ⟨request.method, request.path, request.forwarded⟩).map view

/--
Both resolve the path to one file, take its tag for known or not, and read the same range. The
publisher serves `/` for a path that does not start with a slash, allows spaces around the tag, and
looks for the range behind a colon.
-/
def Alike (files : Files) (requestLine : List Char) (lines : List (List Char)) : Prop :=
  let request := Cli.request requestLine lines
  let file := Http.resolve files request.path
  let file' := Http.resolve files (Runtime.appPath request.path)
  SameAnswer (guessContentType file.1) (guessContentType file'.1) request.method
    (fun body => Cli.matchesEtag request.ifNoneMatch (etag body)) (matchesEtag request.ifNoneMatch)
    (Cli.parseRange request.range) (parseRange ((Cli.rangeSpec request.range).map String.ofList))
    file.2 file'.2

/--
An app that is served locally and through an edge answers alike just when the two read the request
alike.
-/
theorem localView_eq_servedView_iff (hash : CollisionFree) (gzip : Bytes → Option Bytes)
    (files : Files) (requestLine : List Char) (lines : List (List Char)) :
    localView gzip files requestLine lines = (servedView gzip files requestLine lines).map some ↔
      Alike files requestLine lines := by
  obtain ⟨head, hreads, hforwarded, hmethod, hpath⟩ := Cli.request_reads requestLine lines
  have ⟨hrange, hgzip, hmatch⟩ := header_forwarded head
  unfold localView servedView Runtime.serveRequest Alike
  dsimp only
  rw [Http.prepareResponse_eq, Http.renderResponse_eq, hforwarded, hmethod, hpath, hrange, hgzip,
    hmatch, hreads.acceptsGzip, hreads.ifNoneMatch, hreads.range,
    ← Http.respond_eq_iff hash gzip (Cli.request requestLine lines).acceptsGzip
      fun _ _ => Http.etag_eq_of_matches]
  have hlower := funext (Http.parseRange_lower (Cli.rangeSpec (Cli.request requestLine lines).range))
  rw [hlower]
  apply Http.map_some_comp_eq_iff

omit [Primitives] in
theorem sameAnswer_refl {ct method : String} {matched matched' : Bytes → Bool}
    {range range' : Nat → Except Panic (Option Http.RangeSpec)} (hmatched : matched = matched')
    (hrange : range = range') (found : Option Bytes) :
    SameAnswer ct ct method matched matched' range range' found found := by
  subst hmatched hrange
  cases found with
  | none => rfl
  | some body =>
    simp only [SameAnswer]
    split
    . next hknown => exact ⟨hknown.2, trivial⟩
    . next hunknown =>
      refine ⟨?_, fun _ => trivial, ?_⟩
      . intro h
        rw [Bool.eq_false_iff]
        exact fun htrue => hunknown ⟨h, htrue⟩
      . unfold Http.SameFile
        split
        . trivial
        . exact ⟨rfl, rfl⟩
        . exact ⟨rfl, rfl⟩

omit [Primitives] in
theorem appPath_eq_self {target : List Char}
    (h : "/".toList.isPrefixOf (Text.firstPiece '?' target) = true) :
    Runtime.appPath (String.ofList (Text.firstPiece '?' target)) =
      String.ofList (Text.firstPiece '?' target) := by
  have hpiece : Text.firstPiece '?' (Text.firstPiece '?' target) = Text.firstPiece '?' target := by
    unfold Text.firstPiece
    rw [List.takeWhile_takeWhile]
    simp only [and_self, Bool.decide_eq_true]
  unfold Runtime.appPath
  rw [String.toList_ofList, hpiece]
  dsimp only
  rw [ite_self, if_pos h]

omit [Primitives] in
theorem parseRange_bare {spec : List Char} (htrim : Http.trimChars spec = spec) (hcolon : ':' ∉ spec)
    (len : Nat) : parseRange (some (String.ofList spec)) len = Http.parseRangeSpec spec len := by
  unfold parseRange
  simp only [String.toList_ofList, htrim, Text.splitOnce_eq_none_iff.mpr hcolon]

omit [Primitives] in
theorem trimChars_rangeSpec {header : Option String} {spec : List Char}
    (h : Cli.rangeSpec header = some spec) : Http.trimChars spec = spec := by
  simp only [Cli.rangeSpec, Option.bind_eq_some_iff, Option.map_eq_some_iff] at h
  obtain ⟨line, _, pieces, _, rfl⟩ := h
  exact Http.trimChars_trimChars pieces.2

/--
The usual requests are answered alike: for a path that starts with a slash, a tag without spaces
within its quotes, and a range without a colon.
-/
theorem alike_of_usual {files : Files} {requestLine : List Char} {lines : List (List Char)}
    (hpath : "/".toList.isPrefixOf (Cli.request requestLine lines).path.toList = true)
    (hmatch : ∀ value, (Cli.request requestLine lines).ifNoneMatch = some value →
      Http.trimChars (Http.trimQuotes value.toList) = Http.trimQuotes value.toList)
    (hrange : ∀ spec, Cli.rangeSpec (Cli.request requestLine lines).range = some spec →
      ':' ∉ spec) : Alike files requestLine lines := by
  have htarget : (Cli.request requestLine lines).path =
      String.ofList (Text.firstPiece '?' (requestParts requestLine).2.1) :=
    (Cli.foldl_target lines (.start requestLine)).2
  have happ : Runtime.appPath (Cli.request requestLine lines).path =
      (Cli.request requestLine lines).path := by
    rw [htarget] at hpath ⊢
    apply appPath_eq_self
    rwa [String.toList_ofList (l := Text.firstPiece '?' (requestParts requestLine).2.1)] at hpath
  unfold Alike
  dsimp only
  rw [happ]
  apply sameAnswer_refl
  . funext body
    cases hvalue : (Cli.request requestLine lines).ifNoneMatch with
    | none => rfl
    | some value =>
      simp only [Cli.matchesEtag, matchesEtag, hmatch value hvalue, Http.trimQuotes_quoted_etag]
  . funext len
    rw [Cli.parseRange_eq]
    cases hspec : Cli.rangeSpec (Cli.request requestLine lines).range with
    | none => rfl
    | some spec => exact (parseRange_bare (trimChars_rangeSpec hspec) (hrange spec hspec) len).symm

end Edge

end Canopee

namespace Canopee.Edge

open Canopee.Http (index stored)

section Witness

open Canopee.Transparent

theorem localView_eq_servedView_iff_index :
    localView stored index "GET / HTTP/1.1\r\n".toList ["Range: bytes=0-0\r\n".toList] =
        (servedView stored index "GET / HTTP/1.1\r\n".toList ["Range: bytes=0-0\r\n".toList]).map some ↔
      Alike index "GET / HTTP/1.1\r\n".toList ["Range: bytes=0-0\r\n".toList] :=
  localView_eq_servedView_iff collisionFree stored index _ _

end Witness

section Counterexample

open Canopee.Compact

/--
A missing asset that is asked for with its full address, a range behind a colon, and a tag with a
space after it: the local server answers 404, 200 and 200, and the publisher 200, 206 and 304.
-/
theorem localView_ne_servedView_index :
    localView stored index "GET http://notes.example/app.js HTTP/1.1\r\n".toList [] ≠
        (servedView stored index "GET http://notes.example/app.js HTTP/1.1\r\n".toList []).map some ∧
      localView stored index "GET / HTTP/1.1\r\n".toList ["Range: bytes:bytes=0-0\r\n".toList] ≠
        (servedView stored index "GET / HTTP/1.1\r\n".toList
          ["Range: bytes:bytes=0-0\r\n".toList]).map some ∧
      localView stored index "GET / HTTP/1.1\r\n".toList
          [("If-None-Match: \"" ++ Http.etag [60, 98, 62] ++ " \"\r\n").toList] ≠
        (servedView stored index "GET / HTTP/1.1\r\n".toList
          [("If-None-Match: \"" ++ Http.etag [60, 98, 62] ++ " \"\r\n").toList]).map some := by
  decide +kernel

end Counterexample

end Canopee.Edge
