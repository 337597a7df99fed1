import Canopee.Edge.Httpd
import Canopee.Lib.HttpHead
import Canopee.Runtime.Http

/-!
This module contains when the responses that an edge writes delimit themselves: when no range is
unsatisfiable and when a method other than `GET` and `HEAD` meets no file with content.
-/

namespace Canopee

open Primitives

section Texts

theorem newline_not_mem_repr (n : Nat) : '\n' ∉ n.repr.toList := by
  intro hmem
  exact absurd (Text.isDigit_of_mem_repr hmem) (by decide)

theorem head_repr_ne_space (n : Nat) : n.repr.toList.head? ≠ some ' ' := by
  intro hhead
  exact absurd (Text.isDigit_of_mem_repr (List.mem_of_head? hhead)) (by decide)

theorem digitChar_ne_newline : ∀ k : Fin 16, Nat.digitChar k ≠ '\n' := by
  decide

theorem newline_not_mem_hex (bytes : Bytes) : '\n' ∉ (Codec.hex bytes).toList := by
  intro hmem
  obtain ⟨k, hk⟩ := Codec.mem_hex hmem
  exact digitChar_ne_newline k hk.symm

end Texts

def fieldChars (field : String × String) : List Char × List Char :=
  (field.1.toList, field.2.toList)

/--
A header that a line can carry.
-/
def PlainHeader (field : String × String) : Prop :=
  HttpHead.Plain (fieldChars field)

namespace Edge

def isContentLength (name : List Char) : Bool :=
  Text.eqIgnoreCase name "content-length".toList

theorem isContentLength_connection : isContentLength "Connection".toList = false := by
  decide

theorem isContentLength_contentLength : isContentLength "Content-Length".toList = true := by
  decide

def sendsBody (response : ServeResponse) : Bool :=
  bodyStatuses.any fun code => code.toList.isPrefixOf response.status.toList

/--
The lengths that the publisher put into the response.
-/
def ownLengths (response : ServeResponse) : List (List Char) :=
  (response.headers.filter fun field => isContentLength field.1.toList).map (·.2.toList)

/--
The length that the edge adds.
-/
def addedHeaders (response : ServeResponse) : List (String × String) :=
  if sendsBody response = true ∧ ownLengths response = [] then
    [("Content-Length", response.body.length.repr)]
  else
    []

/--
The headers that the edge writes: those of the publisher, and its own.
-/
def sentHeaders (closeAfterResponse : Bool) (response : ServeResponse) : List (String × String) :=
  response.headers ++ addedHeaders response ++
    [("Connection", if closeAfterResponse then "close" else "keep-alive")]

theorem any_contentLength_eq_false_iff {response : ServeResponse} :
    (response.headers.any fun (name, _) => isContentLength name.toList) = false ↔
      ownLengths response = [] := by
  unfold ownLengths
  rw [List.map_eq_nil_iff, List.filter_eq_nil_iff, List.any_eq_false]

theorem writeResponse_head (closeAfterResponse : Bool) (method : String) (response : ServeResponse) :
    (writeResponse closeAfterResponse method response).1.toList =
      HttpHead.render response.status.toList
        ((sentHeaders closeAfterResponse response).map fieldChars) := by
  have hfold (headers : List (String × String)) (start : String) :
      (headers.foldl (fun header (name, value) => header ++ (name ++ ": " ++ value ++ "\r\n"))
        start).toList =
      start.toList ++ ((headers.map fieldChars).map HttpHead.renderField).flatten := by
    induction headers generalizing start with
    | nil => simp
    | cons field headers ih =>
      rw [List.foldl_cons, ih]
      simp [HttpHead.renderField, fieldChars, HttpHead.crlf]
  unfold writeResponse
  dsimp only
  rw [String.toList_append]
  change (if sendsBody response && !(response.headers.any fun (name, _) =>
    isContentLength name.toList) then _ else _ : String).toList ++ _ = _
  rw [apply_ite String.toList, String.toList_append, hfold]
  unfold HttpHead.render sentHeaders addedHeaders
  simp only [Bool.and_eq_true, Bool.not_eq_true', any_contentLength_eq_false_iff]
  split
  . simp [HttpHead.renderField, fieldChars, HttpHead.crlf, HttpHead.version]
  . simp [HttpHead.renderField, fieldChars, HttpHead.crlf, HttpHead.version]

theorem writeResponse_body (closeAfterResponse : Bool) (method : String) (response : ServeResponse) :
    (writeResponse closeAfterResponse method response).2 =
      if sendsBody response = true ∧ method ≠ "HEAD" then response.body else [] := by
  change (if sendsBody response && !response.body.isEmpty && method != "HEAD" then response.body
    else []) = _
  cases hbody : response.body with
  | nil => simp
  | cons b body => simp

/--
What the edge relies on in a response of a publisher.
-/
structure Relayable (response : ServeResponse) : Prop where
  status : '\n' ∉ response.status.toList
  headers : ∀ field ∈ response.headers, PlainHeader field

theorem plain_contentLength (n : Nat) : PlainHeader ("Content-Length", n.repr) where
  name := by
    simp only [fieldChars]
    decide
  value := newline_not_mem_repr n
  unpadded := head_repr_ne_space n

theorem plain_connection (closeAfterResponse : Bool) :
    PlainHeader ("Connection", if closeAfterResponse then "close" else "keep-alive") := by
  cases closeAfterResponse with
  | true => exact ⟨by decide, by decide, by decide⟩
  | false => exact ⟨by decide, by decide, by decide⟩

theorem plain_sentHeaders {response : ServeResponse} (h : Relayable response)
    (closeAfterResponse : Bool) :
    ∀ f ∈ (sentHeaders closeAfterResponse response).map fieldChars, HttpHead.Plain f := by
  intro f hf
  obtain ⟨field, hfield, rfl⟩ := List.mem_map.mp hf
  unfold sentHeaders addedHeaders at hfield
  simp only [List.mem_append, List.mem_singleton] at hfield
  rcases hfield with (hfield | hfield) | hfield
  . exact h.headers field hfield
  . split at hfield
    . rw [List.mem_singleton] at hfield
      rw [hfield]
      apply plain_contentLength
    . cases hfield
  . rw [hfield]
    apply plain_connection

theorem parse_writeResponse {response : ServeResponse} (h : Relayable response)
    (closeAfterResponse : Bool) (method : String) :
    HttpHead.parse (writeResponse closeAfterResponse method response).1.toList =
      some (response.status.toList, (sentHeaders closeAfterResponse response).map fieldChars) := by
  rw [writeResponse_head, HttpHead.parse_render h.status (plain_sentHeaders h closeAfterResponse)]

/--
The values of the `Content-Length` fields.
-/
def contentLengths (fields : List (List Char × List Char)) : List (List Char) :=
  (fields.filter fun f => isContentLength f.1).map Prod.snd

theorem contentLengths_sentHeaders (closeAfterResponse : Bool) (response : ServeResponse) :
    contentLengths ((sentHeaders closeAfterResponse response).map fieldChars) =
      if sendsBody response = true ∧ ownLengths response = [] then
        [response.body.length.repr.toList]
      else
        ownLengths response := by
  have hmap (headers : List (String × String)) : contentLengths (headers.map fieldChars) =
      (headers.filter fun field => isContentLength field.1.toList).map (·.2.toList) := by
    rw [contentLengths, List.filter_map, List.map_map]
    rfl
  rw [hmap, sentHeaders, List.filter_append, List.filter_append, List.map_append, List.map_append]
  change ownLengths response ++ _ ++ _ = _
  rw [List.filter_singleton, isContentLength_connection]
  unfold addedHeaders
  split
  . next h =>
    rw [h.2, List.filter_singleton, isContentLength_contentLength]
    rfl
  . simp

/--
A client can tell where the response ends: by its one `Content-Length`, or because it has no body.
-/
def Delimited (method : String) (written : String × Bytes) : Prop :=
  ∃ status fields, HttpHead.parse written.1.toList = some (status, fields) ∧
    if method = "HEAD" ∨ "304".toList.isPrefixOf status then
      written.2 = []
    else
      contentLengths fields = [written.2.length.repr.toList]

section Delimited

variable {response : ServeResponse} {closeAfterResponse : Bool} {method : String}

theorem delimited_bodyless (h : Relayable response)
    (hbodyless : method = "HEAD" ∨ "304".toList.isPrefixOf response.status.toList = true)
    (hbody : method = "HEAD" ∨ response.body = []) :
    Delimited method (writeResponse closeAfterResponse method response) := by
  refine ⟨_, _, parse_writeResponse h closeAfterResponse method, ?_⟩
  rw [if_pos hbodyless, writeResponse_body]
  cases hbody with
  | inl hhead => simp [hhead]
  | inr hbody => simp [hbody]

theorem delimited_iff (h : Relayable response) (hhead : method ≠ "HEAD")
    (hstatus : "304".toList.isPrefixOf response.status.toList = false) :
    Delimited method (writeResponse closeAfterResponse method response) ↔
      (if sendsBody response = true ∧ ownLengths response = [] then
        [response.body.length.repr.toList]
      else
        ownLengths response) =
      [(if sendsBody response = true then response.body else []).length.repr.toList] := by
  have hneither : ¬ (method = "HEAD" ∨ "304".toList.isPrefixOf response.status.toList = true) := by
    intro hor
    cases hor with
    | inl hor => exact hhead hor
    | inr hor =>
      rw [hstatus] at hor
      cases hor
  have hbody : (writeResponse closeAfterResponse method response).2 =
      if sendsBody response = true then response.body else [] := by
    rw [writeResponse_body]
    simp [hhead]
  constructor
  . intro ⟨status, fields, hparse, hlengths⟩
    rw [parse_writeResponse h] at hparse
    cases hparse
    rw [if_neg hneither, contentLengths_sentHeaders, hbody] at hlengths
    exact hlengths
  . intro hlengths
    refine ⟨_, _, parse_writeResponse h closeAfterResponse method, ?_⟩
    rw [if_neg hneither, contentLengths_sentHeaders, hbody]
    exact hlengths

end Delimited

end Edge

variable [Primitives]

namespace Http

open Edge (Delimited writeResponse Relayable ownLengths sendsBody delimited_iff)

section Relayable

omit [Primitives] in
theorem plain_contentTypeOf (extension : String) :
    '\n' ∉ (contentTypeOf extension).toList ∧ (contentTypeOf extension).toList.head? ≠ some ' ' := by
  unfold contentTypeOf
  split <;> decide

omit [Primitives] in
theorem plain_guessContentType (path : String) :
    '\n' ∉ (guessContentType path).toList ∧ (guessContentType path).toList.head? ≠ some ' ' := by
  unfold guessContentType
  apply plain_contentTypeOf

omit [Primitives] in
theorem plain_contentType (path : String) :
    PlainHeader ("Content-Type", guessContentType path) where
  name := by
    simp only [fieldChars]
    decide
  value := by
    simp only [fieldChars]
    exact (plain_guessContentType path).1
  unpadded := by
    simp only [fieldChars]
    exact (plain_guessContentType path).2

theorem plain_etag (body : Bytes) : PlainHeader ("ETag", quoted (etag body)) where
  name := by
    simp only [fieldChars]
    decide
  value := by
    simp [fieldChars, quoted, etag, digestHex, newline_not_mem_hex]
  unpadded := by
    simp [fieldChars, quoted]

omit [Primitives] in
theorem plain_acceptRanges : PlainHeader ("Accept-Ranges", "bytes") :=
  ⟨by decide, by decide, by decide⟩

omit [Primitives] in
theorem plain_contentRange (value : String) (h : '\n' ∉ value.toList) :
    PlainHeader ("Content-Range", "bytes " ++ value) where
  name := by
    simp only [fieldChars]
    decide
  value := by
    simp only [fieldChars, String.toList_append, List.mem_append, not_or]
    exact ⟨by decide, h⟩
  unpadded := by
    simp [fieldChars]

theorem relayable_notModified (path : String) (body : Bytes) :
    Relayable (notModified (guessContentType path) body) where
  status := by
    simp only [notModified]
    decide
  headers := by
    simp only [notModified, List.forall_mem_cons, List.not_mem_nil, false_implies, implies_true]
    exact ⟨plain_contentType path, plain_etag body, trivial⟩

omit [Primitives] in
theorem relayable_notFound (path : String) : Relayable (notFound (guessContentType path)) where
  status := by
    simp only [notFound]
    decide
  headers := by
    simp only [notFound, List.forall_mem_cons, List.not_mem_nil, false_implies, implies_true]
    exact ⟨plain_contentType path, trivial⟩

omit [Primitives] in
theorem relayable_unsatisfiable (path : String) (len : Nat) :
    Relayable (unsatisfiable (guessContentType path) len) where
  status := by
    simp only [unsatisfiable]
    decide
  headers := by
    have hrange : PlainHeader ("Content-Range", "bytes */" ++ len.repr) := by
      have hplain := plain_contentRange ("*/" ++ len.repr) (by
        simp only [String.toList_append, List.mem_append, not_or]
        exact ⟨by decide, newline_not_mem_repr len⟩)
      rwa [← String.append_assoc] at hplain
    simp only [unsatisfiable, List.forall_mem_cons, List.not_mem_nil, false_implies, implies_true]
    exact ⟨plain_contentType path, plain_acceptRanges, hrange, trivial⟩

theorem relayable_partialContent (path : String) (body : Bytes) (first last : Nat) :
    Relayable (partialContent (guessContentType path) body first last) where
  status := by
    simp only [partialContent]
    decide
  headers := by
    have hrange : PlainHeader ("Content-Range",
        "bytes " ++ first.repr ++ "-" ++ last.repr ++ "/" ++ body.length.repr) := by
      have hplain := plain_contentRange
          (first.repr ++ ("-" ++ (last.repr ++ ("/" ++ body.length.repr)))) (by
        simp only [String.toList_append, List.mem_append, not_or]
        exact ⟨newline_not_mem_repr first, by decide, newline_not_mem_repr last, by decide,
          newline_not_mem_repr body.length⟩)
      simpa only [← String.append_assoc] using hplain
    simp only [partialContent, List.forall_mem_cons, List.not_mem_nil, false_implies, implies_true]
    exact ⟨plain_contentType path, Edge.plain_contentLength _, plain_acceptRanges, hrange,
      plain_etag body, trivial⟩

theorem relayable_full (path : String) (body : Bytes) (encoded : Option Bytes) (sendBody : Bool) :
    Relayable (full (guessContentType path) body encoded sendBody) where
  status := by
    simp only [full]
    decide
  headers := by
    have hvary : PlainHeader ("Vary", "Accept-Encoding") := ⟨by decide, by decide, by decide⟩
    have hencoding : PlainHeader ("Content-Encoding", "gzip") := ⟨by decide, by decide, by decide⟩
    intro field hfield
    simp only [full, List.mem_append, List.mem_cons, List.not_mem_nil, or_false] at hfield
    rcases hfield with (rfl | rfl | rfl | rfl) | hfield
    . apply plain_contentType
    . apply Edge.plain_contentLength
    . apply plain_etag
    . exact plain_acceptRanges
    . split at hfield
      . rw [List.mem_cons] at hfield
        rcases hfield with rfl | hfield
        . exact hvary
        . split at hfield
          . rw [List.mem_singleton] at hfield
            rw [hfield]
            exact hencoding
          . cases hfield
      . cases hfield

end Relayable

section Delimited

variable {closeAfterResponse : Bool} {method path : String} {body : Bytes}

omit [Primitives] in
theorem not_contentLength : ∀ name ∈ ["Content-Type", "ETag", "Accept-Ranges", "Content-Range", "Vary",
    "Content-Encoding"], Edge.isContentLength name.toList = false := by
  decide

theorem ownLengths_partialContent (contentType : String) (first last : Nat) :
    ownLengths (partialContent contentType body first last) =
      [(last - first + 1).repr.toList] := by
  simp [ownLengths, partialContent, not_contentLength, Edge.isContentLength_contentLength,
    -String.reduceToList]

theorem ownLengths_full (contentType : String) (encoded : Option Bytes) (sendBody : Bool) :
    ownLengths (full contentType body encoded sendBody) =
      [(encoded.getD body).length.repr.toList] := by
  have hvary : (if isCompressible contentType then
      ("Vary", "Accept-Encoding") ::
        (if encoded.isSome then [("Content-Encoding", "gzip")] else [])
    else
      []).filter (fun field => Edge.isContentLength field.1.toList) = [] := by
    split
    . split
      . simp [not_contentLength, -String.reduceToList]
      . simp [not_contentLength, -String.reduceToList]
    . rfl
  unfold ownLengths full
  dsimp only
  rw [List.filter_append, hvary]
  simp [not_contentLength, Edge.isContentLength_contentLength, -String.reduceToList]

omit [Primitives] in
theorem parseRangeValue_bounds {value : List Char} {len first last : Nat}
    (h : parseRangeValue value len = some (.bytes first last)) : first ≤ last ∧ last < len := by
  unfold parseRangeValue at h
  split at h
  . cases h
  . dsimp only at h
    split at h
    . split at h
      . cases h
      . split at h
        . cases h
        . split at h
          . cases h
          . cases h
            omega
    . split at h
      . cases h
      . split at h
        . cases h
        . split at h
          . cases h
            omega
          . split at h
            . cases h
            . split at h
              . cases h
              . cases h
                omega

omit [Primitives] in
theorem parseRangeSpec_bounds {spec : List Char} {len first last : Nat}
    (h : parseRangeSpec spec len = .ok (some (.bytes first last))) : first ≤ last ∧ last < len := by
  unfold parseRangeSpec at h
  split at h
  . cases h
  . split at h
    . cases h
    . split at h
      . simp only [Except.ok.injEq] at h
        apply parseRangeValue_bounds h
      . cases h

omit [Primitives] in
theorem parseRange_bounds {value : Option String} {len first last : Nat}
    (h : parseRange value len = .ok (some (.bytes first last))) : first ≤ last ∧ last < len := by
  unfold parseRange at h
  split at h
  . cases h
  . dsimp only at h
    split at h
    . exact parseRangeSpec_bounds h
    . exact parseRangeSpec_bounds h

theorem delimited_notModified :
    Delimited method (writeResponse closeAfterResponse method
      (notModified (guessContentType path) body)) :=
  Edge.delimited_bodyless (relayable_notModified path body)
    (.inr (by simp only [notModified]; decide)) (.inr rfl)

omit [Primitives] in
theorem delimited_notFound :
    Delimited method (writeResponse closeAfterResponse method (notFound (guessContentType path))) := by
  by_cases hhead : method = "HEAD"
  . exact Edge.delimited_bodyless (relayable_notFound path) (.inl hhead) (.inl hhead)
  . rw [delimited_iff (relayable_notFound path) hhead (by simp only [notFound]; decide)]
    have hsends : sendsBody (notFound (guessContentType path)) = true := by
      simp only [sendsBody, notFound]
      decide
    have hown : ownLengths (notFound (guessContentType path)) = [] := by
      simp [ownLengths, notFound, not_contentLength, -String.reduceToList]
    rw [if_pos ⟨hsends, hown⟩, if_pos hsends]

omit [Primitives] in
theorem not_delimited_unsatisfiable (hhead : method ≠ "HEAD") (len : Nat) :
    ¬ Delimited method (writeResponse closeAfterResponse method
      (unsatisfiable (guessContentType path) len)) := by
  rw [delimited_iff (relayable_unsatisfiable path len) hhead (by simp only [unsatisfiable]; decide)]
  have hsends : sendsBody (unsatisfiable (guessContentType path) len) = false := by
    simp only [sendsBody, unsatisfiable]
    decide
  have hown : ownLengths (unsatisfiable (guessContentType path) len) = [] := by
    simp [ownLengths, unsatisfiable, not_contentLength, -String.reduceToList]
  rw [hsends, if_neg (by simp), hown]
  simp

theorem delimited_partialContent {first last : Nat} (hbounds : first ≤ last ∧ last < body.length) :
    Delimited method (writeResponse closeAfterResponse method
      (partialContent (guessContentType path) body first last)) := by
  by_cases hhead : method = "HEAD"
  . exact Edge.delimited_bodyless (relayable_partialContent path body first last) (.inl hhead)
      (.inl hhead)
  . rw [delimited_iff (relayable_partialContent path body first last) hhead
      (by simp only [partialContent]; decide)]
    have hsends : sendsBody (partialContent (guessContentType path) body first last) = true := by
      simp only [sendsBody, partialContent]
      decide
    rw [ownLengths_partialContent, if_neg (by simp), if_pos hsends]
    have hlength : (partialContent (guessContentType path) body first last).body.length =
        last - first + 1 := by
      simp only [partialContent, List.length_take, List.length_drop]
      omega
    rw [hlength]

theorem delimited_full_iff (encoded : Option Bytes) (sendBody : Bool) (hhead : method ≠ "HEAD") :
    Delimited method (writeResponse closeAfterResponse method
      (full (guessContentType path) body encoded sendBody)) ↔
      sendBody = true ∨ encoded.getD body = [] := by
  rw [delimited_iff (relayable_full path body encoded sendBody) hhead (by simp only [full]; decide)]
  have hsends : sendsBody (full (guessContentType path) body encoded sendBody) = true := by
    simp only [sendsBody, full]
    decide
  rw [ownLengths_full, if_neg (by simp), if_pos hsends]
  simp only [List.cons.injEq, and_true, Text.repr_toList_inj, full]
  cases sendBody with
  | true => simp
  | false => simp

omit [Primitives] in
theorem encode_getD_eq_nil_iff {gzip : Bytes → Option Bytes}
    (hgzip : ∀ body gz, gzip body = some gz → gz ≠ []) (acceptsGzip : Bool) (contentType : String) :
    (encode gzip acceptsGzip contentType body).getD body = [] ↔ body = [] := by
  unfold encode
  split
  . next hencodes =>
    have hlen : minCompressibleLen ≤ body.length := by
      simp only [Bool.and_eq_true] at hencodes
      exact of_decide_eq_true hencodes.1.2
    have hbody : body ≠ [] := by
      rintro rfl
      cases hlen
    apply iff_of_false _ hbody
    cases hgz : gzip body with
    | none => simpa using hbody
    | some gz =>
      by_cases hsmall : gz.length < body.length
      . simpa [Option.filter, hsmall] using hgzip body gz hgz
      . simpa [Option.filter, hsmall] using hbody
  . rfl

/--
No range is unsatisfiable, and no file with content meets a method other than `GET` and `HEAD`.
-/
def Framable (files : Files) (method path : String) (headers : List (String × String)) : Prop :=
  ∀ body, (resolve files path).2 = some body →
    (method = "GET" → matchesEtag (header headers "if-none-match") body = false →
      parseRange (header headers "range") body.length ≠ .ok (some .unsatisfiable)) ∧
    (method ≠ "GET" → method ≠ "HEAD" → body = [])

/--
What the edge writes of a rendered response delimits itself just when the request is framable.
-/
theorem delimited_renderResponse_iff {gzip : Bytes → Option Bytes}
    (hgzip : ∀ body gz, gzip body = some gz → gz ≠ []) {files : Files} {method path : String}
    {headers : List (String × String)} {response : ServeResponse}
    (h : renderResponse gzip files method path headers = .ok response) (closeAfterResponse : Bool) :
    Delimited method (writeResponse closeAfterResponse method response) ↔
      Framable files method path headers := by
  unfold renderResponse at h
  unfold Framable
  cases hfound : (resolve files path).2 with
  | none =>
    simp only [hfound] at h
    cases h
    apply iff_of_true delimited_notFound
    intro body hbody
    cases hbody
  | some body =>
    simp only [hfound] at h
    simp only [Option.some.injEq, forall_eq']
    split at h
    . next hmatches =>
      cases h
      apply iff_of_true delimited_notModified
      constructor
      . intro _ hne
        rw [hmatches.2] at hne
        cases hne
      . intro hget hhead
        cases hmatches.1 with
        | inl hor => exact absurd hor hget
        | inr hor => exact absurd hor hhead
    . next hmatches =>
      by_cases hget : method = "GET"
      . have hmatches : matchesEtag (header headers "if-none-match") body = false := by
          simpa [hget] using hmatches
        rw [if_pos hget] at h
        have hhead : method ≠ "HEAD" := by
          rw [hget]
          decide
        simp only [hget, hmatches, true_implies, ne_eq, not_true_eq_false, false_implies, and_true]
        rw [← hget]
        cases hrange : parseRange (header headers "range") body.length with
        | error panic =>
          rw [hrange] at h
          cases h
        | ok spec =>
          rw [hrange] at h
          cases spec with
          | none =>
            cases h
            apply iff_of_true _ (by simp)
            rw [delimited_full_iff _ _ hhead]
            exact .inl (by simpa using hget)
          | some spec =>
            cases spec with
            | unsatisfiable =>
              cases h
              apply iff_of_false (not_delimited_unsatisfiable hhead _)
              simp
            | bytes first last =>
              cases h
              exact iff_of_true (delimited_partialContent (parseRange_bounds hrange)) (by simp)
      . rw [if_neg hget] at h
        cases h
        simp only [hget, false_implies, true_and, not_false_eq_true, true_implies, ne_eq]
        by_cases hhead : method = "HEAD"
        . apply iff_of_true _ (fun hne => absurd hhead hne)
          exact Edge.delimited_bodyless (relayable_full _ _ _ _) (.inl hhead) (.inl hhead)
        . rw [delimited_full_iff _ _ hhead, encode_getD_eq_nil_iff hgzip]
          simp [hhead]

end Delimited

end Http

end Canopee

namespace Canopee.Http

open Canopee.Compact
open Edge (Delimited writeResponse)

section Counterexample

/--
An app of one small page.
-/
def index : Files :=
  AList.singleton "/" [60, 98, 62]

/--
The three bytes that begin every output of `gzip`, before the content.
-/
def stored (body : Bytes) : Option Bytes :=
  some (0x1f :: 0x8b :: 8 :: body)

theorem stored_ne_nil (body gz : Bytes) (h : stored body = some gz) : gz ≠ [] := by
  cases h
  simp

theorem renderResponse_index : renderResponse stored index "GET" "/" [] =
    .ok (full (guessContentType "/") [60, 98, 62] none true) := by
  decide

theorem delimited_renderResponse_iff_index :
    Delimited "GET" (writeResponse false "GET"
      (full (guessContentType "/") [60, 98, 62] none true)) ↔ Framable index "GET" "/" [] :=
  delimited_renderResponse_iff stored_ne_nil renderResponse_index false

/--
Neither the answer to a range beyond the page nor the one to a `POST` delimits itself.
-/
theorem not_delimited_index :
    (∃ response, renderResponse stored index "GET" "/" [("range", "bytes=20-")] = .ok response ∧
      ¬ Delimited "GET" (writeResponse false "GET" response)) ∧
      ∃ response, renderResponse stored index "POST" "/" [] = .ok response ∧
        ¬ Delimited "POST" (writeResponse false "POST" response) := by
  constructor
  . refine ⟨unsatisfiable (guessContentType "/") 3, by decide, ?_⟩
    apply not_delimited_unsatisfiable (by decide)
  . refine ⟨full (guessContentType "/") [60, 98, 62] none false, by decide, ?_⟩
    rw [delimited_full_iff none false (by decide)]
    simp

end Counterexample

end Canopee.Http
