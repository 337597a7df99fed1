import Canopee.Gateway.Accept
import Canopee.Lib.HttpStream
import Canopee.Results.GatewayCommands
import Canopee.Results.RequestFraming
import Canopee.Results.ResponseFraming

/-!
This module contains whom a gateway takes in: who presents the session token in an opening request from
this machine. What follows such a request is run as commands, and behind any other request nothing is.
-/

namespace Canopee

namespace Gateway

open Edge (WireRequest FieldLine crlf)
open Http (trimChars)
open Incremental

section Token

/--
The fold of `matches` is zero just when there was no difference.
-/
theorem foldl_xor_eq_zero_iff {pairs : List (UInt8 × UInt8)} {acc : UInt8} :
    pairs.foldl (fun acc (a, b) => acc ||| (a ^^^ b)) acc = 0 ↔ acc = 0 ∧ ∀ p ∈ pairs, p.1 = p.2 := by
  induction pairs generalizing acc with
  | nil => simp
  | cons p pairs ih =>
    rw [List.foldl_cons, ih, UInt8.or_eq_zero_iff, UInt8.xor_eq_zero_iff, List.forall_mem_cons,
      and_assoc]

theorem forall_zip_iff {α : Type} {s t : List α} (hlength : s.length = t.length) :
    (∀ p ∈ s.zip t, p.1 = p.2) ↔ s = t := by
  induction s generalizing t with
  | nil => simp [List.length_eq_zero_iff.mp hlength.symm]
  | cons a s ih =>
    cases t with
    | nil => cases hlength
    | cons b t => rw [List.zip_cons_cons, List.forall_mem_cons, ih (Nat.succ.inj hlength), List.cons.injEq]

theorem length_utf8 (s : String) : (Codec.utf8 s).length = s.utf8ByteSize := by
  rw [Codec.utf8, String.utf8ByteSize, Array.length_toList]
  rfl

theorem matches_iff {token : SessionToken} {candidate : String} :
    token.matches candidate = true ↔ candidate = token.text := by
  unfold SessionToken.matches
  split
  . next hne =>
    refine iff_of_false Bool.false_ne_true ?_
    rintro rfl
    exact hne rfl
  . next heq =>
    rw [not_not, ← length_utf8, ← length_utf8] at heq
    rw [beq_iff_eq, foldl_xor_eq_zero_iff, and_iff_right rfl, forall_zip_iff heq, Codec.utf8_inj]
    exact eq_comm

end Token

section Wire

/--
The name of a header field, in lower case, and its value without the white space around it.
-/
def fieldOf (header : Bytes) : Option (String × String) :=
  (Text.splitOnce 58 header).map fun (name, value) =>
    (String.ofList (Text.lower (name.map fun b => Char.ofNat b.toNat)),
      String.ofList (trimChars (Codec.fromUtf8Lossy value).toList))

/--
The values of the fields of that name, in the order of their lines.
-/
def values (headers : List Bytes) (name : String) : List String :=
  ((headers.filterMap fieldOf).filter fun field => field.1 = name).map Prod.snd

/--
What the gateway is to understand.
-/
def opening (r : WireRequest) : Handshake where
  method := String.ofList r.method
  path := String.ofList r.target
  upgradeWebsocket := (values r.headers "upgrade").any fun value =>
    Text.eqIgnoreCase value.toList "websocket".toList
  origin := (values r.headers "origin").getLast?
  secWebsocketKey := (values r.headers "sec-websocket-key").getLast?

/--
An opening request for a WebSocket, from this machine, by someone who has the token.
-/
structure Admissible (token : SessionToken) (r : WireRequest) : Prop where
  upgrade : ∃ value ∈ values r.headers "upgrade",
    Text.eqIgnoreCase value.toList "websocket".toList = true
  key : values r.headers "sec-websocket-key" ≠ []
  origin : isLoopbackOrigin (values r.headers "origin").getLast? = true
  token : queryParam (String.ofList r.target) "token" = some token.text

theorem validateHandshake_opening {token : SessionToken} {r : WireRequest} :
    validateHandshake (opening r) token.matches = .ok () ↔ Admissible token r := by
  rw [validateHandshake_eq_ok_iff]
  constructor
  . rintro ⟨hupgrade, hkey, horigin, candidate, hcandidate, hmatches⟩
    refine ⟨List.any_eq_true.mp hupgrade, ?_, horigin, ?_⟩
    . intro hnil
      rw [opening, hnil] at hkey
      cases hkey
    . rw [← matches_iff.mp hmatches]
      exact hcandidate
  . intro h
    refine ⟨List.any_eq_true.mpr h.upgrade, ?_, h.origin, token.text, h.token, matches_iff.mpr rfl⟩
    rw [opening, List.getLast?_isSome]
    exact h.key

end Wire

section Lines

theorem readHttpLine_of_newline {source : Source UInt8} {bytes more : Bytes}
    (hrest : source.rest = bytes ++ 10 :: more) (hbytes : 10 ∉ bytes) :
    ∃ rest, readHttpLine source =
        .ok (HttpHead.chomp (Codec.fromUtf8Lossy bytes).toList, rest) ∧ rest.rest = more := by
  have ⟨hline, hleft⟩ := source.readUntil_rest (p := (· = 10))
  have hcut := Source.cut_append_cons (p := fun b : UInt8 => decide (b = 10)) (s := bytes) (d := 10)
    more (fun b hb => decide_eq_false fun heq => hbytes (heq ▸ hb)) (decide_eq_true rfl)
  rw [hrest, hcut] at hline hleft
  refine ⟨(source.readUntil (· = 10)).2, ?_, hleft⟩
  unfold readHttpLine
  dsimp only
  rw [hline, if_neg (by simp), if_pos (by simp), List.dropLast_concat]

/--
A line before its CR LF.
-/
theorem readHttpLine_of_crlf {source : Source UInt8} {bytes more : Bytes}
    (hrest : source.rest = bytes ++ crlf ++ more) (hbytes : 10 ∉ bytes) :
    ∃ rest, readHttpLine source = .ok ((Codec.fromUtf8Lossy bytes).toList, rest) ∧
      rest.rest = more := by
  have hsplit : source.rest = (bytes ++ [13]) ++ 10 :: more := by
    rw [hrest]
    simp [crlf]
  obtain ⟨rest, hread, hmore⟩ := readHttpLine_of_newline hsplit (by simpa using hbytes)
  refine ⟨rest, ?_, hmore⟩
  rw [hread, Codec.fromUtf8Lossy_append_cons (by decide)]
  exact congrArg (fun line => Except.ok (line, rest)) (HttpHead.chomp_crlf _)

theorem Fields.read_of_fieldLine {header : Bytes} (h : FieldLine header) (fields : Fields) :
    ∃ name value, fieldOf header = some (name, value) ∧
      fields.read (Codec.fromUtf8Lossy header).toList =
        if name = "upgrade" ∧ Text.eqIgnoreCase value.toList "websocket".toList then
          { fields with upgradeWebsocket := true }
        else if name = "sec-websocket-key" then
          { fields with secWebsocketKey := some value }
        else if name = "origin" then
          { fields with origin := some value }
        else
          fields := by
  obtain ⟨name, value, rfl, hne, hname, _⟩ := h
  have hcolon : (58 : UInt8) ∉ name := fun hmem => (hname 58 hmem).2.2 rfl
  have hascii : ∀ b ∈ name, b.toNat < 128 := by
    intro b hb
    have := UInt8.lt_iff_toNat_lt.mp (hname b hb).2.1
    have hbound : (127 : UInt8).toNat = 127 := rfl
    omega
  have hvisible : ∀ c ∈ name.map fun b => Char.ofNat b.toNat, Edge.visible c ∧ c ≠ ':' := by
    intro c hc
    obtain ⟨b, hb, rfl⟩ := List.mem_map.mp hc
    have hlow := UInt8.le_iff_toNat_le.mp (hname b hb).1
    have hhigh := UInt8.lt_iff_toNat_lt.mp (hname b hb).2.1
    have hbounds : (33 : UInt8).toNat = 33 ∧ (127 : UInt8).toNat = 127 := ⟨rfl, rfl⟩
    have hchar : (Char.ofNat b.toNat).toNat = b.toNat := Codec.toNat_ofNat_ascii (by omega)
    refine ⟨⟨by omega, by omega⟩, ?_⟩
    intro heq
    rw [heq] at hchar
    apply (hname b hb).2.2
    exact UInt8.toNat_inj.mp hchar.symm
  have hfield : fieldOf (name ++ 58 :: value) =
      some (String.ofList (Text.lower (name.map fun b => Char.ofNat b.toNat)),
        String.ofList (trimChars (Codec.fromUtf8Lossy value).toList)) := by
    rw [fieldOf, Text.splitOnce_append value hcolon]
    rfl
  refine ⟨_, _, hfield, ?_⟩
  have hsplit : Text.splitOnce ':' (Codec.fromUtf8Lossy (name ++ 58 :: value)).toList =
      some (name.map fun b => Char.ofNat b.toNat, (Codec.fromUtf8Lossy value).toList) := by
    rw [Codec.fromUtf8Lossy_append_cons (by decide), Codec.fromUtf8Lossy_ascii hascii]
    exact Text.splitOnce_append _ fun hmem => (hvisible ':' hmem).2 rfl
  have htrim : trimChars (name.map fun b => Char.ofNat b.toNat) =
      name.map fun b => Char.ofNat b.toNat := by
    apply Text.trimBy_eq_self
    . intro c hc
      exact Edge.isWhitespace_of_visible (hvisible c (List.mem_of_head? hc)).1
    . intro c hc
      exact Edge.isWhitespace_of_visible (hvisible c (List.mem_of_getLast? hc)).1
  unfold Fields.read
  rw [hsplit]
  simp only [htrim, String.toList_ofList]

/--
What the loop has read after these header lines.
-/
def Fields.after (fields : Fields) (headers : List Bytes) : Fields where
  upgradeWebsocket := fields.upgradeWebsocket || (values headers "upgrade").any fun value =>
    Text.eqIgnoreCase value.toList "websocket".toList
  origin := (values headers "origin").getLast?.or fields.origin
  secWebsocketKey := (values headers "sec-websocket-key").getLast?.or fields.secWebsocketKey

theorem values_cons {header : Bytes} {name value : String} (h : fieldOf header = some (name, value))
    (headers : List Bytes) (want : String) :
    values (header :: headers) want = if name = want then value :: values headers want else values headers want := by
  unfold values
  rw [List.filterMap_cons_some h]
  split
  . next heq => rw [List.filter_cons_of_pos (by simpa using heq), List.map_cons]
  . next hne => rw [List.filter_cons_of_neg (by simpa using hne)]

theorem getLast?_cons_or {α : Type} (a : α) (s : List α) (o : Option α) :
    (a :: s).getLast?.or o = s.getLast?.or (some a) := by
  cases s with
  | nil => rfl
  | cons b s => rw [List.getLast?_cons_cons, List.getLast?_cons, Option.some_or, Option.some_or]

theorem Fields.after_cons {header : Bytes} (h : FieldLine header) (fields : Fields)
    (headers : List Bytes) :
    fields.after (header :: headers) =
      (fields.read (Codec.fromUtf8Lossy header).toList).after headers := by
  obtain ⟨name, value, hfield, hread⟩ := read_of_fieldLine h fields
  have horigin : "upgrade" ≠ "origin" := by decide
  have hkey : "upgrade" ≠ "sec-websocket-key" := by decide
  have hboth : "sec-websocket-key" ≠ "origin" := by decide
  generalize hwebsocket : "websocket".toList = websocket at hread
  unfold Fields.after
  rw [hread, hwebsocket]
  simp only [values_cons hfield]
  by_cases hname : name = "upgrade" ∧ Text.eqIgnoreCase value.toList websocket = true
  . rw [if_pos hname]
    obtain ⟨rfl, hvalue⟩ := hname
    simp only [if_true, horigin, hkey, if_false, List.any_cons, hvalue, Bool.true_or, Bool.or_true]
  . have hany (vs : List String) : ((if name = "upgrade" then value :: vs else vs).any fun value =>
        Text.eqIgnoreCase value.toList websocket) =
          vs.any fun value => Text.eqIgnoreCase value.toList websocket := by
      split
      . next hupgrade =>
        have hvalue := Bool.eq_false_of_not_eq_true fun h => hname ⟨hupgrade, h⟩
        rw [List.any_cons, hvalue, Bool.false_or]
      . rfl
    rw [if_neg hname, hany]
    by_cases hkeyed : name = "sec-websocket-key"
    . subst hkeyed
      simp only [if_true, hboth, if_false, getLast?_cons_or]
    . by_cases horiginated : name = "origin"
      . subst horiginated
        simp only [if_true, hkeyed, if_false, getLast?_cons_or]
      . simp only [hkeyed, horiginated, if_false]

theorem readFields_of_line {source rest : Source UInt8} {line : List Char}
    (h : readHttpLine source = .ok (line, rest)) (fields : Fields) :
    readFields source fields =
      if line.isEmpty then .ok (fields, rest) else readFields rest (fields.read line) := by
  rw [readFields]
  split
  . next heq =>
    rw [h] at heq
    cases heq
  . next heq =>
    rw [h] at heq
    cases heq
    rfl

theorem line_ne_nil {header : Bytes} (h : FieldLine header) :
    (Codec.fromUtf8Lossy header).toList ≠ [] := by
  obtain ⟨name, value, rfl, _⟩ := h
  rw [Codec.fromUtf8Lossy_append_cons (by decide)]
  simp

/--
The loop takes the header lines of an opening request up to the empty line.
-/
theorem readFields_of_headers {headers : List Bytes} (h : ∀ header ∈ headers, FieldLine header)
    {source : Source UInt8} {more : Bytes}
    (hrest : source.rest = (headers.map (· ++ crlf)).flatten ++ (crlf ++ more)) (fields : Fields) :
    ∃ rest, readFields source fields = .ok (fields.after headers, rest) ∧ rest.rest = more := by
  induction headers generalizing source fields with
  | nil =>
    obtain ⟨rest, hread, hmore⟩ := @readHttpLine_of_crlf source [] more hrest (by simp)
    refine ⟨rest, ?_, hmore⟩
    have hempty : (Codec.fromUtf8Lossy []).toList.isEmpty = true := by decide
    rw [readFields_of_line hread, if_pos hempty]
    simp [Fields.after, values]
  | cons header headers ih =>
    rw [List.forall_mem_cons] at h
    have hline : source.rest =
        header ++ crlf ++ ((headers.map (· ++ crlf)).flatten ++ (crlf ++ more)) := by
      rw [hrest, List.map_cons, List.flatten_cons, List.append_assoc]
    obtain ⟨rest, hread, hmore⟩ := readHttpLine_of_crlf hline h.1.newline_not_mem
    obtain ⟨left, hfields, hleft⟩ := ih h.2 hmore (fields.read (Codec.fromUtf8Lossy header).toList)
    refine ⟨left, ?_, hleft⟩
    rw [readFields_of_line hread, if_neg (by simpa using line_ne_nil h.1), hfields,
      Fields.after_cons h.1]

/--
The request line without its end.
-/
def requestLine (r : WireRequest) : List Char :=
  r.method ++ ' ' :: (r.target ++ " HTTP/1.1".toList)

theorem mem_requestLine {r : WireRequest} (hr : r.WellFormed) {c : Char} (hc : c ∈ requestLine r) :
    c.toNat < 128 ∧ c ≠ '\n' := by
  have hascii (h : Edge.visible c) : c.toNat < 128 ∧ c ≠ '\n' := by
    refine ⟨by have := h.2; omega, ?_⟩
    rintro rfl
    exact absurd h.1 (by decide)
  simp only [requestLine, List.mem_append, List.mem_cons] at hc
  rcases hc with hc | rfl | hc | hc
  . exact hascii (hr.method.2 c hc)
  . decide
  . exact hascii (hr.target.2 c hc)
  . have hversion : ∀ c ∈ " HTTP/1.1".toList, c.toNat < 128 ∧ c ≠ '\n' :=
      Codec.forall_mem_of_all (by decide)
    exact hversion c hc

theorem splitBy_requestLine {r : WireRequest} (hr : r.WellFormed) :
    Text.splitBy isWhitespace (requestLine r) = [r.method, r.target, "HTTP/1.1".toList] := by
  have hsolid {s : List Char} (hs : ∀ c ∈ s, Edge.visible c) : ∀ c ∈ s, isWhitespace c = false :=
    fun c hc => Edge.isWhitespace_of_visible (hs c hc)
  have hspace : isWhitespace ' ' = true := by decide
  have hversion : " HTTP/1.1".toList = ' ' :: "HTTP/1.1".toList := by decide
  have hend : Text.splitBy isWhitespace "HTTP/1.1".toList = ["HTTP/1.1".toList] := by decide
  rw [requestLine, Text.splitBy_append_cons hr.method.1 (hsolid hr.method.2) hspace, hversion,
    Text.splitBy_append_cons hr.target.1 (hsolid hr.target.2) hspace, hend]

/--
An opening request is read as it was written, and what follows its head stays.
-/
theorem readHandshake_of_wire {r : WireRequest} (hr : r.WellFormed) {source : Source UInt8}
    {more : Bytes} (hrest : source.rest = r.serialize ++ more) :
    ∃ rest, readHandshake source = .ok (opening r, rest) ∧ rest.rest = r.body ++ more := by
  have hcrlf : Codec.utf8 (String.ofList ['\r', '\n']) = crlf := by decide
  have hline : Codec.utf8 (String.ofList r.line) = Codec.utf8 (String.ofList (requestLine r)) ++ crlf := by
    rw [← hcrlf, ← Edge.utf8_append_ofList]
    have hversion : " HTTP/1.1\r\n".toList = " HTTP/1.1".toList ++ ['\r', '\n'] := by decide
    rw [WireRequest.line, requestLine, hversion]
    simp only [List.append_assoc, List.cons_append]
  have hnewline : 10 ∉ Codec.utf8 (String.ofList (requestLine r)) :=
    Edge.newline_not_mem_utf8 fun hmem => (mem_requestLine hr hmem).2 rfl
  have hrest' : source.rest = Codec.utf8 (String.ofList (requestLine r)) ++ crlf ++
      ((r.headers.map (· ++ crlf)).flatten ++ (crlf ++ (r.body ++ more))) := by
    rw [hrest, WireRequest.serialize, hline]
    simp only [List.append_assoc]
  obtain ⟨rest, hread, hmore⟩ := readHttpLine_of_crlf hrest' hnewline
  rw [Codec.fromUtf8Lossy_utf8 fun c hc => (mem_requestLine hr hc).1] at hread
  obtain ⟨left, hfields, hleft⟩ := readFields_of_headers hr.headers hmore Fields.start
  refine ⟨left, ?_, hleft⟩
  have hstart : Fields.start.after r.headers =
      ⟨(opening r).upgradeWebsocket, (opening r).origin, (opening r).secWebsocketKey⟩ := by
    simp only [Fields.after, Fields.start, Bool.false_or, Option.or_none]
    rfl
  unfold readHandshake
  rw [hread]
  dsimp only [bind, Except.bind]
  rw [hfields, splitBy_requestLine hr, hstart]
  rfl

end Lines

section Replies

open HttpStream (Message readMessage readMessage_written)

/--
The head of the answer that opens a WebSocket.
-/
def openingFields (accept : List Char) : List (List Char × List Char) :=
  [("Upgrade".toList, "websocket".toList), ("Connection".toList, "Upgrade".toList),
    ("Sec-WebSocket-Accept".toList, accept)]

def refusal : Message where
  status := "403 Forbidden".toList
  fields := [("Content-Length".toList, "0".toList)]
  body := []

def pageFields (page : String) : List (List Char × List Char) :=
  [("Content-Type".toList, "text/html; charset=utf-8".toList),
    ("Content-Length".toList, page.utf8ByteSize.repr.toList), ("Connection".toList, "close".toList)]

def pageMessage (page : String) : Message where
  status := "200 OK".toList
  fields := pageFields page
  body := Codec.utf8 page

theorem plain_encode (bytes : Bytes) (name : List Char) (hname : '\n' ∉ name ∧ ':' ∉ name) :
    HttpHead.Plain (name, Base64.encode bytes) := by
  have hdigit : ∀ n : Fin 64, Base64.digit n ≠ '\n' ∧ Base64.digit n ≠ ' ' := by decide
  have hmem {c : Char} (hc : c ∈ Base64.encode bytes) : c ≠ '\n' ∧ c ≠ ' ' := by
    rcases Base64.mem_encode hc with rfl | ⟨n, hn, rfl⟩
    . decide
    . exact hdigit ⟨n, hn⟩
  exact ⟨hname, fun h => (hmem h).1 rfl, fun h => (hmem (List.mem_of_head? h)).2 rfl⟩

/--
A head whose last fields are put in between two texts.
-/
theorem render_append (status : List Char) (before after : List (List Char × List Char))
    (name value : List Char) :
    HttpHead.render status (before ++ (name, value) :: after) =
      (HttpHead.version ++ status ++ HttpHead.crlf ++ (before.map HttpHead.renderField).flatten ++
        name ++ [':', ' ']) ++ value ++
          (HttpHead.crlf ++ (after.map HttpHead.renderField).flatten ++ HttpHead.crlf) := by
  simp [HttpHead.render, HttpHead.renderField]

theorem toList_between (before after : String) (value : List Char) :
    (before ++ String.ofList value ++ after).toList = before.toList ++ value ++ after.toList := by
  simp

theorem parse_switchingProtocols (bytes : Bytes) :
    HttpHead.parse (switchingProtocols (Base64.encode bytes)).toList =
      some ("101 Switching Protocols".toList, openingFields (Base64.encode bytes)) := by
  have hrender : (switchingProtocols (Base64.encode bytes)).toList =
      HttpHead.render "101 Switching Protocols".toList (openingFields (Base64.encode bytes)) := by
    have hhead : ("HTTP/1.1 101 Switching Protocols\r\nUpgrade: websocket\r\nConnection: Upgrade\r\n" ++
        "Sec-WebSocket-Accept: ").toList =
          HttpHead.version ++ "101 Switching Protocols".toList ++ HttpHead.crlf ++
            ([("Upgrade".toList, "websocket".toList), ("Connection".toList, "Upgrade".toList)].map
              HttpHead.renderField).flatten ++ "Sec-WebSocket-Accept".toList ++ [':', ' '] := by
      decide
    have hend : "\r\n\r\n".toList =
        HttpHead.crlf ++ (([] : List (List Char × List Char)).map HttpHead.renderField).flatten ++
          HttpHead.crlf := by
      decide
    exact (toList_between _ _ _).trans
      ((congrArg₂ (· ++ Base64.encode bytes ++ ·) hhead hend).trans (render_append _ _ [] _ _).symm)
  rw [hrender, HttpHead.parse_render (by decide)]
  intro f hf
  simp only [openingFields, List.mem_cons, List.not_mem_nil, or_false] at hf
  rcases hf with rfl | rfl | rfl
  . exact ⟨by decide, by decide, by decide⟩
  . exact ⟨by decide, by decide, by decide⟩
  . exact plain_encode bytes _ (by decide)

theorem readMessage_forbidden : readMessage "GET" (Codec.utf8 forbidden) = some (refusal, []) := by
  have hrender : forbidden.toList = HttpHead.render refusal.status refusal.fields := by
    decide
  have hplain : ∀ f ∈ refusal.fields, HttpHead.Plain f := by
    intro f hf
    obtain rfl := List.mem_singleton.mp hf
    exact ⟨by decide, by decide, by decide⟩
  have hlength : HttpStream.bodyLength "GET" refusal.status refusal.fields = some refusal.body.length := by
    decide
  have hread := @readMessage_written refusal.status _ _ _ (by decide) hplain hlength []
  rw [← hrender, String.ofList_toList, List.append_nil] at hread
  rw [show Codec.utf8 forbidden = Codec.utf8 forbidden ++ refusal.body from (List.append_nil _).symm, hread]

theorem readMessage_pageResponse (page : String) :
    readMessage "GET" (Codec.utf8 (pageResponse page)) = some (pageMessage page, []) := by
  have hhead : "HTTP/1.1 200 OK\r\nContent-Type: text/html; charset=utf-8\r\nContent-Length: ".toList =
      HttpHead.version ++ "200 OK".toList ++ HttpHead.crlf ++
        ([("Content-Type".toList, "text/html; charset=utf-8".toList)].map
          HttpHead.renderField).flatten ++ "Content-Length".toList ++ [':', ' '] := by
    decide
  have hend : "\r\nConnection: close\r\n\r\n".toList =
      HttpHead.crlf ++ ([("Connection".toList, "close".toList)].map HttpHead.renderField).flatten ++
        HttpHead.crlf := by
    decide
  have hrender : (("HTTP/1.1 200 OK\r\nContent-Type: text/html; charset=utf-8\r\nContent-Length: " ++
      String.ofList page.utf8ByteSize.repr.toList ++ "\r\nConnection: close\r\n\r\n" : String)).toList =
        HttpHead.render "200 OK".toList (pageFields page) :=
    (toList_between _ _ _).trans ((congrArg₂ (· ++ page.utf8ByteSize.repr.toList ++ ·) hhead hend).trans
      (render_append _ _ _ _ _).symm)
  have hplain : ∀ f ∈ pageFields page, HttpHead.Plain f := by
    intro f hf
    simp only [pageFields, List.mem_cons, List.not_mem_nil, or_false] at hf
    rcases hf with rfl | rfl | rfl
    . exact ⟨by decide, by decide, by decide⟩
    . exact Edge.plain_contentLength _
    . exact ⟨by decide, by decide, by decide⟩
  have hlengths : HttpStream.lengths (pageFields page) = [page.utf8ByteSize.repr.toList] := by
    have htype : ¬ Text.eqIgnoreCase "Content-Type".toList "content-length".toList = true := by
      decide
    have hsame : Text.eqIgnoreCase "Content-Length".toList "content-length".toList = true := by
      decide
    have hconnection : ¬ Text.eqIgnoreCase "Connection".toList "content-length".toList = true := by
      decide
    unfold HttpStream.lengths pageFields
    generalize "content-length".toList = want at htype hsame hconnection ⊢
    simp only [List.filter_cons, htype, hsame, hconnection, if_true, Bool.false_eq_true, if_false,
      List.filter_nil, List.map_cons, List.map_nil]
  have hlength : HttpStream.bodyLength "GET" "200 OK".toList (pageFields page) =
      some (Codec.utf8 page).length := by
    rw [HttpStream.bodyLength, if_neg (by decide), hlengths, length_utf8]
    exact HttpStream.decimal_repr _
  have hread := @readMessage_written "200 OK".toList _ _ _ (by decide) hplain hlength []
  rw [← hrender, String.ofList_toList, String.ofList_toList, List.append_nil, ← Codec.utf8_append] at hread
  exact hread

end Replies

section Connection

open HttpStream (Message readMessage)

variable {Event Request : Type} {decode : Bytes → Option (GatewayCommand Request)}
  {frames : List ClientFrame}

theorem steady_reading {reader : Source UInt8} (h : reader.rest = encodeAll frames) :
    Steady decode frames (Session.reading Event Request reader) where
  intact := ⟨rfl, [], frames, rfl, rfl, h⟩
  waits := rfl

theorem intact_of_calm (hspeaks : ∀ f ∈ frames, Speaks decode f) {s : Session Event Request}
    (hs : Steady decode frames s) {ls : List (Label Event)}
    (hcalm : Run.Along (step decode) (Calm decode) s ls) :
    Run.Always (step decode) (Intact decode frames) s ls := by
  have hsteady := hcalm.always hs fun l t hl ht => (intact_step_iff hspeaks ht).2 hl
  exact hsteady.mono fun t ht => ht.intact

/--
What someone gets who is not taken in.
-/
def answer (page : String) (request : Handshake) : Message :=
  if request.upgradeWebsocket = false ∧ request.method = "GET" ∧ request.path = "/" then
    pageMessage page
  else
    refusal

end Connection

section Witness

/--
The opening request of a page that the gateway has served.
-/
def pageOpening : WireRequest where
  method := "GET".toList
  target := "/?token=c0ffee".toList
  headers := [Codec.utf8 "Upgrade: WebSocket", Codec.utf8 "Origin: http://localhost:8372",
    Codec.utf8 "Sec-WebSocket-Key: dGhlIHNhbXBsZSBub25jZQ=="]
  body := []

def fieldLines : List (Bytes × Bytes) :=
  [(Codec.utf8 "Upgrade", Codec.utf8 " WebSocket"),
    (Codec.utf8 "Origin", Codec.utf8 " http://localhost:8372"),
    (Codec.utf8 "Sec-WebSocket-Key", Codec.utf8 " dGhlIHNhbXBsZSBub25jZQ==")]

theorem wellFormed_pageOpening : pageOpening.WellFormed where
  method := ⟨by decide, Codec.forall_mem_of_all (by decide)⟩
  target := ⟨by decide, Codec.forall_mem_of_all (by decide)⟩
  headers := by
    have hlines : pageOpening.headers = fieldLines.map fun line => line.1 ++ 58 :: line.2 := by
      decide
    have hplain : fieldLines.all fun line => line.1 ≠ [] ∧
        (line.1.all fun b => 33 ≤ b ∧ b < 127 ∧ b ≠ 58) ∧
          line.2.all fun b => b = 9 ∨ 32 ≤ b ∧ b ≠ 127 := by
      decide
    rw [hlines]
    intro header hheader
    obtain ⟨⟨name, value⟩, hmem, rfl⟩ := List.mem_map.mp hheader
    have hpair := List.all_eq_true.mp hplain _ hmem
    simp only [List.all_eq_true, decide_eq_true_eq] at hpair
    exact ⟨name, value, rfl, hpair⟩
  body := .inl (by decide)

theorem admissible_pageOpening : Admissible ⟨"c0ffee"⟩ pageOpening where
  upgrade := ⟨"WebSocket", by decide, by decide⟩
  key := by decide
  origin := by decide
  token := by decide

/--
The hash of the key of the page and the identifier of the protocol.
-/
def pageHash (bytes : Bytes) : Bytes :=
  if bytes = Codec.utf8 "dGhlIHNhbXBsZSBub25jZQ==" ++ Codec.utf8 WS_GUID then
    [0xb3, 0x7a, 0x4f, 0x2c, 0xc0, 0x62, 0x4f, 0x16, 0x90, 0xf6, 0x46, 0x06, 0xcf, 0x38, 0x59, 0x45,
      0xb2, 0xbe, 0xc4, 0xea]
  else
    []

/--
The request and the two commands behind it arrive in two pieces.
-/
def pageStream : Source UInt8 where
  buffer := []
  chunks := [(pageOpening.serialize ++ encodeAll [subscribe, identity]).take 30,
    (pageOpening.serialize ++ encodeAll [subscribe, identity]).drop 30]

end Witness

end Gateway

end Canopee
