import Canopee.Edge.Httpd
import Canopee.Lib.Utf8

/-!
This module contains when an edge reads from a connection the requests that were written to it: when
nothing but white space stands between their heads.
-/

namespace Canopee

namespace Edge

open Http (trimChars)

section Lines

/--
The bytes of a text of white space.
-/
def Blank (bytes : Bytes) : Prop :=
  ∃ ws : List Char, (∀ c ∈ ws, isWhitespace c = true) ∧ bytes = Codec.utf8 (String.ofList ws)

theorem blank_nil : Blank [] :=
  ⟨[], by simp, rfl⟩

theorem utf8_append_ofList (s t : List Char) :
    Codec.utf8 (String.ofList (s ++ t)) =
      Codec.utf8 (String.ofList s) ++ Codec.utf8 (String.ofList t) := by
  rw [String.ofList_append, Codec.utf8_append]

theorem Blank.append {a b : Bytes} (ha : Blank a) (hb : Blank b) : Blank (a ++ b) := by
  obtain ⟨s, hs, rfl⟩ := ha
  obtain ⟨t, ht, rfl⟩ := hb
  refine ⟨s ++ t, ?_, (utf8_append_ofList s t).symm⟩
  intro c hc
  rw [List.mem_append] at hc
  exact hc.elim (hs c) (ht c)

theorem readLine_eq_eof_iff {source : Source UInt8} : readLine source = .eof ↔ source.rest = [] := by
  have ⟨hline, _⟩ := source.readUntil_rest (p := (· = 10))
  have hempty : (source.readUntil (· = 10)).1.isEmpty = true ↔ source.rest = [] := by
    rw [hline, List.isEmpty_iff, Source.cut_eq_nil_iff]
  unfold readLine
  dsimp only
  rw [← hempty]
  constructor
  . intro h
    by_contra hne
    rw [if_neg hne] at h
    split at h
    . cases h
    . cases h
  . intro h
    rw [if_pos h]

theorem readLine_rest {source rest : Source UInt8} {text : List Char}
    (h : readLine source = .line text rest) :
    source.rest = Codec.utf8 (String.ofList text) ++ rest.rest := by
  have ⟨hline, hrest⟩ := source.readUntil_rest (p := (· = 10))
  unfold readLine at h
  dsimp only at h
  split at h
  . cases h
  . split at h
    . cases h
    . next text htext =>
      cases h
      rw [Codec.ofUtf8_eq_some_iff, hline] at htext
      rw [String.ofList_toList, ← htext, hrest, Source.cut_append]

theorem readLine_of_newline {source : Source UInt8} {bytes more : Bytes}
    (h : source.rest = bytes ++ 10 :: more) (hbytes : 10 ∉ bytes) :
    (Codec.ofUtf8 (bytes ++ [10]) = none ∧ readLine source = .invalid) ∨
      ∃ text rest, Codec.ofUtf8 (bytes ++ [10]) = some text ∧
        readLine source = .line text.toList rest ∧ rest.rest = more := by
  have ⟨hline, hrest⟩ := source.readUntil_rest (p := (· = 10))
  have hkeeps : ∀ b ∈ bytes, decide (b = 10) = false := by
    intro b hb
    apply decide_eq_false
    rintro rfl
    exact hbytes hb
  rw [h, Source.cut_append_cons more hkeeps (by decide)] at hline hrest
  unfold readLine
  dsimp only at hline hrest ⊢
  rw [hline, if_neg (by simp)]
  cases htext : Codec.ofUtf8 (bytes ++ [10]) with
  | none => exact .inl ⟨rfl, rfl⟩
  | some text => exact .inr ⟨text, _, rfl, rfl, hrest⟩

/--
What a request begins with is preceded by white space only, and so is the end.
-/
theorem readRequest_rest {source : Source UInt8} :
    (readRequest source = .done → Blank source.rest) ∧
      ∀ start request rest, readRequest source = .request start request rest →
        ∃ before, Blank before ∧ source.rest = before ++ start := by
  fun_induction readRequest source with
  | case1 source heof =>
    constructor
    . intro _
      rw [readLine_eq_eof_iff.mp heof]
      exact blank_nil
    . intro start request rest h
      cases h
  | case2 => exact ⟨fun h => (by cases h), fun _ _ _ h => (by cases h)⟩
  | case3 source text left hline hblank ih =>
    have htext : Blank (Codec.utf8 (String.ofList text)) :=
      ⟨text, Text.trimBy_eq_nil_iff.mp (List.isEmpty_iff.mp hblank), rfl⟩
    rw [readLine_rest hline]
    constructor
    . intro h
      exact htext.append (ih.1 h)
    . intro start request rest h
      obtain ⟨before, hbefore, hleft⟩ := ih.2 start request rest h
      refine ⟨_, htext.append hbefore, ?_⟩
      rw [hleft, List.append_assoc]
  | case4 => exact ⟨fun h => (by cases h), fun _ _ _ h => (by cases h)⟩
  | case5 source text left hline hblank head left' hheaders =>
    constructor
    . intro h
      cases h
    . intro start request rest h
      cases h
      refine ⟨Codec.utf8 (String.ofList (text.takeWhile isWhitespace)), ⟨_, ?_, rfl⟩, ?_⟩
      . intro c hc
        exact List.mem_takeWhile_imp hc
      . rw [readLine_rest hline, ← List.append_assoc, ← utf8_append_ofList,
          List.takeWhile_append_dropWhile]

end Lines

section Wire

def crlf : Bytes := [13, 10]

/--
A request as a client writes it; of a header, the bytes of its line.
-/
structure WireRequest where
  method : List Char
  target : List Char
  headers : List Bytes
  body : Bytes

def visible (c : Char) : Prop :=
  33 ≤ c.toNat ∧ c.toNat < 127

instance : DecidablePred visible :=
  fun c => inferInstanceAs (Decidable (33 ≤ c.toNat ∧ c.toNat < 127))

/--
A name, a colon, and a value without control characters.
-/
def FieldLine (header : Bytes) : Prop :=
  ∃ name value, header = name ++ 58 :: value ∧ name ≠ [] ∧
    (∀ b ∈ name, 33 ≤ b ∧ b < 127 ∧ b ≠ 58) ∧ ∀ b ∈ value, b = 9 ∨ 32 ≤ b ∧ b ≠ 127

/--
The value of a `Content-Length` header, without the white space around it.
-/
def contentLength? (header : Bytes) : Option Bytes :=
  let lower := header.map fun b => if 65 ≤ b ∧ b ≤ 90 then b + 32 else b
  (Text.stripPrefix (Codec.utf8 "content-length:") lower).map (Text.trimBy fun b => b = 32 || b = 9)

namespace WireRequest

/--
What a client may write. Without a `Content-Length` there is no body.
-/
structure WellFormed (r : WireRequest) : Prop where
  method : r.method ≠ [] ∧ ∀ c ∈ r.method, visible c
  target : r.target ≠ [] ∧ ∀ c ∈ r.target, visible c
  headers : ∀ header ∈ r.headers, FieldLine header
  body : r.headers.filterMap contentLength? = [] ∧ r.body = [] ∨
    r.headers.filterMap contentLength? = [Codec.utf8 r.body.length.repr]

def line (r : WireRequest) : List Char :=
  r.method ++ ' ' :: r.target ++ " HTTP/1.1\r\n".toList

def serialize (r : WireRequest) : Bytes :=
  Codec.utf8 (String.ofList r.line) ++ (r.headers.map (· ++ crlf)).flatten ++ crlf ++ r.body

/--
The header lines are texts.
-/
def Decodable (r : WireRequest) : Prop :=
  ∀ header ∈ r.headers, (Codec.ofUtf8 (header ++ crlf)).isSome = true

def lines (r : WireRequest) : List (List Char) :=
  r.headers.map fun header => ((Codec.ofUtf8 (header ++ crlf)).getD "").toList

/--
The request that the edge is to understand.
-/
def request (r : WireRequest) : Request :=
  Edge.request r.line r.lines

end WireRequest

def stream (rs : List WireRequest) : Bytes :=
  (rs.map WireRequest.serialize).flatten

/--
The requests in order, each with the stream from its first byte on.
-/
def requests : List WireRequest → List (Bytes × Request)
  | [] => []
  | r :: rs => (stream (r :: rs), r.request) :: requests rs

/--
The heads are texts, only the last request may ask to close, and every body that is read over is
white space.
-/
def Framable : List WireRequest → Prop
  | [] => True
  | r :: rs =>
    r.Decodable ∧
      if r.request.closeAfterResponse then
        rs = []
      else
        Blank r.body ∧ Framable rs

theorem newline_not_mem_utf8 {s : List Char} (h : '\n' ∉ s) : 10 ∉ Codec.utf8 (String.ofList s) := by
  intro hmem
  exact h ((Codec.mem_utf8_iff (d := '\n') (by decide)).mp hmem)

theorem utf8_concat_newline (s : List Char) :
    Codec.utf8 (String.ofList (s ++ ['\n'])) = Codec.utf8 (String.ofList s) ++ [10] := by
  rw [utf8_append_ofList]
  rfl

theorem readLine_of_text {source : Source UInt8} {s : List Char} {more : Bytes}
    (hrest : source.rest = Codec.utf8 (String.ofList s) ++ 10 :: more) (h : '\n' ∉ s) :
    ∃ rest, readLine source = .line (s ++ ['\n']) rest ∧ rest.rest = more := by
  have hdecodes := Codec.ofUtf8_utf8 (String.ofList (s ++ ['\n']))
  rw [utf8_concat_newline] at hdecodes
  rcases readLine_of_newline hrest (newline_not_mem_utf8 h) with
    ⟨hnone, _⟩ | ⟨text, rest, htext, hread, hmore⟩
  . rw [hdecodes] at hnone
    cases hnone
  . rw [hdecodes] at htext
    cases htext
    rw [String.toList_ofList] at hread
    exact ⟨rest, hread, hmore⟩

theorem readLine_of_last {source : Source UInt8} {s : List Char}
    (hrest : source.rest = Codec.utf8 (String.ofList s)) (h : '\n' ∉ s) (hne : source.rest ≠ []) :
    ∃ rest, readLine source = .line s rest ∧ rest.rest = [] := by
  have ⟨hline, hleft⟩ := source.readUntil_rest (p := (· = 10))
  have hkeeps : ∀ b ∈ source.rest, decide (b = 10) = false := by
    intro b hb
    apply decide_eq_false
    rintro rfl
    rw [hrest] at hb
    exact newline_not_mem_utf8 h hb
  rw [Source.cut_eq_self hkeeps] at hline hleft
  refine ⟨_, ?_, hleft⟩
  unfold readLine
  dsimp only at hline ⊢
  rw [hline, if_neg (by simpa using hne), hrest, Codec.ofUtf8_utf8]
  simp only [String.toList_ofList]

theorem readHeaders_of_line {source rest : Source UInt8} {text : List Char}
    (hline : readLine source = .line text rest) (head : Head) :
    readHeaders source head =
      if text = "\r\n".toList ∨ text = "\n".toList then
        some (head, rest)
      else
        readHeaders rest (head.read text) := by
  rw [readHeaders]
  split
  . next heof =>
    rw [hline] at heof
    cases heof
  . next hinvalid =>
    rw [hline] at hinvalid
    cases hinvalid
  . next hline' =>
    rw [hline] at hline'
    cases hline'
    rfl

theorem readHeaders_of_invalid {source : Source UInt8} (hinvalid : readLine source = .invalid)
    (head : Head) : readHeaders source head = none := by
  rw [readHeaders]
  split
  . next heof =>
    rw [hinvalid] at heof
    cases heof
  . rfl
  . next hline =>
    rw [hinvalid] at hline
    cases hline

theorem FieldLine.ne_nil {header : Bytes} (h : FieldLine header) : header ≠ [] := by
  obtain ⟨name, value, rfl, -⟩ := h
  simp

theorem FieldLine.newline_not_mem {header : Bytes} (h : FieldLine header) : 10 ∉ header := by
  obtain ⟨name, value, rfl, _, hname, hvalue⟩ := h
  rw [List.mem_append, List.mem_cons, not_or, not_or]
  refine ⟨?_, by decide, ?_⟩
  . intro hmem
    exact absurd (hname 10 hmem).1 (by decide)
  . intro hmem
    exact absurd (hvalue 10 hmem) (by decide)

theorem readHeaders_of_field {header more : Bytes} (hfield : FieldLine header)
    {source : Source UInt8} (hrest : source.rest = header ++ crlf ++ more) :
    (Codec.ofUtf8 (header ++ crlf) = none ∧ ∀ head, readHeaders source head = none) ∨
      ∃ text rest, Codec.ofUtf8 (header ++ crlf) = some text ∧ rest.rest = more ∧
        ∀ head, readHeaders source head = readHeaders rest (head.read text.toList) := by
  have hbytes : header ++ crlf = header ++ [13] ++ [10] := by
    simp [crlf]
  have hnewline : (10 : UInt8) ∉ header ++ [13] := by
    rw [List.mem_append, not_or]
    exact ⟨hfield.newline_not_mem, by decide⟩
  rw [hbytes, List.append_assoc _ [10], List.singleton_append] at hrest
  rw [hbytes]
  rcases readLine_of_newline hrest hnewline with ⟨hnone, hinvalid⟩ | ⟨text, rest, htext, hline, hmore⟩
  . exact .inl ⟨hnone, readHeaders_of_invalid hinvalid⟩
  . refine .inr ⟨text, rest, htext, hmore, ?_⟩
    intro head
    rw [readHeaders_of_line hline, if_neg]
    rw [Codec.ofUtf8_eq_some_iff, ← hbytes] at htext
    intro hend
    rw [String.toList_inj, String.toList_inj] at hend
    have hlength : (Codec.utf8 text).length ≤ 2 := by
      rcases hend with rfl | rfl
      . decide
      . decide
    have hpos := List.length_pos_of_ne_nil hfield.ne_nil
    rw [← htext, List.length_append] at hlength
    simp only [crlf, List.length_cons] at hlength
    omega

theorem readHeaders_of_decodable {headers : List Bytes} {source : Source UInt8} {more : Bytes}
    (hrest : source.rest = (headers.map (· ++ crlf)).flatten ++ crlf ++ more)
    (hfields : ∀ header ∈ headers, FieldLine header)
    (hdecodes : ∀ header ∈ headers, (Codec.ofUtf8 (header ++ crlf)).isSome = true) (head : Head) :
    ∃ rest, readHeaders source head =
      some ((headers.map fun header => ((Codec.ofUtf8 (header ++ crlf)).getD "").toList).foldl
        Head.read head, rest) ∧ rest.rest = more := by
  induction headers generalizing source head with
  | nil =>
    rw [List.map_nil, List.flatten_nil, List.nil_append] at hrest
    obtain ⟨rest, hline, hleft⟩ := readLine_of_text (s := ['\r']) hrest (by decide)
    refine ⟨rest, ?_, hleft⟩
    rw [readHeaders_of_line hline, if_pos (.inl (by decide))]
    rfl
  | cons header headers ih =>
    rw [List.forall_mem_cons] at hfields hdecodes
    rw [List.map_cons, List.flatten_cons, List.append_assoc (header ++ crlf),
      List.append_assoc (header ++ crlf)] at hrest
    rcases readHeaders_of_field hfields.1 hrest with ⟨hnone, _⟩ | ⟨text, left, htext, hleft, hread⟩
    . rw [hnone] at hdecodes
      cases hdecodes.1
    . rw [hread, List.map_cons, List.foldl_cons, htext]
      exact ih hleft hfields.2 hdecodes.2 _

theorem readHeaders_of_undecodable {headers : List Bytes} {source : Source UInt8} {more : Bytes}
    (hrest : source.rest = (headers.map (· ++ crlf)).flatten ++ crlf ++ more)
    (hfields : ∀ header ∈ headers, FieldLine header)
    (hdecodes : ¬ ∀ header ∈ headers, (Codec.ofUtf8 (header ++ crlf)).isSome = true) (head : Head) :
    readHeaders source head = none := by
  induction headers generalizing source head with
  | nil => exact absurd (by simp) hdecodes
  | cons header headers ih =>
    rw [List.forall_mem_cons] at hfields hdecodes
    rw [List.map_cons, List.flatten_cons, List.append_assoc (header ++ crlf),
      List.append_assoc (header ++ crlf)] at hrest
    rcases readHeaders_of_field hfields.1 hrest with ⟨_, hstop⟩ | ⟨text, left, htext, hleft, hread⟩
    . exact hstop head
    . rw [hread]
      apply ih hleft hfields.2
      intro hlater
      apply hdecodes
      rw [htext]
      exact ⟨rfl, hlater⟩

theorem readRequest_of_line {source rest : Source UInt8} {text : List Char}
    (hline : readLine source = .line text rest) :
    readRequest source =
      if (trimChars text).isEmpty then
        readRequest rest
      else
        match readHeaders rest (Head.start (requestParts text).2.2) with
        | none => .failed
        | some (head, left) =>
          .request (Codec.utf8 (String.ofList (text.dropWhile isWhitespace)) ++ rest.rest)
            (head.request text) left := by
  rw [readRequest]
  split
  . next heof =>
    rw [hline] at heof
    cases heof
  . next hinvalid =>
    rw [hline] at hinvalid
    cases hinvalid
  . next text' rest' hline' =>
    rw [hline] at hline'
    cases hline'
    rfl

theorem readRequest_of_blank_line {source rest : Source UInt8} {text : List Char}
    (hline : readLine source = .line text rest) (hblank : ∀ c ∈ text, isWhitespace c = true) :
    readRequest source = readRequest rest := by
  rw [readRequest_of_line hline, if_pos]
  exact List.isEmpty_iff.mpr (Text.trimBy_eq_nil_iff.mpr hblank)

theorem handleClient_of_done {source : Source UInt8} (h : readRequest source = .done) :
    handleClient source = ([], true) := by
  rw [handleClient]
  split
  . rfl
  . next hfailed =>
    rw [h] at hfailed
    cases hfailed
  . next hrequest =>
    rw [h] at hrequest
    cases hrequest

theorem handleClient_of_failed {source : Source UInt8} (h : readRequest source = .failed) :
    handleClient source = ([], false) := by
  rw [handleClient]
  split
  . next hdone =>
    rw [h] at hdone
    cases hdone
  . rfl
  . next hrequest =>
    rw [h] at hrequest
    cases hrequest

theorem handleClient_of_request {source rest : Source UInt8} {start : Bytes} {request : Request}
    (h : readRequest source = .request start request rest) :
    handleClient source =
      if request.closeAfterResponse then
        ([(start, request)], true)
      else
        ((start, request) :: (handleClient rest).1, (handleClient rest).2) := by
  rw [handleClient]
  split
  . next hdone =>
    rw [h] at hdone
    cases hdone
  . next hfailed =>
    rw [h] at hfailed
    cases hfailed
  . next hrequest =>
    rw [h] at hrequest
    cases hrequest
    rfl

theorem readRequest_skips (ws : List Char) (hws : ∀ c ∈ ws, isWhitespace c = true)
    {source : Source UInt8} {more : Bytes}
    (hrest : source.rest = Codec.utf8 (String.ofList ws) ++ more) :
    ∃ ws' source', (∀ c ∈ ws', isWhitespace c = true) ∧ '\n' ∉ ws' ∧
      source'.rest = Codec.utf8 (String.ofList ws') ++ more ∧
      readRequest source = readRequest source' := by
  by_cases hmem : '\n' ∈ ws
  . obtain ⟨s, t, rfl, hs⟩ := List.eq_append_cons_of_mem hmem
    have hblank : ∀ c ∈ s ++ ['\n'], isWhitespace c = true := by
      intro c hc
      apply hws c
      simp only [List.mem_append, List.mem_cons] at hc ⊢
      tauto
    have hcons : Codec.utf8 (String.ofList (s ++ '\n' :: t)) =
        Codec.utf8 (String.ofList s) ++ 10 :: Codec.utf8 (String.ofList t) := by
      rw [List.append_cons, utf8_append_ofList, utf8_concat_newline, List.append_assoc]
      rfl
    rw [hcons, List.append_assoc, List.cons_append] at hrest
    obtain ⟨rest, hline, hleft⟩ := readLine_of_text hrest hs
    obtain ⟨ws', source', hws', hnewline, hrest', hsame⟩ := readRequest_skips t
      (fun c hc => hws c (by simp [hc])) hleft
    refine ⟨ws', source', hws', hnewline, hrest', ?_⟩
    rw [readRequest_of_blank_line hline hblank, hsame]
  . exact ⟨ws, source, hws, hmem, hrest, rfl⟩
termination_by ws.length
decreasing_by
  subst_vars
  simp
  omega

theorem readRequest_of_eof {source : Source UInt8} (h : source.rest = []) :
    readRequest source = .done := by
  have heof := readLine_eq_eof_iff.mpr h
  rw [readRequest]
  split
  . rfl
  . next hinvalid =>
    rw [heof] at hinvalid
    cases hinvalid
  . next hline =>
    rw [heof] at hline
    cases hline

theorem readRequest_of_blank {source : Source UInt8} (h : Blank source.rest) :
    readRequest source = .done := by
  obtain ⟨ws, hws, hrest⟩ := h
  rw [← List.append_nil (Codec.utf8 _)] at hrest
  obtain ⟨ws', source', hws', hnewline, hrest', hsame⟩ := readRequest_skips ws hws hrest
  rw [hsame]
  rw [List.append_nil] at hrest'
  by_cases hnil : source'.rest = []
  . exact readRequest_of_eof hnil
  . obtain ⟨rest, hline, hleft⟩ := readLine_of_last hrest' hnewline hnil
    rw [readRequest_of_blank_line hline hws']
    exact readRequest_of_eof hleft

theorem isWhitespace_of_visible {c : Char} (h : visible c) : isWhitespace c = false := by
  unfold visible at h
  unfold isWhitespace
  simp
  omega

theorem requestParts_of_blank {ws : List Char} (hws : ∀ c ∈ ws, isWhitespace c = true)
    (line : List Char) : requestParts (ws ++ line) = requestParts line := by
  have hsplit : Text.splitBy isWhitespace (ws ++ line) = Text.splitBy isWhitespace line := by
    induction ws with
    | nil => rfl
    | cons c ws ih =>
      rw [List.forall_mem_cons] at hws
      rw [← ih hws.2]
      unfold Text.splitBy
      rw [List.cons_append, List.splitOnP_cons_eq_if_modifyHead, if_pos hws.1]
      rfl
  unfold requestParts
  rw [hsplit]

theorem WireRequest.WellFormed.line {r : WireRequest} (hr : r.WellFormed) :
    (∃ c line, r.line = c :: line ∧ visible c) ∧ ∃ s, r.line = s ++ ['\n'] ∧ '\n' ∉ s := by
  obtain ⟨hmethod, hvisible⟩ := hr.method
  constructor
  . obtain ⟨c, method, hcons⟩ := List.exists_cons_of_ne_nil hmethod
    rw [hcons, List.forall_mem_cons] at hvisible
    refine ⟨c, method ++ ' ' :: r.target ++ " HTTP/1.1\r\n".toList, ?_, hvisible.1⟩
    unfold WireRequest.line
    rw [hcons]
    rfl
  . have hversion : " HTTP/1.1\r\n".toList = " HTTP/1.1\r".toList ++ ['\n'] := by
      decide
    refine ⟨r.method ++ ' ' :: r.target ++ " HTTP/1.1\r".toList, ?_, ?_⟩
    . unfold WireRequest.line
      rw [hversion, List.append_assoc _ _ ['\n']]
    . have hnewline : ∀ c, visible c → c ≠ '\n' := by
        rintro c hc rfl
        exact absurd hc.1 (by decide)
      simp only [List.mem_append, List.mem_cons, not_or]
      refine ⟨⟨fun hmem => hnewline _ (hvisible _ hmem) rfl, by decide,
        fun hmem => hnewline _ (hr.target.2 _ hmem) rfl⟩, by decide⟩

/--
A request that only white space precedes is read as it was written, if its head is a text.
-/
theorem readRequest_of_wire {r : WireRequest} (hr : r.WellFormed) {source : Source UInt8}
    {before more : Bytes} (hbefore : Blank before)
    (hrest : source.rest = before ++ (r.serialize ++ more)) :
    (r.Decodable → ∃ rest, readRequest source = .request (r.serialize ++ more) r.request rest ∧
      rest.rest = r.body ++ more) ∧
    (¬ r.Decodable → readRequest source = .failed) := by
  obtain ⟨ws, hws, rfl⟩ := hbefore
  obtain ⟨ws', source', hws', hnewline, hrest', hsame⟩ := readRequest_skips ws hws hrest
  obtain ⟨⟨c, line, hline, hc⟩, s, hs, hend⟩ := hr.line
  have hserialize : r.serialize ++ more = Codec.utf8 (String.ofList r.line) ++
      ((r.headers.map (· ++ crlf)).flatten ++ crlf ++ (r.body ++ more)) := by
    simp only [WireRequest.serialize, List.append_assoc]
  have hfirst : source'.rest = Codec.utf8 (String.ofList (ws' ++ s)) ++
      10 :: ((r.headers.map (· ++ crlf)).flatten ++ crlf ++ (r.body ++ more)) := by
    rw [hrest', hserialize, hs, utf8_concat_newline, utf8_append_ofList]
    simp only [List.append_assoc, List.cons_append, List.nil_append]
  obtain ⟨rest, hread, hleft⟩ := readLine_of_text hfirst (by
    rw [List.mem_append, not_or]
    exact ⟨hnewline, hend⟩)
  rw [List.append_assoc, ← hs] at hread
  have hsolid := isWhitespace_of_visible hc
  have htrim : ¬ (trimChars (ws' ++ r.line)).isEmpty = true := by
    intro hempty
    have hall := Text.trimBy_eq_nil_iff.mp (List.isEmpty_iff.mp hempty) c (by simp [hline])
    rw [hsolid] at hall
    cases hall
  have hstart : (ws' ++ r.line).dropWhile isWhitespace = r.line := by
    rw [List.dropWhile_append_of_pos hws', hline, List.dropWhile_cons_of_neg (by simp [hsolid])]
  rw [hsame, readRequest_of_line hread, if_neg htrim, requestParts_of_blank hws', hstart, hleft,
    ← hserialize]
  constructor
  . intro hdecodable
    obtain ⟨left, hheaders, hmore⟩ := readHeaders_of_decodable hleft hr.headers hdecodable
      (Head.start (requestParts r.line).2.2)
    refine ⟨left, ?_, hmore⟩
    rw [hheaders]
    simp only [Head.request, requestParts_of_blank hws']
    rfl
  . intro hundecodable
    rw [readHeaders_of_undecodable hleft hr.headers hundecodable]

/--
What stands before requests that are read to the end is white space.
-/
theorem blank_of_handleClient {rs : List WireRequest} {source : Source UInt8} {body : Bytes}
    (hrest : source.rest = body ++ stream rs) (h : handleClient source = (requests rs, true)) :
    Blank body := by
  have ⟨hdone, hrequest⟩ := @readRequest_rest source
  cases hread : readRequest source with
  | done =>
    rw [handleClient_of_done hread] at h
    cases rs with
    | nil =>
      have hblank := hdone hread
      rwa [hrest, stream, List.map_nil, List.flatten_nil, List.append_nil] at hblank
    | cons r rs => cases h
  | failed =>
    rw [handleClient_of_failed hread, Prod.mk.injEq] at h
    cases h.2
  | request start request rest =>
    rw [handleClient_of_request hread] at h
    cases rs with
    | nil =>
      split at h
      . cases h
      . cases h
    | cons r rs =>
      have hstart : start = stream (r :: rs) := by
        split at h
        . simp only [requests, Prod.mk.injEq, List.cons.injEq] at h
          exact h.1.1.1
        . simp only [requests, Prod.mk.injEq, List.cons.injEq] at h
          exact h.1.1.1
      obtain ⟨before, hbefore, hsplit⟩ := hrequest start request rest hread
      rw [hrest, hstart, List.append_cancel_right_eq] at hsplit
      rwa [hsplit]

theorem requests_eq_nil_iff {rs : List WireRequest} : requests rs = [] ↔ rs = [] := by
  cases rs with
  | nil => exact iff_of_true rfl rfl
  | cons r rs => simp [requests]

theorem handleClient_eq_iff_of_blank {rs : List WireRequest} (hrs : ∀ r ∈ rs, r.WellFormed)
    {source : Source UInt8} {before : Bytes} (hbefore : Blank before)
    (hrest : source.rest = before ++ stream rs) :
    handleClient source = (requests rs, true) ↔ Framable rs := by
  induction rs generalizing source before with
  | nil =>
    rw [stream, List.map_nil, List.flatten_nil, List.append_nil] at hrest
    rw [← hrest] at hbefore
    apply iff_of_true _ trivial
    rw [handleClient_of_done (readRequest_of_blank hbefore)]
    rfl
  | cons r rs ih =>
    rw [List.forall_mem_cons] at hrs
    have hstream : stream (r :: rs) = r.serialize ++ stream rs := rfl
    rw [hstream] at hrest
    have ⟨hreads, hfails⟩ := readRequest_of_wire hrs.1 hbefore hrest
    unfold Framable requests
    by_cases hdecodable : r.Decodable
    . obtain ⟨rest, hread, hmore⟩ := hreads hdecodable
      rw [handleClient_of_request hread, and_iff_right hdecodable, hstream]
      cases hclose : r.request.closeAfterResponse with
      | true =>
        simp only [if_true, Prod.mk.injEq, List.cons.injEq, true_and, and_true]
        rw [eq_comm, requests_eq_nil_iff]
      | false =>
        have hlater : ((r.serialize ++ stream rs, r.request) :: (handleClient rest).1,
            (handleClient rest).2) = ((r.serialize ++ stream rs, r.request) :: requests rs, true) ↔
            handleClient rest = (requests rs, true) := by
          simp only [Prod.ext_iff, List.cons.injEq, true_and]
        simp only [Bool.false_eq_true, if_false]
        rw [hlater]
        constructor
        . intro h
          have hblank := blank_of_handleClient hmore h
          exact ⟨hblank, (ih hrs.2 hblank hmore).mp h⟩
        . intro ⟨hblank, hframable⟩
          exact (ih hrs.2 hblank hmore).mpr hframable
    . rw [handleClient_of_failed (hfails hdecodable)]
      apply iff_of_false
      . intro h
        cases h
      . intro h
        exact hdecodable h.1

/--
The edge answers the requests that were written to a connection, however their bytes arrive, just
when nothing but white space stands between their heads.
-/
theorem handleClient_eq_iff {rs : List WireRequest} (hrs : ∀ r ∈ rs, r.WellFormed)
    {source : Source UInt8} (hrest : source.rest = stream rs) :
    handleClient source = (requests rs, true) ↔ Framable rs :=
  handleClient_eq_iff_of_blank hrs blank_nil hrest

theorem WireRequest.request_target {r : WireRequest} (hr : r.WellFormed) :
    r.request.method = String.ofList r.method ∧
      r.request.path = String.ofList (Text.firstPiece '?' r.target) := by
  have hparts : requestParts r.line = (String.ofList r.method, r.target, "HTTP/1.1".toList) := by
    have hsolid {s : List Char} (hs : ∀ c ∈ s, visible c) : ∀ c ∈ s, isWhitespace c = false :=
      fun c hc => isWhitespace_of_visible (hs c hc)
    have hversion : (" HTTP/1.1\r\n".toList : List Char) = ' ' :: "HTTP/1.1\r\n".toList := by
      decide
    have hend : "HTTP/1.1\r\n".toList.splitOnP isWhitespace = ["HTTP/1.1".toList, [], []] := by
      decide
    have hspace : isWhitespace ' ' = true := by decide
    have hsplit : Text.splitBy isWhitespace r.line = [r.method, r.target, "HTTP/1.1".toList] := by
      unfold Text.splitBy WireRequest.line
      rw [List.append_assoc, List.cons_append,
        List.splitOnP_append_cons_of_forall_mem (hsolid hr.method.2) _ hspace, hversion,
        List.splitOnP_append_cons_of_forall_mem (hsolid hr.target.2) _ hspace, hend]
      simp [hr.method.1, hr.target.1]
    unfold requestParts
    rw [hsplit]
  unfold WireRequest.request Edge.request Head.request
  rw [hparts]
  exact ⟨rfl, rfl⟩

end Wire

section Witness

def visit : WireRequest where
  method := "GET".toList
  target := "/about".toList
  headers := [Codec.utf8 "Host: alice.example"]
  body := []

theorem fieldLine_host : FieldLine (Codec.utf8 "Host: alice.example") := by
  refine ⟨Codec.utf8 "Host", Codec.utf8 " alice.example", by decide, by decide, ?_, ?_⟩
  . apply Codec.forall_mem_of_all
    decide
  . apply Codec.forall_mem_of_all
    decide

theorem wellFormed_visit : visit.WellFormed where
  method := ⟨by decide, Codec.forall_mem_of_all (by decide)⟩
  target := ⟨by decide, Codec.forall_mem_of_all (by decide)⟩
  headers := by
    simp only [visit, List.mem_singleton, forall_eq]
    exact fieldLine_host
  body := .inl (by decide)

/--
Two requests that arrive in two pieces.
-/
def visits : Source UInt8 where
  buffer := []
  chunks := [(stream [visit, visit]).take 30, (stream [visit, visit]).drop 30]

theorem handleClient_eq_iff_visits :
    handleClient visits = (requests [visit, visit], true) ↔ Framable [visit, visit] :=
  handleClient_eq_iff (by simp [wellFormed_visit]) (by simp [visits, Source.rest])

end Witness

section Counterexample

/--
A request whose body is the text of another one.
-/
def smuggler : WireRequest where
  method := "POST".toList
  target := "/upload".toList
  headers := [Codec.utf8 "Content-Length: 21"]
  body := Codec.utf8 "DELETE / HTTP/1.1\r\n\r\n"

theorem fieldLine_length : FieldLine (Codec.utf8 "Content-Length: 21") := by
  refine ⟨Codec.utf8 "Content-Length", Codec.utf8 " 21", by decide, by decide, ?_, ?_⟩
  . apply Codec.forall_mem_of_all
    decide
  . apply Codec.forall_mem_of_all
    decide

theorem wellFormed_smuggler : smuggler.WellFormed where
  method := ⟨by decide, Codec.forall_mem_of_all (by decide)⟩
  target := ⟨by decide, Codec.forall_mem_of_all (by decide)⟩
  headers := by
    simp only [smuggler, List.mem_singleton, forall_eq]
    exact fieldLine_length
  body := .inr (by decide)

/--
The edge answers the body as a second request.
-/
theorem smuggles :
    smuggler.WellFormed ∧
      (handleClient ⟨stream [smuggler], []⟩).1.map (·.2.method) = ["POST", "DELETE"] ∧
      handleClient ⟨stream [smuggler], []⟩ ≠ (requests [smuggler], true) := by
  refine ⟨wellFormed_smuggler, by decide +kernel, by decide +kernel⟩

end Counterexample

end Edge

end Canopee
