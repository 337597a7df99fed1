import Canopee.Lib.HttpHead
import Canopee.Lib.Utf8

/-!
This module contains a client of an HTTP/1.1 connection that stays open: how it cuts the bytes that it
gets into one message for each of its requests.
-/

namespace HttpStream

open HttpHead (crlf)

structure Message where
  status : List Char
  fields : List (List Char × List Char)
  body : Bytes
deriving DecidableEq

/--
The bytes up to the first empty line, and those behind it; `line` is what has been read of the current
line.
-/
def cutHead (line : Bytes) : Bytes → Option (Bytes × Bytes)
  | [] => none
  | b :: rest =>
    if b = 10 then
      if line = [] ∨ line = [13] then
        some (line ++ [10], rest)
      else
        (cutHead [] rest).map fun cut => (line ++ 10 :: cut.1, cut.2)
    else
      cutHead (line ++ [b]) rest

def decimal (value : List Char) : Option Nat :=
  if value ≠ [] ∧ value.all Char.isDigit then some (Nat.ofDigitChars 10 value 0) else none

/--
The values of the `Content-Length` fields.
-/
def lengths (fields : List (List Char × List Char)) : List (List Char) :=
  (fields.filter fun field => Text.eqIgnoreCase field.1 "content-length".toList).map Prod.snd

/--
How long the body of the answer to `method` is.
-/
def bodyLength (method : String) (status : List Char) (fields : List (List Char × List Char)) :
    Option Nat :=
  if method = "HEAD" ∨ "304".toList.isPrefixOf status then
    some 0
  else
    match lengths fields with
    | [value] => decimal value
    | _ => none

/--
The answer to `method` at the front of the bytes, and the bytes behind it.
-/
def readMessage (method : String) (bytes : Bytes) : Option (Message × Bytes) :=
  (cutHead [] bytes).bind fun (head, rest) =>
    (Codec.ofUtf8 head).bind fun text =>
      (HttpHead.parse text.toList).bind fun (status, fields) =>
        (bodyLength method status fields).bind fun n =>
          if n ≤ rest.length then
            some (⟨status, fields, rest.take n⟩, rest.drop n)
          else
            none

/--
The answers to these requests, with nothing before, between and behind them.
-/
def readMessages : List String → Bytes → Option (List Message)
  | [], bytes => if bytes.isEmpty then some [] else none
  | method :: methods, bytes =>
    (readMessage method bytes).bind fun (message, rest) =>
      (readMessages methods rest).map (message :: ·)

theorem decimal_repr (n : Nat) : decimal n.repr.toList = some n := by
  unfold decimal
  rw [if_pos]
  . rw [Nat.toList_repr, Nat.ofDigitChars_toDigits (by omega) (by omega)]
  . constructor
    . rw [Nat.toList_repr]
      exact Nat.toDigits_ne_nil
    . rw [List.all_eq_true]
      intro c hc
      exact Text.isDigit_of_mem_repr hc

theorem cutHead_append {x : Bytes} (line rest : Bytes) (h : 10 ∉ x) :
    cutHead line (x ++ rest) = cutHead (line ++ x) rest := by
  induction x generalizing line with
  | nil => simp
  | cons b x ih =>
    rw [List.mem_cons, not_or] at h
    rw [List.cons_append, cutHead, if_neg (Ne.symm h.1), ih _ h.2]
    simp

theorem cutHead_line {x : Bytes} (rest : Bytes) (h : 10 ∉ x) (hne : x ≠ []) :
    cutHead [] (x ++ [13, 10] ++ rest) =
      (cutHead [] rest).map fun cut => (x ++ [13, 10] ++ cut.1, cut.2) := by
  have hline : 10 ∉ x ++ [13] := by
    simpa using h
  have hsplit : x ++ [13, 10] ++ rest = x ++ [13] ++ 10 :: rest := by simp
  rw [hsplit, cutHead_append [] (10 :: rest) hline, List.nil_append, cutHead, if_pos rfl, if_neg]
  . simp
  . rintro (hnil | hcr)
    . simp at hnil
    . apply hne
      simpa using hcr

/--
Lines of a head in which no line is empty.
-/
def lines (ls : List (List Char)) : List Char :=
  (ls.map (· ++ crlf)).flatten ++ crlf

theorem utf8_crlf : Codec.utf8 (String.ofList crlf) = [13, 10] := by
  decide

theorem utf8_append_ofList (s t : List Char) :
    Codec.utf8 (String.ofList (s ++ t)) =
      Codec.utf8 (String.ofList s) ++ Codec.utf8 (String.ofList t) := by
  rw [String.ofList_append, Codec.utf8_append]

theorem cutHead_lines {ls : List (List Char)} (h : ∀ l ∈ ls, '\n' ∉ l ∧ l ≠ []) (rest : Bytes) :
    cutHead [] (Codec.utf8 (String.ofList (lines ls)) ++ rest) =
      some (Codec.utf8 (String.ofList (lines ls)), rest) := by
  induction ls with
  | nil =>
    rw [lines, List.map_nil, List.flatten_nil, List.nil_append, utf8_crlf]
    rfl
  | cons l ls ih =>
    rw [List.forall_mem_cons] at h
    have hsplit : Codec.utf8 (String.ofList (lines (l :: ls))) =
        Codec.utf8 (String.ofList l) ++ [13, 10] ++ Codec.utf8 (String.ofList (lines ls)) := by
      rw [← utf8_crlf, ← utf8_append_ofList, ← utf8_append_ofList]
      simp [lines]
    have hnewline : 10 ∉ Codec.utf8 (String.ofList l) := by
      intro hmem
      exact h.1.1 ((Codec.mem_utf8_iff (d := '\n') (by decide)).mp hmem)
    have hne : Codec.utf8 (String.ofList l) ≠ [] := by
      intro hnil
      apply h.1.2
      have htext : Codec.utf8 (String.ofList l) = Codec.utf8 "" := hnil
      rw [Codec.utf8_inj] at htext
      simpa using congrArg String.toList htext
    rw [hsplit, List.append_assoc, cutHead_line _ hnewline hne, ih h.2]
    rfl

theorem render_eq_lines (status : List Char) (fields : List (List Char × List Char)) :
    HttpHead.render status fields =
      lines ((HttpHead.version ++ status) :: fields.map fun f => f.1 ++ [':', ' '] ++ f.2) := by
  have hfields : fields.map HttpHead.renderField =
      (fields.map fun f => f.1 ++ [':', ' '] ++ f.2).map (· ++ crlf) := by
    rw [List.map_map]
    rfl
  rw [lines, List.map_cons, List.flatten_cons, ← hfields]
  simp [HttpHead.render]

/--
A message that was written with a head that a client can read, and with a body as long as the head
says, is read as it is, whatever follows it.
-/
theorem readMessage_written {status : List Char} {fields : List (List Char × List Char)}
    {body : Bytes} {method : String} (hstatus : '\n' ∉ status)
    (hfields : ∀ f ∈ fields, HttpHead.Plain f)
    (hlength : bodyLength method status fields = some body.length) (rest : Bytes) :
    readMessage method
        (Codec.utf8 (String.ofList (HttpHead.render status fields)) ++ body ++ rest) =
      some (⟨status, fields, body⟩, rest) := by
  have hlines : ∀ l ∈ (HttpHead.version ++ status) ::
      fields.map fun f => f.1 ++ [':', ' '] ++ f.2, '\n' ∉ l ∧ l ≠ [] := by
    intro l hl
    rcases List.mem_cons.mp hl with rfl | hl
    . constructor
      . rw [List.mem_append, not_or]
        exact ⟨by decide, hstatus⟩
      . exact List.append_ne_nil_of_left_ne_nil (by decide) status
    . obtain ⟨f, hf, rfl⟩ := List.mem_map.mp hl
      have hplain := hfields f hf
      constructor
      . simp [hplain.name.1, hplain.value]
      . simp
  have hcut := cutHead_lines hlines (body ++ rest)
  rw [← render_eq_lines, ← List.append_assoc] at hcut
  unfold readMessage
  rw [hcut, Option.bind_some]
  dsimp only
  rw [Codec.ofUtf8_utf8, Option.bind_some, String.toList_ofList, HttpHead.parse_render hstatus hfields,
    Option.bind_some]
  dsimp only
  rw [hlength, Option.bind_some, if_pos (by simp), List.take_left, List.drop_left]

end HttpStream
