import Canopee.Results.LocalServing

/-!
This module contains what a range header selects of a file, when reading one goes outside the text,
and how the answers to `GET` and `HEAD` agree where there is no range.
-/

namespace Canopee

open Primitives

namespace Http

section Boundary

/--
A character of `s` begins before the byte `n` and ends behind it.
-/
def Straddles (n : Nat) (s : List Char) : Prop :=
  ∃ before c after, s = before ++ c :: after ∧ byteLength before < n ∧
    n < byteLength before + c.utf8Size

theorem byteLength_cons (c : Char) (s : List Char) :
    byteLength (c :: s) = c.utf8Size + byteLength s := by
  simp [byteLength]

theorem byteLength_append (s t : List Char) :
    byteLength (s ++ t) = byteLength s + byteLength t := by
  simp [byteLength]

theorem Straddles.lt {n : Nat} {s : List Char} (h : Straddles n s) : n < byteLength s := by
  obtain ⟨before, c, after, rfl, _, hlt⟩ := h
  rw [byteLength_append, byteLength_cons]
  omega

theorem straddles_cons_of_le {n : Nat} {c : Char} {s : List Char} (h : c.utf8Size ≤ n) :
    Straddles n (c :: s) ↔ Straddles (n - c.utf8Size) s := by
  constructor
  . rintro ⟨before, d, after, heq, hbefore, hafter⟩
    cases before with
    | nil =>
      cases heq
      simp only [byteLength, List.map_nil, List.sum_nil] at hafter
      omega
    | cons e before =>
      cases heq
      rw [byteLength_cons] at hbefore hafter
      exact ⟨before, d, after, rfl, by omega, by omega⟩
  . rintro ⟨before, d, after, rfl, hbefore, hafter⟩
    refine ⟨c :: before, d, after, rfl, ?_, ?_⟩
    . rw [byteLength_cons]
      omega
    . rw [byteLength_cons]
      omega

theorem prefixOfSize_eq_none_iff {n : Nat} {s : List Char} (h : n ≤ byteLength s) :
    prefixOfSize n s = none ↔ Straddles n s := by
  induction s generalizing n with
  | nil =>
    obtain rfl : n = 0 := Nat.le_zero.mp h
    apply iff_of_false (by simp [prefixOfSize])
    intro hstraddles
    exact absurd hstraddles.lt (by simp [byteLength])
  | cons c s ih =>
    rw [byteLength_cons] at h
    unfold prefixOfSize
    split
    . next hzero =>
      apply iff_of_false (by simp)
      rintro ⟨before, _, _, _, hbefore, _⟩
      omega
    . next hpos =>
      split
      . next hfits =>
        rw [Option.map_eq_none_iff, straddles_cons_of_le hfits]
        apply ih
        omega
      . next hlong =>
        apply iff_of_true rfl
        refine ⟨[], c, s, rfl, ?_, ?_⟩
        . simp only [byteLength, List.map_nil, List.sum_nil]
          omega
        . simp only [byteLength, List.map_nil, List.sum_nil]
          omega

theorem prefix_of_prefixOfSize {n : Nat} {s before : List Char}
    (h : prefixOfSize n s = some before) : ∃ after, s = before ++ after := by
  induction s generalizing n before with
  | nil =>
    simp only [prefixOfSize] at h
    split at h
    . cases h
      exact ⟨[], rfl⟩
    . cases h
  | cons c s ih =>
    unfold prefixOfSize at h
    split at h
    . cases h
      exact ⟨c :: s, rfl⟩
    . split at h
      . rw [Option.map_eq_some_iff] at h
        obtain ⟨before, hbefore, rfl⟩ := h
        obtain ⟨after, rfl⟩ := ih hbefore
        exact ⟨after, rfl⟩
      . cases h

theorem parseRangeSpec_eq_error_iff {spec : List Char} {len : Nat} {panic : Panic} :
    parseRangeSpec spec len = .error panic ↔ Straddles 6 spec := by
  unfold parseRangeSpec
  split
  . next hshort =>
    apply iff_of_false (by simp)
    intro hstraddles
    have hlt := hstraddles.lt
    omega
  . next hlong =>
    rw [← prefixOfSize_eq_none_iff (by omega)]
    cases prefixOfSize 6 spec with
    | none =>
      cases panic
      simp
    | some unit =>
      dsimp only
      split
      . simp
      . simp

end Boundary

section Selection

/--
The byte `i` of a file of `len` bytes is in the range `range`.
-/
def Selects (range : List Char) (len i : Nat) : Prop :=
  let (first, last) := (Text.splitOnce '-' range).getD (range, [])
  if first = [] then
    ∃ n, Text.parseU64 last = some n ∧ len ≤ i + n
  else
    ∃ start, Text.parseU64 first = some start ∧ start ≤ i ∧
      (last = [] ∨ ∃ stop, Text.parseU64 last = some stop ∧ i ≤ stop)

/--
The header's value asks for the single range `range` in bytes.
-/
def Requests (spec range : List Char) : Prop :=
  ∃ unit, spec = unit ++ range ∧ Text.eqIgnoreCase unit "bytes=".toList = true ∧ ',' ∉ range

/--
What is read from a header's value is what the value asks for, as far as it is within the file.
-/
def Exact (spec : List Char) (len : Nat) : Option RangeSpec → Prop
  | none => True
  | some .unsatisfiable => ∃ range, Requests spec range ∧ ∀ i < len, ¬ Selects range len i
  | some (.bytes first last) => first ≤ last ∧ last < len ∧
      ∃ range, Requests spec range ∧ ∀ i < len, first ≤ i ∧ i ≤ last ↔ Selects range len i

theorem parseRangeValue_selects {value : List Char} {len : Nat} {range : RangeSpec}
    (h : parseRangeValue value len = some range) :
    ',' ∉ value ∧ ∀ i < len, Selects value len i ↔
      ∃ first last, range = .bytes first last ∧ first ≤ i ∧ i ≤ last := by
  unfold parseRangeValue at h
  unfold Selects
  split at h
  . cases h
  . next hcomma =>
    refine ⟨by simpa using hcomma, ?_⟩
    intro i hi
    generalize (Text.splitOnce '-' value).getD (value, []) = pieces at h ⊢
    obtain ⟨first, last⟩ := pieces
    dsimp only at h ⊢
    by_cases hfirst : first = []
    . rw [if_pos hfirst]
      rw [if_pos (by simpa using hfirst), if_neg (by omega)] at h
      cases hlast : Text.parseU64 last with
      | none => simp [hlast] at h
      | some n =>
        simp only [hlast] at h
        split at h
        . cases h
          simp
          omega
        . cases h
          simp only [Option.some.injEq, exists_eq_left', RangeSpec.bytes.injEq]
          constructor
          . intro hle
            exact ⟨_, _, ⟨rfl, rfl⟩, by omega, by omega⟩
          . rintro ⟨_, _, ⟨rfl, rfl⟩, hge, _⟩
            omega
    . rw [if_neg hfirst]
      rw [if_neg (by simpa using hfirst)] at h
      cases hstart : Text.parseU64 first with
      | none => simp [hstart] at h
      | some start =>
        simp only [hstart] at h
        split at h
        . cases h
          simp
          omega
        . next hwithin =>
          split at h
          . next hopen =>
            cases h
            have hopen : last = [] := by simpa using hopen
            simp only [hopen, true_or, and_true, Option.some.injEq, exists_eq_left']
            constructor
            . intro hle
              exact ⟨_, _, rfl, hle, by omega⟩
            . rintro ⟨_, _, heq, hge, _⟩
              cases heq
              exact hge
          . next hclosed =>
            have hclosed : last ≠ [] := by simpa using hclosed
            cases hstop : Text.parseU64 last with
            | none => simp [hstop] at h
            | some stop =>
              simp only [hstop] at h
              split at h
              . cases h
              . cases h
                simp only [hclosed, false_or, Option.some.injEq, exists_eq_left']
                constructor
                . rintro ⟨hle, hge⟩
                  exact ⟨_, _, rfl, hle, by omega⟩
                . rintro ⟨_, _, heq, hge, hle⟩
                  cases heq
                  omega

theorem parseRangeSpec_exact {spec : List Char} {len : Nat} {range : Option RangeSpec}
    (h : parseRangeSpec spec len = .ok range) : Exact spec len range := by
  unfold parseRangeSpec at h
  split at h
  . cases h
    trivial
  . split at h
    . cases h
    . next unit hunit =>
      split at h
      . next hbytes =>
        cases h
        obtain ⟨rest, rfl⟩ := prefix_of_prefixOfSize hunit
        rw [List.drop_left]
        cases hvalue : parseRangeValue rest len with
        | none => trivial
        | some range =>
          obtain ⟨hcomma, hselects⟩ := parseRangeValue_selects hvalue
          have hrequests : Requests (unit ++ rest) rest := ⟨unit, rfl, hbytes, hcomma⟩
          cases range with
          | unsatisfiable =>
            refine ⟨rest, hrequests, ?_⟩
            intro i hi
            rw [hselects i hi]
            simp
          | bytes first last =>
            obtain ⟨hle, hlt⟩ := parseRangeValue_bounds hvalue
            refine ⟨hle, hlt, rest, hrequests, ?_⟩
            intro i hi
            rw [hselects i hi]
            simp
      . cases h
        trivial

end Selection

section Checked

theorem Checked.sub_of_le {a b : Nat} (h : b ≤ a) : Checked.sub a b = .ok (a - b) :=
  if_pos h

theorem Checked.parseRangeValue_eq (value : List Char) (len : Nat) :
    Checked.parseRangeValue value len = .ok (Http.parseRangeValue value len) := by
  unfold Checked.parseRangeValue Http.parseRangeValue
  split
  . rfl
  . generalize (Text.splitOnce '-' value).getD (value, []) = pieces
    obtain ⟨first, last⟩ := pieces
    dsimp only
    split
    . split
      . rfl
      . next hlen =>
        cases Text.parseU64 last with
        | none => rfl
        | some n =>
          dsimp only
          rw [Checked.sub_of_le (by omega), Checked.sub_of_le (by omega)]
          split
          . rfl
          . rfl
    . cases Text.parseU64 first with
      | none => rfl
      | some start =>
        dsimp only
        split
        . rfl
        . next hwithin =>
          rw [Checked.sub_of_le (by omega)]
          split
          . rfl
          . cases Text.parseU64 last with
            | none => rfl
            | some stop =>
              dsimp only
              split
              . rfl
              . rfl

theorem Checked.parseRangeSpec_eq (spec : List Char) (len : Nat) :
    Checked.parseRangeSpec spec len =
      (Http.parseRangeSpec spec len).mapError fun _ => .charBoundary := by
  unfold Checked.parseRangeSpec Http.parseRangeSpec
  split
  . rfl
  . next hlong =>
    unfold Checked.splitAt
    rw [if_neg hlong]
    cases prefixOfSize 6 spec with
    | none => rfl
    | some unit =>
      simp only [Checked.parseRangeValue_eq]
      change (if Text.eqIgnoreCase unit "bytes=".toList = true then _ else _) = _
      split
      . rfl
      . rfl

/--
The text that `parse_range` reads of a header's value, behind a name if there is one.
-/
def rangeSpec (value : Option String) : Option (List Char) :=
  value.map fun value =>
    match Text.splitOnce ':' (trimChars value.toList) with
    | some (_, spec) => trimChars spec
    | none => trimChars value.toList

/--
No character of the text lies across the end of the unit.
-/
def Aligned (spec : Option (List Char)) : Prop :=
  ∀ text, spec = some text → ¬ Straddles 6 text

/--
A range is read without a panic, and what is read is what the text asks for.
-/
def HandlesRange (spec : Option (List Char)) (len : Nat)
    (outcome : Except Checked.Fault (Option RangeSpec)) : Prop :=
  ∃ range, outcome = .ok range ∧
    ∀ read, range = some read → ∃ text, spec = some text ∧ Exact text len range

/--
What is read of a text, if there is one.
-/
def readRange (spec : Option (List Char)) (len : Nat) : Except Panic (Option RangeSpec) :=
  (spec.map fun text => parseRangeSpec text len).getD (.ok none)

theorem parseRange_eq (value : Option String) (len : Nat) :
    parseRange value len = readRange (rangeSpec value) len := by
  cases value with
  | none => rfl
  | some value =>
    unfold parseRange rangeSpec readRange
    dsimp only [Option.map_some, Option.getD_some]
    cases Text.splitOnce ':' (trimChars value.toList) with
    | none => rfl
    | some pieces => rfl

theorem Checked.parseRange_eq (value : Option String) (len : Nat) :
    Checked.parseRange value len =
      (Http.parseRange value len).mapError fun _ => .charBoundary := by
  cases value with
  | none => rfl
  | some value =>
    unfold Checked.parseRange Http.parseRange
    dsimp only
    cases Text.splitOnce ':' (trimChars value.toList) with
    | none => exact Checked.parseRangeSpec_eq _ _
    | some pieces => exact Checked.parseRangeSpec_eq _ _

theorem readRange_exact {spec : Option (List Char)} {len : Nat} {range : Option RangeSpec}
    (h : readRange spec len = .ok range) :
    ∀ read, range = some read → ∃ text, spec = some text ∧ Exact text len range := by
  rintro read rfl
  cases spec with
  | none => cases h
  | some text => exact ⟨text, rfl, parseRangeSpec_exact h⟩

theorem readRange_eq_error_iff {spec : Option (List Char)} {len : Nat} {panic : Panic} :
    readRange spec len = .error panic ↔ ¬ Aligned spec := by
  unfold readRange Aligned
  cases spec with
  | none => simp
  | some text => simp [parseRangeSpec_eq_error_iff]

theorem handlesRange_iff (spec : Option (List Char)) (len : Nat) :
    HandlesRange spec len ((readRange spec len).mapError fun _ => .charBoundary) ↔
      Aligned spec := by
  unfold HandlesRange
  cases hread : readRange spec len with
  | error panic =>
    apply iff_of_false (by simp [Except.mapError])
    exact readRange_eq_error_iff.mp hread
  | ok range =>
    apply iff_of_true ⟨range, rfl, readRange_exact hread⟩
    by_contra hnot
    have herror : readRange spec len = .error .charBoundary := readRange_eq_error_iff.mpr hnot
    rw [herror] at hread
    cases hread

end Checked

section Answers

variable [Primitives]

theorem Checked.partialContent_eq (contentType : String) {body : Bytes} {first last : Nat}
    (hle : first ≤ last) (hlt : last < body.length) (hlen : body.length ≤ Checked.usizeMax) :
    Checked.partialContent contentType body first last =
      .ok (Http.partialContent contentType body first last) := by
  have hadd : Checked.add (last - first) 1 = .ok (last - first + 1) := if_pos (by omega)
  have hslice : Checked.slice body first last =
      .ok ((body.drop first).take (last + 1 - first)) := if_pos (by omega)
  have hcount : last + 1 - first = last - first + 1 := by omega
  unfold Checked.partialContent
  rw [Checked.sub_of_le hle]
  change (Checked.add (last - first) 1).bind _ = _
  rw [hadd]
  change (Checked.slice body first last).bind _ = _
  rw [hslice, hcount]
  rfl

theorem Checked.renderResponse_eq (gzip : Bytes → Option Bytes) {files : Files} (method : String)
    {path : String} (headers : List (String × String))
    (hlen : ∀ body, (resolve files path).2 = some body → body.length ≤ Checked.usizeMax) :
    Checked.renderResponse gzip files method path headers =
      (Http.renderResponse gzip files method path headers).mapError fun _ => .charBoundary := by
  unfold Checked.renderResponse Http.renderResponse
  cases hresolve : resolve files path with
  | mk key found =>
    cases found with
    | none => rfl
    | some body =>
      have hlen := hlen body (by rw [hresolve])
      simp only [Checked.parseRange_eq]
      split
      . rfl
      . split
        . cases hrange : Http.parseRange (header headers "range") body.length with
          | error panic => rfl
          | ok spec =>
            rcases spec with _ | _ | ⟨first, last⟩
            . rfl
            . rfl
            . obtain ⟨hle, hlt⟩ := parseRange_bounds hrange
              exact Checked.partialContent_eq _ hle hlt hlen
        . rfl

/--
The answer carries what the range selects of the file that is found.
-/
structure ExactAnswer (found : Option Bytes) (spec : Option (List Char)) (response : ServeResponse) :
    Prop where
  ofPart : response.status = "206 Partial Content" → ∃ body text first last,
    found = some body ∧ spec = some text ∧ Exact text body.length (some (.bytes first last)) ∧
      response.body = (body.drop first).take (last + 1 - first) ∧
      header response.headers "Content-Range" =
        some ("bytes " ++ first.repr ++ "-" ++ last.repr ++ "/" ++ body.length.repr) ∧
      header response.headers "Content-Length" = some (last - first + 1).repr
  ofUnsatisfiable : response.status = "416 Range Not Satisfiable" → ∃ body text,
    found = some body ∧ spec = some text ∧ Exact text body.length (some .unsatisfiable)
  ofMissing : found = none →
    response.status ≠ "304 Not Modified" ∧ response.status ≠ "206 Partial Content"

def AnswersExactly (found : Option Bytes) (spec : Option (List Char))
    (outcome : Except Checked.Fault ServeResponse) : Prop :=
  ∃ response, outcome = .ok response ∧ ExactAnswer found spec response

/--
The request is one for which the range is read: for a file that the client does not hold.
-/
def ReadsRange (files : Files) (method path : String) (headers : List (String × String)) : Prop :=
  method = "GET" ∧ ∃ body, (resolve files path).2 = some body ∧
    matchesEtag (header headers "if-none-match") body = false

theorem exactAnswer_partialContent {contentType : String} {body : Bytes} {text : List Char}
    {first last : Nat} (h : Exact text body.length (some (.bytes first last))) :
    ExactAnswer (some body) (some text) (partialContent contentType body first last) where
  ofPart := by
    intro _
    refine ⟨body, text, first, last, rfl, rfl, h, ?_, ?_, ?_⟩
    . have hcount : last + 1 - first = last - first + 1 := by
        have hle := h.1
        omega
      rw [hcount]
      rfl
    . simp [partialContent, header, Text.eqIgnoreCase]
    . simp [partialContent, header, Text.eqIgnoreCase]
  ofUnsatisfiable := by
    intro hstatus
    simp [partialContent] at hstatus
  ofMissing := by
    intro hfound
    cases hfound

omit [Primitives] in
theorem exactAnswer_of_whole {found : Option Bytes} {spec : Option (List Char)}
    {response : ServeResponse} (hpart : response.status ≠ "206 Partial Content")
    (hrange : response.status ≠ "416 Range Not Satisfiable")
    (hfound : found = none → response.status ≠ "304 Not Modified") :
    ExactAnswer found spec response where
  ofPart := fun h => absurd h hpart
  ofUnsatisfiable := fun h => absurd h hrange
  ofMissing := fun h => ⟨hfound h, hpart⟩

theorem exactAnswer_sent (gzip : Bytes → Option Bytes) (contentType method : String)
    (acceptsGzip : Bool) {body : Bytes} {spec : Option (List Char)} {range : Option RangeSpec}
    (h : ∀ read, range = some read → ∃ text, spec = some text ∧ Exact text body.length range) :
    ExactAnswer (some body) spec (sent gzip contentType method acceptsGzip body range) := by
  rcases range with _ | _ | ⟨first, last⟩
  . apply exactAnswer_of_whole
    . simp [sent, full]
    . simp [sent, full]
    . simp
  . obtain ⟨text, rfl, hexact⟩ := h _ rfl
    constructor
    . intro hstatus
      simp [sent, unsatisfiable] at hstatus
    . intro _
      exact ⟨body, text, rfl, rfl, hexact⟩
    . intro hfound
      cases hfound
  . obtain ⟨text, rfl, hexact⟩ := h _ rfl
    exact exactAnswer_partialContent hexact

theorem answersExactly_iff (gzip : Bytes → Option Bytes) {files : Files} (method : String)
    {path : String} (headers : List (String × String))
    (hlen : ∀ body, (resolve files path).2 = some body → body.length ≤ Checked.usizeMax) :
    AnswersExactly (resolve files path).2 (rangeSpec (header headers "range"))
      (Checked.renderResponse gzip files method path headers) ↔
      (ReadsRange files method path headers → Aligned (rangeSpec (header headers "range"))) := by
  rw [Checked.renderResponse_eq gzip method headers hlen, renderResponse_eq]
  unfold AnswersExactly ReadsRange
  cases (resolve files path).2 with
  | none =>
    apply iff_of_true
    . refine ⟨notFound _, rfl, ?_⟩
      apply exactAnswer_of_whole
      . simp [notFound]
      . simp [notFound]
      . simp [notFound]
    . rintro ⟨_, _, hbody, _⟩
      cases hbody
  | some body =>
    simp only [respond, Option.some.injEq, exists_eq_left']
    split
    . next hmatches =>
      apply iff_of_true
      . refine ⟨notModified _ body, rfl, ?_⟩
        apply exactAnswer_of_whole
        . simp [notModified]
        . simp [notModified]
        . simp
      . rintro ⟨_, hne⟩
        rw [hmatches.2] at hne
        cases hne
    . next hmatches =>
      split
      . next hget =>
        have hmatches : matchesEtag (header headers "if-none-match") body = false := by
          simpa [hget] using hmatches
        simp only [hget, hmatches, and_self, true_implies]
        rw [parseRange_eq]
        cases hread : readRange (rangeSpec (header headers "range")) body.length with
        | error panic =>
          apply iff_of_false (by simp [Except.map, Except.mapError])
          exact readRange_eq_error_iff.mp hread
        | ok range =>
          apply iff_of_true ⟨_, rfl, exactAnswer_sent gzip _ _ _ (readRange_exact hread)⟩
          rw [← handlesRange_iff _ body.length, hread]
          exact ⟨range, rfl, readRange_exact hread⟩
      . next hget =>
        apply iff_of_true
        . exact ⟨_, rfl, exactAnswer_sent gzip _ _ _ (by simp)⟩
        . rintro ⟨heq, _⟩
          exact absurd heq hget

end Answers

end Http

namespace Cli

open Http (Aligned HandlesRange AnswersExactly ReadsRange readRange)

theorem parseRange_eq_readRange (header : Option String) (len : Nat) :
    parseRange header len = readRange (rangeSpec header) len := by
  rw [parseRange_eq]
  cases rangeSpec header with
  | none => rfl
  | some spec => rfl

theorem Checked.parseRange_eq (header : Option String) (len : Nat) :
    Checked.parseRange header len =
      (Cli.parseRange header len).mapError fun _ => .charBoundary := by
  cases header with
  | none => rfl
  | some line =>
    unfold Checked.parseRange Cli.parseRange
    dsimp only
    cases Text.splitOnce ':' (Http.trimChars line.toList) with
    | none => rfl
    | some pieces => exact Http.Checked.parseRangeSpec_eq _ _

end Cli

namespace Http

variable [Primitives]

/--
A range is read exactly and without a panic just when no character of its text lies across the end
of the unit, on the publisher's side and in the local server, and so is the answer rendered.
-/
theorem handlesRanges_iff (gzip : Bytes → Option Bytes) {files : Files} (method : String)
    {path : String} (headers : List (String × String)) (value : Option String) (len : Nat)
    (hlen : ∀ body, (resolve files path).2 = some body → body.length ≤ Checked.usizeMax) :
    (HandlesRange (rangeSpec value) len (Checked.parseRange value len) ↔
      Aligned (rangeSpec value)) ∧
    (HandlesRange (Cli.rangeSpec value) len (Cli.Checked.parseRange value len) ↔
      Aligned (Cli.rangeSpec value)) ∧
    (AnswersExactly (resolve files path).2 (rangeSpec (header headers "range"))
      (Checked.renderResponse gzip files method path headers) ↔
      (ReadsRange files method path headers → Aligned (rangeSpec (header headers "range")))) := by
  refine ⟨?_, ?_, answersExactly_iff gzip method headers hlen⟩
  . rw [Checked.parseRange_eq, parseRange_eq, handlesRange_iff]
  . rw [Cli.Checked.parseRange_eq, Cli.parseRange_eq_readRange, handlesRange_iff]

/--
A `HEAD` without a range is answered as the `GET`, with nothing in the body.
-/
theorem renderResponse_head (gzip : Bytes → Option Bytes) (files : Files) (path : String)
    {headers : List (String × String)} (hrange : header headers "range" = none) :
    ∃ get head, renderResponse gzip files "GET" path headers = .ok get ∧
      renderResponse gzip files "HEAD" path headers = .ok head ∧
      head.status = get.status ∧ head.headers = get.headers ∧ head.body = [] := by
  have hread : ∀ len, parseRange (header headers "range") len = .ok none := by
    intro len
    rw [hrange]
    rfl
  rw [renderResponse_eq, renderResponse_eq]
  cases hfound : (resolve files path).2 with
  | none => exact ⟨_, _, rfl, rfl, rfl, rfl, rfl⟩
  | some body =>
    simp only [respond, hread, ite_self]
    by_cases hmatches : matchesEtag (header headers "if-none-match") body = true
    . rw [if_pos ⟨.inl trivial, hmatches⟩, if_pos ⟨.inr trivial, hmatches⟩]
      exact ⟨_, _, rfl, rfl, rfl, rfl, rfl⟩
    . rw [if_neg (fun h => hmatches h.2), if_neg (fun h => hmatches h.2)]
      exact ⟨_, _, rfl, rfl, rfl, rfl, rfl⟩

end Http

end Canopee

namespace Canopee.Http

open Canopee.Compact

section Counterexample

theorem renderResponse_head_index :
    ∃ get head, renderResponse stored index "GET" "/" [("accept-encoding", "gzip")] = .ok get ∧
      renderResponse stored index "HEAD" "/" [("accept-encoding", "gzip")] = .ok head ∧
      head.status = get.status ∧ head.headers = get.headers ∧ head.body = [] :=
  renderResponse_head stored index "/" (by decide)

theorem length_le_usizeMax_index {body : Bytes} (h : (resolve index "/").2 = some body) :
    body.length ≤ Checked.usizeMax := by
  have hindex : (resolve index "/").2 = some [60, 98, 62] := by decide
  rw [hindex] at h
  cases h
  decide

theorem handlesRanges_iff_index :
    (HandlesRange (rangeSpec (some "bytes=0-1")) 3 (Checked.parseRange (some "bytes=0-1") 3) ↔
      Aligned (rangeSpec (some "bytes=0-1"))) ∧
    (HandlesRange (Cli.rangeSpec (some "bytes=0-1")) 3
      (Cli.Checked.parseRange (some "bytes=0-1") 3) ↔ Aligned (Cli.rangeSpec (some "bytes=0-1"))) ∧
    (AnswersExactly (resolve index "/").2 (rangeSpec (header [("range", "bytes=0-1")] "range"))
      (Checked.renderResponse stored index "GET" "/" [("range", "bytes=0-1")]) ↔
      (ReadsRange index "GET" "/" [("range", "bytes=0-1")] →
        Aligned (rangeSpec (header [("range", "bytes=0-1")] "range")))) :=
  handlesRanges_iff stored "GET" [("range", "bytes=0-1")] (some "bytes=0-1") 3
    (fun _ h => length_le_usizeMax_index h)

/--
The two bytes of the letter behind `bytes` lie across the end of the unit: reading the range panics,
in the publisher and in the local server, and so does rendering the answer.
-/
theorem not_handlesRange_accented :
    ¬ HandlesRange (rangeSpec (some "bytesé")) 3 (Checked.parseRange (some "bytesé") 3) ∧
    ¬ HandlesRange (Cli.rangeSpec (some "Range: bytesé")) 3
      (Cli.Checked.parseRange (some "Range: bytesé") 3) ∧
    ¬ AnswersExactly (resolve index "/").2 (rangeSpec (header [("range", "bytesé")] "range"))
      (Checked.renderResponse stored index "GET" "/" [("range", "bytesé")]) := by
  have hparse : Checked.parseRange (some "bytesé") 3 = .error .charBoundary := by decide
  have hlocal : Cli.Checked.parseRange (some "Range: bytesé") 3 = .error .charBoundary := by
    decide
  have hrender : Checked.renderResponse stored index "GET" "/" [("range", "bytesé")] =
      .error .charBoundary := by
    decide
  refine ⟨?_, ?_, ?_⟩
  . rintro ⟨range, hok, _⟩
    rw [hparse] at hok
    cases hok
  . rintro ⟨range, hok, _⟩
    rw [hlocal] at hok
    cases hok
  . rintro ⟨response, hok, _⟩
    rw [hrender] at hok
    cases hok

end Counterexample

end Canopee.Http
