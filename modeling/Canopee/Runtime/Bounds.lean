import Canopee.Runtime.Http

/-!
This module contains the range handling of a response once more, with every slice and every sum of
lengths checked the way the language checks them as the program runs.
-/

namespace Canopee

open Primitives

variable [Primitives]

namespace Http.Checked

inductive Fault where
  | charBoundary
  | outOfRange
  | overflow
deriving DecidableEq

section Operations

/--
The largest `usize`, which no vector is longer than.
-/
def usizeMax : Nat := 2 ^ 64 - 1

def sub (a b : Nat) : Except Fault Nat :=
  if b ≤ a then .ok (a - b) else .error .overflow

def add (a b : Nat) : Except Fault Nat :=
  if a + b ≤ usizeMax then .ok (a + b) else .error .overflow

/--
`&s[..n]` and `&s[n..]`
-/
def splitAt (n : Nat) (s : List Char) : Except Fault (List Char × List Char) :=
  if byteLength s < n then
    .error .outOfRange
  else
    match prefixOfSize n s with
    | none => .error .charBoundary
    | some before => .ok (before, s.drop before.length)

/--
`body[first..=last].to_vec()`
-/
def slice (body : Bytes) (first last : Nat) : Except Fault Bytes :=
  if first ≤ last + 1 ∧ last < body.length then
    .ok ((body.drop first).take (last + 1 - first))
  else
    .error .outOfRange

end Operations

def parseRangeValue (value : List Char) (len : Nat) : Except Fault (Option RangeSpec) := do
  if value.contains ',' then
    pure none
  else
    let (first, last) := (Text.splitOnce '-' value).getD (value, [])
    if first.isEmpty then
      if len = 0 then
        pure (some .unsatisfiable)
      else
        match Text.parseU64 last with
        | none => pure none
        | some n =>
          if n = 0 then
            pure (some .unsatisfiable)
          else
            let first ← sub len (min n len)
            let last ← sub len 1
            pure (some (.bytes first last))
    else
      match Text.parseU64 first with
      | none => pure none
      | some start =>
        if start ≥ len then
          pure (some .unsatisfiable)
        else if last.isEmpty then
          let last ← sub len 1
          pure (some (.bytes start last))
        else
          match Text.parseU64 last with
          | none => pure none
          | some stop =>
            if stop < start then
              pure none
            else
              let last ← sub len 1
              pure (some (.bytes start (min stop last)))

def parseRangeSpec (spec : List Char) (len : Nat) : Except Fault (Option RangeSpec) := do
  if byteLength spec < 6 then
    pure none
  else
    let (unit, value) ← splitAt 6 spec
    if Text.eqIgnoreCase unit "bytes=".toList then
      parseRangeValue value len
    else
      pure none

def parseRange (value : Option String) (len : Nat) : Except Fault (Option RangeSpec) :=
  match value with
  | none => pure none
  | some value =>
    let spec := trimChars value.toList
    match Text.splitOnce ':' spec with
    | some (_, value) => parseRangeSpec (trimChars value) len
    | none => parseRangeSpec spec len

def partialContent (contentType : String) (body : Bytes) (first last : Nat) :
    Except Fault ServeResponse := do
  let part ← add (← sub last first) 1
  let sent ← slice body first last
  pure {
    status := "206 Partial Content"
    headers := [("Content-Type", contentType), ("Content-Length", part.repr),
      ("Accept-Ranges", "bytes"),
      ("Content-Range", "bytes " ++ first.repr ++ "-" ++ last.repr ++ "/" ++ body.length.repr),
      ("ETag", quoted (etag body))]
    body := sent
  }

/--
`render_response`
-/
def renderResponse (gzip : Bytes → Option Bytes) (files : Files) (method path : String)
    (headers : List (String × String)) : Except Fault ServeResponse := do
  let acceptsGzip :=
    ((header headers "accept-encoding").map fun v => Text.contains "gzip".toList v.toList).getD false
  let range := header headers "range"
  let ifNoneMatch := header headers "if-none-match"
  let (servedKey, found) := resolve files path
  let contentType := guessContentType servedKey
  match found with
  | none => pure (notFound contentType)
  | some body =>
    if (method = "GET" ∨ method = "HEAD") ∧ matchesEtag ifNoneMatch body then
      pure (notModified contentType body)
    else
      let spec ← if method = "GET" then parseRange range body.length else pure none
      match spec with
      | some .unsatisfiable => pure (unsatisfiable contentType body.length)
      | some (.bytes first last) => partialContent contentType body first last
      | none =>
        pure (full contentType body (encode gzip acceptsGzip contentType body) (method = "GET"))

end Http.Checked

end Canopee
