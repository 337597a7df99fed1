import Canopee.Runtime.Network

/-!
This module contains the registry of an edge: signed registrations of an app by the peer that serves
it, and the handler that keeps the map from app subdomains to peers.
-/

namespace Canopee

open Primitives

variable [Primitives]

structure ServeRegistration where
  appId : String
  identity : IdentityId
  publicKey : Bytes
  timestamp : UInt64
  signature : Bytes

namespace ServeRegistration

def signingBytes (appId : String) (identity : IdentityId) (timestamp : UInt64) : Bytes :=
  Codec.utf8 ("canopee-serve-registration:v2:" ++ appId ++ ":" ++ identity.text ++ ":" ++
    timestamp.toNat.repr)

def sign (identity : Identity) (appId : String) (timestamp : UInt64) : ServeRegistration where
  appId := appId
  identity := identity.id
  publicKey := identity.publicKeyBytes
  timestamp := timestamp
  signature := identity.sign (signingBytes appId identity.id timestamp)

def verify (registration : ServeRegistration) : Bool :=
  if !derives registration.publicKey registration.identity then
    false
  else
    signatureValid registration.publicKey
      (signingBytes registration.appId registration.identity registration.timestamp)
      registration.signature

end ServeRegistration

/--
The characters that make up the first `n` bytes, if these end at a character.
-/
def prefixOfSize (n : Nat) : List Char → Option (List Char)
  | [] => if n = 0 then some [] else none
  | c :: cs =>
    if n = 0 then
      some []
    else if c.utf8Size ≤ n then
      (prefixOfSize (n - c.utf8Size) cs).map (c :: ·)
    else
      none

/--
`app_id.get(..32).unwrap_or(app_id)`
-/
def appSubdomain (appId : String) : String :=
  match prefixOfSize 32 appId.toList with
  | some cs => String.ofList cs
  | none => appId

inductive ServeRegistrationResponse where
  | ok
  | error (message : String)

namespace Edge

structure Entry where
  peer : PeerId
  identity : String
  -- nanoseconds on the monotonic clock
  lastSeen : Nat
  deriving DecidableEq

abbrev Entries := AList fun _ : String => Entry

def REGISTRY_TTL : Nat := 90 * 10 ^ 9
def MAX_TIMESTAMP_SKEW_SECS : Nat := 120

def Entry.live (entry : Entry) (instant : Nat) : Prop :=
  instant - entry.lastSeen ≤ REGISTRY_TTL

instance (entry : Entry) (instant : Nat) : Decidable (entry.live instant) :=
  inferInstanceAs (Decidable (_ ≤ _))

omit [Primitives] in
theorem Entry.live_lastSeen (entry : Entry) : entry.live entry.lastSeen := by
  simp [Entry.live]

/--
ASCII lowercase, character by character.
-/
def asciiLowercase (s : String) : String :=
  String.ofList (s.toList.map Char.toLower)

/--
`Registry::resolve`
-/
def resolve (entries : Entries) (subdomain : String) (instant : Nat) : Option PeerId :=
  match entries.lookup (asciiLowercase subdomain) with
  | some entry => if entry.live instant then some entry.peer else none
  | none => none

/--
An inbound request with the peer that libp2p authenticated as its sender, what that peer answers when
it is asked for the manifest, and the clocks of the edge.
-/
structure Event where
  peer : PeerId
  request : ServeRegistration
  probe : Except String ObjectResponse
  -- unix seconds
  unixTime : Nat
  -- the monotonic clock when the map is changed
  instant : Nat

namespace Event

def appId (event : Event) : ObjectId :=
  ⟨trim event.request.appId⟩

def subdomain (event : Event) : String :=
  appSubdomain event.appId.text

/--
`now.abs_diff(registration.timestamp)`
-/
def skew (event : Event) : Nat :=
  max event.unixTime event.request.timestamp.toNat - min event.unixTime event.request.timestamp.toNat

end Event

/--
`Registry::validate`
-/
def validate (event : Event) : Except String Unit :=
  if !event.request.verify then
    .error "registration signature does not verify"
  else if MAX_TIMESTAMP_SKEW_SECS < event.skew then
    .error ("registration timestamp " ++ event.skew.repr ++ "s from the edge clock is stale")
  else
    match Runtime.objectOutcome event.probe with
    | .error e => .error ("could not fetch the app manifest from you: " ++ e)
    | .ok bundle =>
      if ObjectId.fromPayload bundle.object.payload ≠ event.appId then
        .error "the manifest you served does not hash to the claimed app id"
      else
        match bundle.object.decode AppManifest.codec with
        | none => .error "the app id is not an app manifest"
        | some manifest =>
          if manifest.owner ≠ event.request.identity then
            .error ("app " ++ appSubdomain event.request.appId ++ " belongs to " ++
              manifest.owner.text ++ ", not " ++ event.request.identity.text)
          else
            .ok ()

/--
The entry is one that `event` refreshes without another validation.
-/
def Event.heartbeatOf (event : Event) (entry : Entry) : Bool :=
  entry.peer == event.peer && entry.identity == event.request.identity.text && event.request.verify

/--
The part of `Registry::handle` after the heartbeat check.
-/
def register (entries : Entries) (event : Event) : Entries × ServeRegistrationResponse :=
  match validate event with
  | .ok _ =>
    (entries.insert event.subdomain {
      peer := event.peer
      identity := event.request.identity.text
      lastSeen := event.instant }, .ok)
  | .error message => (entries, .error message)

/--
`Registry::handle`
-/
def handle (entries : Entries) (event : Event) : Entries × ServeRegistrationResponse :=
  if event.request.timestamp = 0 then
    (entries.erase event.subdomain, .ok)
  else
    match entries.lookup event.subdomain with
    | none => register entries event
    | some entry =>
      if event.heartbeatOf entry then
        (entries.insert event.subdomain {
          peer := event.peer
          identity := entry.identity
          lastSeen := event.instant }, .ok)
      else
        register entries event

/--
One event of the loop in `Registry::run`.
-/
def step (event : Event) (entries : Entries) : Entries :=
  (handle entries event).1

/--
What one event can do to the map, and when.
-/
inductive Outcome (event : Event) (entries : Entries) : Entries → Prop where
  | deregistered (htime : event.request.timestamp = 0) :
      Outcome event entries (entries.erase event.subdomain)
  | refreshed {entry : Entry} (htime : event.request.timestamp ≠ 0)
      (hentry : entries.lookup event.subdomain = some entry)
      (hbeat : event.heartbeatOf entry = true) :
      Outcome event entries (entries.insert event.subdomain {
        peer := event.peer
        identity := entry.identity
        lastSeen := event.instant })
  | registered (htime : event.request.timestamp ≠ 0) (hvalid : validate event = .ok ())
      (hbeat : ∀ entry, entries.lookup event.subdomain = some entry →
        event.heartbeatOf entry = false) :
      Outcome event entries (entries.insert event.subdomain {
        peer := event.peer
        identity := event.request.identity.text
        lastSeen := event.instant })
  | refused {message : String} (htime : event.request.timestamp ≠ 0)
      (hinvalid : validate event = .error message) : Outcome event entries entries

theorem step_outcome (event : Event) (entries : Entries) :
    Outcome event entries (step event entries) := by
  have hregister (htime : event.request.timestamp ≠ 0)
      (hbeat : ∀ entry, entries.lookup event.subdomain = some entry →
        event.heartbeatOf entry = false) :
      Outcome event entries (register entries event).1 := by
    unfold register
    cases hvalid : validate event with
    | ok u => exact .registered htime hvalid hbeat
    | error message => exact .refused htime hvalid
  unfold step handle
  split
  . next htime => exact .deregistered htime
  . next htime =>
    split
    . next hentry => exact hregister htime (by simp [hentry])
    . next entry hentry =>
      split
      . next hbeat => exact .refreshed htime hentry hbeat
      . next hbeat => exact hregister htime (by simpa [hentry] using hbeat)

theorem heartbeatOf_iff {event : Event} {entry : Entry} :
    event.heartbeatOf entry = true ↔ entry.peer = event.peer ∧
      entry.identity = event.request.identity.text ∧ event.request.verify = true := by
  simp [Event.heartbeatOf, and_assoc]

/--
The peer answers the probe with `manifest`, under the app id that the request claims.
-/
def Event.Serves (event : Event) (manifest : AppManifest) : Prop :=
  ∃ bundle, Runtime.objectOutcome event.probe = .ok bundle ∧
    ObjectId.fromPayload bundle.object.payload = event.appId ∧
    bundle.object.decode AppManifest.codec = some manifest

theorem validate_eq_ok_iff {event : Event} :
    validate event = .ok () ↔ event.request.verify = true ∧
      event.skew ≤ MAX_TIMESTAMP_SKEW_SECS ∧
      ∃ manifest, event.Serves manifest ∧ manifest.owner = event.request.identity := by
  unfold validate Event.Serves
  cases hverify : event.request.verify with
  | false => simp
  | true =>
    by_cases hskew : MAX_TIMESTAMP_SKEW_SECS < event.skew
    . simp [hskew, not_le.mpr hskew]
    . simp only [hskew, not_lt.mp hskew, Bool.not_true, Bool.false_eq_true, if_false, true_and]
      cases hprobe : Runtime.objectOutcome event.probe with
      | error e => simp
      | ok bundle =>
        by_cases hhash : ObjectId.fromPayload bundle.object.payload = event.appId
        . cases hdecode : bundle.object.decode AppManifest.codec with
          | none => simp [hhash, hdecode]
          | some manifest =>
            by_cases howner : manifest.owner = event.request.identity
            . simp [hhash, hdecode, howner]
            . simp [hhash, hdecode, howner]
        . simp [hhash]

end Edge

end Canopee
