import Canopee.Edge.Registry
import Canopee.Lib.Run

/-!
This module contains the authority over the registry of an edge: who can take an app's subdomain away
from the peer that serves it.
-/

namespace Canopee

open Primitives

variable [Primitives]

namespace Edge

/--
The signature of the request verifies under the identity that the entry records.
-/
def Event.SignedBy (event : Event) (entry : Entry) : Prop :=
  event.request.verify = true ∧ event.request.identity.text = entry.identity

/--
The subdomain is mapped to the same peer and identity.
-/
def Mapped (entries : Entries) (subdomain : String) (entry : Entry) : Prop :=
  ∃ current, entries.lookup subdomain = some current ∧ current.peer = entry.peer ∧
    current.identity = entry.identity

/--
Every live entry stays mapped, unless the event is signed by the identity of the entry.
-/
def Authorised (event : Event) (entries : Entries) : Prop :=
  ∀ subdomain entry, entries.lookup subdomain = some entry → entry.live event.instant →
    Mapped (step event entries) subdomain entry ∨ event.SignedBy entry

/--
If the event has the timestamp of a deregistration and its subdomain has a live entry, it is signed
by the identity of that entry.
-/
def SignedDeregistration (event : Event) (entries : Entries) : Prop :=
  event.request.timestamp = 0 → ∀ entry, entries.lookup event.subdomain = some entry →
    entry.live event.instant → event.SignedBy entry

/--
If the event is a valid registration and its subdomain has a live entry, it is for the identity of
that entry.
-/
def SameOwner (event : Event) (entries : Entries) : Prop :=
  event.request.timestamp ≠ 0 → validate event = .ok () →
    ∀ entry, entries.lookup event.subdomain = some entry → entry.live event.instant →
      event.request.identity.text = entry.identity

omit [Primitives] in
theorem mapped_of_lookup {entries : Entries} {subdomain : String} {entry : Entry}
    (h : entries.lookup subdomain = some entry) : Mapped entries subdomain entry :=
  ⟨entry, h, rfl, rfl⟩

theorem lookup_step_of_ne {event : Event} {entries : Entries} {subdomain : String}
    (h : subdomain ≠ event.subdomain) :
    (step event entries).lookup subdomain = entries.lookup subdomain := by
  have houtcome := step_outcome event entries
  generalize step event entries = after at houtcome
  cases houtcome with
  | deregistered => exact AList.lookup_erase_ne h
  | refreshed => exact AList.lookup_insert_ne h
  | registered => exact AList.lookup_insert_ne h
  | refused => rfl

theorem signedDeregistration_of_authorised {event : Event} {entries : Entries}
    (h : Authorised event entries) : SignedDeregistration event entries := by
  intro htime entry hentry hlive
  cases h event.subdomain entry hentry hlive with
  | inl hmapped =>
    obtain ⟨current, hcurrent, _⟩ := hmapped
    simp [step, handle, htime, AList.lookup_erase] at hcurrent
  | inr hsigned => exact hsigned

theorem sameOwner_of_authorised {event : Event} {entries : Entries}
    (h : Authorised event entries) : SameOwner event entries := by
  intro htime hvalid entry hentry hlive
  cases h event.subdomain entry hentry hlive with
  | inl hmapped =>
    obtain ⟨current, hcurrent, _, hidentity⟩ := hmapped
    have houtcome := step_outcome event entries
    generalize step event entries = after at houtcome hcurrent
    cases houtcome with
    | deregistered htime' => contradiction
    | refreshed _ hother hbeat =>
      rw [hentry] at hother
      cases hother
      exact (heartbeatOf_iff.mp hbeat).2.1.symm
    | registered =>
      simp only [AList.lookup_insert, Option.some.injEq] at hcurrent
      rw [← hidentity, ← hcurrent]
    | refused _ hinvalid =>
      rw [hvalid] at hinvalid
      contradiction
  | inr hsigned => exact hsigned.2

/--
An event takes a live entry away without its owner's signature exactly when it is an unsigned
deregistration or a valid registration of somebody else's app under the same subdomain.
-/
theorem authorised_iff (event : Event) (entries : Entries) :
    Authorised event entries ↔ SignedDeregistration event entries ∧ SameOwner event entries := by
  constructor
  . intro h
    exact ⟨signedDeregistration_of_authorised h, sameOwner_of_authorised h⟩
  . intro ⟨hderegistration, howner⟩ subdomain entry hentry hlive
    by_cases hsubdomain : subdomain = event.subdomain
    . rw [hsubdomain] at hentry ⊢
      have houtcome := step_outcome event entries
      generalize step event entries = after at houtcome
      cases houtcome with
      | deregistered htime => exact .inr (hderegistration htime entry hentry hlive)
      | refreshed _ hother hbeat =>
        rw [hentry] at hother
        cases hother
        have hpeer := (heartbeatOf_iff.mp hbeat).1
        exact .inl ⟨_, AList.lookup_insert _, hpeer.symm, rfl⟩
      | registered htime hvalid =>
        have hverify := (validate_eq_ok_iff.mp hvalid).1
        exact .inr ⟨hverify, howner htime hvalid entry hentry hlive⟩
      | refused => exact .inl (mapped_of_lookup hentry)
    . left
      rw [← lookup_step_of_ne hsubdomain] at hentry
      exact mapped_of_lookup hentry

/--
In every run of the registry: live entries are taken away only by their owners exactly when every
deregistration that meets a live entry is signed by its owner and every valid registration that
meets one is its owner's.
-/
theorem run_authorised_iff (entries : Entries) (events : List Event) :
    Run.Along step Authorised entries events ↔
      Run.Along step (fun event entries =>
        SignedDeregistration event entries ∧ SameOwner event entries) entries events :=
  Run.along_congr authorised_iff entries events

section Prefixes

/--
No two app ids with different owners that are served to the edge have the same subdomain.
-/
def PrefixFree (events : List Event) : Prop :=
  ∀ a ∈ events, ∀ b ∈ events, ∀ m n, a.Serves m → b.Serves n → a.subdomain = b.subdomain →
    m.owner = n.owner

/--
The identity of every entry owns an app that one of `past` served under that subdomain.
-/
def Validated (past : List Event) (entries : Entries) : Prop :=
  ∀ subdomain entry, entries.lookup subdomain = some entry →
    ∃ event ∈ past, ∃ manifest, event.Serves manifest ∧ event.subdomain = subdomain ∧
      manifest.owner.text = entry.identity

theorem validated_step {past : List Event} {event : Event} {entries : Entries}
    (hmem : event ∈ past) (h : Validated past entries) : Validated past (step event entries) := by
  intro subdomain entry hentry
  by_cases hsubdomain : subdomain = event.subdomain
  . rw [hsubdomain] at hentry ⊢
    have houtcome := step_outcome event entries
    generalize step event entries = after at houtcome hentry
    cases houtcome with
    | deregistered => simp [AList.lookup_erase] at hentry
    | refreshed _ hcurrent =>
      simp only [AList.lookup_insert, Option.some.injEq] at hentry
      subst hentry
      have := h event.subdomain _ hcurrent
      exact this
    | registered _ hvalid =>
      simp only [AList.lookup_insert, Option.some.injEq] at hentry
      subst hentry
      obtain ⟨_, _, manifest, hserves, howner⟩ := validate_eq_ok_iff.mp hvalid
      exact ⟨event, hmem, manifest, hserves, rfl, by rw [howner]⟩
    | refused => exact h event.subdomain entry hentry
  . rw [lookup_step_of_ne hsubdomain] at hentry
    exact h subdomain entry hentry

theorem sameOwner_of_prefixFree {past : List Event} {event : Event} {entries : Entries}
    (hfree : PrefixFree past) (hmem : event ∈ past) (h : Validated past entries) :
    SameOwner event entries := by
  intro _ hvalid entry hentry _
  obtain ⟨_, _, manifest, hserves, howner⟩ := validate_eq_ok_iff.mp hvalid
  obtain ⟨other, hother, served, hserved, hsubdomain, hidentity⟩ :=
    h event.subdomain entry hentry
  have := hfree event hmem other hother manifest served hserves hserved hsubdomain.symm
  rw [← hidentity, ← howner, this]

/--
While subdomains tell apps of different owners apart, only unsigned deregistrations take entries
away from their owners.
-/
theorem run_authorised_iff_of_prefixFree {events : List Event} (hfree : PrefixFree events) :
    Run.Along step Authorised ∅ events ↔ Run.Along step SignedDeregistration ∅ events := by
  apply Run.along_iff (A := fun event _ => event ∈ events) (I := Validated events)
  . exact Run.along_of_forall (fun event hmem _ => hmem) ∅
  . intro subdomain entry hentry
    simp at hentry
  . intro event entries hmem hvalidated
    rw [authorised_iff]
    exact and_iff_left (sameOwner_of_prefixFree hfree hmem hvalidated)
  . intro event entries hmem hvalidated _
    exact validated_step hmem hvalidated

end Prefixes

end Edge

end Canopee

namespace Canopee.Edge

open Canopee.Compact

/--
The payload of the manifest of an app of Alice's.
-/
def aliceApp : ObjectPayload where
  owner := alice.id
  metadata := { createdAt := 0, size := 0, contentType := none }
  objectType := .appManifest
  data := AppManifest.codec.serialize {
    name := "app", owner := alice.id, entrypoint := ⟨"00"⟩, assets := [] }

def aliceAppId : ObjectId :=
  ObjectId.fromPayload aliceApp

/--
The registration of that app at unix time 100, as `peer` presents it and answers for it.
-/
def registration (peer : PeerId) (instant : Nat) : Event where
  peer := peer
  request := ServeRegistration.sign alice aliceAppId.text 100
  probe := .ok (.object ⟨1, Object.signed alice aliceApp⟩)
  unixTime := 100
  instant := instant

/--
A deregistration of that app that nobody signed.
-/
def unsignedDeregistration : Event where
  peer := ⟨"mm"⟩
  request := { ServeRegistration.sign mallory aliceAppId.text 0 with signature := [] }
  probe := .error "dial failure"
  unixTime := 100
  instant := 1

def aliceEntry : Entry where
  peer := ⟨"aa"⟩
  identity := alice.id.text
  lastSeen := 0

/--
The unsigned deregistration takes the app away from Alice's peer.
-/
theorem handle_unsigned_deregistration :
    let entries := step (registration ⟨"aa"⟩ 0) ∅
    ¬ Authorised unsignedDeregistration entries ∧
      resolve entries (appSubdomain aliceAppId.text) 1 = some ⟨"aa"⟩ ∧
      resolve (step unsignedDeregistration entries) (appSubdomain aliceAppId.text) 1 = none := by
  refine ⟨?_, by decide +kernel, by decide +kernel⟩
  intro hauthorised
  have hentry : (step (registration ⟨"aa"⟩ 0) ∅).lookup unsignedDeregistration.subdomain =
      some aliceEntry := by decide +kernel
  have hlive : aliceEntry.live unsignedDeregistration.instant := by decide
  have hsigned := signedDeregistration_of_authorised hauthorised rfl aliceEntry hentry hlive
  have hverify : unsignedDeregistration.request.verify = false := by decide
  rw [hsigned.1] at hverify
  exact Bool.false_ne_true hverify.symm

end Canopee.Edge
