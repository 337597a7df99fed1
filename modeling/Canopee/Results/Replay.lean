import Canopee.Results.Authority

/-!
This module contains the registry of an edge together with the registrations that owners signed, each
for the peer of theirs that was to present it: when a subdomain points to a peer that its owner
signed for.
-/

namespace Canopee

open Primitives

variable [Primitives]

namespace Edge

structure World where
  entries : Entries
  -- the registrations that were signed, with the peer that each was signed for
  signed : List (PeerId × ServeRegistration)
  -- the monotonic clock of the edge at the last event
  instant : Nat

inductive Action where
  | sign (owner : Identity) (peer : PeerId) (appId : String) (timestamp : UInt64)
  | deliver (event : Event)

namespace World

def empty : World where
  entries := ∅
  signed := []
  instant := 0

/--
An owner signs a registration, or the edge handles one.
-/
def step : Action → World → World
  | .sign owner peer appId timestamp, w =>
    { w with signed := (peer, ServeRegistration.sign owner appId timestamp) :: w.signed }
  | .deliver event, w =>
    { w with
      entries := Edge.step event w.entries
      instant := event.instant }

/--
The owner signed a registration of an app under this subdomain for `peer`.
-/
def SignedFor (w : World) (owner : IdentityId) (subdomain : String) (peer : PeerId) : Prop :=
  ∃ registration, (peer, registration) ∈ w.signed ∧ registration.identity = owner ∧
    appSubdomain (trim registration.appId) = subdomain

variable (honest : IdentityId → Prop)

/--
Every live entry of an honest owner points to a peer that the owner signed for.
-/
def Unhijacked (w : World) : Prop :=
  ∀ subdomain entry, w.entries.lookup subdomain = some entry → entry.live w.instant →
    honest ⟨entry.identity⟩ → w.SignedFor ⟨entry.identity⟩ subdomain entry.peer

/--
The same of every entry.
-/
def Sound (w : World) : Prop :=
  ∀ subdomain entry, w.entries.lookup subdomain = some entry → honest ⟨entry.identity⟩ →
    w.SignedFor ⟨entry.identity⟩ subdomain entry.peer

/--
The owner of the request signed what it says, for some peer.
-/
def Signed (w : World) (request : ServeRegistration) : Prop :=
  ∃ peer registration, (peer, registration) ∈ w.signed ∧
    registration.appId = request.appId ∧ registration.identity = request.identity ∧
    registration.timestamp = request.timestamp

/--
Nobody presents a registration of an honest owner that the owner did not sign.
-/
def Unforged : Action → World → Prop
  | .sign .., _ => True
  | .deliver event, w =>
    event.request.verify = true → honest event.request.identity → w.Signed event.request

/--
A peer presents a fresh registration that an honest owner signed for others only, and answers the
probe with the manifest of the app.
-/
def Replays (event : Event) (w : World) : Prop :=
  event.request.timestamp ≠ 0 ∧ validate event = .ok () ∧ honest event.request.identity ∧
    w.Signed event.request ∧ ¬ w.SignedFor event.request.identity event.subdomain event.peer

def Unreplayed : Action → World → Prop
  | .sign .., _ => True
  | .deliver event, w => ¬ Replays honest event w

variable {honest}

omit [Primitives] in
theorem Sound.unhijacked {w : World} (h : Sound honest w) : Unhijacked honest w := by
  intro subdomain entry hentry _
  exact h subdomain entry hentry

theorem SignedFor.sign {w : World} {owner : IdentityId} {subdomain : String} {peer : PeerId}
    (h : w.SignedFor owner subdomain peer) (signer : Identity) (other : PeerId) (appId : String)
    (timestamp : UInt64) :
    (step (.sign signer other appId timestamp) w).SignedFor owner subdomain peer := by
  obtain ⟨registration, hmem, hregistration⟩ := h
  exact ⟨registration, List.mem_cons_of_mem _ hmem, hregistration⟩

theorem sound_step {action : Action} {w : World} (hunforged : Unforged honest action w)
    (hunreplayed : Unreplayed honest action w) (h : Sound honest w) :
    Sound honest (step action w) := by
  cases action with
  | sign signer other appId timestamp =>
    intro subdomain entry hentry hhonest
    exact (h subdomain entry hentry hhonest).sign signer other appId timestamp
  | deliver event =>
    intro subdomain entry hentry hhonest
    simp only [step] at hentry
    by_cases hsubdomain : subdomain = event.subdomain
    . rw [hsubdomain] at hentry ⊢
      have houtcome := step_outcome event w.entries
      generalize Edge.step event w.entries = after at houtcome hentry
      cases houtcome with
      | deregistered => simp [AList.lookup_erase] at hentry
      | @refreshed current _ hcurrent hbeat =>
        simp only [AList.lookup_insert, Option.some.injEq] at hentry
        subst hentry
        have hsound := h event.subdomain current hcurrent hhonest
        rw [(heartbeatOf_iff.mp hbeat).1] at hsound
        exact hsound
      | registered htime hvalid =>
        simp only [AList.lookup_insert, Option.some.injEq] at hentry
        subst hentry
        by_contra hforeign
        have hverify := (validate_eq_ok_iff.mp hvalid).1
        exact hunreplayed ⟨htime, hvalid, hhonest, hunforged hverify hhonest, hforeign⟩
      | refused => exact h event.subdomain entry hentry hhonest
    . rw [lookup_step_of_ne hsubdomain] at hentry
      exact h subdomain entry hentry hhonest

theorem not_replays_of_unhijacked {event : Event} {w : World} (h : Sound honest w)
    (hafter : Unhijacked honest (step (.deliver event) w)) : ¬ Replays honest event w := by
  intro ⟨htime, hvalid, hhonest, _, hforeign⟩
  apply hforeign
  have houtcome := step_outcome event w.entries
  simp only [Unhijacked, step] at hafter
  generalize Edge.step event w.entries = after at houtcome hafter
  cases houtcome with
  | deregistered htime' => contradiction
  | @refreshed current _ hcurrent hbeat =>
    obtain ⟨hpeer, hidentity, _⟩ := heartbeatOf_iff.mp hbeat
    have hsound := h event.subdomain current hcurrent
    rw [hpeer, hidentity] at hsound
    exact hsound hhonest
  | registered =>
    exact hafter event.subdomain _ (AList.lookup_insert _) (Entry.live_lastSeen _) hhonest
  | refused _ hinvalid =>
    rw [hvalid] at hinvalid
    contradiction

/--
In every run in which signatures are not forged: the live entries of honest owners point to peers
that their owners signed for exactly when nobody replays a registration that was signed for others.
-/
theorem run_unhijacked_iff {actions : List Action}
    (hunforged : Run.Along step (Unforged honest) empty actions) :
    Run.Always step (Unhijacked honest) empty actions ↔
      Run.Along step (Unreplayed honest) empty actions := by
  have hempty : Sound honest empty := by
    intro subdomain entry hentry
    simp [empty] at hentry
  rw [Run.always_iff, and_iff_right hempty.unhijacked]
  apply Run.along_iff hunforged hempty
  . intro action w hforged hsound
    constructor
    . intro hafter
      cases action with
      | sign => trivial
      | deliver event => exact not_replays_of_unhijacked hsound hafter
    . intro hunreplayed
      exact (sound_step hforged hunreplayed hsound).unhijacked
  . intro action w hforged hsound hunreplayed
    exact sound_step hforged hunreplayed hsound

end World

end Edge

end Canopee

namespace Canopee.Edge.World

open Canopee.Compact

/--
Alice signs a registration of her app for her peer, which presents it.
-/
def registered : List Action :=
  [.sign alice ⟨"aa"⟩ aliceAppId.text 100, .deliver (registration ⟨"aa"⟩ 0)]

theorem unforged_registration {peer : PeerId} {instant : Nat} {w : World}
    (h : (⟨"aa"⟩, ServeRegistration.sign alice aliceAppId.text 100) ∈ w.signed) :
    Unforged (· = alice.id) (.deliver (registration peer instant)) w := by
  intro _ _
  exact ⟨⟨"aa"⟩, _, h, rfl, rfl, rfl⟩

theorem run_unhijacked_iff_registered :
    Run.Always step (Unhijacked (· = alice.id)) empty registered := by
  have hunforged : Run.Along step (Unforged (· = alice.id)) empty registered :=
    ⟨trivial, unforged_registration List.mem_cons_self, trivial⟩
  have hsigned : SignedFor (step (.sign alice ⟨"aa"⟩ aliceAppId.text 100) empty)
      (registration ⟨"aa"⟩ 0).request.identity (registration ⟨"aa"⟩ 0).subdomain ⟨"aa"⟩ :=
    ⟨_, List.mem_cons_self, rfl, rfl⟩
  have hunreplayed : Run.Along step (Unreplayed (· = alice.id)) empty registered :=
    ⟨trivial, fun hreplays => hreplays.2.2.2.2 hsigned, trivial⟩
  exact (run_unhijacked_iff hunforged).mpr hunreplayed

/--
Another peer presents the same registration a moment later.
-/
def replayed : List Action :=
  registered ++ [.deliver (registration ⟨"mm"⟩ 1)]

/--
Nothing is forged in that run, and yet Alice's app points to the other peer at its end.
-/
theorem replay_hijacks :
    Run.Along step (Unforged (· = alice.id)) empty replayed ∧
      resolve (Run.run step empty replayed).entries (appSubdomain aliceAppId.text) 1 =
        some ⟨"mm"⟩ ∧
      ¬ Run.Always step (Unhijacked (· = alice.id)) empty replayed := by
  refine ⟨?_, by decide +kernel, ?_⟩
  . exact ⟨trivial, unforged_registration List.mem_cons_self,
      unforged_registration List.mem_cons_self, trivial⟩
  . intro halways
    have hentry : (Run.run step empty replayed).entries.lookup (appSubdomain aliceAppId.text) =
        some ⟨⟨"mm"⟩, alice.id.text, 1⟩ := by decide +kernel
    have hlive : Entry.live ⟨⟨"mm"⟩, alice.id.text, 1⟩ 1 := by decide
    obtain ⟨signed, hmem, _⟩ := halways.last _ _ hentry hlive rfl
    have hsigned : (Run.run step empty replayed).signed =
        [(⟨"aa"⟩, ServeRegistration.sign alice aliceAppId.text 100)] := rfl
    rw [hsigned, List.mem_singleton] at hmem
    simp at hmem

end Canopee.Edge.World
