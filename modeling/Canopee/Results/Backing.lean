import Canopee.Edge.Registry
import Canopee.Lib.Run

/-!
This module contains what backs an entry of the registry: a registration that passed every check, at
some earlier event.
-/

namespace Canopee

open Primitives

variable [Primitives]

namespace Edge

variable {past : List Event} {event : Event} {entries : Entries} {subdomain : String} {entry : Entry}

/--
`event` came from the peer of the entry, with a fresh registration that verifies under the identity
of the entry and names an app of this subdomain, and the peer answered the probe with the manifest
that hashes to the app id and whose owner is that identity.
-/
structure Backs (subdomain : String) (entry : Entry) (event : Event) : Prop where
  peer : event.peer = entry.peer
  identity : event.request.identity = ⟨entry.identity⟩
  signed : event.request.verify = true
  named : appSubdomain event.appId.text = subdomain
  fresh : event.skew ≤ MAX_TIMESTAMP_SKEW_SECS
  served : ∃ manifest, event.Serves manifest ∧ manifest.owner = ⟨entry.identity⟩

/--
Every entry is backed by one of the events of the past.
-/
def Backed (past : List Event) (entries : Entries) : Prop :=
  ∀ subdomain entry, entries.lookup subdomain = some entry →
    ∃ event ∈ past, Backs subdomain entry event

theorem backs_of_validate (h : validate event = .ok ()) :
    Backs event.subdomain ⟨event.peer, event.request.identity.text, event.instant⟩ event := by
  rw [validate_eq_ok_iff] at h
  obtain ⟨hverify, hskew, hserves⟩ := h
  constructor
  . rfl
  . rfl
  . exact hverify
  . rfl
  . exact hskew
  . exact hserves

theorem Backs.refresh {other : Entry} (h : Backs subdomain entry event)
    (hpeer : other.peer = entry.peer) (hidentity : other.identity = entry.identity) :
    Backs subdomain other event where
  peer := by rw [hpeer, h.peer]
  identity := by rw [hidentity, h.identity]
  signed := h.signed
  named := h.named
  fresh := h.fresh
  served := by
    rw [hidentity]
    exact h.served

theorem Backed.later (h : Backed past entries) (event : Event) : Backed (past ++ [event]) entries := by
  intro subdomain entry hentry
  obtain ⟨earlier, hmem, hbacks⟩ := h subdomain entry hentry
  exact ⟨earlier, List.mem_append_left _ hmem, hbacks⟩

theorem Backed.insert (h : Backed past entries) (hnew : ∃ event ∈ past, Backs subdomain entry event) :
    Backed past (entries.insert subdomain entry) := by
  intro other current hcurrent
  by_cases hother : other = subdomain
  . rw [hother] at hcurrent ⊢
    rw [AList.lookup_insert, Option.some.injEq] at hcurrent
    rw [← hcurrent]
    exact hnew
  . rw [AList.lookup_insert_ne hother] at hcurrent
    exact h other current hcurrent

theorem Backed.erase (h : Backed past entries) (subdomain : String) :
    Backed past (entries.erase subdomain) := by
  intro other current hcurrent
  by_cases hother : other = subdomain
  . rw [hother, AList.lookup_erase] at hcurrent
    contradiction
  . rw [AList.lookup_erase_ne hother] at hcurrent
    exact h other current hcurrent

/--
What one event preserves. The heartbeat skips the validation because the entry that it meets was
backed already, for the same peer and identity.
-/
theorem backed_step (event : Event) (h : Backed past entries) :
    Backed (past ++ [event]) (step event entries) := by
  have hlater := h.later event
  have houtcome := step_outcome event entries
  generalize step event entries = after at houtcome
  cases houtcome with
  | deregistered => exact hlater.erase _
  | @refreshed current _ hcurrent hbeat =>
    apply hlater.insert
    obtain ⟨earlier, hmem, hbacks⟩ := hlater _ current hcurrent
    refine ⟨earlier, hmem, hbacks.refresh ?_ rfl⟩
    exact (heartbeatOf_iff.mp hbeat).1.symm
  | registered _ hvalid =>
    apply hlater.insert
    exact ⟨event, by simp, backs_of_validate hvalid⟩
  | refused => exact hlater

theorem backed_run (events : List Event) (h : Backed past entries) :
    Backed (past ++ events) (Run.run step entries events) := by
  induction events generalizing past entries with
  | nil =>
    rw [List.append_nil]
    exact h
  | cons event events ih =>
    rw [List.append_cons]
    exact ih (backed_step event h)

/--
After any sequence of events every entry is backed by one of them.
-/
theorem run_backed (events : List Event) : Backed events (Run.run step ∅ events) := by
  have hempty : Backed [] ∅ := by
    intro subdomain entry hentry
    rw [AList.lookup_empty] at hentry
    contradiction
  exact backed_run events hempty

end Edge

end Canopee
