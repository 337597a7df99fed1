import Canopee.Lib.Lease
import Canopee.Results.Authority

/-!
This module contains where an edge sends the requests for a subdomain: to the peer that holds it as a
lease, given everything that the edge was sent.
-/

namespace Canopee

open Primitives

variable [Primitives]

namespace Edge

/--
Who serves a subdomain, for which identity.
-/
abbrev Holder := PeerId × String

def Event.holder (event : Event) : Holder :=
  (event.peer, event.request.identity.text)

/--
The event is for this subdomain and passes as a registration.
-/
def Event.Registers (event : Event) (subdomain : String) : Prop :=
  event.subdomain = subdomain ∧ event.request.timestamp ≠ 0 ∧ validate event = .ok ()

/--
The event is for this subdomain and signed by the holder, who sends it.
-/
def Event.Beats (event : Event) (subdomain : String) (holder : Holder) : Prop :=
  event.subdomain = subdomain ∧ event.request.timestamp ≠ 0 ∧ event.request.verify = true ∧
    event.holder = holder

/--
The event takes the subdomain from the holder: it is a deregistration, whoever sends it, or it passes
as a registration of somebody else.
-/
def Event.Takes (event : Event) (subdomain : String) (holder : Holder) : Prop :=
  event.subdomain = subdomain ∧
    (event.request.timestamp = 0 ∨ validate event = .ok () ∧ event.holder ≠ holder)

instance (event : Event) (subdomain : String) (holder : Holder) :
    Decidable (event.Beats subdomain holder) :=
  inferInstanceAs (Decidable (_ ∧ _ ∧ _ ∧ _))

section Lease

/--
What an event is to the lease of a subdomain.
-/
def Event.op (subdomain : String) (event : Event) : Option (Lease.Op Holder) :=
  if event.subdomain ≠ subdomain then
    none
  else if event.request.timestamp = 0 then
    some .release
  else
    match validate event with
    | .ok _ => some (.claim event.holder event.instant)
    | .error _ =>
      if event.request.verify then some (.renew event.holder event.instant) else none

/--
The entry of a subdomain as a lease.
-/
def lease (subdomain : String) (entries : Entries) : Lease.State Holder :=
  (entries.lookup subdomain).map fun entry => ((entry.peer, entry.identity), entry.lastSeen)

omit [Primitives] in
theorem lease_insert (subdomain : String) (entries : Entries) (entry : Entry) :
    lease subdomain (entries.insert subdomain entry) =
      some ((entry.peer, entry.identity), entry.lastSeen) := by
  rw [lease, AList.lookup_insert]
  rfl

theorem lease_register {event : Event} {entries : Entries} (htime : event.request.timestamp ≠ 0)
    (hbeat : ∀ entry, entries.lookup event.subdomain = some entry → event.heartbeatOf entry = false) :
    lease event.subdomain (register entries event).1 =
      (event.op event.subdomain).elim (lease event.subdomain entries)
        fun op => Lease.step op (lease event.subdomain entries) := by
  unfold register Event.op
  rw [if_neg (not_not_intro rfl), if_neg htime]
  cases validate event with
  | ok u => exact lease_insert _ _ _
  | error message =>
    cases hverify : event.request.verify with
    | false => rfl
    | true =>
      simp only [if_true, Option.elim_some]
      cases hentry : entries.lookup event.subdomain with
      | none =>
        rw [lease, hentry]
        rfl
      | some entry =>
        have hother : (entry.peer, entry.identity) ≠ event.holder := by
          intro hholder
          rw [Event.holder, Prod.mk.injEq] at hholder
          have hbeats := heartbeatOf_iff.mpr ⟨hholder.1, hholder.2, hverify⟩
          rw [hbeat entry hentry] at hbeats
          cases hbeats
        rw [lease, hentry]
        exact (if_neg hother).symm

theorem op_of_verify {event : Event} (htime : event.request.timestamp ≠ 0)
    (hverify : event.request.verify = true) :
    event.op event.subdomain = some (.claim event.holder event.instant) ∨
      event.op event.subdomain = some (.renew event.holder event.instant) := by
  unfold Event.op
  rw [if_neg (not_not_intro rfl), if_neg htime]
  cases validate event with
  | ok u => exact .inl rfl
  | error message => exact .inr (if_pos hverify)

theorem lease_refresh {event : Event} {entries : Entries} {entry : Entry}
    (htime : event.request.timestamp ≠ 0) (hentry : entries.lookup event.subdomain = some entry)
    (hbeat : event.heartbeatOf entry = true) :
    some (event.holder, event.instant) =
      (event.op event.subdomain).elim (lease event.subdomain entries)
        fun op => Lease.step op (lease event.subdomain entries) := by
  have ⟨hpeer, hidentity, hverify⟩ := heartbeatOf_iff.mp hbeat
  have hlease : lease event.subdomain entries = some (event.holder, entry.lastSeen) := by
    rw [lease, hentry, Event.holder, ← hpeer, ← hidentity]
    rfl
  rw [hlease]
  cases op_of_verify htime hverify with
  | inl hop =>
    rw [hop]
    rfl
  | inr hop =>
    rw [hop]
    exact (if_pos rfl).symm

/--
The registry keeps the entry of a subdomain as a lease.
-/
theorem lease_step (subdomain : String) (event : Event) (entries : Entries) :
    lease subdomain (step event entries) =
      (event.op subdomain).elim (lease subdomain entries)
        fun op => Lease.step op (lease subdomain entries) := by
  by_cases hsubdomain : event.subdomain = subdomain
  . subst hsubdomain
    unfold step handle
    split
    . next htime =>
      rw [Event.op, if_neg (not_not_intro rfl), if_pos htime, lease, AList.lookup_erase]
      rfl
    . next htime =>
      split
      . next hentry => exact lease_register htime (by simp [hentry])
      . next entry hentry =>
        split
        . next hbeat =>
          have hidentity := (heartbeatOf_iff.mp hbeat).2.1
          rw [lease_insert, hidentity]
          exact lease_refresh htime hentry hbeat
        . next hbeat =>
          apply lease_register htime
          intro other hother
          rw [hentry, Option.some.injEq] at hother
          rw [← hother]
          simpa using hbeat
  . rw [Event.op, if_pos hsubdomain, lease, lookup_step_of_ne (Ne.symm hsubdomain)]
    rfl

theorem lease_run (subdomain : String) (entries : Entries) (events : List Event) :
    lease subdomain (Run.run step entries events) =
      Run.run Lease.step (lease subdomain entries) (events.filterMap (Event.op subdomain)) := by
  induction events generalizing entries with
  | nil => rfl
  | cons event events ih =>
    rw [Run.run_cons, ih, lease_step]
    cases hop : event.op subdomain with
    | none => rw [List.filterMap_cons_none hop, Option.elim_none]
    | some op => rw [List.filterMap_cons_some hop, Option.elim_some, Run.run_cons]

variable {event : Event} {subdomain : String} {holder : Holder}

theorem op_eq_claim_iff {time : Nat} :
    event.op subdomain = some (.claim holder time) ↔
      event.Registers subdomain ∧ event.holder = holder ∧ event.instant = time := by
  unfold Event.op Event.Registers
  by_cases hsubdomain : event.subdomain = subdomain
  . rw [if_neg (not_not_intro hsubdomain)]
    by_cases htime : event.request.timestamp = 0
    . simp [htime]
    . rw [if_neg htime]
      cases hvalid : validate event with
      | ok u => simp [hsubdomain, htime]
      | error message => simp [hsubdomain, htime]
  . simp [hsubdomain]

theorem spares_op_iff :
    (∀ op ∈ event.op subdomain, op.Spares holder) ↔ ¬ event.Takes subdomain holder := by
  unfold Event.op Event.Takes
  by_cases hsubdomain : event.subdomain = subdomain
  . rw [if_neg (not_not_intro hsubdomain)]
    by_cases htime : event.request.timestamp = 0
    . simp [hsubdomain, htime, Lease.Op.Spares]
    . rw [if_neg htime]
      cases hvalid : validate event with
      | ok u => simp [hsubdomain, htime, Lease.Op.Spares]
      | error message => simp [hsubdomain, htime, Lease.Op.Spares]
  . simp [hsubdomain]

theorem seen_op :
    (event.op subdomain).bind (Lease.Op.seen holder) =
      if event.Beats subdomain holder then some event.instant else none := by
  unfold Event.op Event.Beats
  by_cases hsubdomain : event.subdomain = subdomain
  . rw [if_neg (not_not_intro hsubdomain)]
    by_cases htime : event.request.timestamp = 0
    . simp [htime, Lease.Op.seen]
    . rw [if_neg htime]
      cases hvalid : validate event with
      | ok u =>
        have hverify := (validate_eq_ok_iff.mp hvalid).1
        simp [hsubdomain, htime, hverify, Lease.Op.seen]
      | error message =>
        by_cases hverify : event.request.verify = true
        . simp [hsubdomain, htime, hverify, Lease.Op.seen]
        . simp [hverify]
  . simp [hsubdomain]

theorem filterMap_seen (events : List Event) :
    (events.filterMap (Event.op subdomain)).filterMap (Lease.Op.seen holder) =
      (events.filter fun event => event.Beats subdomain holder).map Event.instant := by
  rw [List.filterMap_filterMap]
  induction events with
  | nil => rfl
  | cons event events ih =>
    rw [List.filterMap_cons, seen_op]
    by_cases hbeats : event.Beats subdomain holder
    . rw [if_pos hbeats, List.filter_cons_of_pos (by simpa using hbeats), List.map_cons, ih]
    . rw [if_neg hbeats, List.filter_cons_of_neg (by simpa using hbeats), ih]

end Lease

/--
A registration of the holder passed for the subdomain, no later event takes the subdomain from the
holder, and `last` is the last event of all that the holder signed and sent.
-/
structure Serves (events : List Event) (subdomain : String) (holder : Holder) (last : Event) :
    Prop where
  registered : ∃ before registration after, events = before ++ registration :: after ∧
    registration.Registers subdomain ∧ registration.holder = holder ∧
    ∀ event ∈ after, ¬ event.Takes subdomain holder
  last : (events.filter fun event => event.Beats subdomain holder).getLast? = some last

section Serves

variable {events : List Event} {subdomain : String} {holder : Holder}

theorem Event.Registers.beats {event : Event} (h : event.Registers subdomain)
    (hholder : event.holder = holder) : event.Beats subdomain holder :=
  ⟨h.1, h.2.1, (validate_eq_ok_iff.mp h.2.2).1, hholder⟩

/--
The lease of a subdomain is held by who serves it.
-/
theorem held_iff {time : Nat} :
    Lease.Held (events.filterMap (Event.op subdomain)) holder time ↔
      ∃ last, Serves events subdomain holder last ∧ last.instant = time := by
  have hlast {before after : List Event} {registration : Event}
      (hregisters : registration.Registers subdomain) (hholder : registration.holder = holder) :
      ((before ++ registration :: after).filter fun event => event.Beats subdomain holder).getLast? =
        ((registration :: after).filter fun event => event.Beats subdomain holder).getLast? := by
    rw [List.filter_append, List.getLast?_append,
      List.filter_cons_of_pos (by simpa using hregisters.beats hholder), List.getLast?_cons]
    rfl
  constructor
  . rintro ⟨before, start, after, hops, hspares, hseen⟩
    obtain ⟨front, back, rfl, _, hback⟩ := List.filterMap_eq_append_iff.mp hops
    obtain ⟨between, registration, later, rfl, _, hop, rfl⟩ := List.filterMap_eq_cons_iff.mp hback
    obtain ⟨hregisters, hholder, hstart⟩ := op_eq_claim_iff.mp hop
    rw [← List.filterMap_cons_some hop, filterMap_seen, List.getLast?_map,
      Option.map_eq_some_iff] at hseen
    obtain ⟨last, hlatest, hinstant⟩ := hseen
    refine ⟨last, ⟨⟨front ++ between, registration, later, by simp, hregisters, hholder, ?_⟩, ?_⟩,
      hinstant⟩
    . intro event hevent
      rw [← spares_op_iff]
      intro op hmem
      exact hspares op (List.mem_filterMap.mpr ⟨event, hevent, hmem⟩)
    . rw [← List.append_assoc, hlast hregisters hholder]
      exact hlatest
  . rintro ⟨last, ⟨⟨before, registration, after, rfl, hregisters, hholder, hkept⟩, hlatest⟩, rfl⟩
    have hop := op_eq_claim_iff.mpr ⟨hregisters, hholder, rfl⟩
    refine ⟨before.filterMap (Event.op subdomain), registration.instant,
      after.filterMap (Event.op subdomain), ?_, ?_, ?_⟩
    . rw [List.filterMap_append, List.filterMap_cons_some hop]
    . intro op hmem
      obtain ⟨event, hevent, hevent'⟩ := List.mem_filterMap.mp hmem
      exact spares_op_iff.mpr (hkept event hevent) op hevent'
    . rw [hlast hregisters hholder] at hlatest
      rw [← List.filterMap_cons_some hop, filterMap_seen, List.getLast?_map, hlatest]
      rfl

omit [Primitives] in
theorem resolve_eq_some_iff {entries : Entries} {host : String} {instant : Nat} {peer : PeerId} :
    resolve entries host instant = some peer ↔
      ∃ identity time, lease (asciiLowercase host) entries = some ((peer, identity), time) ∧
        instant - time ≤ REGISTRY_TTL := by
  unfold resolve lease
  cases hentry : entries.lookup (asciiLowercase host) with
  | none => simp
  | some entry =>
    simp only [Option.map_some, Option.some.injEq, Prod.mk.injEq]
    constructor
    . intro h
      split at h
      . next hlive => exact ⟨_, _, ⟨⟨Option.some.inj h, rfl⟩, rfl⟩, hlive⟩
      . cases h
    . rintro ⟨identity, time, ⟨⟨rfl, _⟩, rfl⟩, hlive⟩
      exact if_pos hlive

/--
An edge routes a subdomain to a peer just when a registration of that peer has passed, nothing has
taken the subdomain from it since, and it was last heard of not too long ago.
-/
theorem resolve_run_iff {host : String} {instant : Nat} {peer : PeerId} :
    resolve (Run.run step ∅ events) host instant = some peer ↔
      ∃ identity last, Serves events (asciiLowercase host) (peer, identity) last ∧
        instant - last.instant ≤ REGISTRY_TTL := by
  have hempty : lease (asciiLowercase host) ∅ = none := rfl
  rw [resolve_eq_some_iff, lease_run, hempty]
  constructor
  . rintro ⟨identity, time, hrun, hlive⟩
    obtain ⟨last, hserves, rfl⟩ := held_iff.mp (Lease.run_eq_some_iff.mp hrun)
    exact ⟨identity, last, hserves, hlive⟩
  . rintro ⟨identity, last, hserves, hlive⟩
    exact ⟨identity, last.instant, Lease.run_eq_some_iff.mpr (held_iff.mpr ⟨last, hserves, rfl⟩), hlive⟩

end Serves

end Edge

end Canopee
