import Canopee.Lib.Run
import Canopee.Network.EventLoop

/-!
This module contains when every request to the network is answered exactly once, by the outcome of
its own queries: when no search for providers ends in failure.
-/

namespace Canopee

/--
The part of the swarm that gives out the ids of a table.
-/
inductive Behaviour where
  | kad
  | objectExchange
  | pairing
  | serveRegistry
  | serve
deriving DecidableEq

def Table.behaviour : Table → Behaviour
  | .getProviders => .kad
  | .putRecord => .kad
  | .getRecord => .kad
  | .getObject => .objectExchange
  | .replicate => .objectExchange
  | .pairingRequest => .pairing
  | .serveRegistration => .serveRegistry
  | .serveRequest => .serve

namespace Command

def ticket : Command → Option Ticket
  | findProviders _ reply => some reply
  | putRecord _ _ reply => some reply
  | getRecord _ reply => some reply
  | getObject _ _ reply => some reply
  | replicateObject _ _ reply => some reply
  | sendPairing _ _ reply => some reply
  | sendServeRegistration _ _ reply => some reply
  | sendServeRequest _ _ reply => some reply
  | listPeers reply => some reply
  | setPeerMeta _ _ _ _ => none
  | subscribe _ reply => some reply
  | unsubscribe _ => none
  | publish _ _ reply => some reply

/--
The ticket of a command that asks something of the network.
-/
def request : Command → Option Ticket
  | listPeers _ => none
  | subscribe _ _ => none
  | publish _ _ _ => none
  | command => command.ticket

/--
The queries and requests that the command starts.
-/
def started (answer : Answer) (s : EventLoop) : Command → List (Table × Nat)
  | findProviders _ _ => [(.getProviders, answer.ids 0)]
  | putRecord _ _ _ => if answer.refusal.isNone then [(.putRecord, answer.ids 0)] else []
  | getRecord _ _ => [(.getRecord, answer.ids 0)]
  | getObject _ _ _ => [(.getObject, answer.ids 0)]
  | replicateObject (some peer) _ _ =>
    if peer ∈ s.peers then [(.replicate, answer.ids 0)] else []
  | replicateObject none _ _ =>
    (List.range (answer.iteration s.peers.keys).length).map fun i => (.replicate, answer.ids i)
  | sendPairing _ _ _ => [(.pairingRequest, answer.ids 0)]
  | sendServeRegistration _ _ _ => [(.serveRegistration, answer.ids 0)]
  | sendServeRequest _ _ _ => [(.serveRequest, answer.ids 0)]
  | listPeers _ => []
  | setPeerMeta _ _ _ _ => []
  | subscribe _ _ => []
  | unsubscribe _ => []
  | publish _ _ _ => []

/--
What the caller is to get when its queries and requests had these outcomes.
-/
def outcome (answer : Answer) : Command → List Reply → Option Reply
  | putRecord _ _ _, [] =>
    answer.refusal.map fun e => .putRecord (.error ("Failed to put record: " ++ e))
  | replicateObject (some peer) _ _, [] =>
    some (.replicated (.error ("peer " ++ peer.base58 ++ " is not connected")))
  | replicateObject _ _ _, outcomes =>
    some (.replicated (Runtime.replicateOutcome (outcomes.filterMap fun
      | .replicated verdict => some verdict
      | _ => none)))
  | _, [outcome] => some outcome
  | _, _ => none

end Command

namespace SwarmEvent

/--
The event is a terminal one of the query or request.
-/
def Ends (t : Table) (id : Nat) : SwarmEvent → Prop
  | getProviders i _ => t = .getProviders ∧ i = id
  | putRecord i _ => t = .putRecord ∧ i = id
  | getRecord i _ => t = .getRecord ∧ i = id
  | exchange i _ => (t = .getObject ∨ t = .replicate) ∧ i = id
  | pairing i _ => t = .pairingRequest ∧ i = id
  | serve i _ => t = .serveRequest ∧ i = id
  | serveRegistry i _ => t = .serveRegistration ∧ i = id
  | connectionEstablished _ _ => False
  | connectionClosed _ _ => False
  | identifyReceived _ _ => False

/--
The outcome that the event stands for, for a caller in the table.
-/
def outcome : Table → SwarmEvent → Option Reply
  | .getProviders, getProviders _ (.ok result) => some (.providers result.providers)
  | .putRecord, putRecord _ result =>
    some (.putRecord (result.mapError fun e => "Failed to put record: " ++ e))
  | .getRecord, getRecord _ result => some (.getRecord (EventLoop.getRecordOutcome result))
  | .getObject, exchange _ result => some (.object (Runtime.objectOutcome result))
  | .replicate, exchange _ result => some (.replicated (Runtime.storeOutcome result))
  | .pairingRequest, pairing _ result => some (.pairing (EventLoop.pairingOutcome result))
  | .serveRegistration, serveRegistry _ result =>
    some (.registration (result.mapError fun e => "Serve registration request failed: " ++ e))
  | .serveRequest, serve _ result =>
    some (.serve (result.mapError fun e => "Serve request failed: " ++ e))
  | _, _ => none

theorem outcome_eq_none_iff {t : Table} {id : Nat} {event : SwarmEvent} (h : event.Ends t id) :
    event.outcome t = none ↔ ∃ e, t = .getProviders ∧ event = .getProviders id (.error e) := by
  cases event with
  | connectionEstablished peer c => cases h
  | connectionClosed peer c => cases h
  | identifyReceived peer addrs => cases h
  | getProviders i result =>
    obtain ⟨rfl, rfl⟩ := h
    cases result with
    | ok result => simp [outcome]
    | error e => simp [outcome]
  | exchange i result =>
    obtain ⟨ht, rfl⟩ := h
    cases ht with
    | inl ht => simp [ht, outcome]
    | inr ht => simp [ht, outcome]
  | putRecord i result =>
    obtain ⟨rfl, rfl⟩ := h
    simp [outcome]
  | getRecord i result =>
    obtain ⟨rfl, rfl⟩ := h
    simp [outcome]
  | pairing i result =>
    obtain ⟨rfl, rfl⟩ := h
    simp [outcome]
  | serve i result =>
    obtain ⟨rfl, rfl⟩ := h
    simp [outcome]
  | serveRegistry i result =>
    obtain ⟨rfl, rfl⟩ := h
    simp [outcome]

end SwarmEvent

namespace EventLoop

/--
The caller with this ticket waits for the query or request.
-/
def Holds (r : Ticket) (s : EventLoop) (t : Table) (id : Nat) : Prop :=
  (s.pending t).lookup id = some r

def gathersOf (r : Ticket) (s : EventLoop) : List Gather :=
  s.gathers.filter (·.reply = r)

def sentTo (r : Ticket) (s : EventLoop) : List (Ticket × Reply) :=
  s.sent.filter (·.1 = r)

/--
The step from `s` to `u` has not touched what belongs to the caller.
-/
structure SameFor (r : Ticket) (s u : EventLoop) : Prop where
  holds : ∀ t id, u.Holds r t id ↔ s.Holds r t id
  gathers : u.gathersOf r = s.gathersOf r
  sent : u.sentTo r = s.sentTo r

namespace SameFor

variable {r : Ticket} {s u v : EventLoop}

theorem refl : SameFor r s s := ⟨fun _ _ => Iff.rfl, rfl, rfl⟩

theorem trans (h : SameFor r s u) (h' : SameFor r u v) : SameFor r s v where
  holds t id := (h'.holds t id).trans (h.holds t id)
  gathers := h'.gathers.trans h.gathers
  sent := h'.sent.trans h.sent

theorem of_eq (hpending : u.pending = s.pending) (hgathers : u.gathers = s.gathers)
    (hsent : u.sent = s.sent) : SameFor r s u where
  holds t id := by rw [Holds, Holds, hpending]
  gathers := by rw [gathersOf, gathersOf, hgathers]
  sent := by rw [sentTo, sentTo, hsent]

theorem send {reply : Ticket} {value : Reply} (h : reply ≠ r) :
    SameFor r s (s.send reply value) where
  holds _ _ := Iff.rfl
  gathers := rfl
  sent := by simp [sentTo, EventLoop.send, h]

end SameFor

section Tables

variable {r : Ticket} (s : EventLoop)

theorem lookup_insertPending (t : Table) (id : Nat) (reply : Ticket) (t' : Table) (id' : Nat) :
    ((s.insertPending t id reply).pending t').lookup id' =
      if t' = t ∧ id' = id then some reply else (s.pending t').lookup id' := by
  by_cases ht : t' = t
  . subst ht
    by_cases hid : id' = id
    . subst hid
      simp [insertPending]
    . simp [insertPending, hid]
  . simp [insertPending, ht]

theorem lookup_removePending (t : Table) (id : Nat) (t' : Table) (id' : Nat) :
    ((s.removePending t id).pending t').lookup id' =
      if t' = t ∧ id' = id then none else (s.pending t').lookup id' := by
  by_cases ht : t' = t
  . subst ht
    by_cases hid : id' = id
    . subst hid
      simp [removePending]
    . simp [removePending, hid, AList.lookup_erase_ne]
  . simp [removePending, ht]

theorem holds_insertPending {t : Table} {id : Nat} {reply : Ticket} {t' : Table} {id' : Nat} :
    (s.insertPending t id reply).Holds r t' id' ↔
      if t' = t ∧ id' = id then reply = r else s.Holds r t' id' := by
  unfold Holds
  rw [lookup_insertPending]
  split
  . simp
  . rfl

theorem holds_removePending {t : Table} {id : Nat} {t' : Table} {id' : Nat} :
    (s.removePending t id).Holds r t' id' ↔ ¬ (t' = t ∧ id' = id) ∧ s.Holds r t' id' := by
  unfold Holds
  rw [lookup_removePending]
  split
  . next h => simp [h]
  . next h => simp [h]

end Tables

namespace SameFor

variable {r : Ticket} {s : EventLoop}

theorem insertPending {t : Table} {id : Nat} {reply : Ticket} (hreply : reply ≠ r)
    (h : ¬ s.Holds r t id) : SameFor r s (s.insertPending t id reply) where
  holds t' id' := by
    rw [holds_insertPending]
    split
    . next heq =>
      rw [heq.1, heq.2]
      exact iff_of_false hreply h
    . rfl
  gathers := rfl
  sent := rfl

theorem removePending {t : Table} {id : Nat} (h : ¬ s.Holds r t id) :
    SameFor r s (s.removePending t id) where
  holds t' id' := by
    rw [holds_removePending]
    constructor
    . intro h'
      exact h'.2
    . intro h'
      refine ⟨?_, h'⟩
      intro heq
      rw [heq.1, heq.2] at h'
      exact h h'
  gathers := rfl
  sent := rfl

theorem settle {t : Table} {id : Nat} {value : Reply} (h : ¬ s.Holds r t id) :
    SameFor r s (s.settle t id value) := by
  unfold EventLoop.settle
  split
  . exact .refl
  . next reply hreply =>
    have hne : reply ≠ r := by
      intro heq
      rw [heq] at hreply
      exact h hreply
    exact (SameFor.removePending h).trans (.send hne)

theorem settleReplicate {id : Nat} {verdict : Except String Unit}
    (h : ¬ s.Holds r .replicate id) : SameFor r s (s.settleReplicate id verdict) := by
  unfold EventLoop.settleReplicate
  split
  . exact .refl
  . next reply hreply =>
    have hne : reply ≠ r := by
      intro heq
      rw [heq] at hreply
      exact h hreply
    have hremoved : SameFor r s (s.removePending .replicate id) := .removePending h
    dsimp only
    split
    . exact hremoved
    . next task htask =>
      have hothers : (s.gathers.filter (·.reply ≠ reply)).filter (·.reply = r) =
          s.gathers.filter (·.reply = r) := by
        rw [List.filter_filter]
        apply List.filter_congr
        intro other _
        by_cases hother : other.reply = r
        . simp [hother, hne.symm]
        . simp [hother]
      have htask : task.reply ≠ r := by
        have := List.find?_some htask
        simp only [decide_eq_true_eq] at this
        rw [this]
        exact hne
      split
      . constructor
        . exact hremoved.holds
        . exact hothers
        . simp [sentTo, EventLoop.send, hne, EventLoop.removePending]
      . constructor
        . exact hremoved.holds
        . rw [gathersOf, List.filter_cons, if_neg (by simpa [Gather.receive] using htask)]
          exact hothers
        . rfl

theorem replicateTo {answer : Answer} {targets : List PeerId} {reply : Ticket} (hreply : reply ≠ r)
    (h : ∀ i < targets.length, ¬ s.Holds r .replicate (answer.ids i)) :
    SameFor r s (s.replicateTo answer targets reply) := by
  have hfold (ids : List Nat) (u : EventLoop) (hids : ∀ id ∈ ids, ¬ u.Holds r .replicate id) :
      SameFor r u (ids.foldl (fun s id => s.insertPending .replicate id reply) u) := by
    induction ids generalizing u with
    | nil => exact .refl
    | cons id ids ih =>
      rw [List.forall_mem_cons] at hids
      have hfirst : SameFor r u (u.insertPending .replicate id reply) :=
        .insertPending hreply hids.1
      apply hfirst.trans
      apply ih
      intro id' hid'
      rw [hfirst.holds]
      apply hids.2 id' hid'
  unfold EventLoop.replicateTo
  split
  . exact .send hreply
  . have hids := hfold ((List.range targets.length).map answer.ids) s (by simpa using h)
    exact ⟨hids.holds, by rw [← hids.gathers]; simp [gathersOf, hreply], hids.sent⟩

/--
A command of somebody else's.
-/
theorem handleCommand {answer : Answer} {command : Command} (hticket : command.ticket ≠ some r)
    (h : ∀ q ∈ command.started answer s, ¬ s.Holds r q.1 q.2) :
    SameFor r s (s.handleCommand answer command) := by
  have hne {reply : Ticket} (heq : command.ticket = some reply) : reply ≠ r := by
    intro hreply
    rw [heq, hreply] at hticket
    exact hticket rfl
  cases command with
  | findProviders objectId reply => exact .insertPending (hne rfl) (h _ (List.mem_singleton_self _))
  | getRecord key reply => exact .insertPending (hne rfl) (h _ (List.mem_singleton_self _))
  | getObject peer objectId reply =>
    exact .insertPending (hne rfl) (h _ (List.mem_singleton_self _))
  | sendPairing peer request reply =>
    exact .insertPending (hne rfl) (h _ (List.mem_singleton_self _))
  | sendServeRegistration edge registration reply =>
    exact .insertPending (hne rfl) (h _ (List.mem_singleton_self _))
  | sendServeRequest peer request reply =>
    exact .insertPending (hne rfl) (h _ (List.mem_singleton_self _))
  | listPeers reply => exact .send (hne rfl)
  | putRecord key value reply =>
    simp only [EventLoop.handleCommand]
    split
    . next hrefusal =>
      apply SameFor.insertPending (hne rfl)
      apply h (.putRecord, answer.ids 0)
      simp [Command.started, hrefusal]
    . exact .send (hne rfl)
  | replicateObject peer bundle reply =>
    cases peer with
    | some peer =>
      simp only [EventLoop.handleCommand]
      split
      . next hpeer =>
        apply SameFor.replicateTo (hne rfl)
        intro i hi
        apply h (.replicate, answer.ids i)
        simp only [List.length_singleton] at hi
        simp [Command.started, hpeer, show i = 0 by omega]
      . exact .send (hne rfl)
    | none =>
      apply SameFor.replicateTo (hne rfl)
      intro i hi
      apply h (.replicate, answer.ids i)
      simp only [Command.started, List.mem_map, List.mem_range]
      exact ⟨i, hi, rfl⟩
  | setPeerMeta peer identity username displayName =>
    simp only [EventLoop.handleCommand, EventLoop.setPeerMeta]
    split
    . exact .refl
    . exact .of_eq rfl rfl rfl
  | subscribe topic reply =>
    simp only [EventLoop.handleCommand]
    split
    . have htopics : SameFor r s { s with topics := insert topic s.topics } := .of_eq rfl rfl rfl
      exact htopics.trans (.send (hne rfl))
    . exact .send (hne rfl)
  | unsubscribe topic => exact .of_eq rfl rfl rfl
  | publish topic data reply => exact .send (hne rfl)

/--
An event that is about none of the caller's queries and requests.
-/
theorem handleSwarmEvent {event : SwarmEvent} (h : ∀ t id, s.Holds r t id → ¬ event.Ends t id) :
    SameFor r s (s.handleSwarmEvent event) := by
  have hfree {t : Table} {id : Nat} (hends : event.Ends t id) : ¬ s.Holds r t id :=
    fun hholds => h t id hholds hends
  cases event with
  | connectionEstablished peer c =>
    simp only [EventLoop.handleSwarmEvent]
    split
    . exact .refl
    . split
      . exact .refl
      . exact .of_eq rfl rfl rfl
  | connectionClosed peer c => exact .of_eq rfl rfl rfl
  | identifyReceived peer addrs =>
    simp only [EventLoop.handleSwarmEvent]
    split
    . exact .refl
    . exact .of_eq rfl rfl rfl
  | getProviders id result =>
    cases result with
    | error e => exact .refl
    | ok result => exact .settle (hfree ⟨rfl, rfl⟩)
  | exchange id result =>
    simp only [EventLoop.handleSwarmEvent]
    split
    . exact .settleReplicate (hfree ⟨.inr rfl, rfl⟩)
    . exact .settle (hfree ⟨.inl rfl, rfl⟩)
  | putRecord id result => exact .settle (hfree ⟨rfl, rfl⟩)
  | getRecord id result => exact .settle (hfree ⟨rfl, rfl⟩)
  | pairing id result => exact .settle (hfree ⟨rfl, rfl⟩)
  | serve id result => exact .settle (hfree ⟨rfl, rfl⟩)
  | serveRegistry id result => exact .settle (hfree ⟨rfl, rfl⟩)

end SameFor

section Pending

variable {s : EventLoop}

theorem mem_pending_insertPending {t t' : Table} {id id' : Nat} {reply : Ticket} :
    id' ∈ (s.insertPending t id reply).pending t' ↔ t' = t ∧ id' = id ∨ id' ∈ s.pending t' := by
  rw [← AList.lookup_isSome, ← AList.lookup_isSome, lookup_insertPending]
  split
  . next h => simp [h]
  . next h => simp [h]

theorem mem_pending_of_settle {t t' : Table} {id id' : Nat} {value : Reply}
    (h : id' ∈ (s.settle t id value).pending t') : id' ∈ s.pending t' := by
  unfold settle at h
  split at h
  . exact h
  . rw [← AList.lookup_isSome] at h ⊢
    change ((s.removePending t id).pending t').lookup id' |>.isSome at h
    rw [lookup_removePending] at h
    split at h
    . cases h
    . exact h

theorem mem_pending_of_settleReplicate {t' : Table} {id id' : Nat} {verdict : Except String Unit}
    (h : id' ∈ (s.settleReplicate id verdict).pending t') : id' ∈ s.pending t' := by
  unfold settleReplicate at h
  split at h
  . exact h
  . have hremoved (h : id' ∈ (s.removePending .replicate id).pending t') : id' ∈ s.pending t' := by
      rw [← AList.lookup_isSome] at h ⊢
      rw [lookup_removePending] at h
      split at h
      . cases h
      . exact h
    dsimp only at h
    split at h
    . exact hremoved h
    . split at h
      . exact hremoved h
      . exact hremoved h

theorem mem_pending_of_replicateTo {answer : Answer} {targets : List PeerId} {reply : Ticket}
    {t' : Table} {id' : Nat} (h : id' ∈ (s.replicateTo answer targets reply).pending t') :
    (t' = .replicate ∧ ∃ i < targets.length, id' = answer.ids i) ∨ id' ∈ s.pending t' := by
  have hfold (ids : List Nat) (u : EventLoop)
      (h : id' ∈ (ids.foldl (fun s id => s.insertPending .replicate id reply) u).pending t') :
      (t' = .replicate ∧ id' ∈ ids) ∨ id' ∈ u.pending t' := by
    induction ids generalizing u with
    | nil => exact .inr h
    | cons id ids ih =>
      cases ih _ h with
      | inl h => exact .inl ⟨h.1, List.mem_cons_of_mem _ h.2⟩
      | inr h =>
        cases mem_pending_insertPending.mp h with
        | inl h => exact .inl ⟨h.1, by simp [h.2]⟩
        | inr h => exact .inr h
  unfold replicateTo at h
  split at h
  . exact .inr h
  . cases hfold _ s h with
    | inl h =>
      simp only [List.mem_map, List.mem_range] at h
      obtain ⟨ht, i, hi, hid⟩ := h
      exact .inl ⟨ht, i, hi, hid.symm⟩
    | inr h => exact .inr h

/--
The ids in the tables are those that were there and those that the command starts.
-/
theorem mem_pending_of_handleCommand {answer : Answer} {command : Command} {t' : Table} {id' : Nat}
    (h : id' ∈ (s.handleCommand answer command).pending t') :
    (t', id') ∈ command.started answer s ∨ id' ∈ s.pending t' := by
  have hinsert {t : Table} {reply : Ticket}
      (h : id' ∈ (s.insertPending t (answer.ids 0) reply).pending t') :
      (t', id') ∈ [(t, answer.ids 0)] ∨ id' ∈ s.pending t' := by
    simpa using mem_pending_insertPending.mp h
  cases command with
  | findProviders objectId reply => exact hinsert h
  | getRecord key reply => exact hinsert h
  | getObject peer objectId reply => exact hinsert h
  | sendPairing peer request reply => exact hinsert h
  | sendServeRegistration edge registration reply => exact hinsert h
  | sendServeRequest peer request reply => exact hinsert h
  | listPeers reply => exact .inr h
  | putRecord key value reply =>
    simp only [handleCommand] at h
    split at h
    . next hrefusal =>
      simp only [Command.started, hrefusal, Option.isNone_none, if_true]
      exact hinsert h
    . exact .inr h
  | replicateObject peer bundle reply =>
    cases peer with
    | some peer =>
      simp only [handleCommand] at h
      split at h
      . next hpeer =>
        cases mem_pending_of_replicateTo h with
        | inl h =>
          obtain ⟨ht, i, hi, hid⟩ := h
          simp only [List.length_singleton] at hi
          left
          simp [Command.started, hpeer, ht, hid, show i = 0 by omega]
        | inr h => exact .inr h
      . exact .inr h
    | none =>
      cases mem_pending_of_replicateTo h with
      | inl h =>
        obtain ⟨ht, i, hi, hid⟩ := h
        left
        simp only [Command.started, List.mem_map, List.mem_range]
        exact ⟨i, hi, by rw [ht, hid]⟩
      | inr h => exact .inr h
  | setPeerMeta peer identity username displayName =>
    simp only [handleCommand, setPeerMeta] at h
    split at h
    . exact .inr h
    . exact .inr h
  | subscribe topic reply =>
    simp only [handleCommand] at h
    split at h
    . exact .inr h
    . exact .inr h
  | unsubscribe topic => exact .inr h
  | publish topic data reply => exact .inr h

theorem mem_pending_of_handleSwarmEvent {event : SwarmEvent} {t' : Table} {id' : Nat}
    (h : id' ∈ (s.handleSwarmEvent event).pending t') : id' ∈ s.pending t' := by
  cases event with
  | connectionEstablished peer c =>
    simp only [handleSwarmEvent] at h
    split at h
    . exact h
    . split at h
      . exact h
      . exact h
  | connectionClosed peer c => exact h
  | identifyReceived peer addrs =>
    simp only [handleSwarmEvent] at h
    split at h
    . exact h
    . exact h
  | getProviders id result =>
    cases result with
    | error e => exact h
    | ok result => exact mem_pending_of_settle h
  | exchange id result =>
    simp only [handleSwarmEvent] at h
    split at h
    . exact mem_pending_of_settleReplicate h
    . exact mem_pending_of_settle h
  | putRecord id result => exact mem_pending_of_settle h
  | getRecord id result => exact mem_pending_of_settle h
  | pairing id result => exact mem_pending_of_settle h
  | serve id result => exact mem_pending_of_settle h
  | serveRegistry id result => exact mem_pending_of_settle h

end Pending

namespace Label

def ticket : Label → Option Ticket
  | command _ c => c.ticket
  | event _ => none

def started (s : EventLoop) : Label → List (Table × Nat)
  | command answer c => c.started answer s
  | event _ => []

end Label

/--
The ids that the swarm gives out in the run, each with the behaviour that it is an id of.
-/
def issued (s : EventLoop) : List Label → List (Behaviour × Nat)
  | [] => []
  | l :: ls => (l.started s).map (fun q => (q.1.behaviour, q.2)) ++ issued (step l s) ls

theorem issued_append (s : EventLoop) (ls ms : List Label) :
    issued s (ls ++ ms) = issued s ls ++ issued (Run.run step s ls) ms := by
  induction ls generalizing s with
  | nil => rfl
  | cons l ls ih => simp [issued, ih]

theorem not_started_of_issued {s : EventLoop} {l : Label} {ls : List Label} {t : Table} {id : Nat}
    (h : (t.behaviour, id) ∉ issued s (l :: ls)) : (t, id) ∉ l.started s := by
  intro hstarted
  apply h
  apply List.mem_append_left
  exact List.mem_map_of_mem hstarted

/--
Nothing that is pending belongs to the caller, who has got these replies.
-/
structure Settled (r : Ticket) (replies : List (Ticket × Reply)) (s : EventLoop) : Prop where
  holds : ∀ t id, ¬ s.Holds r t id
  gathers : s.gathersOf r = []
  sent : s.sentTo r = replies

namespace Settled

variable {r : Ticket} {replies : List (Ticket × Reply)} {s u : EventLoop}

theorem of_sameFor (hsame : SameFor r s u) (h : Settled r replies s) : Settled r replies u where
  holds t id := by
    rw [hsame.holds]
    apply h.holds
  gathers := by rw [hsame.gathers, h.gathers]
  sent := by rw [hsame.sent, h.sent]

theorem step {l : Label} (hticket : l.ticket ≠ some r) (h : Settled r replies s) :
    Settled r replies (step l s) := by
  cases l with
  | command answer c =>
    apply h.of_sameFor
    apply SameFor.handleCommand hticket
    intro q _
    apply h.holds
  | event e =>
    apply h.of_sameFor
    apply SameFor.handleSwarmEvent
    intro t id hholds
    exact absurd hholds (h.holds t id)

theorem run {ls : List Label} (hticket : ∀ l ∈ ls, l.ticket ≠ some r) (h : Settled r replies s) :
    Settled r replies (Run.run EventLoop.step s ls) := by
  have halong : Run.Along EventLoop.step (fun l _ => l.ticket ≠ some r) s ls := by
    apply Run.along_of_forall
    intro l hl _
    apply hticket l hl
  apply halong.invariant h
  intro l t hl ht
  apply ht.step hl

end Settled

theorem absent_run {s : EventLoop} {ls : List Label} {t : Table} {id : Nat} (h : id ∉ s.pending t)
    (hissued : (t.behaviour, id) ∉ issued s ls) : id ∉ (Run.run step s ls).pending t := by
  induction ls generalizing s with
  | nil => exact h
  | cons l ls ih =>
    apply ih
    . intro hmem
      cases l with
      | command answer c =>
        cases mem_pending_of_handleCommand hmem with
        | inl hstarted => exact not_started_of_issued hissued hstarted
        | inr hmem => exact h hmem
      | event e => exact h (mem_pending_of_handleSwarmEvent hmem)
    . intro hmem
      apply hissued
      apply List.mem_append_right _ hmem

/--
The caller waits for one query or request and has got nothing so far.
-/
structure Waiting (t : Table) (id : Nat) (r : Ticket) (s : EventLoop) : Prop where
  holds : ∀ t' id', s.Holds r t' id' ↔ t' = t ∧ id' = id
  gathers : s.gathersOf r = []
  sent : s.sentTo r = []

namespace Waiting

variable {t : Table} {id : Nat} {r : Ticket} {s u : EventLoop}

theorem of_sameFor (hsame : SameFor r s u) (h : Waiting t id r s) : Waiting t id r u where
  holds t' id' := by rw [hsame.holds, h.holds]
  gathers := by rw [hsame.gathers, h.gathers]
  sent := by rw [hsame.sent, h.sent]

theorem insertPending (h : Settled r [] s) : Waiting t id r (s.insertPending t id r) where
  holds t' id' := by
    rw [holds_insertPending]
    simp [h.holds]
  gathers := h.gathers
  sent := h.sent

theorem settle {value : Reply} (h : Waiting t id r s) :
    Settled r [(r, value)] (s.settle t id value) := by
  have hlookup : (s.pending t).lookup id = some r := (h.holds t id).mpr ⟨rfl, rfl⟩
  simp only [EventLoop.settle, hlookup]
  constructor
  . intro t' id' hholds
    obtain ⟨hne, hholds⟩ := (s.holds_removePending).mp hholds
    exact hne ((h.holds t' id').mp hholds)
  . exact h.gathers
  . have hsent := h.sent
    simp only [sentTo] at hsent
    simp [sentTo, send, EventLoop.removePending, hsent]

/--
An event of the caller's query settles it, unless it is the failure of a search for providers.
-/
theorem event {e : SwarmEvent} (ht : t ≠ .replicate)
    (hforeign : id ∉ s.pending .replicate ∨ t ≠ .getObject) (hends : e.Ends t id)
    (h : Waiting t id r s) :
    match e.outcome t with
    | some value => Settled r [(r, value)] (s.handleSwarmEvent e)
    | none => Waiting t id r (s.handleSwarmEvent e) := by
  cases e with
  | connectionEstablished peer c => cases hends
  | connectionClosed peer c => cases hends
  | identifyReceived peer addrs => cases hends
  | getProviders i result =>
    obtain ⟨rfl, rfl⟩ := hends
    cases result with
    | error e => exact h
    | ok result => exact h.settle
  | exchange i result =>
    obtain ⟨ht', rfl⟩ := hends
    obtain rfl : t = .getObject := ht'.resolve_right ht
    have hforeign := hforeign.resolve_right (by simp)
    simp only [handleSwarmEvent, if_neg hforeign]
    exact h.settle
  | putRecord i result =>
    obtain ⟨rfl, rfl⟩ := hends
    exact h.settle
  | getRecord i result =>
    obtain ⟨rfl, rfl⟩ := hends
    exact h.settle
  | pairing i result =>
    obtain ⟨rfl, rfl⟩ := hends
    exact h.settle
  | serve i result =>
    obtain ⟨rfl, rfl⟩ := hends
    exact h.settle
  | serveRegistry i result =>
    obtain ⟨rfl, rfl⟩ := hends
    exact h.settle

end Waiting

/--
Among these labels is an event of the query or request, with this outcome.
-/
def Yields (ls : List Label) (t : Table) (id : Nat) (value : Reply) : Prop :=
  ∃ e, .event e ∈ ls ∧ e.Ends t id ∧ e.outcome t = some value

theorem Yields.cons {ls : List Label} {t : Table} {id : Nat} {value : Reply} (l : Label)
    (h : Yields ls t id value) : Yields (l :: ls) t id value := by
  obtain ⟨e, he, hends, houtcome⟩ := h
  exact ⟨e, List.mem_cons_of_mem _ he, hends, houtcome⟩

theorem Waiting.command {t : Table} {id : Nat} {r : Ticket} {s : EventLoop} {answer : Answer}
    {c : Command} (hticket : c.ticket ≠ some r) (hstarted : (t, id) ∉ c.started answer s)
    (h : Waiting t id r s) : Waiting t id r (s.handleCommand answer c) := by
  apply h.of_sameFor
  apply SameFor.handleCommand hticket
  intro q hq hholds
  obtain ⟨ht, hid⟩ := (h.holds q.1 q.2).mp hholds
  apply hstarted
  rw [← ht, ← hid]
  exact hq

/--
A caller that waits for one query or request goes on waiting until one of its events has an outcome,
and that is what it gets.
-/
theorem Waiting.run {t : Table} {id : Nat} {r : Ticket} {s : EventLoop} {ls : List Label}
    (ht : t ≠ .replicate) (hforeign : id ∉ s.pending .replicate ∨ t ≠ .getObject)
    (hticket : ∀ l ∈ ls, l.ticket ≠ some r) (hissued : (t.behaviour, id) ∉ issued s ls)
    (h : Waiting t id r s) :
    (Waiting t id r (Run.run step s ls) ∧ ∀ value, ¬ Yields ls t id value) ∨
      ∃ value, Settled r [(r, value)] (Run.run step s ls) ∧ Yields ls t id value := by
  induction ls generalizing s with
  | nil =>
    left
    refine ⟨h, ?_⟩
    intro value ⟨e, he, _⟩
    cases he
  | cons l ls ih =>
    rw [List.forall_mem_cons] at hticket
    have hforeign' : id ∉ (step l s).pending .replicate ∨ t ≠ .getObject := by
      cases hforeign with
      | inr hne => exact .inr hne
      | inl habsent =>
        by_cases hne : t = .getObject
        . left
          subst hne
          apply @absent_run s [l] .replicate id habsent
          intro hmem
          apply hissued
          simp only [issued, List.append_nil] at hmem
          apply List.mem_append_left _ hmem
        . exact .inr hne
    have hissued' : (t.behaviour, id) ∉ issued (step l s) ls :=
      fun hmem => hissued (List.mem_append_right _ hmem)
    have hgoes (hwaiting : Waiting t id r (step l s)) (hsilent : ∀ value, ¬ Yields [l] t id value) :
        (Waiting t id r (Run.run step s (l :: ls)) ∧ ∀ value, ¬ Yields (l :: ls) t id value) ∨
          ∃ value, Settled r [(r, value)] (Run.run step s (l :: ls)) ∧
            Yields (l :: ls) t id value := by
      cases ih hforeign' hticket.2 hissued' hwaiting with
      | inl hrest =>
        left
        refine ⟨hrest.1, ?_⟩
        intro value ⟨e, he, hyields⟩
        cases List.mem_cons.mp he with
        | inl he => exact hsilent value ⟨e, by simp [he], hyields⟩
        | inr he => exact hrest.2 value ⟨e, he, hyields⟩
      | inr hrest =>
        right
        obtain ⟨value, hsettled, hyields⟩ := hrest
        exact ⟨value, hsettled, hyields.cons l⟩
    cases l with
    | command answer c =>
      apply hgoes (h.command hticket.1 (not_started_of_issued hissued))
      intro value ⟨e, he, _⟩
      simp at he
    | event e =>
      by_cases hends : e.Ends t id
      . have hevent := h.event ht hforeign hends
        cases houtcome : e.outcome t with
        | none =>
          rw [houtcome] at hevent
          apply hgoes hevent
          intro value ⟨e', he', _, hvalue⟩
          obtain rfl : e' = e := by simpa using he'
          rw [houtcome] at hvalue
          cases hvalue
        | some value =>
          rw [houtcome] at hevent
          have hsettled := hevent.run hticket.2
          right
          exact ⟨value, hsettled, e, by simp, hends, houtcome⟩
      . apply hgoes
        . apply h.of_sameFor
          apply SameFor.handleSwarmEvent
          intro t' id' hholds
          rw [h.holds] at hholds
          rw [hholds.1, hholds.2]
          exact hends
        . intro value ⟨e', he', hends', _⟩
          obtain rfl : e' = e := by simpa using he'
          exact hends hends'

/--
The caller waits for the task that gathers the verdicts on these requests, some of which it still
lacks.
-/
structure Gathering (ids : List Nat) (got : Nat → Option (Except String Unit)) (r : Ticket)
    (s : EventLoop) : Prop where
  gathers : s.gathersOf r = [⟨r, ids.map fun id => (id, got id)⟩]
  holds : ∀ t id, s.Holds r t id ↔ t = .replicate ∧ id ∈ ids ∧ got id = none
  sent : s.sentTo r = []
  lacks : ∃ id ∈ ids, got id = none

theorem mapM_verdicts (ids : List Nat) (got : Nat → Option (Except String Unit)) :
    (ids.map fun id => (id, got id)).mapM Prod.snd =
      if ∀ id ∈ ids, got id ≠ none then some (ids.filterMap got) else none := by
  induction ids with
  | nil => rfl
  | cons id ids ih =>
    rw [List.map_cons, List.mapM_cons, ih]
    cases hid : got id with
    | none => simp [hid]
    | some v =>
      by_cases hids : ∀ id ∈ ids, got id ≠ none
      . rw [if_pos hids, if_pos (by simpa [hid] using hids)]
        simp [hid]
      . rw [if_neg hids, if_neg (by simpa [hid] using hids)]
        rfl

namespace Gathering

variable {ids : List Nat} {got : Nat → Option (Except String Unit)} {r : Ticket} {s u : EventLoop}

theorem of_sameFor (hsame : SameFor r s u) (h : Gathering ids got r s) : Gathering ids got r u where
  gathers := by rw [hsame.gathers, h.gathers]
  holds t id := by rw [hsame.holds, h.holds]
  sent := by rw [hsame.sent, h.sent]
  lacks := h.lacks

theorem replicateTo {answer : Answer} {targets : List PeerId} (hne : targets ≠ [])
    (h : Settled r [] s) :
    Gathering ((List.range targets.length).map answer.ids) (fun _ => none) r
      (s.replicateTo answer targets r) := by
  have hfold (ids : List Nat) (u : EventLoop) :
      (ids.foldl (fun s id => s.insertPending .replicate id r) u).gathers = u.gathers ∧
        (ids.foldl (fun s id => s.insertPending .replicate id r) u).sent = u.sent ∧
        ∀ t id, (ids.foldl (fun s id => s.insertPending .replicate id r) u).Holds r t id ↔
          t = .replicate ∧ id ∈ ids ∨ u.Holds r t id := by
    induction ids generalizing u with
    | nil => simp
    | cons id ids ih =>
      obtain ⟨hgathers, hsent, hholds⟩ := ih (u.insertPending .replicate id r)
      refine ⟨hgathers, hsent, ?_⟩
      intro t id'
      rw [List.foldl_cons, hholds, holds_insertPending, List.mem_cons]
      by_cases heq : t = .replicate ∧ id' = id
      . simp [heq]
      . rw [if_neg heq]
        tauto
  unfold EventLoop.replicateTo
  rw [if_neg (by simpa using hne)]
  obtain ⟨hgathers, hsent, hholds⟩ := hfold ((List.range targets.length).map answer.ids) s
  constructor
  . have hnone := h.gathers
    simp only [gathersOf] at hnone
    simp [gathersOf, hgathers, hnone, Function.comp_def]
  . intro t id
    refine (hholds t id).trans ?_
    simp [h.holds]
  . have hnone := h.sent
    simp only [sentTo] at hnone ⊢
    rw [hsent, hnone]
  . refine ⟨answer.ids 0, ?_, rfl⟩
    apply List.mem_map_of_mem
    rw [List.mem_range]
    exact List.length_pos_of_ne_nil hne

/--
A verdict that the task lacks.
-/
theorem verdict {id : Nat} {v : Except String Unit} (hid : id ∈ ids) (hgot : got id = none)
    (h : Gathering ids got r s) :
    if ∀ i ∈ ids, Function.update got id (some v) i ≠ none then
      Settled r [(r, .replicated (Runtime.replicateOutcome
        (ids.filterMap (Function.update got id (some v)))))] (s.settleReplicate id v)
    else
      Gathering ids (Function.update got id (some v)) r (s.settleReplicate id v) := by
  have hlookup : (s.pending .replicate).lookup id = some r := (h.holds _ _).mpr ⟨rfl, hid, hgot⟩
  have hfind : s.gathers.find? (·.reply = r) = some ⟨r, ids.map fun id => (id, got id)⟩ := by
    rw [← List.head?_filter]
    have hgathers := h.gathers
    rw [gathersOf] at hgathers
    rw [hgathers]
    rfl
  have hreceive : Gather.receive id v ⟨r, ids.map fun id => (id, got id)⟩ =
      ⟨r, ids.map fun i => (i, Function.update got id (some v) i)⟩ := by
    simp only [Gather.receive, List.map_map, Gather.mk.injEq, true_and]
    apply List.map_congr_left
    intro i _
    by_cases hi : i = id
    . simp [hi]
    . simp [hi]
  have hothers : (s.gathers.filter (·.reply ≠ r)).filter (·.reply = r) = [] := by
    simp
  have hremoved (t : Table) (i : Nat) : (s.removePending .replicate id).Holds r t i ↔
      t = .replicate ∧ i ∈ ids ∧ Function.update got id (some v) i = none := by
    rw [holds_removePending, h.holds]
    by_cases hi : i = id
    . simp [hi]
      tauto
    . simp [hi]
  have hsent := h.sent
  rw [sentTo] at hsent
  simp only [settleReplicate, hlookup]
  have hfind' : (s.removePending .replicate id).gathers.find? (·.reply = r) =
    some ⟨r, ids.map fun id => (id, got id)⟩ := hfind
  simp only [hfind', hreceive, Gather.outcome, mapM_verdicts]
  split
  . next hall =>
    constructor
    . intro t i hholds
      have ⟨_, hi, hnone⟩ := (hremoved t i).mp hholds
      exact hall i hi hnone
    . exact hothers
    . simp [sentTo, send, EventLoop.removePending, hsent]
  . next hlacks =>
    simp only [Option.map_none]
    constructor
    . rw [gathersOf, List.filter_cons, if_pos (by simp)]
      exact congrArg _ hothers
    . apply hremoved
    . exact hsent
    . push Not at hlacks
      exact hlacks

theorem other {l : Label} (hticket : l.ticket ≠ some r)
    (hstarted : ∀ id ∈ ids, (.replicate, id) ∉ l.started s)
    (hevent : ∀ e, l = .event e → ∀ id ∈ ids, got id = none → ¬ e.Ends .replicate id)
    (h : Gathering ids got r s) : Gathering ids got r (step l s) := by
  cases l with
  | command answer c =>
    apply h.of_sameFor
    apply SameFor.handleCommand hticket
    intro q hq hholds
    obtain ⟨ht, hid, _⟩ := (h.holds q.1 q.2).mp hholds
    apply hstarted q.2 hid
    rw [← ht]
    exact hq
  | event e =>
    apply h.of_sameFor
    apply SameFor.handleSwarmEvent
    intro t id hholds
    obtain ⟨rfl, hid, hgot⟩ := (h.holds t id).mp hholds
    apply hevent e rfl id hid hgot

/--
A task that gathers verdicts goes on until it has one for each of its requests.
-/
theorem run {ls : List Label} (hticket : ∀ l ∈ ls, l.ticket ≠ some r)
    (hissued : ∀ id ∈ ids, (.objectExchange, id) ∉ issued s ls) (h : Gathering ids got r s) :
    (∃ got', Gathering ids got' r (Run.run step s ls) ∧
      ∀ id ∈ ids, got' id = none → got id = none ∧ ∀ e, .event e ∈ ls → ¬ e.Ends .replicate id) ∨
    ∃ got', (∀ id ∈ ids, ∃ v, got' id = some v ∧
        (got id = some v ∨ Yields ls .replicate id (.replicated v))) ∧
      Settled r [(r, .replicated (Runtime.replicateOutcome (ids.filterMap got')))]
        (Run.run step s ls) := by
  induction ls generalizing s got with
  | nil =>
    left
    refine ⟨got, h, ?_⟩
    intro id _ hgot
    refine ⟨hgot, ?_⟩
    intro e he
    cases he
  | cons l ls ih =>
    rw [List.forall_mem_cons] at hticket
    have hissued' : ∀ id ∈ ids, (.objectExchange, id) ∉ issued (step l s) ls :=
      fun id hid hmem => hissued id hid (List.mem_append_right _ hmem)
    by_cases hown : ∃ e, l = .event e ∧ ∃ id ∈ ids, got id = none ∧ e.Ends .replicate id
    . obtain ⟨e, rfl, id, hid, hgot, hends⟩ := hown
      obtain ⟨result, rfl⟩ : ∃ result, e = .exchange id result := by
        cases e with
        | exchange i result => exact ⟨result, by rw [hends.2]⟩
        | connectionEstablished peer c => cases hends
        | connectionClosed peer c => cases hends
        | identifyReceived peer addrs => cases hends
        | getProviders i result => cases hends.1
        | putRecord i result => cases hends.1
        | getRecord i result => cases hends.1
        | pairing i result => cases hends.1
        | serve i result => cases hends.1
        | serveRegistry i result => cases hends.1
      have hmem : id ∈ s.pending .replicate := by
        rw [← AList.lookup_isSome, (h.holds _ _).mpr ⟨rfl, hid, hgot⟩]
        rfl
      have hstep : step (.event (.exchange id result)) s =
          s.settleReplicate id (Runtime.storeOutcome result) := by
        simp only [step, handleSwarmEvent, if_pos hmem]
      have hyields : Yields (.event (.exchange id result) :: ls) .replicate id
          (.replicated (Runtime.storeOutcome result)) := ⟨_, List.mem_cons_self, hends, rfl⟩
      have hverdict := h.verdict (v := Runtime.storeOutcome result) hid hgot
      generalize hgot' : Function.update got id (some (Runtime.storeOutcome result)) = got'
        at hverdict
      -- what the task has now it had before, or it is this verdict
      have hold {i : Nat} {v : Except String Unit} (hi : got' i = some v) : got i = some v ∨
          Yields (.event (.exchange id result) :: ls) .replicate i (.replicated v) := by
        rw [← hgot', Function.update_apply] at hi
        split at hi
        . next heq =>
          cases hi
          rw [heq]
          exact .inr hyields
        . exact .inl hi
      rw [← hstep] at hverdict
      split at hverdict
      . next hall =>
        have hsettled := hverdict.run hticket.2
        right
        refine ⟨got', ?_, hsettled⟩
        intro i hi
        obtain ⟨v, hv⟩ := Option.ne_none_iff_exists'.mp (hall i hi)
        exact ⟨v, hv, hold hv⟩
      . cases ih hticket.2 hissued' hverdict with
        | inl hrest =>
          obtain ⟨last, hlast, hlacks⟩ := hrest
          left
          refine ⟨last, hlast, ?_⟩
          intro i hi hnone
          obtain ⟨hnone', hsilent⟩ := hlacks i hi hnone
          rw [← hgot', Function.update_apply] at hnone'
          split at hnone'
          . cases hnone'
          . next hne =>
            refine ⟨hnone', ?_⟩
            intro e he hends'
            cases List.mem_cons.mp he with
            | inl he =>
              cases he
              exact hne hends'.2.symm
            | inr he => exact hsilent e he hends'
        | inr hrest =>
          obtain ⟨last, hlast, hsettled⟩ := hrest
          right
          refine ⟨last, ?_, hsettled⟩
          intro i hi
          obtain ⟨v, hv, hor⟩ := hlast i hi
          refine ⟨v, hv, ?_⟩
          cases hor with
          | inl hor => exact hold hor
          | inr hor => exact .inr (hor.cons _)
    . have hnext : Gathering ids got r (step l s) := by
        apply h.other hticket.1
        . intro id hid hstarted
          apply not_started_of_issued (hissued id hid) hstarted
        . intro e hl id hid hgot hends
          exact hown ⟨e, hl, id, hid, hgot, hends⟩
      cases ih hticket.2 hissued' hnext with
      | inl hrest =>
        obtain ⟨last, hlast, hlacks⟩ := hrest
        left
        refine ⟨last, hlast, ?_⟩
        intro i hi hnone
        obtain ⟨hgot, hsilent⟩ := hlacks i hi hnone
        refine ⟨hgot, ?_⟩
        intro e he hends
        cases List.mem_cons.mp he with
        | inl he => exact hown ⟨e, he.symm, i, hi, hgot, hends⟩
        | inr he => exact hsilent e he hends
      | inr hrest =>
        obtain ⟨last, hlast, hsettled⟩ := hrest
        right
        refine ⟨last, ?_, hsettled⟩
        intro i hi
        obtain ⟨v, hv, hor⟩ := hlast i hi
        refine ⟨v, hv, ?_⟩
        cases hor with
        | inl hor => exact .inl hor
        | inr hor => exact .inr (hor.cons _)

end Gathering

/--
The reply follows from what happened to the caller's own queries and requests among these labels.
-/
def Own (answer : Answer) (c : Command) (s : EventLoop) (after : List Label) (reply : Reply) :
    Prop :=
  ∃ outcomes, List.Forall₂ (fun q outcome => Yields after q.1 q.2 outcome) (c.started answer s)
    outcomes ∧ c.outcome answer outcomes = some reply

theorem Waiting.answered {t : Table} {id : Nat} {r : Ticket} {s : EventLoop} {ls : List Label}
    (ht : t ≠ .replicate) (hforeign : id ∉ s.pending .replicate ∨ t ≠ .getObject)
    (hticket : ∀ l ∈ ls, l.ticket ≠ some r) (hissued : (t.behaviour, id) ∉ issued s ls)
    (hyields : ∃ value, Yields ls t id value) (h : Waiting t id r s) :
    ∃ value, Settled r [(r, value)] (Run.run step s ls) ∧ Yields ls t id value := by
  obtain ⟨value, hvalue⟩ := hyields
  cases h.run ht hforeign hticket hissued with
  | inl hwaiting => exact absurd hvalue (hwaiting.2 value)
  | inr hsettled => exact hsettled

theorem Gathering.answered {ids : List Nat} {r : Ticket} {s : EventLoop} {ls : List Label}
    (hticket : ∀ l ∈ ls, l.ticket ≠ some r)
    (hissued : ∀ id ∈ ids, (.objectExchange, id) ∉ issued s ls)
    (hyields : ∀ id ∈ ids, ∃ value, Yields ls .replicate id value)
    (h : Gathering ids (fun _ => none) r s) :
    ∃ verdicts, List.Forall₂ (fun id v => Yields ls .replicate id (.replicated v)) ids verdicts ∧
      Settled r [(r, .replicated (Runtime.replicateOutcome verdicts))] (Run.run step s ls) := by
  cases h.run hticket hissued with
  | inl hrest =>
    obtain ⟨got, hgathering, hsilent⟩ := hrest
    obtain ⟨id, hid, hgot⟩ := hgathering.lacks
    obtain ⟨value, e, he, hends, _⟩ := hyields id hid
    exact absurd hends ((hsilent id hid hgot).2 e he)
  | inr hrest =>
    obtain ⟨got, hgot, hsettled⟩ := hrest
    refine ⟨ids.filterMap got, ?_, hsettled⟩
    have hown : ∀ id ∈ ids, ∃ v, got id = some v ∧ Yields ls .replicate id (.replicated v) := by
      intro id hid
      obtain ⟨v, hv, hor⟩ := hgot id hid
      exact ⟨v, hv, hor.resolve_left (by simp)⟩
    clear hsettled hgot h hyields hissued
    induction ids with
    | nil => exact .nil
    | cons id ids ih =>
      rw [List.forall_mem_cons] at hown
      obtain ⟨v, hv, hyields⟩ := hown.1
      rw [List.filterMap_cons, hv]
      exact .cons hyields (ih hown.2)

section Answered

variable {answer : Answer} {c : Command} {r : Ticket} {s : EventLoop} {after : List Label}

theorem answered_single {t : Table} (ht : t ≠ .replicate)
    (hstarted : c.started answer s = [(t, answer.ids 0)])
    (hstep : step (.command answer c) s = s.insertPending t (answer.ids 0) r)
    (houtcome : ∀ outcome, c.outcome answer [outcome] = some outcome)
    (hforeign : (.getObject, answer.ids 0) ∈ c.started answer s →
      answer.ids 0 ∉ s.pending .replicate)
    (hs : Settled r [] s) (hticket : ∀ l ∈ after, l.ticket ≠ some r)
    (hissued : ∀ q ∈ c.started answer s,
      (q.1.behaviour, q.2) ∉ issued (step (.command answer c) s) after)
    (hyields : ∀ q ∈ c.started answer s, ∃ value, Yields after q.1 q.2 value) :
    ∃ reply, Own answer c s after reply ∧
      Settled r [(r, reply)] (Run.run step (step (.command answer c) s) after) := by
  rw [hstarted] at hforeign hissued hyields
  rw [hstep] at hissued ⊢
  have hforeign' : answer.ids 0 ∉ (s.insertPending t (answer.ids 0) r).pending .replicate ∨
      t ≠ .getObject := by
    by_cases hobject : t = .getObject
    . left
      rw [mem_pending_insertPending, hobject]
      simpa [hobject] using hforeign
    . exact .inr hobject
  have hwaiting : Waiting t (answer.ids 0) r (s.insertPending t (answer.ids 0) r) :=
    .insertPending hs
  obtain ⟨value, hsettled, hvalue⟩ := hwaiting.answered ht hforeign' hticket
    (hissued _ (List.mem_singleton_self _)) (hyields _ (List.mem_singleton_self _))
  refine ⟨value, ⟨[value], ?_, houtcome value⟩, hsettled⟩
  rw [hstarted]
  exact .cons hvalue .nil

theorem answered_at_once {reply : Reply} (hstarted : c.started answer s = [])
    (hstep : step (.command answer c) s = s.send r reply)
    (houtcome : c.outcome answer [] = some reply) (hs : Settled r [] s)
    (hticket : ∀ l ∈ after, l.ticket ≠ some r) :
    ∃ reply, Own answer c s after reply ∧
      Settled r [(r, reply)] (Run.run step (step (.command answer c) s) after) := by
  have hsettled : Settled r [(r, reply)] (s.send r reply) := by
    constructor
    . exact hs.holds
    . exact hs.gathers
    . have hsent := hs.sent
      rw [sentTo] at hsent
      simp [sentTo, send, hsent]
  refine ⟨reply, ⟨[], ?_, houtcome⟩, ?_⟩
  . rw [hstarted]
    exact .nil
  . rw [hstep]
    exact hsettled.run hticket

theorem answered_replicate {peer : Option PeerId} {bundle : ExportBundle} {targets : List PeerId}
    (htargets : targets ≠ [])
    (hstarted : Command.started answer s (.replicateObject peer bundle r) =
      (List.range targets.length).map fun i => (.replicate, answer.ids i))
    (hstep : step (.command answer (.replicateObject peer bundle r)) s =
      s.replicateTo answer targets r)
    (hs : Settled r [] s) (hticket : ∀ l ∈ after, l.ticket ≠ some r)
    (hissued : ∀ q ∈ Command.started answer s (.replicateObject peer bundle r),
      (q.1.behaviour, q.2) ∉ issued (s.replicateTo answer targets r) after)
    (hyields : ∀ q ∈ Command.started answer s (.replicateObject peer bundle r),
      ∃ value, Yields after q.1 q.2 value) :
    ∃ reply, Own answer (.replicateObject peer bundle r) s after reply ∧
      Settled r [(r, reply)]
        (Run.run step (step (.command answer (.replicateObject peer bundle r)) s) after) := by
  have hids {id : Nat} (hid : id ∈ (List.range targets.length).map answer.ids) :
      (.replicate, id) ∈ Command.started answer s (.replicateObject peer bundle r) := by
    rw [hstarted]
    simpa using hid
  have hgathering : Gathering _ _ r (s.replicateTo answer targets r) :=
    Gathering.replicateTo htargets hs
  obtain ⟨verdicts, hverdicts, hsettled⟩ := hgathering.answered hticket
    (fun id hid => hissued _ (hids hid)) (fun id hid => hyields _ (hids hid))
  rw [hstep]
  refine ⟨_, ⟨verdicts.map .replicated, ?_, ?_⟩, hsettled⟩
  . rw [hstarted, List.forall₂_map_left_iff, List.forall₂_map_right_iff]
    rw [List.forall₂_map_left_iff] at hverdicts
    exact hverdicts
  . have hlength : verdicts ≠ [] := by
      intro hnil
      have := hverdicts.length_eq
      simp [hnil, htargets] at this
    have hall : (verdicts.map Reply.replicated).filterMap (fun
        | .replicated verdict => some verdict
        | _ => none) = verdicts := by
      simp [List.filterMap_map]
    cases verdicts with
    | nil => exact absurd rfl hlength
    | cons v verdicts =>
      cases peer with
      | none => simp only [Command.outcome, hall]
      | some peer =>
        rw [List.map_cons] at hall ⊢
        simp only [Command.outcome, hall]

/--
A request whose queries all have an outcome is answered once, by them.
-/
theorem answered (hrequest : c.request = some r) (hs : Settled r [] s)
    (hforeign : (.getObject, answer.ids 0) ∈ c.started answer s →
      answer.ids 0 ∉ s.pending .replicate)
    (hticket : ∀ l ∈ after, l.ticket ≠ some r)
    (hissued : ∀ q ∈ c.started answer s,
      (q.1.behaviour, q.2) ∉ issued (step (.command answer c) s) after)
    (hyields : ∀ q ∈ c.started answer s, ∃ value, Yields after q.1 q.2 value) :
    ∃ reply, Own answer c s after reply ∧
      Settled r [(r, reply)] (Run.run step (step (.command answer c) s) after) := by
  cases c with
  | listPeers reply => cases hrequest
  | setPeerMeta peer identity username displayName => cases hrequest
  | subscribe topic reply => cases hrequest
  | unsubscribe topic => cases hrequest
  | publish topic data reply => cases hrequest
  | findProviders objectId reply =>
    cases hrequest
    apply answered_single _ rfl rfl (fun _ => rfl) hforeign hs hticket hissued hyields
    simp
  | getRecord key reply =>
    cases hrequest
    apply answered_single _ rfl rfl (fun _ => rfl) hforeign hs hticket hissued hyields
    simp
  | getObject peer objectId reply =>
    cases hrequest
    apply answered_single _ rfl rfl (fun _ => rfl) hforeign hs hticket hissued hyields
    simp
  | sendPairing peer request reply =>
    cases hrequest
    apply answered_single _ rfl rfl (fun _ => rfl) hforeign hs hticket hissued hyields
    simp
  | sendServeRegistration edge registration reply =>
    cases hrequest
    apply answered_single _ rfl rfl (fun _ => rfl) hforeign hs hticket hissued hyields
    simp
  | sendServeRequest peer request reply =>
    cases hrequest
    apply answered_single _ rfl rfl (fun _ => rfl) hforeign hs hticket hissued hyields
    simp
  | putRecord key value reply =>
    cases hrequest
    cases hrefusal : answer.refusal with
    | none =>
      apply answered_single (t := .putRecord) _ _ _ (fun _ => rfl) hforeign hs hticket hissued
        hyields
      . simp
      . simp [Command.started, hrefusal]
      . simp [step, handleCommand, hrefusal]
    | some e =>
      have houtcome : Command.outcome answer (.putRecord key value r) [] =
          some (.putRecord (.error ("Failed to put record: " ++ e))) := by
        simp [Command.outcome, hrefusal]
      apply answered_at_once _ _ houtcome hs hticket
      . simp [Command.started, hrefusal]
      . simp [step, handleCommand, hrefusal]
  | replicateObject peer bundle reply =>
    cases hrequest
    cases peer with
    | some peer =>
      by_cases hpeer : peer ∈ s.peers
      . have hstep : step (.command answer (.replicateObject (some peer) bundle r)) s =
            s.replicateTo answer [peer] r := by
          simp [step, handleCommand, hpeer]
        apply answered_replicate (List.cons_ne_nil peer []) _ hstep hs hticket _ hyields
        . simp [Command.started, hpeer, List.range_succ]
        . rw [← hstep]
          exact hissued
      . have houtcome : Command.outcome answer (.replicateObject (some peer) bundle r) [] =
            some (.replicated (.error ("peer " ++ peer.base58 ++ " is not connected"))) := rfl
        apply answered_at_once _ _ houtcome hs hticket
        . simp [Command.started, hpeer]
        . simp [step, handleCommand, hpeer]
    | none =>
      by_cases htargets : answer.iteration s.peers.keys = []
      . have houtcome : Command.outcome answer (.replicateObject none bundle r) [] =
            some (.replicated (.ok ())) := rfl
        apply answered_at_once _ _ houtcome hs hticket
        . simp [Command.started, htargets]
        . simp [step, handleCommand, replicateTo, htargets]
      . exact answered_replicate htargets rfl rfl hs hticket hissued hyields

end Answered

/--
What the callers and libp2p guarantee: every command comes with a channel of its own, and no id is
given out twice.
-/
structure Disciplined (localPeer : PeerId) (ls : List Label) : Prop where
  tickets : (ls.filterMap Label.ticket).Nodup
  ids : (issued (start localPeer) ls).Nodup

/--
Every request whose queries have all come to an end gets one reply, the outcome of its own queries,
and nothing of it stays in the tables.
-/
def AnsweredOnce (localPeer : PeerId) (ls : List Label) : Prop :=
  ∀ before after answer c r, ls = before ++ .command answer c :: after → c.request = some r →
    (∀ q ∈ c.started answer (Run.run step (start localPeer) before),
      ∃ e, .event e ∈ after ∧ e.Ends q.1 q.2) →
    ∃ reply, Own answer c (Run.run step (start localPeer) before) after reply ∧
      Settled r [(r, reply)] (Run.run step (start localPeer) ls)

/--
A search for providers that has come to an end has not only failed.
-/
def SearchesSucceed (ls : List Label) : Prop :=
  ∀ before after answer objectId r,
    ls = before ++ .command answer (.findProviders objectId r) :: after →
    (∃ e, .event (.getProviders (answer.ids 0) (.error e)) ∈ after) →
    ∃ result, .event (.getProviders (answer.ids 0) (.ok result)) ∈ after

theorem ticket_of_request {c : Command} {r : Ticket} (h : c.request = some r) :
    c.ticket = some r := by
  cases c with
  | listPeers reply => cases h
  | subscribe topic reply => cases h
  | publish topic data reply => cases h
  | _ => exact h

theorem started_getProviders {answer : Answer} {s : EventLoop} {c : Command} {r : Ticket} {id : Nat}
    (hrequest : c.request = some r) (h : (.getProviders, id) ∈ c.started answer s) :
    ∃ objectId, c = .findProviders objectId r ∧ id = answer.ids 0 := by
  cases c with
  | findProviders objectId reply =>
    cases hrequest
    simp only [Command.started, List.mem_singleton, Prod.mk.injEq, true_and] at h
    exact ⟨objectId, rfl, h⟩
  | putRecord key value reply =>
    simp only [Command.started] at h
    split at h
    . simp at h
    . cases h
  | replicateObject peer bundle reply =>
    cases peer with
    | none => simp [Command.started] at h
    | some peer =>
      simp only [Command.started] at h
      split at h
      . simp at h
      . cases h
  | _ => simp [Command.started] at h

/--
In a run like that a request whose queries all have an outcome is answered once, by them.
-/
theorem answered_of_disciplined {localPeer : PeerId} {ls before after : List Label} {answer : Answer}
    {c : Command} {r : Ticket} (h : Disciplined localPeer ls)
    (hls : ls = before ++ .command answer c :: after) (hrequest : c.request = some r)
    (hyields : ∀ q ∈ c.started answer (Run.run step (start localPeer) before),
      ∃ value, Yields after q.1 q.2 value) :
    ∃ reply, Own answer c (Run.run step (start localPeer) before) after reply ∧
      Settled r [(r, reply)] (Run.run step (start localPeer) ls) := by
  have hticket := h.tickets
  have hids := h.ids
  rw [hls] at hticket hids
  have hlabel : (Label.command answer c).ticket = some r := ticket_of_request hrequest
  rw [List.filterMap_append, List.filterMap_cons, hlabel, List.nodup_middle,
    List.nodup_cons] at hticket
  have hothers (l : Label) (hl : l ∈ before ∨ l ∈ after) : l.ticket ≠ some r := by
    intro heq
    apply hticket.1
    rw [← List.filterMap_append, List.mem_filterMap]
    exact ⟨l, List.mem_append.mpr hl, heq⟩
  rw [issued_append, issued, List.nodup_append] at hids
  obtain ⟨_, hids, hbefore⟩ := hids
  rw [List.nodup_append] at hids
  obtain ⟨_, _, hafter⟩ := hids
  have hkey {q : Table × Nat}
      (hq : q ∈ c.started answer (Run.run step (start localPeer) before)) :
      (q.1.behaviour, q.2) ∈ ((Label.command answer c).started
        (Run.run step (start localPeer) before)).map (fun q => (q.1.behaviour, q.2)) :=
    List.mem_map_of_mem hq
  have hfresh : Settled r [] (start localPeer) := by
    constructor
    . intro t id hholds
      cases hholds
    . rfl
    . rfl
  have hs := hfresh.run (fun l hl => hothers l (.inl hl))
  rw [hls, Run.run_append]
  apply answered hrequest hs
  . intro hobject
    apply absent_run
    . simp [start]
    . intro hmem
      exact hbefore _ hmem _ (List.mem_append_left _ (hkey hobject)) rfl
  . intro l hl
    apply hothers l (.inr hl)
  . intro q hq hmem
    exact hafter _ (hkey hq) _ hmem rfl
  . exact hyields

/--
Every request is answered exactly once just when no search for providers ends in failure.
-/
theorem answeredOnce_iff {localPeer : PeerId} {ls : List Label} (h : Disciplined localPeer ls) :
    AnsweredOnce localPeer ls ↔ SearchesSucceed ls := by
  constructor
  . intro hanswered before after answer objectId r hls ⟨text, herror⟩
    obtain ⟨reply, ⟨outcomes, houtcomes, _⟩, _⟩ := hanswered before after answer _ r hls rfl (by
      intro q hq
      obtain rfl := List.mem_singleton.mp hq
      exact ⟨_, herror, rfl, rfl⟩)
    cases houtcomes with
    | cons hyields hrest =>
      obtain ⟨e, he, hends, houtcome⟩ := hyields
      cases e with
      | getProviders i result =>
        obtain ⟨_, rfl⟩ := hends
        cases result with
        | ok result => exact ⟨result, he⟩
        | error e => cases houtcome
      | exchange i result => cases hends.1 with
        | inl h => cases h
        | inr h => cases h
      | connectionEstablished peer c => cases hends
      | connectionClosed peer c => cases hends
      | identifyReceived peer addrs => cases hends
      | putRecord i result => cases hends.1
      | getRecord i result => cases hends.1
      | pairing i result => cases hends.1
      | serve i result => cases hends.1
      | serveRegistry i result => cases hends.1
  . intro hsucceed before after answer c r hls hrequest hends
    apply answered_of_disciplined h hls hrequest
    intro q hq
    obtain ⟨e, he, hq'⟩ := hends q hq
    cases houtcome : e.outcome q.1 with
    | some value => exact ⟨value, e, he, hq', houtcome⟩
    | none =>
      -- a failed search for providers: then another event of the query is a success
      obtain ⟨text, ht, rfl⟩ := (SwarmEvent.outcome_eq_none_iff hq').mp houtcome
      have hstarted : (.getProviders, q.2) ∈
          c.started answer (Run.run step (start localPeer) before) := by
        rw [← ht]
        exact hq
      obtain ⟨objectId, rfl, hid⟩ := started_getProviders hrequest hstarted
      rw [hid] at he
      obtain ⟨result, hresult⟩ := hsucceed before after answer objectId r hls ⟨text, he⟩
      refine ⟨.providers result.providers, _, hresult, ⟨ht, hid.symm⟩, ?_⟩
      rw [ht]
      rfl

/--
A swarm that counts its ids up, and takes every record.
-/
def plainAnswer : Answer where
  ids i := i + 1
  refusal := none
  gossip := .ok ()
  iteration keys := keys
  iteration_perm keys := .refl keys

theorem answeredOnce_iff_search :
    AnsweredOnce ⟨"aa"⟩ [.command plainAnswer (.findProviders ⟨"00"⟩ 1),
        .event (.getProviders 1 (.ok (.foundProviders [⟨"bb"⟩])))] ↔
      SearchesSucceed [.command plainAnswer (.findProviders ⟨"00"⟩ 1),
        .event (.getProviders 1 (.ok (.foundProviders [⟨"bb"⟩])))] := by
  apply answeredOnce_iff
  constructor
  . decide
  . decide

section Counterexample

/--
A search for providers that times out.
-/
def timedOut : List Label :=
  [.command plainAnswer (.findProviders ⟨"00"⟩ 1), .event (.getProviders 1 (.error "timeout"))]

theorem timedOut_unanswered :
    Disciplined ⟨"aa"⟩ timedOut ∧
      (Run.run step (start ⟨"aa"⟩) timedOut).Holds 1 .getProviders 1 ∧
      (Run.run step (start ⟨"aa"⟩) timedOut).sentTo 1 = [] ∧
      ¬ AnsweredOnce ⟨"aa"⟩ timedOut := by
  have hholds : (Run.run step (start ⟨"aa"⟩) timedOut).Holds 1 .getProviders 1 := by
    unfold Holds
    decide
  refine ⟨⟨by decide, by decide⟩, hholds, rfl, ?_⟩
  intro h
  obtain ⟨reply, _, hsettled⟩ := h [] [.event (.getProviders 1 (.error "timeout"))] plainAnswer _ 1
    rfl rfl (by
      intro q hq
      obtain rfl := List.mem_singleton.mp hq
      exact ⟨_, List.mem_singleton_self _, rfl, rfl⟩)
  exact hsettled.holds .getProviders 1 hholds

end Counterexample

end EventLoop

end Canopee
