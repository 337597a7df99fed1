import Canopee.Lib.Run
import Canopee.Network.EventLoop
import Mathlib.Data.Finset.Basic

/-!
This module contains when the event loop's map of peers mirrors the open connections: when no
connection closes while another one to the same peer stays open.
-/

namespace Canopee

namespace EventLoop

/--
The steps from `s` to `t` have left the map of peers alone.
-/
structure SamePeers (s t : EventLoop) : Prop where
  localPeer : t.localPeer = s.localPeer
  peers : t.peers = s.peers

namespace SamePeers

variable (s : EventLoop)

theorem send (reply : Ticket) (value : Reply) : SamePeers s (s.send reply value) := ⟨rfl, rfl⟩

theorem settle (t : Table) (id : Nat) (value : Reply) : SamePeers s (s.settle t id value) := by
  unfold EventLoop.settle
  split
  . exact ⟨rfl, rfl⟩
  . exact ⟨rfl, rfl⟩

theorem settleReplicate (id : Nat) (verdict : Except String Unit) :
    SamePeers s (s.settleReplicate id verdict) := by
  unfold EventLoop.settleReplicate
  split
  . exact ⟨rfl, rfl⟩
  . dsimp only
    split
    . exact ⟨rfl, rfl⟩
    . split
      . exact ⟨rfl, rfl⟩
      . exact ⟨rfl, rfl⟩

theorem replicateTo (answer : Answer) (targets : List PeerId) (reply : Ticket) :
    SamePeers s (s.replicateTo answer targets reply) := by
  have hfold (ids : List Nat) (u : EventLoop) :
      SamePeers u (ids.foldl (fun s id => s.insertPending .replicate id reply) u) := by
    induction ids generalizing u with
    | nil => exact ⟨rfl, rfl⟩
    | cons id ids ih =>
      have hids := ih (u.insertPending .replicate id reply)
      exact ⟨hids.localPeer, hids.peers⟩
  unfold EventLoop.replicateTo
  split
  . apply send
  . have hids := hfold ((List.range targets.length).map answer.ids) s
    exact ⟨hids.localPeer, hids.peers⟩

end SamePeers

variable (s : EventLoop)

theorem setPeerMeta_peers (peer : PeerId) (identity : Option IdentityId)
    (username displayName : Option String) :
    (s.setPeerMeta peer identity username displayName).localPeer = s.localPeer ∧
      ∀ p, p ∈ (s.setPeerMeta peer identity username displayName).peers ↔ p ∈ s.peers := by
  unfold setPeerMeta
  split
  . simp
  . next old hold =>
    have hpeer : peer ∈ s.peers := AList.lookup_isSome.mp (by simp [hold])
    refine ⟨rfl, ?_⟩
    intro p
    rw [AList.mem_insert]
    constructor
    . intro h
      cases h with
      | inl h =>
        rw [h]
        exact hpeer
      | inr h => exact h
    . intro h
      exact .inr h

theorem handleCommand_peers (answer : Answer) (command : Command) :
    (s.handleCommand answer command).localPeer = s.localPeer ∧
      ∀ p, p ∈ (s.handleCommand answer command).peers ↔ p ∈ s.peers := by
  have hsame {t : EventLoop} (h : SamePeers s t) :
      t.localPeer = s.localPeer ∧ ∀ p, p ∈ t.peers ↔ p ∈ s.peers := by
    rw [h.localPeer, h.peers]
    simp
  cases command with
  | putRecord key value reply =>
    simp only [handleCommand]
    split
    . simp [insertPending]
    . apply hsame (.send ..)
  | replicateObject peer bundle reply =>
    cases peer with
    | none => apply hsame (.replicateTo ..)
    | some peer =>
      simp only [handleCommand]
      split
      . apply hsame (.replicateTo ..)
      . apply hsame (.send ..)
  | setPeerMeta peer identity username displayName => apply setPeerMeta_peers
  | subscribe topic reply =>
    simp only [handleCommand]
    split
    . exact hsame ⟨rfl, rfl⟩
    . apply hsame (.send ..)
  | _ => exact hsame ⟨rfl, rfl⟩

def AboutConnection : SwarmEvent → Prop
  | .connectionEstablished _ _ => True
  | .connectionClosed _ _ => True
  | .identifyReceived _ _ => True
  | _ => False

theorem handleSwarmEvent_samePeers {event : SwarmEvent} (h : ¬ AboutConnection event) :
    SamePeers s (s.handleSwarmEvent event) := by
  cases event with
  | connectionEstablished peer c => exact absurd trivial h
  | connectionClosed peer c => exact absurd trivial h
  | identifyReceived peer addrs => exact absurd trivial h
  | getProviders id result =>
    cases result with
    | error e => exact ⟨rfl, rfl⟩
    | ok result => apply SamePeers.settle
  | exchange id result =>
    simp only [handleSwarmEvent]
    split
    . apply SamePeers.settleReplicate
    . apply SamePeers.settle
  | _ => apply SamePeers.settle

end EventLoop

/--
An event loop, with the connections that its swarm has open.
-/
structure Swarm where
  loop : EventLoop
  connections : Finset (PeerId × Nat)

namespace Swarm

def start (localPeer : PeerId) : Swarm where
  loop := .start localPeer
  connections := ∅

def step (l : EventLoop.Label) (s : Swarm) : Swarm where
  loop := s.loop.step l
  connections :=
    match l with
    | .event (.connectionEstablished peer c) => insert (peer, c) s.connections
    | .event (.connectionClosed peer c) => s.connections.erase (peer, c)
    | _ => s.connections

/--
What libp2p can report: connections have different ids, only an open connection is closed, and a
peer identifies itself on a connection.
-/
def Reportable : EventLoop.Label → Swarm → Prop
  | .event (.connectionEstablished peer c), s => (peer, c) ∉ s.connections
  | .event (.connectionClosed peer c), s => (peer, c) ∈ s.connections
  | .event (.identifyReceived peer _), s => ∃ c, (peer, c) ∈ s.connections
  | _, _ => True

def Connected (s : Swarm) (peer : PeerId) : Prop :=
  ∃ c, (peer, c) ∈ s.connections

/--
The map has the remote peers to which a connection is open, and no others.
-/
def Mirrors (s : Swarm) : Prop :=
  ∀ peer, peer ≠ s.loop.localPeer → (peer ∈ s.loop.peers ↔ s.Connected peer)

/--
A connection that closes is the last one to its peer.
-/
def ClosesLast : EventLoop.Label → Swarm → Prop
  | .event (.connectionClosed peer c), s =>
    peer ≠ s.loop.localPeer → ∀ d, (peer, d) ∈ s.connections → d = c
  | _, _ => True

variable {s : Swarm}

theorem mirrors_of_same {t : Swarm} (hlocal : t.loop.localPeer = s.loop.localPeer)
    (hpeers : ∀ p, p ∈ t.loop.peers ↔ p ∈ s.loop.peers)
    (hconnections : t.connections = s.connections) (h : s.Mirrors) : t.Mirrors := by
  intro peer hpeer
  rw [hlocal] at hpeer
  rw [hpeers, h peer hpeer, Connected, Connected, hconnections]

theorem mirrors_other {event : SwarmEvent} (hevent : ¬ EventLoop.AboutConnection event)
    (h : s.Mirrors) : (step (.event event) s).Mirrors := by
  have hsame := s.loop.handleSwarmEvent_samePeers hevent
  apply mirrors_of_same hsame.localPeer _ _ h
  . intro p
    rw [← hsame.peers]
    rfl
  . cases event with
    | connectionEstablished peer c => exact absurd trivial hevent
    | connectionClosed peer c => exact absurd trivial hevent
    | _ => rfl

theorem mirrors_established {peer : PeerId} {c : Nat} (h : s.Mirrors) :
    (step (.event (.connectionEstablished peer c)) s).Mirrors := by
  have hconnected (p : PeerId) :
      (step (.event (.connectionEstablished peer c)) s).Connected p ↔ p = peer ∨ s.Connected p := by
    simp only [Connected, step, Finset.mem_insert, Prod.mk.injEq]
    constructor
    . intro ⟨d, hd⟩
      cases hd with
      | inl hd => exact .inl hd.1
      | inr hd => exact .inr ⟨d, hd⟩
    . intro hp
      cases hp with
      | inl hp => exact ⟨c, .inl ⟨hp, rfl⟩⟩
      | inr hp =>
        obtain ⟨d, hd⟩ := hp
        exact ⟨d, .inr hd⟩
  intro p hp
  rw [hconnected]
  simp only [step, EventLoop.step, EventLoop.handleSwarmEvent] at hp ⊢
  split
  . next hlocal =>
    rw [if_pos hlocal] at hp
    have hne : p ≠ peer := by
      rw [hlocal]
      exact hp
    simp [hne, h p hp]
  . next hlocal =>
    rw [if_neg hlocal] at hp
    split
    . next hmem =>
      rw [if_pos hmem] at hp
      constructor
      . intro hpeers
        exact .inr ((h p hp).mp hpeers)
      . intro hor
        cases hor with
        | inl hor =>
          rw [hor]
          exact hmem
        | inr hor => exact (h p hp).mpr hor
    . next hmem =>
      rw [if_neg hmem] at hp
      rw [AList.mem_insert, h p hp]

theorem mirrors_identified {peer : PeerId} {addrs : List String}
    (hreported : ∃ c, (peer, c) ∈ s.connections) (h : s.Mirrors) :
    (step (.event (.identifyReceived peer addrs)) s).Mirrors := by
  intro p hp
  simp only [step, EventLoop.step, EventLoop.handleSwarmEvent, Connected] at hp ⊢
  split
  . next hlocal =>
    rw [if_pos hlocal] at hp
    apply h p hp
  . next hlocal =>
    rw [if_neg hlocal] at hp
    rw [AList.mem_insert, h p hp]
    constructor
    . intro hor
      cases hor with
      | inl hor =>
        rw [hor]
        exact hreported
      | inr hor => exact hor
    . intro hconnected
      exact .inr hconnected

theorem mirrors_closed_iff {peer : PeerId} {c : Nat} (h : s.Mirrors) :
    (step (.event (.connectionClosed peer c)) s).Mirrors ↔
      ClosesLast (.event (.connectionClosed peer c)) s := by
  have hconnected (p : PeerId) : (step (.event (.connectionClosed peer c)) s).Connected p ↔
      ∃ d, (p = peer → d ≠ c) ∧ (p, d) ∈ s.connections := by
    simp only [Connected, step, Finset.mem_erase, ne_eq, Prod.mk.injEq, not_and]
  constructor
  . intro hmirrors hpeer d hd
    by_contra hne
    have hopen := (hmirrors peer hpeer).mpr ((hconnected peer).mpr ⟨d, fun _ => hne, hd⟩)
    exact absurd hopen (by simp [step, EventLoop.step, EventLoop.handleSwarmEvent, AList.mem_erase])
  . intro hlast p hp
    rw [hconnected]
    simp only [step, EventLoop.step, EventLoop.handleSwarmEvent] at hp ⊢
    rw [AList.mem_erase, h p hp]
    constructor
    . intro ⟨hne, d, hd⟩
      exact ⟨d, fun heq => absurd heq hne, hd⟩
    . intro ⟨d, hd, hmem⟩
      refine ⟨?_, d, hmem⟩
      intro heq
      rw [heq] at hmem hp hd
      exact hd rfl (hlast hp d hmem)

theorem mirrors_step_iff {l : EventLoop.Label} (hreported : Reportable l s) (h : s.Mirrors) :
    (step l s).Mirrors ↔ ClosesLast l s := by
  have hkeeps (hlabel : ClosesLast l s) (hstep : (step l s).Mirrors) :
      (step l s).Mirrors ↔ ClosesLast l s := iff_of_true hstep hlabel
  cases l with
  | command answer command =>
    have ⟨hlocal, hpeers⟩ := s.loop.handleCommand_peers answer command
    apply hkeeps trivial
    exact mirrors_of_same hlocal hpeers rfl h
  | event event =>
    cases event with
    | connectionEstablished peer c => exact hkeeps trivial (mirrors_established h)
    | connectionClosed peer c => exact mirrors_closed_iff h
    | identifyReceived peer addrs => exact hkeeps trivial (mirrors_identified hreported h)
    | _ => exact hkeeps trivial (mirrors_other not_false h)

/--
In a run that libp2p can report the map mirrors the open connections all the time just when every
connection that closes is the last one to its peer.
-/
theorem connected_mirrors_iff {localPeer : PeerId} {ls : List EventLoop.Label}
    (hreported : Run.Along step Reportable (start localPeer) ls) :
    Run.Always step Mirrors (start localPeer) ls ↔
      Run.Along step ClosesLast (start localPeer) ls := by
  have hstart : (start localPeer).Mirrors := by
    intro peer _
    simp [start, EventLoop.start, Connected]
  rw [Run.always_iff, and_iff_right hstart]
  apply Run.along_iff hreported hstart
  . intro l t hl ht
    apply mirrors_step_iff hl ht
  . intro l t hl ht hlast
    apply (mirrors_step_iff hl ht).mpr hlast

def aa : PeerId := ⟨"aa"⟩

def bb : PeerId := ⟨"bb"⟩

/--
A peer connects, identifies itself and leaves.
-/
def visit : List EventLoop.Label :=
  [.event (.connectionEstablished bb 1), .event (.identifyReceived bb []),
    .event (.connectionClosed bb 1)]

theorem connected_mirrors_iff_visit :
    Run.Always step Mirrors (start aa) visit ↔ Run.Along step ClosesLast (start aa) visit := by
  apply connected_mirrors_iff
  simp only [visit, Run.along_cons, Reportable]
  refine ⟨?_, ⟨1, ?_⟩, ?_, trivial⟩
  . decide
  . decide
  . decide

section Counterexample

/--
A relayed connection, then a direct one, after which the relayed one closes.
-/
def upgraded : List EventLoop.Label :=
  [.event (.connectionEstablished bb 1), .event (.identifyReceived bb []),
    .event (.connectionEstablished bb 2), .event (.connectionClosed bb 1)]

theorem upgraded_unmirrored :
    Run.Along step Reportable (start aa) upgraded ∧
      (bb, 2) ∈ (Run.run step (start aa) upgraded).connections ∧
      bb ∉ (Run.run step (start aa) upgraded).loop.peers ∧
      ¬ Run.Always step Mirrors (start aa) upgraded := by
  have hreported : Run.Along step Reportable (start aa) upgraded := by
    simp only [upgraded, Run.along_cons, Reportable]
    refine ⟨?_, ⟨1, ?_⟩, ?_, ?_, trivial⟩
    . decide
    . decide
    . decide
    . decide
  have hopen : (bb, 2) ∈ (Run.run step (start aa) upgraded).connections := by decide
  have hmissing : bb ∉ (Run.run step (start aa) upgraded).loop.peers := by decide
  refine ⟨hreported, hopen, hmissing, ?_⟩
  intro h
  exact hmissing ((h.last bb (by decide)).mpr ⟨2, hopen⟩)

end Counterexample

end Swarm

end Canopee
