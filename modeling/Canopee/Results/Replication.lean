import Canopee.Results.Peers
import Canopee.Results.Replies

/-!
This module contains when the outcome of a replication says whether a connected peer has stored the
object: when no broadcast finds the map of peers empty while a connection is open.
-/

namespace Canopee

/--
The peers that a replication asks, each with the id of its request.
-/
def Command.asked (answer : Answer) (s : EventLoop) : Option PeerId → List (PeerId × Nat)
  | some peer => if peer ∈ s.peers then [(peer, answer.ids 0)] else []
  | none =>
    let targets := answer.iteration s.peers.keys
    targets.zip ((List.range targets.length).map answer.ids)

namespace EventLoop

section Verdicts

variable {answer : Answer} {s : EventLoop} {target : Option PeerId} {bundle : ExportBundle}
variable {r : Ticket} {after : List Label} {asked : List (PeerId × Nat)}

theorem started_replicateObject :
    Command.started answer s (.replicateObject target bundle r) =
      (Command.asked answer s target).map fun q => (.replicate, q.2) := by
  cases target with
  | some peer =>
    simp only [Command.started, Command.asked]
    split
    . rfl
    . rfl
  | none =>
    have hlength : ((List.range (answer.iteration s.peers.keys).length).map answer.ids).length ≤
        (answer.iteration s.peers.keys).length := by
      simp
    have hpairs (asked : List (PeerId × Nat)) : asked.map (fun q => (Table.replicate, q.2)) =
        (asked.map Prod.snd).map fun id => (Table.replicate, id) := by
      rw [List.map_map]
      rfl
    simp only [Command.started, Command.asked]
    rw [hpairs, List.map_snd_zip hlength, List.map_map]
    rfl

theorem storeOutcome_eq_ok {result : Except String ObjectResponse} :
    Runtime.storeOutcome result = .ok () ↔ result = .ok .stored := by
  cases result with
  | error e => simp [Runtime.storeOutcome]
  | ok response =>
    cases response with
    | object bundle => simp [Runtime.storeOutcome]
    | notFound => simp [Runtime.storeOutcome]
    | stored => simp [Runtime.storeOutcome]
    | storeFailed e => simp [Runtime.storeOutcome]

theorem replicateOutcome_eq_ok {verdicts : List (Except String Unit)} :
    Runtime.replicateOutcome verdicts = .ok () ↔ verdicts = [] ∨ .ok () ∈ verdicts := by
  have hany : verdicts.any (·.toBool) = true ↔ .ok () ∈ verdicts := by
    rw [List.any_eq_true]
    constructor
    . intro ⟨v, hv, htrue⟩
      cases v with
      | error e => cases htrue
      | ok u => exact hv
    . intro h
      exact ⟨.ok (), h, rfl⟩
  unfold Runtime.replicateOutcome
  split
  . next h => simp [hany.mp h]
  . next h =>
    rw [hany] at h
    cases verdicts with
    | nil => simp
    | cons v verdicts =>
      cases v with
      | error e => simpa using h
      | ok u => simp at h

/--
An outbound request ends once: with the response or with a failure.
-/
def EndsOnce (ls : List Label) : Prop :=
  ∀ id result result', .event (.exchange id result) ∈ ls → .event (.exchange id result') ∈ ls →
    result = result'

theorem verdicts_of_yields {outcomes : List Reply}
    (h : List.Forall₂ (fun q outcome => Yields after q.1 q.2 outcome)
      (asked.map fun q => (Table.replicate, q.2)) outcomes) :
    ∃ verdicts, outcomes = verdicts.map Reply.replicated ∧
      List.Forall₂ (fun q v => ∃ result, .event (.exchange q.2 result) ∈ after ∧
        v = Runtime.storeOutcome result) asked verdicts := by
  induction asked generalizing outcomes with
  | nil =>
    cases h
    exact ⟨[], rfl, .nil⟩
  | cons q asked ih =>
    cases h with
    | cons hyields hrest =>
      obtain ⟨e, he, hends, houtcome⟩ := hyields
      obtain ⟨verdicts, hverdicts, hall⟩ := ih hrest
      cases e with
      | exchange i result =>
        obtain ⟨_, rfl⟩ := hends
        cases houtcome
        exact ⟨Runtime.storeOutcome result :: verdicts, by rw [hverdicts]; rfl,
          .cons ⟨result, he, rfl⟩ hall⟩
      | connectionEstablished peer c => cases hends
      | connectionClosed peer c => cases hends
      | identifyReceived peer addrs => cases hends
      | getProviders i result => cases hends.1
      | putRecord i result => cases hends.1
      | getRecord i result => cases hends.1
      | pairing i result => cases hends.1
      | serve i result => cases hends.1
      | serveRegistry i result => cases hends.1

theorem ok_mem_verdicts {verdicts : List (Except String Unit)} (honce : EndsOnce after)
    (h : List.Forall₂ (fun q v => ∃ result, .event (.exchange q.2 result) ∈ after ∧
      v = Runtime.storeOutcome result) asked verdicts) :
    .ok () ∈ verdicts ↔ ∃ q ∈ asked, .event (.exchange q.2 (.ok .stored)) ∈ after := by
  induction h with
  | nil => simp
  | @cons q v asked verdicts hv _ ih =>
    obtain ⟨result, hresult, rfl⟩ := hv
    rw [List.mem_cons, ih, List.exists_mem_cons_iff, eq_comm, storeOutcome_eq_ok]
    constructor
    . intro hor
      cases hor with
      | inl heq => exact .inl (heq ▸ hresult)
      | inr hrest => exact .inr hrest
    . intro hor
      cases hor with
      | inl hstored => exact .inl (honce _ _ _ hresult hstored)
      | inr hrest => exact .inr hrest

/--
What a replication returns: an error at once when its one target is not in the map, and otherwise a
success when it had nobody to ask or when one of those that it asked has stored the object.
-/
theorem replicated_iff (honce : EndsOnce after) {reply : Reply}
    (h : Own answer (.replicateObject target bundle r) s after reply) :
    reply = .replicated (.ok ()) ↔
      (target = none ∧ Command.asked answer s target = []) ∨
        ∃ q ∈ Command.asked answer s target, .event (.exchange q.2 (.ok .stored)) ∈ after := by
  obtain ⟨outcomes, hyields, houtcome⟩ := h
  rw [started_replicateObject] at hyields
  obtain ⟨verdicts, rfl, hverdicts⟩ := verdicts_of_yields hyields
  rw [← ok_mem_verdicts honce hverdicts]
  have hnil : Command.asked answer s target = [] ↔ verdicts = [] := by
    rw [← List.length_eq_zero_iff, hverdicts.length_eq, List.length_eq_zero_iff]
  rw [hnil]
  cases target with
  | none =>
    simp only [Command.outcome, List.filterMap_map, Function.comp_def, List.filterMap_some,
      Option.some.injEq] at houtcome
    rw [← houtcome, Reply.replicated.injEq, replicateOutcome_eq_ok, and_iff_right rfl]
  | some peer =>
    cases verdicts with
    | nil =>
      cases houtcome
      simp
    | cons v verdicts =>
      simp only [Command.outcome, List.map_cons, List.filterMap_cons, List.filterMap_map,
        Function.comp_def, List.filterMap_some, Option.some.injEq] at houtcome
      rw [← houtcome, Reply.replicated.injEq, replicateOutcome_eq_ok]
      simp

end Verdicts

end EventLoop

namespace Swarm

open EventLoop (Label Disciplined EndsOnce)

/--
A connection to `peer` is open, which is not the node itself.
-/
def Remote (s : Swarm) (peer : PeerId) : Prop :=
  peer ≠ s.loop.localPeer ∧ s.Connected peer

/--
Among these labels `peer` answers the request of this replication with `Stored`.
-/
def AnsweredStored (answer : Answer) (s : Swarm) (target : Option PeerId) (after : List Label)
    (peer : PeerId) : Prop :=
  ∃ id, (peer, id) ∈ Command.asked answer s.loop target ∧ .event (.exchange id (.ok .stored)) ∈ after

/--
When a replication is to return a success.
-/
def Documented (answer : Answer) (s : Swarm) (after : List Label) (ok : Prop) :
    Option PeerId → Prop
  | some peer => ok ↔ s.Remote peer ∧ s.AnsweredStored answer (some peer) after peer
  | none => (∃ peer, s.Remote peer) →
    (ok ↔ ∃ peer, s.Remote peer ∧ s.AnsweredStored answer none after peer)

/--
Every replication whose requests have come to an end returns a success when it is to.
-/
def Aggregates (localPeer : PeerId) (ls : List Label) : Prop :=
  ∀ before after answer target bundle r,
    ls = before ++ .command answer (.replicateObject target bundle r) :: after →
    (∀ q ∈ Command.asked answer (Run.run step (start localPeer) before).loop target,
      ∃ result, .event (.exchange q.2 result) ∈ after) →
    (Run.run step (start localPeer) before).Documented answer after
      ((Run.run step (start localPeer) ls).loop.sentTo r = [(r, .replicated (.ok ()))]) target

/--
A broadcast while a connection is open finds some peer in the map.
-/
def FindsSome : Label → Swarm → Prop
  | .command _ (.replicateObject none _ _), s =>
    (∃ peer, s.Remote peer) → ∃ peer, peer ∈ s.loop.peers
  | _, _ => True

section Steps

variable {s : Swarm} {localPeer : PeerId} {ls : List Label}

theorem run_loop (localPeer : PeerId) (ls : List Label) :
    (Run.run step (start localPeer) ls).loop =
      Run.run EventLoop.step (EventLoop.start localPeer) ls := by
  have hrun (s : Swarm) : (Run.run step s ls).loop = Run.run EventLoop.step s.loop ls := by
    induction ls generalizing s with
    | nil => rfl
    | cons l ls ih => exact ih (step l s)
  exact hrun (start localPeer)

/--
Only peers with an open connection are in the map.
-/
def Sound (s : Swarm) : Prop :=
  ∀ peer ∈ s.loop.peers, s.Remote peer

theorem sound_of_same {t : Swarm} (hlocal : t.loop.localPeer = s.loop.localPeer)
    (hpeers : ∀ p, p ∈ t.loop.peers ↔ p ∈ s.loop.peers)
    (hconnections : t.connections = s.connections) (h : s.Sound) : t.Sound := by
  intro peer hpeer
  have hremote := h peer ((hpeers peer).mp hpeer)
  unfold Remote Connected
  rw [hlocal, hconnections]
  exact hremote

theorem sound_established {peer : PeerId} {c : Nat} (h : s.Sound) :
    (step (.event (.connectionEstablished peer c)) s).Sound := by
  have hold {p : PeerId} (hp : s.Remote p) :
      ∃ d, (p, d) ∈ (step (.event (.connectionEstablished peer c)) s).connections := by
    obtain ⟨d, hd⟩ := hp.2
    exact ⟨d, Finset.mem_insert_of_mem hd⟩
  intro p hp
  simp only [step, EventLoop.step, EventLoop.handleSwarmEvent, Remote] at hp ⊢
  split
  . next hlocal =>
    rw [if_pos hlocal] at hp
    exact ⟨(h p hp).1, hold (h p hp)⟩
  . next hlocal =>
    rw [if_neg hlocal] at hp
    split
    . next hmem =>
      rw [if_pos hmem] at hp
      exact ⟨(h p hp).1, hold (h p hp)⟩
    . next hmem =>
      rw [if_neg hmem, AList.mem_insert] at hp
      cases hp with
      | inl hp =>
        rw [hp]
        exact ⟨hlocal, c, Finset.mem_insert_self _ _⟩
      | inr hp => exact ⟨(h p hp).1, hold (h p hp)⟩

theorem sound_closed {peer : PeerId} {c : Nat} (h : s.Sound) :
    (step (.event (.connectionClosed peer c)) s).Sound := by
  intro p hp
  simp only [step, EventLoop.step, EventLoop.handleSwarmEvent, AList.mem_erase] at hp
  obtain ⟨hne, d, hd⟩ := h p hp.2
  refine ⟨hne, d, Finset.mem_erase.mpr ⟨?_, hd⟩⟩
  intro heq
  exact hp.1 (congrArg Prod.fst heq)

theorem sound_identified {peer : PeerId} {addrs : List String}
    (hreported : ∃ c, (peer, c) ∈ s.connections) (h : s.Sound) :
    (step (.event (.identifyReceived peer addrs)) s).Sound := by
  intro p hp
  simp only [step, EventLoop.step, EventLoop.handleSwarmEvent, Remote, Connected] at hp ⊢
  split
  . next hlocal =>
    rw [if_pos hlocal] at hp
    exact h p hp
  . next hlocal =>
    rw [if_neg hlocal, AList.mem_insert] at hp
    cases hp with
    | inl hp =>
      rw [hp]
      exact ⟨hlocal, hreported⟩
    | inr hp => exact h p hp

theorem sound_step {l : Label} (hreported : Reportable l s) (h : s.Sound) : (step l s).Sound := by
  have hother {event : SwarmEvent} (hevent : ¬ EventLoop.AboutConnection event)
      (hconnections : (step (.event event) s).connections = s.connections) :
      (step (.event event) s).Sound := by
    have hsame := s.loop.handleSwarmEvent_samePeers hevent
    apply sound_of_same hsame.localPeer _ hconnections h
    intro p
    rw [← hsame.peers]
    rfl
  cases l with
  | command answer command =>
    have ⟨hlocal, hpeers⟩ := s.loop.handleCommand_peers answer command
    exact sound_of_same hlocal hpeers rfl h
  | event event =>
    cases event with
    | connectionEstablished peer c => exact sound_established h
    | connectionClosed peer c => exact sound_closed h
    | identifyReceived peer addrs => exact sound_identified hreported h
    | _ => exact hother not_false rfl

theorem sound_run (hreported : Run.Along step Reportable (start localPeer) ls) :
    (Run.run step (start localPeer) ls).Sound := by
  apply hreported.invariant
  . intro peer hpeer
    simp [start, EventLoop.start] at hpeer
  . intro l t hl ht
    exact sound_step hl ht

theorem mem_peers_of_asked {answer : Answer} {s : EventLoop} {target : Option PeerId}
    {q : PeerId × Nat} (h : q ∈ Command.asked answer s target) : q.1 ∈ s.peers := by
  cases target with
  | some peer =>
    simp only [Command.asked] at h
    split at h
    . next hpeer =>
      rw [List.mem_singleton] at h
      rw [h]
      exact hpeer
    . cases h
  | none =>
    have hmem := (List.of_mem_zip (show (q.1, q.2) ∈ _ from h)).1
    exact AList.mem_keys.mp ((answer.iteration_perm s.peers.keys).mem_iff.mp hmem)

theorem asked_none_eq_nil {answer : Answer} {s : EventLoop} :
    Command.asked answer s none = [] ↔ ∀ peer, peer ∉ s.peers := by
  have hkeys : answer.iteration s.peers.keys = [] ↔ s.peers.keys = [] := by
    rw [← List.length_eq_zero_iff, (answer.iteration_perm s.peers.keys).length_eq,
      List.length_eq_zero_iff]
  simp only [Command.asked, List.zip_eq_nil_iff, List.map_eq_nil_iff, List.range_eq_nil,
    List.length_eq_zero_iff, or_self]
  rw [hkeys, List.eq_nil_iff_forall_not_mem]
  simp only [AList.mem_keys]

theorem fst_of_asked {answer : Answer} {s : EventLoop} {peer : PeerId} {q : PeerId × Nat}
    (h : q ∈ Command.asked answer s (some peer)) : q.1 = peer := by
  simp only [Command.asked] at h
  split at h
  . rw [List.mem_singleton] at h
    rw [h]
  . cases h

theorem findsSome_of_broadcast {l : Label}
    (h : ∀ answer bundle r, l = .command answer (.replicateObject none bundle r) →
      (∃ peer, s.Remote peer) → ∃ peer, peer ∈ s.loop.peers) : FindsSome l s := by
  cases l with
  | event e => trivial
  | command answer c =>
    cases c with
    | replicateObject target bundle r =>
      cases target with
      | none => exact h answer bundle r rfl
      | some peer => trivial
    | _ => trivial

end Steps

section Runs

variable {localPeer : PeerId} {ls before after : List Label} {answer : Answer}
variable {target : Option PeerId} {bundle : ExportBundle} {r : Ticket}

theorem returns_ok_iff (h : Disciplined localPeer ls) (honce : EndsOnce ls)
    (hls : ls = before ++ .command answer (.replicateObject target bundle r) :: after)
    (hended : ∀ q ∈ Command.asked answer (Run.run step (start localPeer) before).loop target,
      ∃ result, .event (.exchange q.2 result) ∈ after) :
    (Run.run step (start localPeer) ls).loop.sentTo r = [(r, .replicated (.ok ()))] ↔
      (target = none ∧ Command.asked answer (Run.run step (start localPeer) before).loop target = []) ∨
        ∃ q ∈ Command.asked answer (Run.run step (start localPeer) before).loop target,
          .event (.exchange q.2 (.ok .stored)) ∈ after := by
  have hafter : EndsOnce after := by
    intro id result result' hmem hmem'
    have hsub (l : Label) (hl : l ∈ after) : l ∈ ls := by
      rw [hls]
      exact List.mem_append_right _ (List.mem_cons_of_mem _ hl)
    exact honce id result result' (hsub _ hmem) (hsub _ hmem')
  rw [run_loop] at hended ⊢
  rw [run_loop]
  obtain ⟨reply, hown, hsettled⟩ := EventLoop.answered_of_disciplined h hls rfl (by
    intro q hq
    rw [EventLoop.started_replicateObject] at hq
    obtain ⟨asked, hasked, rfl⟩ := List.mem_map.mp hq
    obtain ⟨result, hresult⟩ := hended asked hasked
    exact ⟨.replicated (Runtime.storeOutcome result), _, hresult, ⟨.inr rfl, rfl⟩, rfl⟩)
  rw [← EventLoop.replicated_iff hafter hown]
  rw [hsettled.sent, List.singleton_inj, Prod.mk.injEq, and_iff_right rfl]

/--
In a run of a swarm every replication returns what is documented just when every broadcast while a
connection is open finds some peer in the map.
-/
theorem aggregates_iff (h : Disciplined localPeer ls)
    (hreported : Run.Along step Reportable (start localPeer) ls) (honce : EndsOnce ls) :
    Aggregates localPeer ls ↔ Run.Along step FindsSome (start localPeer) ls := by
  constructor
  . intro haggregates
    apply Run.along_of_splits
    intro before l after hls
    apply findsSome_of_broadcast
    intro answer bundle r hl hremote
    rw [hl] at hls
    by_contra hnone
    have hasked : Command.asked answer (Run.run step (start localPeer) before).loop none = [] :=
      asked_none_eq_nil.mpr (not_exists.mp hnone)
    have hended : ∀ q ∈ Command.asked answer (Run.run step (start localPeer) before).loop none,
        ∃ result, .event (.exchange q.2 result) ∈ after := by
      rw [hasked]
      intro q hq
      cases hq
    -- nobody is asked, and the success that is returned is nobody's
    have hok := (returns_ok_iff h honce hls hended).mpr (.inl ⟨rfl, hasked⟩)
    obtain ⟨peer, _, id, hmem, _⟩ :=
      (haggregates before after answer none bundle r hls hended hremote).mp hok
    rw [hasked] at hmem
    cases hmem
  . intro hfinds before after answer target bundle r hls hended
    have hok := returns_ok_iff h honce hls hended
    rw [hls] at hreported hfinds
    have hsound := sound_run ((Run.along_append _ _ _ _).mp hreported).1
    cases target with
    | some peer =>
      refine hok.trans ?_
      constructor
      . intro hor
        rcases hor with ⟨hnone, _⟩ | ⟨q, hq, hstored⟩
        . contradiction
        . have hpeer := fst_of_asked hq
          subst hpeer
          exact ⟨hsound _ (mem_peers_of_asked hq), q.2, hq, hstored⟩
      . intro ⟨_, id, hmem, hstored⟩
        exact .inr ⟨(peer, id), hmem, hstored⟩
    | none =>
      intro hremote
      obtain ⟨found, hfound⟩ := hfinds.at hremote
      refine hok.trans ?_
      constructor
      . intro hor
        rcases hor with ⟨_, hasked⟩ | ⟨q, hq, hstored⟩
        . exact absurd hfound (asked_none_eq_nil.mp hasked found)
        . exact ⟨q.1, hsound _ (mem_peers_of_asked hq), q.2, hq, hstored⟩
      . intro ⟨peer, _, id, hmem, hstored⟩
        exact .inr ⟨(peer, id), hmem, hstored⟩

end Runs

def pushed : ExportBundle where
  version := 1
  object :=
    ⟨⟨"00"⟩, ⟨⟨"canopee://identity/aa"⟩, ⟨0, 1, none⟩, .blob, [7]⟩, [], []⟩

/--
A peer connects, is sent an object and stores it.
-/
def stored : List Label :=
  [.event (.connectionEstablished bb 1), .command EventLoop.plainAnswer (.replicateObject none pushed 1),
    .event (.exchange 1 (.ok .stored))]

theorem aggregates_iff_stored :
    Aggregates aa stored ↔ Run.Along step FindsSome (start aa) stored := by
  apply aggregates_iff
  . constructor
    . decide
    . decide
  . simp only [stored, Run.along_cons, Reportable]
    exact ⟨by decide, trivial, trivial, trivial⟩
  . intro id result result' hmem hmem'
    simp only [stored, List.mem_cons, reduceCtorEq, List.not_mem_nil, EventLoop.Label.event.injEq,
      SwarmEvent.exchange.injEq, false_or, or_false] at hmem hmem'
    rw [hmem.2, hmem'.2]

section Counterexample

/--
A relayed connection closes once a direct one is open, and then an object is broadcast.
-/
def unsent : List Label :=
  upgraded ++ [.command EventLoop.plainAnswer (.replicateObject none pushed 1)]

theorem unsent_returns_ok :
    Disciplined aa unsent ∧ Run.Along step Reportable (start aa) unsent ∧ EndsOnce unsent ∧
      (Run.run step (start aa) upgraded).Remote bb ∧
      (Run.run step (start aa) unsent).loop.sentTo 1 = [(1, .replicated (.ok ()))] ∧
      ¬ Aggregates aa unsent := by
  have hreported : Run.Along step Reportable (start aa) unsent := by
    simp only [unsent, upgraded, List.cons_append, List.nil_append, Run.along_cons, Reportable]
    exact ⟨by decide, ⟨1, by decide⟩, by decide, by decide, trivial, trivial⟩
  have hremote : (Run.run step (start aa) upgraded).Remote bb := ⟨by decide, 2, by decide⟩
  have hsent : (Run.run step (start aa) unsent).loop.sentTo 1 = [(1, .replicated (.ok ()))] := rfl
  refine ⟨⟨by decide, by decide⟩, hreported, ?_, hremote, hsent, ?_⟩
  . intro id result result' hmem
    simp [unsent, upgraded] at hmem
  . intro haggregates
    have hended : ∀ q ∈ Command.asked EventLoop.plainAnswer
        (Run.run step (start aa) upgraded).loop none,
        ∃ result, .event (.exchange q.2 result) ∈ ([] : List Label) := by
      intro q hq
      cases hq
    obtain ⟨peer, _, id, _, hstored⟩ :=
      (haggregates upgraded [] EventLoop.plainAnswer none pushed 1 rfl hended ⟨bb, hremote⟩).mp hsent
    cases hstored

end Counterexample

end Swarm

end Canopee
