import Canopee.Lib.Run
import Canopee.Node.Subscriptions

/-!
This module contains when the swarm is subscribed to a topic just as long as a connection for it is
open: when the connections of a topic end one by one, each in the right way.
-/

namespace Canopee

namespace Subscriptions

/--
The connection is open, on this topic.
-/
def OpenAt (s : Subscriptions) (c : Nat) (topic : String) : Prop :=
  ∃ task, s.tasks.lookup c = some task ∧ task.topic = topic ∧ task.connected = true

/--
The swarm is subscribed to the topics with an open connection, and to no others.
-/
def Isolated (s : Subscriptions) : Prop :=
  ∀ topic, topic ∈ s.loop.topics ↔ ∃ c, s.OpenAt c topic

/--
Another connection than `c` is open, on this topic.
-/
def Others (s : Subscriptions) (c : Nat) (topic : String) : Prop :=
  ∃ d, d ≠ c ∧ s.OpenAt d topic

/--
A task unsubscribes only when no other connection for its topic is open, and an open connection is
closed, or left without an acknowledgement, only when another one is.
-/
def Harmless : Label → Subscriptions → Prop
  | .subscribe _ _ _, _ => True
  | .acknowledge c written, s => ∀ task, s.tasks.lookup c = some task →
    task.acknowledged = false → written = false → task.connected = true → s.Others c task.topic
  | .message c topic written, s => ∀ task, s.tasks.lookup c = some task →
    task.acknowledged = true → topic = task.topic → written = false → ¬ s.Others c task.topic
  | .lagged c, s => ∀ task, s.tasks.lookup c = some task →
    task.acknowledged = true → ¬ s.Others c task.topic
  | .shutdown c, s => ∀ task, s.tasks.lookup c = some task →
    task.acknowledged = true → ¬ s.Others c task.topic
  | .close c, s => ∀ task, s.tasks.lookup c = some task →
    task.connected = true → s.Others c task.topic

variable {s : Subscriptions}

theorem openAt_erase {c d : Nat} {topic : String} {loop : EventLoop} :
    OpenAt ⟨loop, s.tasks.erase c⟩ d topic ↔ d ≠ c ∧ s.OpenAt d topic := by
  unfold OpenAt
  by_cases hd : d = c
  . subst hd
    simp [AList.lookup_erase]
  . simp [hd, AList.lookup_erase_ne]

theorem openAt_insert {c d : Nat} {topic : String} {loop : EventLoop} {task : SubscribeTask} :
    OpenAt ⟨loop, s.tasks.insert c task⟩ d topic ↔
      d = c ∧ task.topic = topic ∧ task.connected = true ∨ d ≠ c ∧ s.OpenAt d topic := by
  unfold OpenAt
  by_cases hd : d = c
  . subst hd
    simp
  . simp [hd, AList.lookup_insert_ne]

theorem isolated_dropped_iff {c : Nat} {task : SubscribeTask} {t : Subscriptions}
    (htask : s.tasks.lookup c = some task) (htopics : t.loop.topics = s.loop.topics)
    (hopen : ∀ d topic, t.OpenAt d topic ↔ d ≠ c ∧ s.OpenAt d topic) (h : s.Isolated) :
    t.Isolated ↔ (task.connected = true → s.Others c task.topic) := by
  constructor
  . intro hisolated hconnected
    have hmem : task.topic ∈ t.loop.topics := by
      rw [htopics]
      exact (h task.topic).mpr ⟨c, task, htask, rfl, hconnected⟩
    obtain ⟨d, hd⟩ := (hisolated task.topic).mp hmem
    exact ⟨d, (hopen d task.topic).mp hd⟩
  . intro hothers topic
    rw [htopics, h topic]
    constructor
    . intro ⟨d, hd⟩
      by_cases hdc : d = c
      . subst hdc
        obtain ⟨task', htask', htopic, hconnected⟩ := hd
        rw [htask] at htask'
        cases htask'
        obtain ⟨e, hne, he⟩ := hothers hconnected
        rw [htopic] at he
        exact ⟨e, (hopen e topic).mpr ⟨hne, he⟩⟩
      . exact ⟨d, (hopen d topic).mpr ⟨hdc, hd⟩⟩
    . intro ⟨d, hd⟩
      exact ⟨d, ((hopen d topic).mp hd).2⟩

theorem isolated_unsubscribe_iff {c : Nat} {task : SubscribeTask}
    (htask : s.tasks.lookup c = some task) (h : s.Isolated) :
    (s.unsubscribe c task.topic).Isolated ↔ ¬ s.Others c task.topic := by
  constructor
  . intro hisolated ⟨d, hne, hd⟩
    have hmem := (hisolated task.topic).mpr ⟨d, openAt_erase.mpr ⟨hne, hd⟩⟩
    simp [unsubscribe, EventLoop.handleCommand] at hmem
  . intro hothers topic
    simp only [unsubscribe, EventLoop.handleCommand, openAt_erase, Finset.mem_erase]
    rw [h topic]
    constructor
    . intro ⟨hne, d, hd⟩
      refine ⟨d, ?_, hd⟩
      intro hdc
      subst hdc
      obtain ⟨task', htask', htopic, _⟩ := hd
      rw [htask] at htask'
      cases htask'
      exact hne htopic.symm
    . intro ⟨d, hne, hd⟩
      refine ⟨?_, d, hd⟩
      intro htopic
      rw [htopic] at hd
      exact hothers ⟨d, hne, hd⟩

theorem isolated_leave_iff {c : Nat} (h : s.Isolated) :
    (s.leave c).Isolated ↔ ∀ task, s.tasks.lookup c = some task →
      task.acknowledged = true → ¬ s.Others c task.topic := by
  unfold leave
  cases htask : s.tasks.lookup c with
  | none => simp [h]
  | some task =>
    dsimp only
    split
    . next hacknowledged =>
      rw [isolated_unsubscribe_iff htask h]
      simp [hacknowledged]
    . next hacknowledged => simp [h, hacknowledged]

theorem isolated_subscribe {c : Nat} {topic : String} {answer : Answer} (h : s.Isolated) :
    (s.subscribe c topic answer).Isolated := by
  unfold subscribe
  split
  . exact h
  . next hc =>
    cases hgossip : answer.gossip with
    | error e =>
      simp only [EventLoop.handleCommand, hgossip]
      exact h
    | ok u =>
      intro topic'
      simp only [EventLoop.handleCommand, hgossip, EventLoop.send, Finset.mem_insert, openAt_insert]
      rw [h topic']
      constructor
      . intro hor
        cases hor with
        | inl heq => exact ⟨c, .inl ⟨rfl, heq.symm, trivial⟩⟩
        | inr hopen =>
          obtain ⟨d, hd⟩ := hopen
          refine ⟨d, .inr ⟨?_, hd⟩⟩
          intro hdc
          rw [hdc] at hd
          obtain ⟨task, htask, _⟩ := hd
          exact hc (AList.lookup_isSome.mp (by simp [htask]))
      . intro ⟨d, hd⟩
        cases hd with
        | inl hd => exact .inl hd.2.1.symm
        | inr hd => exact .inr ⟨d, hd.2⟩

theorem isolated_acknowledge_iff {c : Nat} {written : Bool} (h : s.Isolated) :
    (s.acknowledge c written).Isolated ↔ Harmless (.acknowledge c written) s := by
  simp only [acknowledge, Harmless]
  cases htask : s.tasks.lookup c with
  | none => simp [h]
  | some task =>
    dsimp only
    split
    . next hacknowledged => simp [h, hacknowledged]
    . next hacknowledged =>
      split
      . next hwritten =>
        simp only [hwritten, Bool.true_eq_false, false_implies, implies_true, iff_true]
        intro topic
        rw [h topic]
        -- the connection is open in the same way
        have hsame (d : Nat) : OpenAt ⟨s.loop, s.tasks.insert c { task with acknowledged := true }⟩ d
            topic ↔ s.OpenAt d topic := by
          rw [openAt_insert]
          by_cases hd : d = c
          . subst hd
            simp [OpenAt, htask]
          . simp [hd]
        simp only [hsame]
      . next hwritten =>
        have hdropped := isolated_dropped_iff (t := ⟨s.loop, s.tasks.erase c⟩) htask rfl
          (fun d topic => openAt_erase) h
        rw [hdropped]
        simp [hacknowledged, hwritten]

theorem isolated_close_iff {c : Nat} (h : s.Isolated) :
    (s.close c).Isolated ↔ Harmless (.close c) s := by
  simp only [close, Harmless]
  cases htask : s.tasks.lookup c with
  | none => simp [h]
  | some task =>
    have hopen (d : Nat) (topic : String) :
        OpenAt ⟨s.loop, s.tasks.insert c { task with connected := false }⟩ d topic ↔
          d ≠ c ∧ s.OpenAt d topic := by
      rw [openAt_insert]
      simp
    have hdropped := isolated_dropped_iff
      (t := ⟨s.loop, s.tasks.insert c { task with connected := false }⟩) htask rfl hopen h
    dsimp only
    rw [hdropped]
    simp

theorem isolated_message_iff {c : Nat} {topic : String} {written : Bool} (h : s.Isolated) :
    (s.message c topic written).Isolated ↔ Harmless (.message c topic written) s := by
  simp only [message, Harmless]
  cases htask : s.tasks.lookup c with
  | none => simp [h]
  | some task =>
    dsimp only
    split
    . next hskip =>
      apply iff_of_true h
      intro task' htask' _ htopic hwritten
      cases htask'
      cases hskip with
      | inl hskip => exact absurd htopic hskip
      | inr hskip =>
        rw [hwritten] at hskip
        cases hskip
    . next hbreak =>
      rw [isolated_leave_iff h]
      push Not at hbreak
      simp [htask, hbreak]

theorem isolated_step_iff {l : Label} (h : s.Isolated) : (step l s).Isolated ↔ Harmless l s := by
  cases l with
  | subscribe c topic answer => exact iff_of_true (isolated_subscribe h) trivial
  | acknowledge c written => exact isolated_acknowledge_iff h
  | message c topic written => exact isolated_message_iff h
  | lagged c => exact isolated_leave_iff h
  | shutdown c => exact isolated_leave_iff h
  | close c => exact isolated_close_iff h

/--
All the time the swarm is subscribed to the topics with an open connection just when every step is
harmless to the other connections.
-/
theorem isolated_always_iff (localPeer : PeerId) (ls : List Label) :
    Run.Always step Isolated (start localPeer) ls ↔
      Run.Along step Harmless (start localPeer) ls := by
  have hstart : (start localPeer).Isolated := by
    intro topic
    simp [start, EventLoop.start, OpenAt]
  rw [Run.always_iff, and_iff_right hstart]
  apply Run.along_iff (A := fun _ _ => True) _ hstart
  . intro l t _ ht
    apply isolated_step_iff ht
  . intro l t _ ht hharmless
    apply (isolated_step_iff ht).mpr hharmless
  . apply Run.along_of_forall
    intro l _ t
    trivial

section Counterexample

/--
Two clients subscribe to a topic, the first one closes its connection, and a message arrives.
-/
def twoClients : List Label :=
  [.subscribe 1 "news" .plain, .acknowledge 1 true, .subscribe 2 "news" .plain, .acknowledge 2 true,
    .close 1, .message 1 "news" false]

/--
The second client is still there, and the swarm is not subscribed any more.
-/
theorem twoClients_unsubscribed :
    (Run.run step (start ⟨"aa"⟩) twoClients).OpenAt 2 "news" ∧
      "news" ∉ (Run.run step (start ⟨"aa"⟩) twoClients).loop.topics ∧
      ¬ Run.Always step Isolated (start ⟨"aa"⟩) twoClients := by
  have hopen : (Run.run step (start ⟨"aa"⟩) twoClients).OpenAt 2 "news" :=
    ⟨⟨"news", true, true⟩, by decide, rfl, rfl⟩
  have hmissing : "news" ∉ (Run.run step (start ⟨"aa"⟩) twoClients).loop.topics := by decide
  refine ⟨hopen, hmissing, ?_⟩
  intro h
  exact hmissing ((h.last "news").mpr ⟨2, hopen⟩)

end Counterexample

end Subscriptions

end Canopee
