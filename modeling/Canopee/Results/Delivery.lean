import Canopee.Lib.Run
import Canopee.Node.Delivery
import Canopee.Results.Frames

/-!
This module contains what a subscriber is sent: the messages of its topic from some point on, in their
order and without a gap, until its connection ends.
-/

namespace Canopee

open Prog (exec exec_bind_ok exec_bind_error)

namespace Socket

variable {α : Type}

theorem exec_readExact_short {n : Nat} {bytes : Bytes} (h : bytes.length < n) :
    exec (readExact n) () bytes = (.error .unexpectedEof, []) := by
  rw [exec_readExact, if_neg (by omega)]

/--
No frame is read from a part of one.
-/
theorem exec_readFrame_cut (c : Codec α) {a : α} {bytes rest : Bytes}
    (hsize : (c.serialize a).length < 2 ^ 32) (hrest : rest ≠ [])
    (h : bytes ++ rest = writeResponse c a) :
    (exec (readFrame c) () bytes).1 = .error .unexpectedEof := by
  have hpos := List.length_pos_of_ne_nil hrest
  by_cases hheader : bytes.length < 4
  . have hread : exec readU32 () bytes = (.error .unexpectedEof, []) := by
      unfold readU32
      rw [exec_bind_error (exec_readExact_short hheader)]
    unfold readFrame
    rw [exec_bind_error hread]
  . unfold writeResponse at h
    dsimp only at h
    obtain ⟨body, rfl⟩ : ∃ body, bytes = Codec.beBytes 4 (UInt32.ofNat (c.serialize a).length).toNat ++
        body := by
      refine ⟨bytes.drop 4, ?_⟩
      have hfront := congrArg (List.take 4) h
      rw [List.take_append_of_le_length (by omega), List.take_left' (Codec.beBytes_length 4 _)] at hfront
      rw [← hfront, List.take_append_drop]
    rw [List.append_assoc, List.append_cancel_left_eq] at h
    have hlength := congrArg List.length h
    rw [List.length_append] at hlength
    unfold readFrame
    rw [exec_bind_ok (exec_readU32 _ _)]
    have hshort : body.length < (UInt32.ofNat (UInt32.ofNat (c.serialize a).length).toNat).toNat := by
      rw [UInt32.ofNat_toNat, UInt32.toNat_ofNat', Nat.mod_eq_of_lt hsize]
      omega
    rw [exec_bind_error (exec_readExact_short hshort)]

/--
What is read from a part of the frames of some values are the first of the values.
-/
theorem readMany_of_prefix (c : Codec α) {values : List α} {bytes : Bytes}
    (hsizes : ∀ a ∈ values, (c.serialize a).length < 2 ^ 32)
    (hbytes : bytes <+: (values.map (writeResponse c)).flatten) {k : Nat} {read : List α}
    (h : (exec (readMany (readFrame c) k) () bytes).1 = .ok read) : read = values.take k := by
  induction k generalizing values bytes read with
  | zero =>
    cases h
    rfl
  | succ k ih =>
    have hfails {e : ReadError} (he : (exec (readFrame c) () bytes).1 = .error e) : False := by
      unfold readMany at h
      rw [exec_bind_error (Prod.ext he rfl)] at h
      cases h
    cases values with
    | nil =>
      have hnil : bytes = [] := List.prefix_nil.mp hbytes
      subst hnil
      have hread : exec readU32 () [] = (.error .unexpectedEof, []) := by
        unfold readU32
        rw [exec_bind_error (exec_readExact_short (by simp))]
      refine (hfails (e := .unexpectedEof) ?_).elim
      unfold readFrame
      rw [exec_bind_error hread]
    | cons a values =>
      rw [List.forall_mem_cons] at hsizes
      rw [List.map_cons, List.flatten_cons] at hbytes
      by_cases hlength : (writeResponse c a).length ≤ bytes.length
      . obtain ⟨rest, rfl⟩ := List.prefix_of_prefix_length_le (List.prefix_append _ _) hbytes hlength
        rw [List.prefix_append_right_inj] at hbytes
        unfold readMany at h
        rw [exec_bind_ok ((exec_readFrame_iff c a rest).mpr hsizes.1)] at h
        obtain ⟨later, hlater, hpure⟩ := Prog.exec_bind_eq_ok h
        cases hpure
        rw [List.take_succ_cons, ih hsizes.2 hbytes hlater]
      . obtain ⟨rest, hrest⟩ := List.prefix_of_prefix_length_le hbytes (List.prefix_append _ _)
          (not_le.mp hlength).le
        refine (hfails (exec_readFrame_cut c hsizes.1 ?_ hrest)).elim
        rintro rfl
        rw [List.append_nil] at hrest
        rw [hrest] at hlength
        exact hlength le_rfl

end Socket

namespace Delivery

open Run (run)

section Wire

/--
The messages that the swarm has got.
-/
def published (labels : List Label) : List GossipMessage :=
  labels.filterMap fun
    | .publish message => some message
    | _ => none

/--
What a subscriber of a topic is to be sent while these messages arrive.
-/
def responses (topic : String) (messages : List GossipMessage) : List SubscriptionResponse :=
  .subscribed :: (messages.filter fun message => message.topic = topic).map GossipMessage.response

def frames (responses : List SubscriptionResponse) : Bytes :=
  (responses.map (Socket.writeResponse SubscriptionResponse.codec)).flatten

def wire (topic : String) (messages : List GossipMessage) : Bytes :=
  frames (responses topic messages)

variable {topic : String} {messages : List GossipMessage} {message : GossipMessage}

theorem wire_append (topic : String) (messages more : List GossipMessage) :
    wire topic (messages ++ more) = wire topic messages ++
      frames ((more.filter fun message => message.topic = topic).map GossipMessage.response) := by
  simp [wire, responses, frames]

theorem wire_snoc_other (h : message.topic ≠ topic) :
    wire topic (messages ++ [message]) = wire topic messages := by
  rw [wire_append, List.filter_cons_of_neg (by simpa using h)]
  simp [frames]

theorem wire_snoc (h : message.topic = topic) :
    wire topic (messages ++ [message]) = wire topic messages ++
      Socket.writeResponse SubscriptionResponse.codec message.response := by
  rw [wire_append, List.filter_cons_of_pos (by simpa using h)]
  simp [frames]

theorem wire_mono (topic : String) {messages more : List GossipMessage} (h : messages <+: more) :
    wire topic messages <+: wire topic more := by
  obtain ⟨rest, rfl⟩ := h
  rw [wire_append]
  exact List.prefix_append _ _

end Wire

section Tracks

/--
How a connection stands to the messages that have arrived since it got its receiver: it has read some
of them and will read the last ones, and those between are lost.
-/
inductive Tracks (topic : String) (messages : List GossipMessage) : Connection → Prop where
  | receiving {receiver : Broadcast GossipMessage CAPACITY} {lost : List GossipMessage}
      (hmessages : messages = lost ++ receiver.unread) (hlost : lost.length = receiver.missed) :
      Tracks topic messages ⟨topic, .receiving, receiver, []⟩
  | serving {receiver : Broadcast GossipMessage CAPACITY} {read lost : List GossipMessage}
      (hmessages : messages = read ++ lost ++ receiver.unread)
      (hlost : lost.length = receiver.missed) :
      Tracks topic messages ⟨topic, .serving, receiver, wire topic read⟩
  | ended {receiver : Broadcast GossipMessage CAPACITY} {written : Bytes}
      (hwritten : written <+: wire topic messages) :
      Tracks topic messages ⟨topic, .ended, receiver, written⟩

variable {topic : String} {messages : List GossipMessage} {connection : Connection}

theorem Tracks.publish (h : Tracks topic messages connection) (message : GossipMessage) :
    Tracks topic (messages ++ [message])
      (if connection.listens then
        { connection with receiver := connection.receiver.send message }
      else
        connection) := by
  cases h with
  | @receiving receiver lost hmessages hlost =>
    refine @Tracks.receiving _ _ _ (lost ++ receiver.overwritten message) ?_ ?_
    . rw [hmessages, List.append_assoc, List.append_assoc, Broadcast.overwritten_append]
    . rw [List.length_append, hlost, Broadcast.send_missed]
  | @serving receiver read lost hmessages hlost =>
    refine @Tracks.serving _ _ _ read (lost ++ receiver.overwritten message) ?_ ?_
    . rw [hmessages]
      simp only [List.append_assoc, Broadcast.overwritten_append]
    . rw [List.length_append, hlost, Broadcast.send_missed]
  | ended hwritten =>
    exact .ended (hwritten.trans (wire_mono topic (List.prefix_append _ _)))

variable {s : Delivery} {c d : Nat}

theorem connections_set (connection : Connection) :
    (s.set c connection).connections d = if d = c then some connection else s.connections d := by
  simp [set, Function.update_apply]

theorem connections_leave (connection : Connection) :
    (s.leave c connection).connections d =
      if d = c then some { connection with stage := .ended } else s.connections d :=
  connections_set _

/--
Another task leaves the connection alone.
-/
theorem tracks_of_if {t : Delivery} {other : Connection} (hconnection : s.connections c = some connection)
    (h : Tracks topic messages connection)
    (hother : d = c → Tracks topic messages other)
    (ht : t.connections c = if c = d then some other else s.connections c) :
    ∃ now, t.connections c = some now ∧ Tracks topic messages now := by
  by_cases hd : d = c
  . rw [if_pos hd.symm] at ht
    exact ⟨other, ht, hother hd⟩
  . rw [if_neg (Ne.symm hd), hconnection] at ht
    exact ⟨connection, ht, h⟩

theorem Tracks.subscribe (h : Tracks topic messages connection)
    (hconnection : s.connections c = some connection) (d : Nat) (other : String) (answer : Answer)
    (cut : Option Nat) :
    ∃ now, (s.subscribe d other answer cut).connections c = some now ∧ Tracks topic messages now := by
  unfold Delivery.subscribe
  cases hd : s.connections d with
  | some there => exact ⟨connection, hconnection, h⟩
  | none =>
    have hne : d ≠ c := by
      rintro rfl
      rw [hconnection] at hd
      cases hd
    dsimp only
    split
    . exact ⟨connection, by rw [connections_set, if_neg (Ne.symm hne), hconnection], h⟩
    . exact ⟨connection, by rw [connections_set, if_neg (Ne.symm hne), hconnection], h⟩

theorem Tracks.receive (h : Tracks topic messages connection)
    (hconnection : s.connections c = some connection) (d : Nat) :
    ∃ now, (s.receive d).connections c = some now ∧ Tracks topic messages now := by
  unfold Delivery.receive
  split
  . exact ⟨connection, hconnection, h⟩
  . next other hother =>
    split
    . next hstage =>
      apply tracks_of_if hconnection h _ (connections_set _)
      rintro rfl
      rw [hconnection, Option.some.injEq] at hother
      subst hother
      cases h <;> cases hstage
    . exact ⟨connection, hconnection, h⟩

theorem Tracks.acknowledge (h : Tracks topic messages connection)
    (hconnection : s.connections c = some connection) (d : Nat) (cut : Option Nat) :
    ∃ now, (s.acknowledge d cut).connections c = some now ∧ Tracks topic messages now := by
  unfold Delivery.acknowledge
  split
  . exact ⟨connection, hconnection, h⟩
  . next other hother =>
    split
    . next hstage =>
      apply tracks_of_if hconnection h _ (connections_set _)
      rintro rfl
      rw [hconnection, Option.some.injEq] at hother
      subst hother
      cases h with
      | @receiving receiver lost hmessages hlost =>
        have hfirst : wire topic [] = Socket.writeResponse SubscriptionResponse.codec .subscribed :=
          List.append_nil _
        cases cut with
        | none =>
          have hserving := @Tracks.serving topic _ _ [] _ hmessages hlost
          rw [hfirst] at hserving
          exact hserving
        | some n =>
          apply Tracks.ended
          unfold Connection.write
          dsimp only
          rw [List.nil_append, ← hfirst]
          exact (List.take_prefix n _).trans (wire_mono topic List.nil_prefix)
      | serving => cases hstage
      | ended => cases hstage
    . exact ⟨connection, hconnection, h⟩

theorem Tracks.of_serving (h : Tracks topic messages connection) (hstage : connection.stage = .serving) :
    connection.topic = topic ∧ ∃ read lost, connection.written = wire topic read ∧
      messages = read ++ lost ++ connection.receiver.unread ∧
      lost.length = connection.receiver.missed := by
  cases h with
  | receiving => cases hstage
  | @serving receiver read lost hmessages hlost => exact ⟨rfl, read, lost, rfl, hmessages, hlost⟩
  | ended => cases hstage

theorem Tracks.leave (h : Tracks topic messages connection) (hstage : connection.stage = .serving)
    (receiver : Broadcast GossipMessage CAPACITY) :
    Tracks topic messages { connection with receiver := receiver, stage := .ended } := by
  obtain ⟨rfl, read, lost, hwritten, rfl, _⟩ := h.of_serving hstage
  apply Tracks.ended
  rw [hwritten, List.append_assoc]
  exact wire_mono _ (List.prefix_append _ _)

/--
What the loop has received is written, if it is for the topic.
-/
theorem Tracks.value (h : Tracks topic messages connection) (hstage : connection.stage = .serving)
    {message : GossipMessage} {receiver : Broadcast GossipMessage CAPACITY}
    (hrecv : connection.receiver.recv = (.value message, receiver)) :
    (message.topic ≠ connection.topic →
      Tracks topic messages { connection with receiver := receiver }) ∧
    (message.topic = connection.topic →
      Tracks topic messages
        ({ connection with receiver := receiver }.write message.response none)) ∧
    (message.topic = connection.topic → ∀ n,
      Tracks topic messages
        { { connection with receiver := receiver }.write message.response (some n) with
          stage := .ended }) := by
  obtain ⟨rfl, read, lost, hwritten, rfl, hlost⟩ := h.of_serving hstage
  obtain ⟨hmissed, rest, hunread⟩ := Broadcast.recv_eq_value hrecv
  obtain ⟨later, hlater, hrest, hnone⟩ := Broadcast.recv_cons hmissed hunread
  rw [hlater, Prod.mk.injEq] at hrecv
  obtain rfl := hrecv.2
  rw [hmissed, List.length_eq_zero_iff] at hlost
  subst hlost
  have hmessages : read ++ [] ++ connection.receiver.unread = read ++ [message] ++ [] ++ later.unread := by
    rw [hunread, hrest]
    simp
  rw [hmessages]
  have htracks (written : Bytes) (h : written = wire connection.topic (read ++ [message])) :
      Tracks connection.topic (read ++ [message] ++ [] ++ later.unread)
        ⟨connection.topic, .serving, later, written⟩ := by
    rw [h]
    exact .serving rfl (by rw [hnone, List.length_nil])
  obtain ⟨topic, stage, receiver, written⟩ := connection
  dsimp only at *
  subst hstage hwritten
  refine ⟨?_, ?_, ?_⟩
  . intro htopic
    exact htracks _ (wire_snoc_other htopic).symm
  . intro htopic
    exact htracks _ (wire_snoc htopic).symm
  . intro htopic n
    apply Tracks.ended
    have hframe : wire topic read ++
        (Socket.writeResponse SubscriptionResponse.codec message.response).take n <+:
          wire topic (read ++ [message]) := by
      rw [wire_snoc htopic, List.prefix_append_right_inj]
      exact List.take_prefix n _
    apply hframe.trans
    rw [List.append_assoc]
    exact wire_mono topic (List.prefix_append _ _)

/--
A turn of the loop.
-/
theorem Tracks.poll (h : Tracks topic messages connection)
    (hconnection : s.connections c = some connection) (d : Nat) (cut : Option Nat) :
    ∃ now, (s.poll d cut).connections c = some now ∧ Tracks topic messages now := by
  unfold Delivery.poll
  split
  . exact ⟨connection, hconnection, h⟩
  . next other hother =>
    split
    . next hstage =>
      have hsame (heq : d = c) : other = connection := by
        rw [heq, hconnection, Option.some.injEq] at hother
        exact hother.symm
      split
      . exact ⟨connection, hconnection, h⟩
      . next receiver hrecv =>
        apply tracks_of_if hconnection h _ (connections_leave _)
        intro heq
        obtain rfl := hsame heq
        exact h.leave hstage receiver
      . next message receiver hrecv =>
        dsimp only
        split
        . next htopic =>
          apply tracks_of_if hconnection h _ (connections_set _)
          intro heq
          obtain rfl := hsame heq
          exact (h.value hstage hrecv).1 htopic
        . next htopic =>
          rw [ne_eq, not_not] at htopic
          cases cut with
          | none =>
            apply tracks_of_if hconnection h _ (connections_set _)
            intro heq
            obtain rfl := hsame heq
            exact (h.value hstage hrecv).2.1 htopic
          | some n =>
            apply tracks_of_if hconnection h _ (connections_leave _)
            intro heq
            obtain rfl := hsame heq
            exact (h.value hstage hrecv).2.2 htopic n
    . exact ⟨connection, hconnection, h⟩

theorem Tracks.shutdown (h : Tracks topic messages connection)
    (hconnection : s.connections c = some connection) (d : Nat) :
    ∃ now, (s.shutdown d).connections c = some now ∧ Tracks topic messages now := by
  unfold Delivery.shutdown
  split
  . exact ⟨connection, hconnection, h⟩
  . next other hother =>
    split
    . next hstage =>
      apply tracks_of_if hconnection h _ (connections_leave _)
      rintro rfl
      rw [hconnection, Option.some.injEq] at hother
      subst hother
      exact h.leave hstage connection.receiver
    . exact ⟨connection, hconnection, h⟩

theorem Tracks.step (h : Tracks topic messages connection)
    (hconnection : s.connections c = some connection) (l : Label) :
    ∃ now, (step l s).connections c = some now ∧ Tracks topic (messages ++ published [l]) now := by
  cases l with
  | publish message =>
    refine ⟨_, ?_, h.publish message⟩
    change (s.connections c).map _ = _
    rw [hconnection]
    rfl
  | subscribe d other answer cut =>
    rw [show published _ = [] from rfl, List.append_nil]
    exact h.subscribe hconnection d other answer cut
  | receive d =>
    rw [show published _ = [] from rfl, List.append_nil]
    exact h.receive hconnection d
  | acknowledge d cut =>
    rw [show published _ = [] from rfl, List.append_nil]
    exact h.acknowledge hconnection d cut
  | poll d cut =>
    rw [show published _ = [] from rfl, List.append_nil]
    exact h.poll hconnection d cut
  | shutdown d =>
    rw [show published _ = [] from rfl, List.append_nil]
    exact h.shutdown hconnection d

theorem Tracks.run (h : Tracks topic messages connection)
    (hconnection : s.connections c = some connection) (labels : List Label) :
    ∃ now, (Run.run Delivery.step s labels).connections c = some now ∧
      Tracks topic (messages ++ published labels) now := by
  induction labels generalizing s messages connection with
  | nil =>
    rw [show published _ = [] from rfl, List.append_nil]
    exact ⟨connection, hconnection, h⟩
  | cons l labels ih =>
    obtain ⟨next, hnext, htracks⟩ := h.step hconnection l
    have hsplit : published (l :: labels) = published [l] ++ published labels :=
      @List.filterMap_append _ _ [l] labels _
    rw [hsplit, ← List.append_assoc]
    exact ih htracks hnext

end Tracks

section Fresh

/--
A connection that waits for its receiver is as it started.
-/
def Fresh (s : Delivery) : Prop :=
  ∀ c connection, s.connections c = some connection → connection.stage = .subscribing →
    connection = .start connection.topic

variable {s t : Delivery} {d : Nat} {other : Connection}

theorem fresh_of_if (h : Fresh s)
    (ht : ∀ c, t.connections c = if c = d then some other else s.connections c)
    (hother : other.stage = .subscribing → other = .start other.topic) : Fresh t := by
  intro c connection hconnection hstage
  rw [ht] at hconnection
  split at hconnection
  . cases hconnection
    exact hother hstage
  . exact h c connection hconnection hstage

theorem fresh_leave (h : Fresh s) (connection : Connection) : Fresh (s.leave d connection) :=
  fresh_of_if h (fun _ => connections_leave connection) nofun

theorem fresh_step (h : Fresh s) (l : Label) : Fresh (step l s) := by
  cases l with
  | subscribe d topic answer cut =>
    unfold step Delivery.subscribe
    dsimp only
    split
    . exact h
    . split
      . exact fresh_of_if h (fun _ => connections_set _) (fun _ => rfl)
      . exact fresh_of_if h (fun _ => connections_set _) nofun
  | receive d =>
    unfold step Delivery.receive
    dsimp only
    split
    . exact h
    . split
      . exact fresh_of_if h (fun _ => connections_set _) nofun
      . exact h
  | acknowledge d cut =>
    unfold step Delivery.acknowledge
    dsimp only
    split
    . exact h
    . split
      . apply fresh_of_if h (fun _ => connections_set _)
        cases cut with
        | none => exact nofun
        | some n => exact nofun
      . exact h
  | publish message =>
    intro c connection hconnection hstage
    obtain ⟨before, hbefore, hafter⟩ := Option.map_eq_some_iff.mp hconnection
    split at hafter
    . next hlistens =>
      rw [← hafter] at hstage
      dsimp only at hstage
      simp [Connection.listens, hstage] at hlistens
    . rw [← hafter] at hstage ⊢
      exact h c before hbefore hstage
  | poll d cut =>
    unfold step Delivery.poll
    dsimp only
    split
    . exact h
    . split
      . next hserving =>
        split
        . exact h
        . exact fresh_leave h _
        . split
          . apply fresh_of_if h (fun _ => connections_set _)
            intro hstage
            cases hserving.symm.trans hstage
          . split
            . apply fresh_of_if h (fun _ => connections_set _)
              intro hstage
              cases hserving.symm.trans hstage
            . exact fresh_leave h _
      . exact h
  | shutdown d =>
    unfold step Delivery.shutdown
    dsimp only
    split
    . exact h
    . split
      . exact fresh_leave h _
      . exact h

theorem fresh_run (localPeer : PeerId) (labels : List Label) :
    Fresh (Run.run step (start localPeer) labels) := by
  have hstart : Fresh (start localPeer) := by
    intro c connection hconnection
    cases hconnection
  have halong : Run.Along step (fun _ _ => True) (start localPeer) labels :=
    Run.along_of_forall (fun _ _ _ => trivial) _
  exact halong.invariant hstart fun l t _ ht => fresh_step ht l

end Fresh

section Delivered

/--
What a subscriber has been sent of these messages: a front part of their frames, which is all that is
not with its receiver while that one does not lag. A client that reads frames reads the first of the
messages.
-/
structure Delivered (topic : String) (messages : List GossipMessage) (connection : Connection) :
    Prop where
  inOrder : connection.written <+: wire topic messages
  complete : connection.stage = .serving → connection.receiver.missed = 0 →
    connection.written ++ frames ((connection.receiver.unread.filter fun message =>
      message.topic = topic).map GossipMessage.response) = wire topic messages
  read : (∀ response ∈ responses topic messages,
      (SubscriptionResponse.codec.serialize response).length < 2 ^ 32) →
    ∀ k read, (exec (Socket.readMany (Socket.readFrame SubscriptionResponse.codec) k) ()
      connection.written).1 = .ok read → read = (responses topic messages).take k

theorem Tracks.written_prefix {topic : String} {messages : List GossipMessage} {connection : Connection}
    (h : Tracks topic messages connection) : connection.written <+: wire topic messages := by
  cases h with
  | receiving => exact List.nil_prefix
  | serving hmessages hlost =>
    rw [hmessages, List.append_assoc]
    exact wire_mono topic (List.prefix_append _ _)
  | ended hwritten => exact hwritten

theorem Tracks.delivered {topic : String} {messages : List GossipMessage} {connection : Connection}
    (h : Tracks topic messages connection) : Delivered topic messages connection where
  inOrder := h.written_prefix
  complete := by
    intro hstage hmissed
    obtain ⟨rfl, read, lost, hwritten, rfl, hlost⟩ := h.of_serving hstage
    rw [hmissed, List.length_eq_zero_iff] at hlost
    rw [hwritten, hlost, List.append_nil, wire_append]
  read hsizes k read hread :=
    Socket.readMany_of_prefix SubscriptionResponse.codec hsizes h.written_prefix hread

end Delivered

section Witness

def garden (text : String) : GossipMessage :=
  ⟨"garden", none, Codec.utf8 text⟩

/--
A subscriber that is sent one message and has another one waiting.
-/
def afternoon : List Label :=
  [.acknowledge 0 none, .publish (garden "rain"), .poll 0 none, .publish (garden "sun")]

end Witness

section Refinement

/--
A connection as the coarser model sees it: a task, while there is one.
-/
def Connection.task (connection : Connection) : Option SubscribeTask :=
  match connection.stage with
  | .subscribing => some ⟨connection.topic, false, true⟩
  | .receiving => some ⟨connection.topic, false, true⟩
  | .serving => some ⟨connection.topic, true, true⟩
  | .ended => none

/--
The same event loop and the same tasks.
-/
structure Simulates (s : Subscriptions) (d : Delivery) : Prop where
  loop : s.loop = d.loop
  tasks : ∀ c, s.tasks.lookup c = (d.connections c).bind Connection.task

/--
What a step is to the coarser model.
-/
def coarse (d : Delivery) : Label → List Subscriptions.Label
  | .subscribe c topic answer _ =>
    match d.connections c with
    | none => [.subscribe c topic answer]
    | some _ => []
  | .receive _ => []
  | .acknowledge c cut =>
    match d.connections c with
    | none => []
    | some connection =>
      if connection.stage = .receiving then [.acknowledge c cut.isNone] else []
  | .publish _ => []
  | .poll c cut =>
    match d.connections c with
    | none => []
    | some connection =>
      if connection.stage = .serving then
        match connection.receiver.recv.1 with
        | .empty => []
        | .lagged _ => [.lagged c]
        | .value message => [.message c message.topic cut.isNone]
      else
        []
  | .shutdown c =>
    match d.connections c with
    | none => []
    | some connection => if connection.stage = .serving then [.shutdown c] else []

variable {s : Subscriptions} {d : Delivery} {c : Nat} {connection : Connection}

theorem Simulates.handle (h : Simulates s d) (loop : EventLoop) :
    Simulates { s with loop := loop } { d with loop := loop } :=
  ⟨rfl, h.tasks⟩

theorem Simulates.insert (h : Simulates s d) {task : SubscribeTask}
    (htask : connection.task = some task) :
    Simulates { s with tasks := s.tasks.insert c task } (d.set c connection) where
  loop := h.loop
  tasks other := by
    rw [connections_set]
    by_cases hother : other = c
    . rw [hother, if_pos rfl, AList.lookup_insert, Option.bind_some, htask]
    . rw [if_neg hother, AList.lookup_insert_ne hother, h.tasks]

theorem Simulates.erase (h : Simulates s d) (htask : connection.task = none) :
    Simulates { s with tasks := s.tasks.erase c } (d.set c connection) where
  loop := h.loop
  tasks other := by
    rw [connections_set]
    by_cases hother : other = c
    . rw [hother, if_pos rfl, AList.lookup_erase, Option.bind_some, htask]
    . rw [if_neg hother, AList.lookup_erase_ne hother, h.tasks]

/--
A change that the coarser model does not see.
-/
theorem Simulates.same (h : Simulates s d) {before : Connection} (hbefore : d.connections c = some before)
    (htask : connection.task = before.task) : Simulates s (d.set c connection) where
  loop := h.loop
  tasks other := by
    rw [connections_set]
    by_cases hother : other = c
    . rw [hother, if_pos rfl, h.tasks, hbefore, Option.bind_some, Option.bind_some, htask]
    . rw [if_neg hother, h.tasks]

theorem Simulates.leave (h : Simulates s d) (hconnection : d.connections c = some connection)
    (hstage : connection.stage = .serving) {other : Connection} (htopic : other.topic = connection.topic) :
    Simulates (Subscriptions.leave c s) (d.leave c other) := by
  have htask : s.tasks.lookup c = some ⟨connection.topic, true, true⟩ := by
    rw [h.tasks, hconnection, Option.bind_some, Connection.task, hstage]
  unfold Subscriptions.leave Subscriptions.unsubscribe Delivery.leave
  rw [htask]
  dsimp only
  rw [if_pos rfl, h.loop, htopic]
  exact (h.handle _).erase rfl

theorem Simulates.subscribe (h : Simulates s d) (hnone : d.connections c = none) (topic : String)
    (answer : Answer) (cut : Option Nat) :
    Simulates (Subscriptions.subscribe c topic answer s) (d.subscribe c topic answer cut) := by
  have hfree : c ∉ s.tasks := by
    rw [← AList.lookup_eq_none, h.tasks, hnone, Option.bind_none]
  unfold Subscriptions.subscribe Delivery.subscribe
  rw [if_neg hfree, hnone]
  dsimp only
  rw [h.loop]
  cases answer.gossip with
  | ok u => exact (h.handle _).insert rfl
  | error e =>
    refine ⟨rfl, ?_⟩
    intro other
    rw [connections_set]
    by_cases hother : other = c
    . rw [hother, if_pos rfl, h.tasks, hnone]
      rfl
    . rw [if_neg hother, h.tasks]

theorem Simulates.acknowledge (h : Simulates s d) (hconnection : d.connections c = some connection)
    (hstage : connection.stage = .receiving) (cut : Option Nat) :
    Simulates (Subscriptions.acknowledge c cut.isNone s) (d.acknowledge c cut) := by
  have htask : s.tasks.lookup c = some ⟨connection.topic, false, true⟩ := by
    rw [h.tasks, hconnection, Option.bind_some, Connection.task, hstage]
  unfold Subscriptions.acknowledge Delivery.acknowledge
  rw [htask, hconnection]
  dsimp only
  rw [if_neg Bool.false_ne_true, if_pos hstage]
  cases cut with
  | none => exact h.insert rfl
  | some n => exact h.erase rfl

theorem Simulates.publish (h : Simulates s d) (message : GossipMessage) :
    Simulates s (d.publish message) where
  loop := h.loop
  tasks c := by
    change _ = ((d.connections c).map _).bind Connection.task
    rw [h.tasks, Option.bind_map]
    congr 1
    funext connection
    rw [Function.comp_apply]
    split
    . simp only [Connection.task]
    . simp only [Connection.task]

theorem Simulates.poll (h : Simulates s d) (hconnection : d.connections c = some connection)
    (hstage : connection.stage = .serving) (cut : Option Nat) :
    Simulates (Run.run Subscriptions.step s (coarse d (.poll c cut))) (d.poll c cut) := by
  have htask : s.tasks.lookup c = some ⟨connection.topic, true, true⟩ := by
    rw [h.tasks, hconnection, Option.bind_some, Connection.task, hstage]
  simp only [coarse, Delivery.poll, hconnection, hstage, if_true]
  rcases connection.receiver.recv with ⟨received, receiver⟩
  cases received with
  | empty => exact h
  | lagged missed => exact h.leave hconnection hstage rfl
  | value message =>
    change Simulates (Subscriptions.message c message.topic cut.isNone s) _
    unfold Subscriptions.message
    rw [htask]
    dsimp only
    by_cases htopic : message.topic = connection.topic
    . rw [if_neg (not_not_intro htopic)]
      cases cut with
      | none =>
        rw [if_pos (.inr rfl)]
        exact h.same hconnection (by simp only [Connection.task, Connection.write, hstage])
      | some n =>
        rw [if_neg (by simpa using htopic)]
        exact h.leave hconnection hstage rfl
    . rw [if_pos htopic, if_pos (.inl htopic)]
      exact h.same hconnection (by simp only [Connection.task, hstage])

theorem Simulates.step (h : Simulates s d) (l : Label) :
    Simulates (Run.run Subscriptions.step s (coarse d l)) (Delivery.step l d) := by
  cases l with
  | subscribe c topic answer cut =>
    cases hconnection : d.connections c with
    | none =>
      simp only [coarse, hconnection]
      exact h.subscribe hconnection topic answer cut
    | some connection =>
      simp only [coarse, hconnection, Delivery.step, Delivery.subscribe]
      exact h
  | receive c =>
    cases hconnection : d.connections c with
    | none =>
      simp only [coarse, hconnection, Delivery.step, Delivery.receive]
      exact h
    | some connection =>
      simp only [coarse, hconnection, Delivery.step, Delivery.receive]
      split
      . next hstage =>
        apply h.same hconnection
        rw [Connection.task, Connection.task, hstage]
      . exact h
  | acknowledge c cut =>
    cases hconnection : d.connections c with
    | none =>
      simp only [coarse, hconnection, Delivery.step, Delivery.acknowledge]
      exact h
    | some connection =>
      by_cases hstage : connection.stage = .receiving
      . simp only [coarse, hconnection, hstage]
        exact h.acknowledge hconnection hstage cut
      . simp only [coarse, hconnection, Delivery.step, Delivery.acknowledge, hstage]
        exact h
  | publish message => exact h.publish message
  | poll c cut =>
    cases hconnection : d.connections c with
    | none =>
      simp only [coarse, hconnection, Delivery.step, Delivery.poll]
      exact h
    | some connection =>
      by_cases hstage : connection.stage = .serving
      . exact h.poll hconnection hstage cut
      . simp only [coarse, hconnection, Delivery.step, Delivery.poll, hstage]
        exact h
  | shutdown c =>
    cases hconnection : d.connections c with
    | none =>
      simp only [coarse, hconnection, Delivery.step, Delivery.shutdown]
      exact h
    | some connection =>
      by_cases hstage : connection.stage = .serving
      . simp only [coarse, hconnection, hstage, Delivery.step, Delivery.shutdown, if_true]
        exact h.leave hconnection hstage rfl
      . simp only [coarse, hconnection, Delivery.step, Delivery.shutdown, hstage]
        exact h

theorem simulates_start (localPeer : PeerId) : Simulates (.start localPeer) (start localPeer) :=
  ⟨rfl, fun _ => rfl⟩

theorem Simulates.run (h : Simulates s d) (labels : List Label) :
    ∃ ls, Simulates (Run.run Subscriptions.step s ls) (Run.run Delivery.step d labels) := by
  induction labels generalizing s d with
  | nil => exact ⟨[], h⟩
  | cons l labels ih =>
    obtain ⟨ls, hls⟩ := ih (h.step l)
    refine ⟨coarse d l ++ ls, ?_⟩
    rw [Run.run_append]
    exact hls

/--
Every run of the tasks with their channels and sockets is a run of the coarser model: the same topics
are subscribed, and the same tasks are there.
-/
theorem refines (localPeer : PeerId) (labels : List Label) :
    ∃ ls, Simulates (Run.run Subscriptions.step (.start localPeer) ls)
      (Run.run Delivery.step (start localPeer) labels) :=
  (simulates_start localPeer).run labels

end Refinement

end Delivery

end Canopee
