import Canopee.Lib.Run
import Canopee.Runtime.PairingHandler

/-!
This module contains when the pairing handler outlives the requests that it gets: when none arrives
while its channel is full.
-/

namespace Canopee

open Prog (exec)

variable [Primitives]

theorem Runtime.acceptPairing_returns (env : Env) (w : Runtime) (incoming : InboundPairing) :
    ∃ response w', exec (acceptPairing incoming) env w = (.ok response, w') := by
  unfold acceptPairing
  rw [Prog.exec_bind_ok (Prog.exec_attempt _ env w)]
  split
  . exact ⟨_, _, rfl⟩
  . exact ⟨_, _, rfl⟩

namespace PairingHandler

/--
The task goes on on its own for `k` rounds, and nothing arrives.
-/
def drain (envs : Nat → Env) : Nat → PairingHandler → PairingHandler
  | 0, s => step (.finish (envs 0)) s
  | k + 1, s => drain envs k (step .recv (step (.finish (envs (k + 1))) s))

/--
The task runs, and the requests that are in the channel are answered in order.
-/
def Serves (s : PairingHandler) : Prop :=
  s.running = true ∧ ∀ envs,
    (drain envs s.channel.unread.length s).answered.map Prod.fst =
      s.answered.map Prod.fst ++ s.processing.toList ++ s.channel.unread

variable {s : PairingHandler}

theorem finish_eq (env : Env) (s : PairingHandler) :
    ∃ node answers, s.finish env =
        { s with node := node, processing := none, answered := s.answered ++ answers } ∧
      answers.map Prod.fst = s.processing.toList := by
  unfold finish
  split
  . next h =>
    refine ⟨s.node, [], ?_, ?_⟩
    . rw [List.append_nil, ← h]
    . rw [h]
      rfl
  . next incoming h =>
    obtain ⟨response, node, haccept⟩ := Runtime.acceptPairing_returns env s.node incoming
    refine ⟨node, [(incoming, response)], ?_, ?_⟩
    . rw [haccept]
    . rw [h]
      rfl

theorem drain_answers (envs : Nat → Env) (hrunning : s.running = true)
    (hmissed : s.channel.missed = 0) :
    (drain envs s.channel.unread.length s).answered.map Prod.fst =
      s.answered.map Prod.fst ++ s.processing.toList ++ s.channel.unread := by
  generalize hk : s.channel.unread.length = k
  induction k generalizing s with
  | zero =>
    obtain ⟨node, answers, hfinish, hanswers⟩ := finish_eq (envs 0) s
    have hempty : s.channel.unread = [] := List.eq_nil_of_length_eq_zero hk
    simp only [drain, step, hfinish, hempty]
    rw [List.map_append, hanswers, List.append_nil]
  | succ k ih =>
    obtain ⟨node, answers, hfinish, hanswers⟩ := finish_eq (envs (k + 1)) s
    obtain ⟨incoming, rest, hunread⟩ := List.exists_cons_of_length_eq_add_one hk
    obtain ⟨channel, hrecv, hrest, hmissed'⟩ := Broadcast.recv_cons hmissed hunread
    simp only [drain, step, hfinish, recv, hrunning, hrecv]
    rw [ih rfl hmissed' (by rw [hunread, List.length_cons] at hk; rw [hrest]; omega)]
    simp [hanswers, hunread, hrest]

theorem drain_stopped (envs : Nat → Env) (hrunning : s.running = false)
    (hprocessing : s.processing = none) (k : Nat) : drain envs k s = s := by
  have hfinish (env : Env) : step (.finish env) s = s := by
    simp only [step, finish, hprocessing]
  induction k with
  | zero => rw [drain, hfinish]
  | succ k ih =>
    have hrecv : step .recv s = s := by
      simp only [step, recv, hrunning]
    rw [drain, hfinish, hrecv, ih]

theorem drain_lagged (envs : Nat → Env) (hrunning : s.running = true)
    (hmissed : s.channel.missed ≠ 0) (hunread : s.channel.unread ≠ []) :
    (drain envs s.channel.unread.length s).answered.map Prod.fst =
      s.answered.map Prod.fst ++ s.processing.toList := by
  obtain ⟨k, hk⟩ := Nat.exists_eq_succ_of_ne_zero (List.length_pos_of_ne_nil hunread).ne'
  obtain ⟨node, answers, hfinish, hanswers⟩ := finish_eq (envs (k + 1)) s
  rw [hk]
  simp only [drain, step, hfinish, recv, hrunning, Broadcast.recv_lagged hmissed]
  rw [drain_stopped envs rfl rfl, List.map_append, hanswers]

theorem serves_iff (h : s.channel.missed ≠ 0 → s.channel.unread ≠ []) :
    s.Serves ↔ s.running = true ∧ s.channel.missed = 0 := by
  constructor
  . intro ⟨hrunning, hanswers⟩
    refine ⟨hrunning, ?_⟩
    by_contra hmissed
    have hlagged := drain_lagged (fun _ => Env.quiet 0) hrunning hmissed (h hmissed)
    rw [hanswers] at hlagged
    have hlength := congrArg List.length hlagged
    rw [List.length_append] at hlength
    have hpos := List.length_pos_of_ne_nil (h hmissed)
    omega
  . intro ⟨hrunning, hmissed⟩
    exact ⟨hrunning, fun envs => drain_answers envs hrunning hmissed⟩

/--
A request arrives while the channel has room for it.
-/
def Roomy : Label → PairingHandler → Prop
  | .inbound _, s => s.channel.unread.length < pairingCapacity
  | _, _ => True

/--
The task runs and does not lag.
-/
def Attends (s : PairingHandler) : Prop :=
  s.running = true ∧ s.channel.missed = 0

theorem attends_step_iff {l : Label} (h : s.Attends) : (step l s).Attends ↔ Roomy l s := by
  obtain ⟨hrunning, hmissed⟩ := h
  cases l with
  | inbound incoming =>
    simp only [step, inbound, hrunning, if_true, Attends, true_and,
      Broadcast.send_missed_eq_zero_iff, hmissed, Roomy]
  | recv =>
    apply iff_of_true _ trivial
    simp only [step, recv, hrunning]
    cases hprocessing : s.processing with
    | some incoming => exact ⟨hrunning, hmissed⟩
    | none =>
      dsimp only
      cases hunread : s.channel.unread with
      | nil =>
        rw [Broadcast.recv_nil hmissed hunread]
        exact ⟨hrunning, hmissed⟩
      | cons incoming rest =>
        obtain ⟨channel, hrecv, _, hmissed'⟩ := Broadcast.recv_cons hmissed hunread
        rw [hrecv]
        exact ⟨rfl, hmissed'⟩
  | finish env =>
    apply iff_of_true _ trivial
    obtain ⟨node, answers, hfinish, _⟩ := finish_eq env s
    simp only [step, hfinish]
    exact ⟨hrunning, hmissed⟩
  | node f => exact iff_of_true ⟨hrunning, hmissed⟩ trivial

theorem missed_step {l : Label} (h : s.Attends) (hmissed : (step l s).channel.missed ≠ 0) :
    (step l s).channel.unread ≠ [] := by
  have hkept (hl : Roomy l s) : (step l s).channel.missed = 0 := ((attends_step_iff h).mpr hl).2
  cases l with
  | inbound incoming =>
    simp only [step, inbound, h.1, if_true]
    apply Broadcast.send_unread_ne_nil
    decide
  -- the others overwrite nothing
  | recv => exact absurd (hkept trivial) hmissed
  | finish env => exact absurd (hkept trivial) hmissed
  | node f => exact absurd (hkept trivial) hmissed

theorem serves_step_iff {l : Label} (h : s.Attends) : (step l s).Serves ↔ Roomy l s := by
  rw [serves_iff (missed_step h)]
  apply attends_step_iff h

/--
All the time the handler runs and answers what is in its channel, just when no request arrives while
the channel is full.
-/
theorem serves_always_iff (node : Runtime) (ls : List Label) :
    Run.Always step Serves (start node) ls ↔ Run.Along step Roomy (start node) ls := by
  have hstart : (start node).Attends := ⟨rfl, rfl⟩
  rw [Run.always_iff, and_iff_right ((serves_iff (fun h => absurd rfl h)).mpr hstart)]
  apply Run.along_iff (A := fun _ _ => True) _ hstart
  . intro l t _ ht
    apply serves_step_iff ht
  . intro l t _ ht hroomy
    apply (attends_step_iff ht).mpr hroomy
  . apply Run.along_of_forall
    intro l _ t
    trivial

end PairingHandler

end Canopee

namespace Canopee.PairingHandler

open Canopee.Compact
open Canopee.Runtime (fresh)
open Prog (exec)

section Counterexample

def knock : InboundPairing where
  peer := ⟨"cc"⟩
  request := ⟨"cc", "aa", "none", []⟩

/--
A request, and 65 more while it is processed.
-/
def burst : List Label :=
  [.inbound knock, .recv] ++ List.replicate 65 (.inbound knock) ++ [.finish (Env.quiet 0), .recv]

/--
The task has answered one request and is gone; the 65 others are turned away, and so is any later
one.
-/
theorem burst_ends_handler :
    (Run.run step (start (fresh alice laptop)) burst).running = false ∧
      (Run.run step (start (fresh alice laptop)) burst).answered.length = 1 ∧
      ((Run.run step (start (fresh alice laptop)) (burst ++ [.inbound knock])).responses.drop 1).map
        Prod.snd = List.replicate 66 (.error "pairing handler unavailable") ∧
      ¬ Run.Always step Serves (start (fresh alice laptop)) burst := by
  have hrunning : (Run.run step (start (fresh alice laptop)) burst).running = false := by
    decide +kernel
  refine ⟨hrunning, by decide +kernel, by decide +kernel, ?_⟩
  intro h
  have hserves := h.last.1
  rw [hrunning] at hserves
  cases hserves

end Counterexample

end Canopee.PairingHandler
