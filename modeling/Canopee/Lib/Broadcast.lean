import Mathlib.Data.List.Basic

/-!
This module contains a receiver of a bounded broadcast channel: sending never waits, so that a value
that does not fit overwrites the oldest one, and the receiver is told when that has happened.
-/

structure Broadcast (α : Type) (capacity : Nat) where
  -- what the receiver has not read, oldest first
  unread : List α
  -- how many values were overwritten since it last read
  missed : Nat
  bounded : unread.length ≤ capacity

inductive Broadcast.Received (α : Type) where
  | value (a : α)
  | empty
  | lagged (missed : Nat)

namespace Broadcast

variable {α : Type} {capacity : Nat}

def empty : Broadcast α capacity where
  unread := []
  missed := 0
  bounded := Nat.zero_le _

/--
The values that have to make room for another one.
-/
def overwritten (a : α) (ch : Broadcast α capacity) : List α :=
  (ch.unread ++ [a]).take (ch.unread.length + 1 - capacity)

def send (a : α) (ch : Broadcast α capacity) : Broadcast α capacity where
  unread := (ch.unread ++ [a]).drop (ch.unread.length + 1 - capacity)
  missed := ch.missed + (ch.unread.length + 1 - capacity)
  bounded := by
    rw [List.length_drop, List.length_append, List.length_singleton]
    omega

theorem length_le_of_unread {ch : Broadcast α capacity} {a : α} {rest : List α}
    (h : ch.unread = a :: rest) : rest.length ≤ capacity := by
  have hbounded := ch.bounded
  rw [h, List.length_cons] at hbounded
  omega

def recv (ch : Broadcast α capacity) : Received α × Broadcast α capacity :=
  if ch.missed ≠ 0 then
    (.lagged ch.missed, { ch with missed := 0 })
  else
    match h : ch.unread with
    | [] => (.empty, ch)
    | a :: rest =>
      (.value a, { unread := rest, missed := 0, bounded := length_le_of_unread h })

theorem overwritten_append (a : α) (ch : Broadcast α capacity) :
    overwritten a ch ++ (ch.send a).unread = ch.unread ++ [a] :=
  List.take_append_drop _ _

theorem send_missed (a : α) (ch : Broadcast α capacity) :
    (ch.send a).missed = ch.missed + (overwritten a ch).length := by
  simp only [overwritten, send, List.length_take, List.length_append, List.length_singleton]
  omega

theorem send_missed_eq_zero_iff {a : α} {ch : Broadcast α capacity} :
    (ch.send a).missed = 0 ↔ ch.missed = 0 ∧ ch.unread.length < capacity := by
  simp only [send]
  omega

/--
A value that is sent is there to be read, unless the channel has no room at all.
-/
theorem send_unread_ne_nil {a : α} {ch : Broadcast α capacity} (h : capacity ≠ 0) :
    (ch.send a).unread ≠ [] := by
  apply List.ne_nil_of_length_pos
  simp only [send, List.length_drop, List.length_append, List.length_singleton]
  omega

theorem recv_lagged {ch : Broadcast α capacity} (h : ch.missed ≠ 0) :
    ch.recv = (.lagged ch.missed, { ch with missed := 0 }) := by
  rw [recv, if_pos h]

theorem recv_nil {ch : Broadcast α capacity} (h : ch.missed = 0) (hunread : ch.unread = []) :
    ch.recv = (.empty, ch) := by
  rw [recv, if_neg (by simpa using h)]
  split
  . rfl
  . next heq =>
    rw [hunread] at heq
    cases heq

theorem recv_cons {ch : Broadcast α capacity} {a : α} {rest : List α} (h : ch.missed = 0)
    (hunread : ch.unread = a :: rest) :
    ∃ ch' : Broadcast α capacity, ch.recv = (.value a, ch') ∧ ch'.unread = rest ∧ ch'.missed = 0 := by
  rw [recv, if_neg (by simpa using h)]
  split
  . next heq =>
    rw [hunread] at heq
    cases heq
  . next b others heq =>
    rw [hunread] at heq
    cases heq
    exact ⟨_, rfl, rfl, rfl⟩

theorem recv_eq_value {ch ch' : Broadcast α capacity} {a : α} (h : ch.recv = (.value a, ch')) :
    ch.missed = 0 ∧ ∃ rest, ch.unread = a :: rest := by
  by_cases hmissed : ch.missed = 0
  . refine ⟨hmissed, ?_⟩
    cases hunread : ch.unread with
    | nil =>
      rw [recv_nil hmissed hunread] at h
      cases h
    | cons b rest =>
      obtain ⟨_, hrecv, _, _⟩ := recv_cons hmissed hunread
      rw [hrecv] at h
      cases h
      exact ⟨rest, rfl⟩
  . rw [recv_lagged hmissed] at h
    cases h

end Broadcast
