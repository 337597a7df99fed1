import Mathlib.Data.List.Basic

/-!
This module contains readers of a stream of which only the beginning has arrived: a reader takes
elements off the front, fails, or waits for more, and what it has decided does not change when more
arrives.
-/

namespace Incremental

variable {α β γ : Type}

inductive Outcome (α β : Type) where
  | wait
  | fail
  | done (value : β) (rest : List α)

def Reader (α β : Type) := List α → Outcome α β

namespace Reader

def run (r : Reader α β) (s : List α) : Outcome α β :=
  r s

instance : Monad (Reader α) where
  pure b := fun s => .done b s
  bind r f := fun s =>
    match run r s with
    | .wait => .wait
    | .fail => .fail
    | .done b rest => run (f b) rest

def fail : Reader α β :=
  fun _ => .fail

def one : Reader α α
  | [] => .wait
  | a :: s => .done a s

/--
The next `n` elements.
-/
def exact (n : Nat) : Reader α (List α) :=
  fun s => if n ≤ s.length then .done (s.take n) (s.drop n) else .wait

theorem run_bind (r : Reader α β) (f : β → Reader α γ) (s : List α) :
    run (r >>= f) s =
      match run r s with
      | .wait => .wait
      | .fail => .fail
      | .done b rest => run (f b) rest := rfl

theorem run_bind_done {r : Reader α β} {s rest : List α} {b : β} (h : run r s = .done b rest)
    (f : β → Reader α γ) : run (r >>= f) s = run (f b) rest := by
  rw [run_bind, h]

theorem run_one (a : α) (s : List α) : run one (a :: s) = .done a s := rfl

theorem run_exact {n : Nat} {s : List α} (rest : List α) (h : s.length = n) :
    run (exact n) (s ++ rest) = .done s rest := by
  subst h
  unfold run exact
  rw [if_pos (by simp), List.take_left, List.drop_left]

/--
What was decided stands when more arrives, and nothing is put back.
-/
structure Stable (r : Reader α β) : Prop where
  fail : ∀ {s : List α} (t : List α), run r s = .fail → run r (s ++ t) = .fail
  done : ∀ {s rest : List α} {b : β} (t : List α), run r s = .done b rest →
    run r (s ++ t) = .done b (rest ++ t)
  left : ∀ {s rest : List α} {b : β}, run r s = .done b rest → rest.length ≤ s.length

theorem stable_pure (b : β) : Stable (pure b : Reader α β) where
  fail t h := by cases h
  done t h := by
    cases h
    rfl
  left h := by
    cases h
    apply Nat.le_refl

theorem stable_fail : Stable (fail : Reader α β) where
  fail t h := rfl
  done t h := by cases h
  left h := by cases h

theorem stable_one : Stable (one : Reader α α) where
  fail {s} t h := by
    cases s with
    | nil => cases h
    | cons a s => cases h
  done {s rest b} t h := by
    cases s with
    | nil => cases h
    | cons a s =>
      cases h
      rfl
  left {s rest b} h := by
    cases s with
    | nil => cases h
    | cons a s =>
      cases h
      simp

theorem stable_exact (n : Nat) : Stable (exact n : Reader α (List α)) where
  fail {s} t h := by
    unfold run exact at h
    split at h
    . cases h
    . cases h
  done {s rest b} t h := by
    unfold run exact at h
    split at h
    . next hle =>
      cases h
      have hlength : (s.take n).length = n := List.length_take_of_le hle
      have hread := run_exact (s.drop n ++ t) hlength
      rwa [← List.append_assoc, List.take_append_drop] at hread
    . cases h
  left {s rest b} h := by
    unfold run exact at h
    split at h
    . cases h
      simp
    . cases h

theorem Stable.bind {r : Reader α β} {f : β → Reader α γ} (hr : Stable r)
    (hf : ∀ b, Stable (f b)) : Stable (r >>= f) where
  fail {s} t h := by
    rw [run_bind] at h
    cases hs : run r s with
    | wait =>
      rw [hs] at h
      cases h
    | fail => rw [run_bind, hr.fail t hs]
    | done b rest =>
      rw [hs] at h
      rw [run_bind_done (hr.done t hs)]
      exact (hf b).fail t h
  done {s rest c} t h := by
    rw [run_bind] at h
    cases hs : run r s with
    | wait =>
      rw [hs] at h
      cases h
    | fail =>
      rw [hs] at h
      cases h
    | done b left =>
      rw [hs] at h
      rw [run_bind_done (hr.done t hs)]
      exact (hf b).done t h
  left {s rest c} h := by
    rw [run_bind] at h
    cases hs : run r s with
    | wait =>
      rw [hs] at h
      cases h
    | fail =>
      rw [hs] at h
      cases h
    | done b left =>
      rw [hs] at h
      exact Nat.le_trans ((hf b).left h) (hr.left hs)

theorem stable_ite {p : Prop} [Decidable p] {r r' : Reader α β} (hr : Stable r) (hr' : Stable r') :
    Stable (if p then r else r') := by
  split
  . exact hr
  . exact hr'

/--
As long as a part of what a reader takes is missing, it waits.
-/
theorem Stable.wait {r : Reader α β} (hr : Stable r) {s t rest : List α} {b : β}
    (h : run r (s ++ t) = .done b rest) (hmissing : rest.length < t.length) : run r s = .wait := by
  cases hs : run r s with
  | wait => rfl
  | fail =>
    rw [hr.fail t hs] at h
    cases h
  | done b' rest' =>
    rw [hr.done t hs] at h
    cases h
    rw [List.length_append] at hmissing
    omega

end Reader

end Incremental
