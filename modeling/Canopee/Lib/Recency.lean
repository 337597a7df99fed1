/-!
This module contains histories of an index that knows when its keys were last used: of the index itself,
and of a copy that some uses bring up to date and that a reload goes back to.
-/

namespace Recency

variable {κ τ υ : Type}

inductive Use (κ τ : Type) where
  | mark (key : κ) (time : τ)
  -- does nothing to a key that is not tracked
  | serve (key : κ) (time : τ)
  | drop (key : κ)

/--
A use, which the copy may be brought up to date with, or a reload of the copy.
-/
inductive Event (κ τ : Type) where
  | use (use : Use κ τ) (saved : Bool)
  | reload

/--
`key` was marked and not dropped since. The latest use comes first, here and below.
-/
def Tracked (key : κ) : List (Use κ τ) → Prop
  | [] => False
  | .mark other _ :: uses => other = key ∨ Tracked key uses
  | .serve _ _ :: uses => Tracked key uses
  | .drop other :: uses => other ≠ key ∧ Tracked key uses

/--
The time at which `key` was last marked or served.
-/
def lastTime [DecidableEq κ] (key : κ) : List (Use κ τ) → Option τ
  | [] => none
  | .mark other time :: uses => if other = key then some time else lastTime key uses
  | .serve other time :: uses => if other = key then some time else lastTime key uses
  | .drop _ :: uses => lastTime key uses

/--
What the index knows and what the copy knows: a reload forgets what was not saved.
-/
def recalled : List (Event κ τ) → List (Use κ τ) × List (Use κ τ)
  | [] => ([], [])
  | .use use saved :: events =>
    let known := use :: (recalled events).1
    (known, if saved then known else (recalled events).2)
  | .reload :: events => ((recalled events).2, (recalled events).2)

/--
`key` was dropped and not marked since, whatever was reloaded.
-/
def Dropped (key : κ) : List (Event κ τ) → Prop
  | [] => False
  | .use (.mark other _) _ :: events => other ≠ key ∧ Dropped key events
  | .use (.serve _ _) _ :: events => Dropped key events
  | .use (.drop other) _ :: events => other = key ∨ Dropped key events
  | .reload :: events => Dropped key events

/--
`lookup` finds the tracked keys, with the times of their last uses as `f` writes them.
-/
structure Holds [DecidableEq κ] (f : τ → υ) (lookup : κ → Option υ) (uses : List (Use κ τ)) : Prop
    where
  tracked : ∀ key, (lookup key).isSome = true ↔ Tracked key uses
  time : ∀ key written, lookup key = some written → ∃ time, lastTime key uses = some time ∧
    f time = written

section Holds

variable [DecidableEq κ] {f : τ → υ} {lookup lookup' : κ → Option υ} {uses : List (Use κ τ)}
variable {key : κ} {time : τ}

theorem holds_nil (h : ∀ key, lookup key = none) : Holds f lookup ([] : List (Use κ τ)) where
  tracked key := by simp [h, Tracked]
  time key written hwritten := by
    rw [h] at hwritten
    cases hwritten

theorem Holds.congr (h : Holds f lookup uses) (heq : ∀ key, lookup' key = lookup key) :
    Holds f lookup' uses := by
  rw [funext heq]
  exact h

theorem Holds.mark (h : Holds f lookup uses) (hkey : lookup' key = some (f time))
    (hother : ∀ other, other ≠ key → lookup' other = lookup other) :
    Holds f lookup' (.mark key time :: uses) := by
  constructor
  . intro other
    unfold Tracked
    by_cases heq : other = key
    . simp [heq, hkey]
    . rw [hother other heq, h.tracked, or_iff_right (Ne.symm heq)]
  . intro other written hwritten
    unfold lastTime
    by_cases heq : other = key
    . rw [heq, hkey] at hwritten
      rw [if_pos heq.symm]
      exact ⟨time, rfl, Option.some.inj hwritten⟩
    . rw [hother other heq] at hwritten
      rw [if_neg (Ne.symm heq)]
      exact h.time other written hwritten

theorem Holds.serve (h : Holds f lookup uses)
    (hkey : lookup' key = (lookup key).map fun _ => f time)
    (hother : ∀ other, other ≠ key → lookup' other = lookup other) :
    Holds f lookup' (.serve key time :: uses) := by
  constructor
  . intro other
    unfold Tracked
    rw [← h.tracked]
    by_cases heq : other = key
    . rw [heq, hkey, Option.isSome_map]
    . rw [hother other heq]
  . intro other written hwritten
    unfold lastTime
    by_cases heq : other = key
    . rw [heq, hkey] at hwritten
      obtain ⟨_, _, hwritten⟩ := Option.map_eq_some_iff.mp hwritten
      rw [if_pos heq.symm]
      exact ⟨time, rfl, hwritten⟩
    . rw [hother other heq] at hwritten
      rw [if_neg (Ne.symm heq)]
      exact h.time other written hwritten

theorem Holds.drop (h : Holds f lookup uses) (hkey : lookup' key = none)
    (hother : ∀ other, other ≠ key → lookup' other = lookup other) :
    Holds f lookup' (.drop key :: uses) := by
  constructor
  . intro other
    unfold Tracked
    by_cases heq : other = key
    . simp [heq, hkey]
    . rw [hother other heq, h.tracked, and_iff_right (Ne.symm heq)]
  . intro other written hwritten
    unfold lastTime
    by_cases heq : other = key
    . rw [heq, hkey] at hwritten
      cases hwritten
    . rw [hother other heq] at hwritten
      exact h.time other written hwritten

end Holds

/--
The times at which keys were marked or served.
-/
def times : List (Use κ τ) → List τ
  | [] => []
  | .mark _ time :: uses => time :: times uses
  | .serve _ time :: uses => time :: times uses
  | .drop _ :: uses => times uses

theorem mem_times_of_lastTime [DecidableEq κ] {key : κ} {time : τ} {uses : List (Use κ τ)}
    (h : lastTime key uses = some time) : time ∈ times uses := by
  induction uses with
  | nil => cases h
  | cons use uses ih =>
    cases use with
    | mark other t =>
      unfold lastTime at h
      unfold times
      split at h
      . cases h
        exact List.mem_cons_self
      . exact List.mem_cons_of_mem _ (ih h)
    | serve other t =>
      unfold lastTime at h
      unfold times
      split at h
      . cases h
        exact List.mem_cons_self
      . exact List.mem_cons_of_mem _ (ih h)
    | drop other => exact ih h

end Recency
