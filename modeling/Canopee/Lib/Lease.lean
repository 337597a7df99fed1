import Canopee.Lib.Run
import Mathlib.Data.List.Induction

/-!
This module contains leases: who holds one after a sequence of claims, renewals and releases, and since
when it was not renewed.
-/

namespace Lease

open Run (run run_nil run_cons run_append)

variable {α : Type} [DecidableEq α]

/--
A claim takes the lease from whoever holds it. A renewal is for the holder only, and a release is for
everybody.
-/
inductive Op (α : Type) where
  | claim (owner : α) (time : Nat)
  | renew (owner : α) (time : Nat)
  | release

/--
The holder and the time of its last claim or renewal.
-/
abbrev State (α : Type) :=
  Option (α × Nat)

def step : Op α → State α → State α
  | .claim owner time, _ => some (owner, time)
  | .renew _ _, none => none
  | .renew owner time, some (holder, seen) =>
    if holder = owner then some (owner, time) else some (holder, seen)
  | .release, _ => none

/--
The operation leaves the lease with its owner.
-/
def Op.Spares (owner : α) : Op α → Prop
  | claim other _ => other = owner
  | renew _ _ => True
  | release => False

/--
When the owner claims or renews the lease.
-/
def Op.seen (owner : α) : Op α → Option Nat
  | claim other time => if other = owner then some time else none
  | renew other time => if other = owner then some time else none
  | release => none

variable {ops : List (Op α)} {owner : α} {time : Nat}

theorem step_spares {op : Op α} (h : op.Spares owner) (time : Nat) :
    step op (some (owner, time)) = some (owner, (op.seen owner).getD time) := by
  cases op with
  | claim other later =>
    obtain rfl : other = owner := h
    simp [step, Op.seen]
  | renew other later =>
    by_cases hother : owner = other
    . simp [step, Op.seen, hother]
    . simp [step, Op.seen, hother, Ne.symm hother]
  | release => cases h

theorem run_spares (h : ∀ op ∈ ops, op.Spares owner) (time : Nat) :
    run step (some (owner, time)) ops =
      some (owner, ((ops.filterMap (Op.seen owner)).getLast?).getD time) := by
  induction ops generalizing time with
  | nil => rfl
  | cons op ops ih =>
    rw [List.forall_mem_cons] at h
    rw [run_cons, step_spares h.1, ih h.2]
    cases hseen : op.seen owner with
    | none => rw [List.filterMap_cons_none hseen, Option.getD_none]
    | some later =>
      rw [List.filterMap_cons_some hseen, List.getLast?_cons, Option.getD_some, Option.getD_some]

/--
The owner claimed the lease, nobody has released or taken it since, and `time` is when the owner was
last seen.
-/
def Held (ops : List (Op α)) (owner : α) (time : Nat) : Prop :=
  ∃ before start after, ops = before ++ .claim owner start :: after ∧
    (∀ op ∈ after, op.Spares owner) ∧
    ((Op.claim owner start :: after).filterMap (Op.seen owner)).getLast? = some time

theorem Held.run (h : Held ops owner time) (s : State α) :
    Run.run step s ops = some (owner, time) := by
  obtain ⟨before, start, after, rfl, hspares, hlast⟩ := h
  have hseen : (Op.claim owner start).seen owner = some start := if_pos rfl
  rw [List.filterMap_cons_some hseen, List.getLast?_cons, Option.some.injEq] at hlast
  rw [run_append, run_cons]
  exact (run_spares hspares start).trans (by rw [hlast])

theorem Held.snoc {op : Op α} (h : Held ops owner time) (hspares : op.Spares owner) :
    Held (ops ++ [op]) owner ((op.seen owner).getD time) := by
  obtain ⟨before, start, after, rfl, hafter, hlast⟩ := h
  refine ⟨before, start, after ++ [op], by simp, ?_, ?_⟩
  . intro other hother
    rcases List.mem_append.mp hother with hmem | hmem
    . exact hafter other hmem
    . rw [List.mem_singleton.mp hmem]
      exact hspares
  . rw [← List.cons_append, List.filterMap_append, List.getLast?_append, hlast]
    cases hseen : op.seen owner with
    | none => simp [hseen]
    | some later => simp [hseen]

/--
Who holds the lease after a run, and when it was last seen.
-/
theorem run_eq_some_iff : run step none ops = some (owner, time) ↔ Held ops owner time := by
  constructor
  . induction ops using List.reverseRecOn generalizing owner time with
    | nil =>
      intro h
      cases h
    | append_singleton ops op ih =>
      intro h
      rw [run_append, run_cons, run_nil] at h
      cases op with
      | claim other later =>
        cases h
        exact ⟨ops, time, [], rfl, by simp, by simp [Op.seen]⟩
      | renew other later =>
        cases hbefore : run step none ops with
        | none =>
          rw [hbefore] at h
          cases h
        | some held =>
          obtain ⟨holder, seen⟩ := held
          have hspares : (Op.renew other later).Spares holder := trivial
          have hheld := (ih hbefore).snoc hspares
          rw [hbefore, step_spares hspares, Option.some.injEq, Prod.mk.injEq] at h
          rw [← h.1, ← h.2]
          exact hheld
      | release => cases h
  . intro h
    exact h.run none

end Lease
