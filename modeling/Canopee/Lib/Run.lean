/-!
This module contains runs of a transition function over a list of labels, conditions on the steps of
a run, and the induction rules for them.
-/

namespace Run

variable {σ ι : Type} (step : ι → σ → σ)

/--
The state after the steps labelled `ls`.
-/
def run (s : σ) : List ι → σ
  | [] => s
  | l :: ls => run (step l s) ls

/--
Every step of the run from `s` satisfies `C`, a condition on its label and on the state before it.
-/
def Along (C : ι → σ → Prop) (s : σ) : List ι → Prop
  | [] => True
  | l :: ls => C l s ∧ Along C (step l s) ls

/--
Every state of the run from `s`, the first and the last included, satisfies `P`.
-/
def Always (P : σ → Prop) (s : σ) : List ι → Prop
  | [] => P s
  | l :: ls => P s ∧ Always P (step l s) ls

instance decidableAlong (C : ι → σ → Prop) [∀ l s, Decidable (C l s)] :
    (s : σ) → (ls : List ι) → Decidable (Along step C s ls)
  | _, [] => .isTrue trivial
  | s, l :: ls =>
    have := decidableAlong C (step l s) ls
    inferInstanceAs (Decidable (C l s ∧ Along step C (step l s) ls))

variable {step}

@[simp]
theorem run_nil (s : σ) : run step s [] = s := rfl

@[simp]
theorem run_cons (s : σ) (l : ι) (ls : List ι) : run step s (l :: ls) = run step (step l s) ls := rfl

theorem run_append (s : σ) (ls ms : List ι) : run step s (ls ++ ms) = run step (run step s ls) ms := by
  induction ls generalizing s with
  | nil => rfl
  | cons l ls ih => simp [ih]

@[simp]
theorem along_nil (C : ι → σ → Prop) (s : σ) : Along step C s [] := trivial

@[simp]
theorem along_cons (C : ι → σ → Prop) (s : σ) (l : ι) (ls : List ι) :
    Along step C s (l :: ls) ↔ C l s ∧ Along step C (step l s) ls := Iff.rfl

theorem along_append (C : ι → σ → Prop) (s : σ) (ls ms : List ι) :
    Along step C s (ls ++ ms) ↔ Along step C s ls ∧ Along step C (run step s ls) ms := by
  induction ls generalizing s with
  | nil => simp
  | cons l ls ih => simp [ih, and_assoc]

theorem Along.mono {C D : ι → σ → Prop} {s : σ} {ls : List ι} (h : Along step C s ls)
    (hCD : ∀ l t, C l t → D l t) : Along step D s ls := by
  induction ls generalizing s with
  | nil => trivial
  | cons l ls ih => exact ⟨hCD l s h.1, ih h.2⟩

/--
A condition that holds of every step of a run holds of the step in the middle of it.
-/
theorem Along.at {C : ι → σ → Prop} {s : σ} {ls ms : List ι} {l : ι}
    (h : Along step C s (ls ++ l :: ms)) : C l (run step s ls) := by
  rw [along_append] at h
  exact h.2.1

theorem along_of_splits {C : ι → σ → Prop} {s : σ} {ls : List ι}
    (h : ∀ before l after, ls = before ++ l :: after → C l (run step s before)) : Along step C s ls := by
  induction ls generalizing s with
  | nil => trivial
  | cons l ls ih =>
    refine ⟨h [] l ls rfl, ih ?_⟩
    intro before m after hls
    exact h (l :: before) m after (by rw [hls, List.cons_append])

/--
The induction rule for runs: what holds at first and is kept by every step that meets `C` holds
after a run whose steps meet `C`.
-/
theorem Along.invariant {C : ι → σ → Prop} {I : σ → Prop} {s : σ} {ls : List ι}
    (h : Along step C s ls) (hs : I s) (hstep : ∀ l t, C l t → I t → I (step l t)) :
    I (run step s ls) := by
  induction ls generalizing s with
  | nil => exact hs
  | cons l ls ih => exact ih h.2 (hstep l s h.1 hs)

theorem Along.always {C : ι → σ → Prop} {I : σ → Prop} {s : σ} {ls : List ι}
    (h : Along step C s ls) (hs : I s) (hstep : ∀ l t, C l t → I t → I (step l t)) :
    Always step I s ls := by
  induction ls generalizing s with
  | nil => exact hs
  | cons l ls ih => exact ⟨hs, ih h.2 (hstep l s h.1 hs)⟩

theorem Along.and {C D : ι → σ → Prop} {s : σ} {ls : List ι} (hC : Along step C s ls)
    (hD : Along step D s ls) : Along step (fun l t => C l t ∧ D l t) s ls := by
  induction ls generalizing s with
  | nil => trivial
  | cons l ls ih => exact ⟨⟨hC.1, hD.1⟩, ih hC.2 hD.2⟩

/--
What always holds holds at first and after every step.
-/
theorem always_iff {P : σ → Prop} {s : σ} {ls : List ι} :
    Always step P s ls ↔ P s ∧ Along step (fun l t => P (step l t)) s ls := by
  induction ls generalizing s with
  | nil => simp [Always]
  | cons l ls ih => simp [Always, ih]

theorem Always.last {P : σ → Prop} {s : σ} {ls : List ι} (h : Always step P s ls) :
    P (run step s ls) := by
  induction ls generalizing s with
  | nil => exact h
  | cons l ls ih => exact ih h.2

theorem Always.mono {P Q : σ → Prop} {s : σ} {ls : List ι} (h : Always step P s ls)
    (hPQ : ∀ t, P t → Q t) : Always step Q s ls := by
  induction ls generalizing s with
  | nil => exact hPQ s h
  | cons l ls ih => exact ⟨hPQ s h.1, ih h.2⟩

/--
Where `I` always holds, what is equivalent under `I` always holds together.
-/
theorem Always.congr {I P Q : σ → Prop} {s : σ} {ls : List ι} (h : Always step I s ls)
    (hPQ : ∀ t, I t → (P t ↔ Q t)) : Always step P s ls ↔ Always step Q s ls := by
  induction ls generalizing s with
  | nil => exact hPQ s h
  | cons l ls ih =>
    unfold Always
    rw [hPQ s h.1, ih h.2]

/--
A condition that holds of every step from a state in `P` holds along a run through such states.
-/
theorem Always.along {P : σ → Prop} {C : ι → σ → Prop} {s : σ} {ls : List ι}
    (h : Always step P s ls) (hC : ∀ l t, P t → C l t) : Along step C s ls := by
  induction ls generalizing s with
  | nil => trivial
  | cons l ls ih => exact ⟨hC l s h.1, ih h.2⟩

/--
Two conditions on steps that agree wherever `I` holds agree along a run from `I` whose steps meet
`A`, when those that also meet the second condition keep `I`.
-/
theorem along_iff {A C D : ι → σ → Prop} {I : σ → Prop} {s : σ} {ls : List ι}
    (h : Along step A s ls) (hs : I s) (hiff : ∀ l t, A l t → I t → (C l t ↔ D l t))
    (hstep : ∀ l t, A l t → I t → D l t → I (step l t)) :
    Along step C s ls ↔ Along step D s ls := by
  induction ls generalizing s with
  | nil => simp
  | cons l ls ih =>
    simp only [along_cons]
    rw [hiff l s h.1 hs]
    constructor
    . intro hC
      exact ⟨hC.1, (ih h.2 (hstep l s h.1 hs hC.1)).mp hC.2⟩
    . intro hD
      exact ⟨hD.1, (ih h.2 (hstep l s h.1 hs hD.1)).mpr hD.2⟩

theorem along_of_forall {C : ι → σ → Prop} {ls : List ι} (h : ∀ l ∈ ls, ∀ t, C l t) (s : σ) :
    Along step C s ls := by
  induction ls generalizing s with
  | nil => trivial
  | cons l ls ih =>
    simp only [List.mem_cons, forall_eq_or_imp] at h
    exact ⟨h.1 s, ih h.2 _⟩

/--
Two conditions that agree on every step agree along every run.
-/
theorem along_congr {C D : ι → σ → Prop} (h : ∀ l t, C l t ↔ D l t) (s : σ) (ls : List ι) :
    Along step C s ls ↔ Along step D s ls := by
  apply along_iff (A := fun _ _ => True) (I := fun _ => True) _ trivial
  . intro l t _ _
    exact h l t
  . intro l t _ _ _
    trivial
  . exact along_of_forall (fun _ _ _ => trivial) s

end Run
