import Mathlib.Data.List.MinMax

/-!
This module contains passes over a list that keep the first of the greatest values seen, where only
some elements have a value.
-/

namespace Selection

variable {ι α β : Type} [LinearOrder β] {value : ι → Option α} {rank : α → β}

/--
One step of a pass that replaces the best so far by the next one only if that is greater.
-/
theorem argmax_cons_cons (a b : α) (l : List α) :
    (a :: b :: l).argmax rank =
      if rank b ≤ rank a then (a :: l).argmax rank else (b :: l).argmax rank := by
  simp only [List.argmax_cons]
  cases l.argmax rank with
  | none => grind
  | some c =>
    by_cases hbc : rank b < rank c
    . simp only [hbc, if_true]
      grind
    . simp only [hbc, if_false]
      grind

/--
A pass over `l` selects the element `i` for its value `a`: every value before it is smaller and no
value after it is greater.
-/
def Selects (value : ι → Option α) (rank : α → β) (l : List ι) (i : ι) (a : α) : Prop :=
  ∃ before after, l = before ++ i :: after ∧ value i = some a ∧
    (∀ j ∈ before, ∀ b, value j = some b → rank b < rank a) ∧
    ∀ j ∈ after, ∀ b, value j = some b → rank b ≤ rank a

theorem Selects.value_eq {l : List ι} {i : ι} {a : α} (h : Selects value rank l i a) :
    value i = some a := by
  obtain ⟨_, _, _, hvalue, _⟩ := h
  exact hvalue

theorem Selects.mem {l : List ι} {i : ι} {a : α} (h : Selects value rank l i a) : i ∈ l := by
  obtain ⟨before, after, happend, _⟩ := h
  simp [happend]

theorem selects_cons_iff {l : List ι} {i j : ι} {a : α} :
    Selects value rank (j :: l) i a ↔
      (i = j ∧ value j = some a ∧ ∀ k ∈ l, ∀ b, value k = some b → rank b ≤ rank a) ∨
      (Selects value rank l i a ∧ ∀ b, value j = some b → rank b < rank a) := by
  constructor
  . intro ⟨before, after, happend, hvalue, hbefore, hafter⟩
    cases before with
    | nil =>
      simp only [List.nil_append, List.cons.injEq] at happend
      obtain ⟨rfl, rfl⟩ := happend
      exact .inl ⟨rfl, hvalue, hafter⟩
    | cons k before =>
      simp only [List.cons_append, List.cons.injEq] at happend
      simp only [List.mem_cons, forall_eq_or_imp] at hbefore
      obtain ⟨rfl, happend⟩ := happend
      exact .inr ⟨⟨before, after, happend, hvalue, hbefore.2, hafter⟩, hbefore.1⟩
  . intro h
    cases h with
    | inl h =>
      obtain ⟨rfl, hvalue, hl⟩ := h
      exact ⟨[], l, rfl, hvalue, by simp, hl⟩
    | inr h =>
      obtain ⟨⟨before, after, happend, hvalue, hbefore, hafter⟩, hj⟩ := h
      refine ⟨j :: before, after, by simp [happend], hvalue, ?_, hafter⟩
      simp only [List.mem_cons, forall_eq_or_imp]
      exact ⟨hj, hbefore⟩

theorem argmax_filterMap_le_iff {l : List ι} {a : α} :
    (∀ c, (l.filterMap value).argmax rank = some c → rank c ≤ rank a) ↔
      ∀ j ∈ l, ∀ b, value j = some b → rank b ≤ rank a := by
  constructor
  . intro h j hj b hb
    have hmem : b ∈ l.filterMap value := List.mem_filterMap.mpr ⟨j, hj, hb⟩
    cases hc : (l.filterMap value).argmax rank with
    | none =>
      rw [List.argmax_eq_none] at hc
      simp [hc] at hmem
    | some c => exact (List.le_of_mem_argmax hmem hc).trans (h c hc)
  . intro h c hc
    obtain ⟨j, hj, hb⟩ := List.mem_filterMap.mp (List.argmax_mem hc)
    exact h j hj c hb

/--
The pass that compares values and the declarative selection agree.
-/
theorem argmax_filterMap_eq_some_iff {l : List ι} {a : α} :
    (l.filterMap value).argmax rank = some a ↔ ∃ i, Selects value rank l i a := by
  induction l generalizing a with
  | nil => simp [Selects]
  | cons j l ih =>
    simp only [selects_cons_iff, exists_or, exists_and_right, ← ih,
      ← argmax_filterMap_le_iff]
    cases hj : value j with
    | none => simp [List.filterMap_cons_none hj]
    | some b =>
      rw [List.filterMap_cons_some hj, List.argmax_cons]
      cases (l.filterMap value).argmax rank with
      | none => simp
      | some c =>
        simp only [Option.some.injEq, forall_eq']
        by_cases hbc : rank b < rank c
        . grind
        . grind

/--
A pass selects one element only.
-/
theorem Selects.unique {l : List ι} {i j : ι} {a b : α} (hi : Selects value rank l i a)
    (hj : Selects value rank l j b) : i = j := by
  induction l with
  | nil => exact absurd hi.mem List.not_mem_nil
  | cons k l ih =>
    rw [selects_cons_iff] at hi hj
    rcases hi with ⟨rfl, hvalue, hle⟩ | ⟨hi, hlt⟩
    . rcases hj with ⟨rfl, _, _⟩ | ⟨hj, hlt⟩
      . rfl
      . exact absurd (hlt a hvalue) (not_lt.mpr (hle j hj.mem b hj.value_eq))
    . rcases hj with ⟨rfl, hvalue, hle⟩ | ⟨hj, _⟩
      . exact absurd (hlt b hvalue) (not_lt.mpr (hle i hi.mem a hi.value_eq))
      . exact ih hi hj

end Selection
