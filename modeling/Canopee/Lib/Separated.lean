import Mathlib.Data.List.Basic

/-!
This module contains fields that are joined by a separator: which of them can be told from the joined
text.
-/

namespace Separated

variable {α : Type} {c : α} {as bs as' bs' : List α}

/--
The first separator is found, when the fields before it have none.
-/
theorem append_cons_inj (h : c ∉ as) (h' : c ∉ as') :
    as ++ c :: bs = as' ++ c :: bs' ↔ as = as' ∧ bs = bs' := by
  induction as generalizing as' with
  | nil =>
    cases as' with
    | nil => simp
    | cons a' as' =>
      simp only [List.mem_cons, not_or] at h'
      simp [h'.1]
  | cons a as ih =>
    simp only [List.mem_cons, not_or] at h
    cases as' with
    | nil => simp [Ne.symm h.1]
    | cons a' as' =>
      simp only [List.mem_cons, not_or] at h'
      simp [ih h.2 h'.2, and_assoc]

/--
The last separator is found, when the fields behind it have none.
-/
theorem append_cons_inj_right (h : c ∉ bs) (h' : c ∉ bs') :
    as ++ c :: bs = as' ++ c :: bs' ↔ as = as' ∧ bs = bs' := by
  rw [← List.reverse_inj]
  simp only [List.reverse_append, List.reverse_cons, List.append_assoc, List.singleton_append]
  rw [append_cons_inj (by simpa using h) (by simpa using h')]
  simp [and_comm]

theorem not_mem_intercalate {a : α} {ls : List (List α)} (ha : a ≠ c) (h : ∀ l ∈ ls, a ∉ l) :
    a ∉ [c].intercalate ls := by
  induction ls with
  | nil => simp
  | cons l ls ih =>
    simp only [List.forall_mem_cons] at h
    cases ls with
    | nil => simpa using h.1
    | cons l' ls =>
      rw [List.intercalate_cons_cons]
      simp only [List.mem_append, List.mem_singleton, not_or]
      exact ⟨⟨h.1, ha⟩, ih h.2⟩

/--
Fields without the separator are told from the joined text, unless it can be nothing or one empty
field.
-/
theorem intercalate_inj [BEq α] [LawfulBEq α] {ls ls' : List (List α)} (h : ∀ l ∈ ls, c ∉ l ∧ l ≠ [])
    (h' : ∀ l ∈ ls', c ∉ l ∧ l ≠ []) : [c].intercalate ls = [c].intercalate ls' ↔ ls = ls' := by
  have hempty {ks : List (List α)} (hks : ∀ l ∈ ks, c ∉ l ∧ l ≠ [])
      (hnil : [c].intercalate ks = []) : ks = [] := by
    by_contra hne
    have hsplit := List.splitOn_intercalate c (fun l hl => (hks l hl).1) hne
    rw [hnil, List.splitOn_nil] at hsplit
    have hmem : [] ∈ ks := by simp [← hsplit]
    exact (hks [] hmem).2 rfl
  constructor
  . intro heq
    by_cases hls : ls = []
    . rw [hls, List.intercalate_nil] at heq
      rw [hls, hempty h' heq.symm]
    . have hls' : ls' ≠ [] := by
        intro hnil
        rw [hnil, List.intercalate_nil] at heq
        exact hls (hempty h heq)
      rw [← List.splitOn_intercalate c (fun l hl => (h l hl).1) hls, heq,
        List.splitOn_intercalate c (fun l hl => (h' l hl).1) hls']
  . intro heq
    rw [heq]

section Framed

variable {frame before after x y : List α}

/--
The frame with a separator on both sides does not begin at a separator within itself.
-/
def Unbordered (c : α) (frame : List α) : Prop :=
  ∀ before after, frame = before ++ c :: after → ∀ x y, after ++ c :: x ≠ frame ++ c :: y

/--
Two places of a framed field overlap in a separator at most.
-/
theorem framed_shift (hframe : Unbordered c frame)
    (h : c :: (frame ++ c :: x) = before ++ c :: (frame ++ c :: y)) (hne : before ≠ []) :
    ∃ rest, before = c :: (frame ++ rest) := by
  cases before with
  | nil => exact absurd rfl hne
  | cons a before =>
    simp only [List.cons_append, List.cons.injEq] at h
    obtain ⟨rfl, h⟩ := h
    rcases List.append_eq_append_iff.mp h with ⟨rest, rfl, _⟩ | ⟨rest, heq, hrest⟩
    . exact ⟨rest, rfl⟩
    . cases rest with
      | nil => exact ⟨[], by simp [heq]⟩
      | cons b rest =>
        simp only [List.cons_append, List.cons.injEq] at hrest
        obtain ⟨rfl, hrest⟩ := hrest
        exact absurd hrest.symm (hframe before rest heq x y)

/--
A text is framed in one place only just when the framed field occurs neither in what stands before
it nor in what stands behind it.
-/
theorem framed_inj_iff (hframe : Unbordered c frame) :
    (∀ before' after', before' ++ c :: (frame ++ c :: after') =
      before ++ c :: (frame ++ c :: after) → before' = before ∧ after' = after) ↔
      ¬ c :: (frame ++ [c]) <:+: before ++ [c] ∧ ¬ c :: (frame ++ [c]) <:+: c :: after := by
  constructor
  . intro h
    constructor
    . rintro ⟨p, q, hpq⟩
      have hwhole : p ++ c :: (frame ++ c :: (q ++ (frame ++ c :: after))) =
          before ++ c :: (frame ++ c :: after) := by
        have hcat := congrArg (· ++ (frame ++ c :: after)) hpq
        simpa using hcat
      have hlength := congrArg List.length hpq
      rw [(h _ _ hwhole).1] at hlength
      simp at hlength
    . rintro ⟨p, q, hpq⟩
      have hwhole : (before ++ c :: (frame ++ p)) ++ c :: (frame ++ c :: q) =
          before ++ c :: (frame ++ c :: after) := by
        rw [← hpq]
        simp
      have hlength := congrArg List.length (h _ _ hwhole).1
      simp at hlength
  . rintro ⟨hbefore, hafter⟩ before' after' heq
    rcases List.append_eq_append_iff.mp heq with ⟨shift, rfl, hshift⟩ | ⟨shift, rfl, hshift⟩
    . by_cases hnil : shift = []
      . subst hnil
        simpa using hshift
      . obtain ⟨rest, rfl⟩ := framed_shift hframe hshift hnil
        have hrest : c :: after' = rest ++ c :: (frame ++ c :: after) := by simpa using hshift
        refine absurd ?_ hbefore
        cases rest with
        | nil => exact ⟨before', [], by simp⟩
        | cons b rest =>
          simp only [List.cons_append, List.cons.injEq] at hrest
          obtain ⟨rfl, _⟩ := hrest
          exact ⟨before', rest ++ [c], by simp⟩
    . by_cases hnil : shift = []
      . subst hnil
        simpa using hshift.symm
      . obtain ⟨rest, rfl⟩ := framed_shift hframe hshift hnil
        have hrest : c :: after = rest ++ c :: (frame ++ c :: after') := by simpa using hshift
        refine absurd ?_ hafter
        exact ⟨rest, after', by simp [hrest]⟩

end Framed

end Separated
