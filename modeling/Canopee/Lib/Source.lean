import Mathlib.Data.List.Basic

/-!
This module contains buffered reading from a source that delivers its elements in chunks: what is
read up to a delimiter does not depend on how the source is cut.
-/

/--
A buffer and the chunks that are still to come.
-/
structure Source (α : Type) where
  buffer : List α
  chunks : List (List α)

namespace Source

variable {α : Type}

def rest (source : Source α) : List α :=
  source.buffer ++ source.chunks.flatten

section Cut

variable (p : α → Bool)

/--
What ends with the first element that `p` holds of, and what follows it.
-/
def splitAfter : List α → Option (List α × List α)
  | [] => none
  | a :: s => if p a then some ([a], s) else (splitAfter s).map fun (x, y) => (a :: x, y)

def cut (s : List α) : List α × List α :=
  (splitAfter p s).getD (s, [])

/--
Reading up to and with a delimiter: as long as the buffer holds none, it is taken whole and filled
with the next chunk.
-/
def readFrom (buffer : List α) : List (List α) → List α × Source α
  | [] =>
    match splitAfter p buffer with
    | some (line, left) => (line, ⟨left, []⟩)
    | none => (buffer, ⟨[], []⟩)
  | chunk :: chunks =>
    match splitAfter p buffer with
    | some (line, left) => (line, ⟨left, chunk :: chunks⟩)
    | none =>
      let (line, source) := readFrom chunk chunks
      (buffer ++ line, source)

def readUntil (source : Source α) : List α × Source α :=
  readFrom p source.buffer source.chunks

end Cut

variable {p : α → Bool}

theorem splitAfter_append_of_some {s line left : List α} (t : List α)
    (h : splitAfter p s = some (line, left)) : splitAfter p (s ++ t) = some (line, left ++ t) := by
  induction s generalizing line left with
  | nil => cases h
  | cons a s ih =>
    rw [List.cons_append]
    unfold splitAfter at h ⊢
    split at h
    . next ha =>
      cases h
      rw [if_pos ha]
    . next ha =>
      rw [Option.map_eq_some_iff] at h
      obtain ⟨pieces, hpieces, heq⟩ := h
      cases heq
      rw [if_neg ha, ih hpieces]
      rfl

theorem cut_append_of_none {s : List α} (t : List α) (h : splitAfter p s = none) :
    cut p (s ++ t) = (s ++ (cut p t).1, (cut p t).2) := by
  induction s with
  | nil => rfl
  | cons a s ih =>
    unfold splitAfter at h
    split at h
    . cases h
    . next ha =>
      rw [Option.map_eq_none_iff] at h
      have hcut := ih h
      unfold cut at hcut ⊢
      rw [List.cons_append, splitAfter, if_neg ha]
      cases hsplit : splitAfter p (s ++ t) with
      | none =>
        rw [hsplit] at hcut
        simp only [Option.getD_none, Prod.mk.injEq] at hcut
        simp only [Option.map_none, Option.getD_none, Prod.mk.injEq, List.cons_append,
          List.cons.injEq, true_and]
        exact hcut
      | some pieces =>
        rw [hsplit] at hcut
        simp only [Option.getD_some] at hcut
        simp [hcut]

theorem cut_append_of_some {s line left : List α} (t : List α)
    (h : splitAfter p s = some (line, left)) : cut p (s ++ t) = (line, left ++ t) := by
  unfold cut
  rw [splitAfter_append_of_some t h]
  rfl

theorem readFrom_rest (buffer : List α) (chunks : List (List α)) :
    (readFrom p buffer chunks).1 = (cut p (buffer ++ chunks.flatten)).1 ∧
      (readFrom p buffer chunks).2.rest = (cut p (buffer ++ chunks.flatten)).2 := by
  induction chunks generalizing buffer with
  | nil =>
    unfold readFrom
    cases hsplit : splitAfter p buffer with
    | none =>
      rw [cut_append_of_none _ hsplit]
      simp [cut, splitAfter, rest]
    | some pieces =>
      rw [cut_append_of_some _ hsplit]
      simp [rest]
  | cons chunk chunks ih =>
    unfold readFrom
    cases hsplit : splitAfter p buffer with
    | none =>
      rw [cut_append_of_none _ hsplit]
      have ⟨hline, hrest⟩ := ih chunk
      exact ⟨congrArg (buffer ++ ·) hline, hrest⟩
    | some pieces =>
      rw [cut_append_of_some _ hsplit]
      simp [rest]

/--
What is read, and what is left, depends on the elements to come and not on their chunks.
-/
theorem readUntil_rest (source : Source α) :
    (source.readUntil p).1 = (cut p source.rest).1 ∧
      (source.readUntil p).2.rest = (cut p source.rest).2 :=
  readFrom_rest source.buffer source.chunks

theorem splitAfter_eq_none {s : List α} (h : ∀ a ∈ s, p a = false) : splitAfter p s = none := by
  induction s with
  | nil => rfl
  | cons a s ih =>
    rw [List.forall_mem_cons] at h
    unfold splitAfter
    rw [if_neg (by simp [h.1]), ih h.2]
    rfl

/--
The elements before a delimiter are read with it.
-/
theorem cut_append_cons {s : List α} {d : α} (t : List α) (h : ∀ a ∈ s, p a = false)
    (hd : p d = true) : cut p (s ++ d :: t) = (s ++ [d], t) := by
  rw [cut_append_of_none _ (splitAfter_eq_none h)]
  unfold cut splitAfter
  rw [if_pos hd]
  rfl

theorem cut_eq_self {s : List α} (h : ∀ a ∈ s, p a = false) : cut p s = (s, []) := by
  unfold cut
  rw [splitAfter_eq_none h]
  rfl

theorem cut_append (s : List α) : (cut p s).1 ++ (cut p s).2 = s := by
  unfold cut
  induction s with
  | nil => rfl
  | cons a s ih =>
    unfold splitAfter
    split
    . rfl
    . cases hsplit : splitAfter p s with
      | none => simp
      | some pieces =>
        rw [hsplit] at ih
        simp only [Option.getD_some] at ih
        simp [ih]

theorem cut_eq_nil_iff {s : List α} : (cut p s).1 = [] ↔ s = [] := by
  cases s with
  | nil => simp [cut, splitAfter]
  | cons a s =>
    unfold cut splitAfter
    split
    . simp
    . cases splitAfter p s with
      | none => simp
      | some pieces => simp

end Source
