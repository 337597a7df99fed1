import Canopee.Lib.Text

/-!
This module contains texts that are made of segments, each behind a separator: what such a text starts
with, and where it is cut.
-/

namespace Segments

open Text (splitOnceOn stripPrefix stripPrefix_eq_some_iff)

variable {α : Type} {sep : α} {segment first part : List α} {segments rest rest' : List (List α)}

/--
The text of the segments, each behind `sep`.
-/
def join (sep : α) (segments : List (List α)) : List α :=
  segments.flatMap (sep :: ·)

theorem join_cons : join sep (segment :: rest) = sep :: (segment ++ join sep rest) := rfl

theorem join_append : join sep (rest ++ rest') = join sep rest ++ join sep rest' :=
  List.flatMap_append

/--
No segment has the separator in it.
-/
def Plain (sep : α) (segments : List (List α)) : Prop :=
  ∀ segment ∈ segments, sep ∉ segment

/--
What can stand behind a segment: nothing or the next separator.
-/
def Continues (sep : α) (text : List α) : Prop :=
  text = [] ∨ ∃ t, text = sep :: t

theorem continues_join_append {text : List α} (h : Continues sep text) :
    Continues sep (join sep segments ++ text) := by
  cases segments with
  | nil => exact h
  | cons segment segments => exact .inr ⟨_, rfl⟩

theorem continues_join : Continues sep (join sep segments) := by
  cases segments with
  | nil => exact .inl rfl
  | cons segment segments => exact .inr ⟨_, rfl⟩

section Ends

variable [DecidableEq α]

/--
A segment ends where the next one starts.
-/
theorem takeWhile_append {text : List α} (h : sep ∉ segment) (htext : Continues sep text) :
    (segment ++ text).takeWhile (· ≠ sep) = segment := by
  have hall : ∀ a ∈ segment, decide (a ≠ sep) = true := by
    intro a ha
    rw [decide_eq_true_eq]
    intro heq
    exact h (heq ▸ ha)
  rw [List.takeWhile_append_of_pos hall]
  rcases htext with rfl | ⟨t, rfl⟩
  . exact List.append_nil segment
  . rw [List.takeWhile_cons_of_neg (by simp), List.append_nil]

theorem append_join_inj {other : List α} (h : sep ∉ segment) (hother : sep ∉ other)
    (heq : segment ++ join sep rest = other ++ join sep rest') : segment = other := by
  rw [← takeWhile_append h continues_join, heq, takeWhile_append hother continues_join]

/--
A text that starts with a whole segment and a part of another one has these as its first segments.
-/
theorem prefix_join_iff (hhead : ∀ segment, segments.head? = some segment → sep ∉ segment)
    (hfirst : sep ∉ first) (hpart : sep ∉ part) :
    sep :: (first ++ sep :: part) <+: join sep segments ↔
      ∃ next rest, segments = first :: next :: rest ∧ part <+: next := by
  constructor
  . intro ⟨t, ht⟩
    cases segments with
    | nil => cases ht
    | cons segment segments =>
      have hsegment := hhead segment rfl
      rw [join_cons, List.cons_append, List.cons.injEq, and_iff_right rfl, List.append_assoc] at ht
      have hwhole : first = segment := by
        rw [← takeWhile_append hsegment continues_join, ← ht, List.cons_append,
          takeWhile_append hfirst (.inr ⟨_, rfl⟩)]
      subst hwhole
      rw [List.append_cancel_left_eq] at ht
      cases segments with
      | nil => cases ht
      | cons next rest =>
        rw [join_cons, List.cons_append, List.cons.injEq, and_iff_right rfl] at ht
        refine ⟨next, rest, rfl, ?_⟩
        rcases List.prefix_or_prefix_of_prefix ⟨t, ht⟩ (List.prefix_append next _) with h | ⟨u, hu⟩
        . exact h
        . -- the rest of the part would start with a separator
          rw [← hu, List.append_assoc, List.append_cancel_left_eq] at ht
          cases u with
          | nil => exact ⟨[], by rw [← hu]; simp⟩
          | cons a u =>
            cases rest with
            | nil => cases ht
            | cons other rest =>
              rw [join_cons, List.cons_append, List.cons.injEq] at ht
              rw [← hu, ht.1] at hpart
              simp at hpart
  . rintro ⟨next, rest, rfl, t, rfl⟩
    rw [join_cons, join_cons, List.append_assoc]
    exact ⟨t ++ join sep rest, by simp⟩

end Ends

section Cuts

variable [DecidableEq α]

theorem splitOnceOn_append_of_not_mem {text : List α} (h : sep ∉ segment) :
    splitOnceOn (sep :: part) (segment ++ text) =
      (splitOnceOn (sep :: part) text).map fun (x, y) => (segment ++ x, y) := by
  induction segment with
  | nil => simp
  | cons a segment ih =>
    rw [List.mem_cons, not_or] at h
    have hstrip : stripPrefix (sep :: part) (a :: (segment ++ text)) = none := by
      cases hsome : stripPrefix (sep :: part) (a :: (segment ++ text)) with
      | none => rfl
      | some rest => exact absurd (List.cons.inj (stripPrefix_eq_some_iff.mp hsome)).1.symm h.1
    rw [List.cons_append, splitOnceOn, hstrip]
    dsimp only
    rw [ih h.2, Option.map_map]
    rfl

/--
No cut is made in segments other than `part`.
-/
theorem splitOnceOn_join_append {text : List α} (hplain : Plain sep segments)
    (htext : Continues sep text) (hpart : sep ∉ part) (hnot : part ∉ segments) :
    splitOnceOn (sep :: (part ++ [sep])) (join sep segments ++ text) =
      (splitOnceOn (sep :: (part ++ [sep])) text).map fun (x, y) => (join sep segments ++ x, y) := by
  induction segments with
  | nil =>
    change splitOnceOn _ ([] ++ _) = _
    simp [join]
  | cons segment segments ih =>
    have hsegment := hplain segment List.mem_cons_self
    have hsegments : Plain sep segments := fun s hs => hplain s (List.mem_cons_of_mem _ hs)
    rw [List.mem_cons, not_or] at hnot
    rw [join_cons, List.cons_append, List.append_assoc, splitOnceOn]
    cases hstrip : stripPrefix (sep :: (part ++ [sep])) (sep :: (segment ++ (join sep segments ++ text)))
      with
    | some y =>
      have heq := stripPrefix_eq_some_iff.mp hstrip
      rw [List.cons_append, List.cons.injEq, and_iff_right rfl, List.append_assoc,
        List.singleton_append] at heq
      have hsame := congrArg (List.takeWhile (· ≠ sep)) heq
      rw [takeWhile_append hsegment (continues_join_append htext),
        takeWhile_append hpart (.inr ⟨y, rfl⟩)] at hsame
      exact absurd hsame.symm hnot.1
    | none =>
      dsimp only
      rw [splitOnceOn_append_of_not_mem hsegment, ih hsegments hnot.2, Option.map_map, Option.map_map]
      congr 1
      funext pieces
      simp

theorem splitOnceOn_join (hplain : Plain sep segments) (hpart : sep ∉ part)
    (hnot : part ∉ segments) : splitOnceOn (sep :: (part ++ [sep])) (join sep segments) = none := by
  have hcut := splitOnceOn_join_append hplain (.inl rfl) hpart hnot
  rw [List.append_nil] at hcut
  rw [hcut]
  simp [splitOnceOn]

/--
The first cut is made in front of the segment `part` and another one.
-/
theorem splitOnceOn_join_cons {next : List α} (hplain : Plain sep segments) (hpart : sep ∉ part)
    (hnot : part ∉ segments) :
    splitOnceOn (sep :: (part ++ [sep])) (join sep (segments ++ part :: next :: rest)) =
      some (join sep segments, next ++ join sep rest) := by
  have hstrip : stripPrefix (sep :: (part ++ [sep])) (join sep (part :: next :: rest)) =
      some (next ++ join sep rest) := by
    rw [stripPrefix_eq_some_iff, join_cons, join_cons]
    simp
  rw [join_cons] at hstrip
  rw [join_append, splitOnceOn_join_append hplain continues_join hpart hnot, join_cons, splitOnceOn,
    hstrip]
  simp

end Cuts

end Segments
