import Mathlib.Algebra.Ring.Nat
import Mathlib.Data.List.TakeWhile

/-!
This module contains the operations of a string library on texts as lists of characters: trimming,
splitting, comparing without case, and reading numbers.
-/

namespace Text

section Split

variable {α : Type} [DecidableEq α]

def trimBy (p : α → Bool) (s : List α) : List α :=
  ((s.dropWhile p).reverse.dropWhile p).reverse

/--
The text before and the text after the first `sep`.
-/
def splitOnce (sep : α) : List α → Option (List α × List α)
  | [] => none
  | a :: s => if a = sep then some ([], s) else (splitOnce sep s).map fun (x, y) => (a :: x, y)

/--
What comes before the first `sep`.
-/
def firstPiece (sep : α) (s : List α) : List α :=
  s.takeWhile (· ≠ sep)

/--
What comes after the last `sep`.
-/
def lastPiece (sep : α) (s : List α) : List α :=
  (s.reverse.takeWhile (· ≠ sep)).reverse

def stripPrefix (pre s : List α) : Option (List α) :=
  if pre.isPrefixOf s then some (s.drop pre.length) else none

/--
The pieces of `s` between the elements that `p` holds of, without the empty ones.
-/
def splitBy (p : α → Bool) (s : List α) : List (List α) :=
  (s.splitOnP p).filter (! ·.isEmpty)

/--
What follows each occurrence of `part`, of those that do not overlap an earlier one. The first `n`
characters belong to such an earlier one.
-/
def afterEach (part : List α) (n : Nat) : List α → List (List α)
  | [] => []
  | a :: s =>
    match n with
    | n + 1 => afterEach part n s
    | 0 =>
      match stripPrefix part (a :: s) with
      | some rest => rest :: afterEach part (part.length - 1) s
      | none => afterEach part 0 s

/--
The text before and the text after the first `part`.
-/
def splitOnceOn (part : List α) : List α → Option (List α × List α)
  | [] => if part.isEmpty then some ([], []) else none
  | a :: s =>
    match stripPrefix part (a :: s) with
    | some rest => some ([], rest)
    | none => (splitOnceOn part s).map fun (x, y) => (a :: x, y)

def contains (part : List α) : List α → Bool
  | [] => part.isEmpty
  | a :: s => part.isPrefixOf (a :: s) || contains part s

theorem splitOnce_append {sep : α} {x : List α} (y : List α) (h : sep ∉ x) :
    splitOnce sep (x ++ sep :: y) = some (x, y) := by
  induction x with
  | nil => simp [splitOnce]
  | cons a x ih =>
    rw [List.mem_cons, not_or] at h
    simp only [List.cons_append, splitOnce]
    rw [if_neg (Ne.symm h.1), ih h.2]
    rfl

theorem splitOnce_eq_some {sep : α} {s x y : List α} (h : splitOnce sep s = some (x, y)) :
    s = x ++ sep :: y ∧ sep ∉ x := by
  induction s generalizing x with
  | nil => cases h
  | cons a s ih =>
    simp only [splitOnce] at h
    split at h
    . next heq =>
      cases h
      exact ⟨by rw [heq]; rfl, List.not_mem_nil⟩
    . next hne =>
      obtain ⟨⟨x, y⟩, hsplit, heq⟩ := Option.map_eq_some_iff.mp h
      cases heq
      obtain ⟨rfl, hnot⟩ := ih hsplit
      refine ⟨rfl, ?_⟩
      rw [List.mem_cons, not_or]
      exact ⟨Ne.symm hne, hnot⟩

theorem splitOnce_eq_none_iff {sep : α} {s : List α} : splitOnce sep s = none ↔ sep ∉ s := by
  induction s with
  | nil => simp [splitOnce]
  | cons a s ih =>
    simp only [splitOnce, List.mem_cons, not_or]
    split
    . next h => simp [h]
    . next h =>
      rw [Option.map_eq_none_iff, ih]
      simp [Ne.symm h]

theorem stripPrefix_eq_some_iff {pre s x : List α} : stripPrefix pre s = some x ↔ s = pre ++ x := by
  unfold stripPrefix
  constructor
  . intro h
    split at h
    . next hprefix =>
      cases h
      obtain ⟨rest, rfl⟩ := List.isPrefixOf_iff_prefix.mp hprefix
      rw [List.drop_left]
    . cases h
  . rintro rfl
    rw [if_pos (by simp), List.drop_left]

/--
A text starts with at most one of two prefixes of which neither starts with the other.
-/
theorem stripPrefix_eq_none_of_some {pre other s x : List α} (h : stripPrefix pre s = some x)
    (hother : ¬ pre <+: other ∧ ¬ other <+: pre) : stripPrefix other s = none := by
  have hpre : pre <+: s := ⟨x, (stripPrefix_eq_some_iff.mp h).symm⟩
  unfold stripPrefix
  rw [if_neg]
  intro hprefix
  cases List.prefix_or_prefix_of_prefix hpre (List.isPrefixOf_iff_prefix.mp hprefix) with
  | inl hle => exact hother.1 hle
  | inr hle => exact hother.2 hle

theorem mem_of_contains {part s : List α} (h : contains part s = true) : ∀ c ∈ part, c ∈ s := by
  induction s with
  | nil =>
    intro c hc
    rw [contains, List.isEmpty_iff] at h
    rw [h] at hc
    cases hc
  | cons a s ih =>
    rw [contains, Bool.or_eq_true] at h
    rcases h with hprefix | hrest
    . intro c hc
      exact (List.isPrefixOf_iff_prefix.mp hprefix).subset hc
    . intro c hc
      exact List.mem_cons_of_mem a (ih hrest c hc)

theorem splitOnceOn_eq_some {part s x y : List α} (h : splitOnceOn part s = some (x, y)) :
    s = x ++ part ++ y := by
  induction s generalizing x with
  | nil =>
    unfold splitOnceOn at h
    split at h
    . next hpart =>
      cases h
      rw [List.isEmpty_iff.mp hpart]
      rfl
    . cases h
  | cons a s ih =>
    unfold splitOnceOn at h
    cases hstrip : stripPrefix part (a :: s) with
    | some rest =>
      rw [hstrip] at h
      cases h
      exact stripPrefix_eq_some_iff.mp hstrip
    | none =>
      rw [hstrip] at h
      obtain ⟨pieces, hpieces, heq⟩ := Option.map_eq_some_iff.mp h
      cases heq
      rw [ih hpieces]
      rfl

/--
What does not hold the first element of `part` stands before its first occurrence.
-/
theorem splitOnceOn_append {a : α} {part x : List α} (y : List α) (h : a ∉ x) :
    splitOnceOn (a :: part) (x ++ (a :: part ++ y)) = some (x, y) := by
  induction x with
  | nil =>
    have hstrip : stripPrefix (a :: part) (a :: (part ++ y)) = some y :=
      stripPrefix_eq_some_iff.mpr List.cons_append.symm
    rw [List.nil_append, List.cons_append, splitOnceOn, hstrip]
  | cons b x ih =>
    rw [List.mem_cons, not_or] at h
    have hstrip : stripPrefix (a :: part) (b :: (x ++ (a :: part ++ y))) = none := by
      cases hsome : stripPrefix (a :: part) (b :: (x ++ (a :: part ++ y))) with
      | none => rfl
      | some rest =>
        have heq := stripPrefix_eq_some_iff.mp hsome
        exact absurd (List.cons.inj heq).1.symm h.1
    rw [List.cons_append, splitOnceOn, hstrip, ih h.2]
    rfl

omit [DecidableEq α] in
theorem trimBy_eq_nil_iff {p : α → Bool} {s : List α} :
    trimBy p s = [] ↔ ∀ a ∈ s, p a = true := by
  unfold trimBy
  rw [List.reverse_eq_nil_iff, List.dropWhile_eq_nil_iff]
  constructor
  . intro h
    by_contra hne
    obtain ⟨a, ha, hpa⟩ : ∃ a ∈ s, p a ≠ true := by simpa using hne
    have hdrop : s.dropWhile p ≠ [] := by
      intro hnil
      rw [List.dropWhile_eq_nil_iff] at hnil
      exact hpa (hnil a ha)
    have hhead := List.head_dropWhile_not p hdrop
    rw [h _ (by simp)] at hhead
    cases hhead
  . intro h a ha
    apply h
    rw [List.mem_reverse] at ha
    exact (List.dropWhile_suffix p).subset ha

end Split

section SplitBy

variable {α : Type} {p : α → Bool} {s piece : List α}

theorem not_of_mem_splitOnP (h : piece ∈ s.splitOnP p) : ∀ a ∈ piece, p a = false := by
  induction s generalizing piece with
  | nil =>
    obtain rfl : piece = [] := by simpa using h
    intro a ha
    cases ha
  | cons b s ih =>
    rw [List.splitOnP_cons_eq_if_modifyHead] at h
    split at h
    . rcases List.mem_cons.mp h with rfl | hmem
      . intro a ha
        cases ha
      . exact ih hmem
    . next hb =>
      generalize hpieces : s.splitOnP p = pieces at h ih
      cases pieces with
      | nil => cases h
      | cons first pieces =>
        rcases List.mem_cons.mp h with rfl | hmem
        . simp only [List.forall_mem_cons]
          exact ⟨by simpa using hb, ih List.mem_cons_self⟩
        . exact ih (List.mem_cons_of_mem _ hmem)

theorem mem_splitBy (h : piece ∈ splitBy p s) : piece ≠ [] ∧ ∀ a ∈ piece, p a = false := by
  unfold splitBy at h
  obtain ⟨hmem, hnonempty⟩ := List.mem_filter.mp h
  refine ⟨?_, not_of_mem_splitOnP hmem⟩
  rintro rfl
  cases hnonempty

theorem splitBy_eq_singleton (hne : s ≠ []) (h : ∀ a ∈ s, p a = false) : splitBy p s = [s] := by
  unfold splitBy
  rw [List.splitOnP_eq_singleton h, List.filter_cons_of_pos (by simpa using hne), List.filter_nil]

theorem splitBy_append_cons (hne : piece ≠ []) (h : ∀ a ∈ piece, p a = false) {sep : α}
    (hsep : p sep = true) (s : List α) :
    splitBy p (piece ++ sep :: s) = piece :: splitBy p s := by
  unfold splitBy
  rw [List.splitOnP_append_cons_of_forall_mem h sep hsep,
    List.filter_cons_of_pos (by simpa using hne)]

/--
Joined pieces are split again.
-/
theorem splitBy_intercalate {sep : α} (hsep : p sep = true) {pieces : List (List α)}
    (h : ∀ piece ∈ pieces, piece ≠ [] ∧ ∀ a ∈ piece, p a = false) :
    splitBy p ([sep].intercalate pieces) = pieces := by
  induction pieces with
  | nil => simp [splitBy]
  | cons piece pieces ih =>
    simp only [List.forall_mem_cons] at h
    cases pieces with
    | nil =>
      rw [List.intercalate_singleton]
      exact splitBy_eq_singleton h.1.1 h.1.2
    | cons next pieces =>
      rw [List.intercalate_cons_cons, List.append_assoc, List.singleton_append,
        splitBy_append_cons h.1.1 h.1.2 hsep, ih h.2]

end SplitBy

section Trim

variable {α : Type} {p : α → Bool}

theorem dropWhile_eq_self {s : List α} (h : ∀ a, s.head? = some a → p a = false) :
    s.dropWhile p = s := by
  cases s with
  | nil => rfl
  | cons a s => rw [List.dropWhile_cons_of_neg (by simp [h a rfl])]

/--
Nothing is trimmed from a text that neither starts nor ends with what is trimmed.
-/
theorem trimBy_eq_self {s : List α} (hhead : ∀ a, s.head? = some a → p a = false)
    (hlast : ∀ a, s.getLast? = some a → p a = false) : trimBy p s = s := by
  unfold trimBy
  rw [dropWhile_eq_self hhead, dropWhile_eq_self (by rwa [List.head?_reverse]), List.reverse_reverse]

theorem head?_dropWhile {s : List α} {a : α} (h : (s.dropWhile p).head? = some a) : p a = false := by
  have hnot := List.head?_dropWhile_not p s
  rw [h] at hnot
  exact hnot

theorem trimBy_head {s : List α} {a : α} (h : (trimBy p s).head? = some a) : p a = false := by
  unfold trimBy at h
  have hprefix : ((s.dropWhile p).reverse.dropWhile p).reverse <+: s.dropWhile p := by
    rw [← List.reverse_suffix, List.reverse_reverse]
    exact List.dropWhile_suffix p
  obtain ⟨rest, hrest⟩ := hprefix
  apply head?_dropWhile (s := s)
  rw [← hrest, List.head?_append, h]
  rfl

theorem trimBy_last {s : List α} {a : α} (h : (trimBy p s).getLast? = some a) : p a = false := by
  unfold trimBy at h
  rw [List.getLast?_reverse] at h
  exact head?_dropWhile h

theorem trimBy_trimBy (s : List α) : trimBy p (trimBy p s) = trimBy p s := by
  apply trimBy_eq_self
  . intro a h
    exact trimBy_head h
  . intro a h
    exact trimBy_last h

theorem trimBy_map {f : α → α} (h : ∀ a, p (f a) = p a) (s : List α) :
    trimBy p (s.map f) = (trimBy p s).map f := by
  have hp : p ∘ f = p := funext h
  unfold trimBy
  rw [List.dropWhile_map, hp, ← List.map_reverse, List.dropWhile_map, hp, List.map_reverse]

theorem trimBy_cons (s : List α) {a : α} (h : p a = true) : trimBy p (a :: s) = trimBy p s := by
  unfold trimBy
  rw [List.dropWhile_cons_of_pos h]

theorem trimBy_append_right (s : List α) {t : List α} (h : ∀ a ∈ t, p a = true) :
    trimBy p (s ++ t) = trimBy p s := by
  have ht : t.dropWhile p = [] := List.dropWhile_eq_nil_iff.mpr h
  unfold trimBy
  rw [List.dropWhile_append]
  split
  . next hall => rw [ht, List.isEmpty_iff.mp hall]
  . have hreverse : ∀ a ∈ t.reverse, p a = true := by
      intro a ha
      apply h a
      rwa [← List.mem_reverse]
    rw [List.reverse_append, List.dropWhile_append_of_pos hreverse]

/--
A prefix that is not trimmed stays, and what follows it is trimmed at its end only.
-/
theorem trimBy_append {pre : List α} (s : List α) (hne : pre ≠ []) (h : ∀ a ∈ pre, p a = false) :
    ∃ t, trimBy p (pre ++ s) = pre ++ t ∧ trimBy p t = trimBy p s := by
  refine ⟨(s.reverse.dropWhile p).reverse, ?_, ?_⟩
  . have hhead : ∀ a, (pre ++ s).head? = some a → p a = false := by
      intro a ha
      apply h a
      cases pre with
      | nil => exact absurd rfl hne
      | cons b pre =>
        cases ha
        apply List.mem_cons_self
    have hlast : ∀ a, pre.reverse.head? = some a → p a = false := by
      intro a ha
      apply h a
      rw [← List.mem_reverse]
      exact List.mem_of_head? ha
    unfold trimBy
    rw [dropWhile_eq_self hhead, List.reverse_append, List.dropWhile_append]
    split
    . next hall =>
      have hnil : s.reverse.dropWhile p = [] := List.isEmpty_iff.mp hall
      rw [dropWhile_eq_self hlast, hnil]
      simp
    . simp
  . have hs : s = (s.reverse.dropWhile p).reverse ++ (s.reverse.takeWhile p).reverse := by
      rw [← List.reverse_append, List.takeWhile_append_dropWhile, List.reverse_reverse]
    have hend : ∀ a ∈ (s.reverse.takeWhile p).reverse, p a = true := by
      intro a ha
      rw [List.mem_reverse] at ha
      exact List.mem_takeWhile_imp ha
    have htrim := trimBy_append_right (s.reverse.dropWhile p).reverse hend
    rw [← hs] at htrim
    exact htrim.symm

end Trim
/--
The text without a plus sign at its start.
-/
def unsigned : List Char → List Char
  | '+' :: rest => rest
  | s => s

/--
The digits, with an optional sign before them, of a number that fits 64 bits.
-/
def parseU64 (s : List Char) : Option Nat :=
  let digits := unsigned s
  if digits.isEmpty then
    none
  else if digits.all Char.isDigit then
    let n := digits.foldl (fun n c => n * 10 + (c.toNat - '0'.toNat)) 0
    if n < 2 ^ 64 then some n else none
  else
    none

theorem isDigit_of_mem_repr {n : Nat} {c : Char} (h : c ∈ n.repr.toList) : c.isDigit = true := by
  rw [Nat.toList_repr] at h
  apply Nat.isDigit_of_mem_toDigits (by omega) (by omega) h

theorem repr_toList_inj {m n : Nat} : m.repr.toList = n.repr.toList ↔ m = n := by
  constructor
  . intro h
    rw [Nat.toList_repr, Nat.toList_repr] at h
    have hvalue := congrArg (Nat.ofDigitChars 10 · 0) h
    simpa only [Nat.ofDigitChars_toDigits (by omega : 1 < 10) (by omega : 10 ≤ 10)] using hvalue
  . intro h
    rw [h]

/--
`s` in lower case, as far as it is ASCII.
-/
def lower (s : List Char) : List Char :=
  s.map Char.toLower

def eqIgnoreCase (s t : List Char) : Bool :=
  s.map Char.toLower = t.map Char.toLower

section Lower

theorem toLower_of_not_isUpper {c : Char} (h : c.isUpper = false) : c.toLower = c := by
  unfold Char.toLower
  rw [dif_neg]
  intro hupper
  have htrue : c.isUpper = true := decide_eq_true hupper
  rw [htrue] at h
  cases h

theorem exists_of_isUpper {c : Char} (h : c.isUpper = true) :
    ∃ k : Fin 26, c = Char.ofNat (65 + k) := by
  obtain ⟨hlow, hhigh⟩ : 65 ≤ c.toNat ∧ c.toNat ≤ 90 := of_decide_eq_true h
  refine ⟨⟨c.toNat - 65, by omega⟩, ?_⟩
  have hsum : 65 + (c.toNat - 65) = c.toNat := by omega
  simp only [hsum, Char.ofNat_toNat]

/--
What holds of a character and itself, and of the capital and the small letters, holds of a character
and its lower case.
-/
theorem toLower_cases {P : Char → Char → Prop} (hsame : ∀ c, P c c)
    (hupper : ∀ k : Fin 26, P (Char.ofNat (65 + k)) (Char.ofNat (65 + k)).toLower) (c : Char) :
    P c c.toLower := by
  cases hc : c.isUpper with
  | true =>
    obtain ⟨k, rfl⟩ := exists_of_isUpper hc
    exact hupper k
  | false =>
    rw [toLower_of_not_isUpper hc]
    exact hsame c

theorem isDigit_toLower (c : Char) : c.toLower.isDigit = c.isDigit :=
  toLower_cases (P := fun c d => d.isDigit = c.isDigit) (fun _ => rfl) (by decide) c

theorem utf8Size_toLower (c : Char) : c.toLower.utf8Size = c.utf8Size :=
  toLower_cases (P := fun c d => d.utf8Size = c.utf8Size) (fun _ => rfl) (by decide) c

theorem toLower_of_isDigit {c : Char} (h : c.isDigit = true) : c.toLower = c := by
  apply toLower_of_not_isUpper
  rw [Bool.eq_false_iff]
  intro hupper
  obtain ⟨k, rfl⟩ := exists_of_isUpper hupper
  revert h
  revert k
  decide

theorem toLower_toLower (c : Char) : c.toLower.toLower = c.toLower :=
  toLower_cases (P := fun c d => d.toLower = c.toLower) (fun _ => rfl) (by decide) c

/--
A character that is neither a letter nor comes from one.
-/
def Caseless (sep : Char) : Prop :=
  ∀ c : Char, c.toLower = sep ↔ c = sep

theorem caseless {sep : Char} (h : ∀ k : Fin 26, Char.ofNat (65 + k) ≠ sep ∧
    (Char.ofNat (65 + k)).toLower ≠ sep) : Caseless sep := by
  intro c
  apply toLower_cases (P := fun c d => d = sep ↔ c = sep)
  . intro c
    rfl
  . intro k
    simp [(h k).1, (h k).2]

theorem splitOnce_lower {sep : Char} (h : Caseless sep) (s : List Char) :
    splitOnce sep (lower s) = (splitOnce sep s).map fun (x, y) => (lower x, lower y) := by
  induction s with
  | nil => rfl
  | cons c s ih =>
    unfold lower at ih ⊢
    simp only [List.map_cons, splitOnce, h c, ih]
    split
    . rfl
    . simp [Function.comp_def]

theorem contains_lower {sep : Char} (h : Caseless sep) (s : List Char) :
    (lower s).contains sep = s.contains sep := by
  have hmem : sep ∈ lower s ↔ sep ∈ s := by
    unfold lower
    simp [h _]
  rw [Bool.eq_iff_iff, List.contains_iff_mem, List.contains_iff_mem]
  exact hmem

theorem eqIgnoreCase_lower (s t : List Char) : eqIgnoreCase (lower s) t = eqIgnoreCase s t := by
  simp [eqIgnoreCase, lower, Function.comp_def, toLower_toLower]

theorem unsigned_cons (c : Char) (s : List Char) :
    unsigned (c :: s) = if c = '+' then s else c :: s := by
  unfold unsigned
  split
  . next heq =>
    cases heq
    rfl
  . next hne =>
    rw [if_neg]
    rintro rfl
    exact hne s rfl

theorem unsigned_lower (s : List Char) : unsigned (lower s) = lower (unsigned s) := by
  have hplus : Caseless '+' := caseless (by decide)
  cases s with
  | nil => rfl
  | cons c s =>
    rw [unsigned_cons]
    unfold lower
    rw [List.map_cons, unsigned_cons]
    simp only [hplus c]
    split
    . rfl
    . rfl

theorem parseU64_lower (s : List Char) : parseU64 (lower s) = parseU64 s := by
  unfold parseU64
  rw [unsigned_lower]
  generalize unsigned s = digits
  have hempty : (lower digits).isEmpty = digits.isEmpty := by
    simp [lower]
  have hall : (lower digits).all Char.isDigit = digits.all Char.isDigit := by
    simp [lower, Function.comp_def, isDigit_toLower]
  dsimp only
  rw [hempty, hall]
  split
  . rfl
  . split
    . next h =>
      have hsame : lower digits = digits := by
        rw [List.all_eq_true] at h
        have hmap : digits.map Char.toLower = digits.map id := by
          apply List.map_congr_left
          intro c hc
          apply toLower_of_isDigit (h c hc)
        rwa [List.map_id] at hmap
      rw [hsame]
    . rfl

end Lower
end Text
