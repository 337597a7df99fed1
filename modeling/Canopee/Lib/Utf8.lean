import Canopee.Lib.Codec

/-!
This module contains where the bytes of an ASCII character occur in UTF-8: only where the text has
that character, so that a text can be cut at such a byte. It also contains lossy decoding.
-/

namespace Codec

theorem utf8_ofList (s : List Char) : utf8 (String.ofList s) = s.flatMap String.utf8EncodeChar := by
  unfold utf8
  rw [String.toByteArray_ofList, List.utf8Encode]
  simp [List.data_toByteArray]

theorem ofUtf8_eq_some_iff {bytes : Bytes} {s : String} : ofUtf8 bytes = some s ↔ bytes = utf8 s := by
  constructor
  . intro h
    unfold ofUtf8 String.fromUTF8? at h
    split at h
    . next hvalid =>
      cases h
      unfold utf8
      simp [List.data_toByteArray, String.fromUTF8]
    . cases h
  . rintro rfl
    exact ofUtf8_utf8 s

theorem le_toNat_ofNat {n k base : Nat} (hbase : 128 ≤ base) (hk : 0 < k) (hsum : k + base ≤ 256) :
    128 ≤ (UInt8.ofNat (n % k + base)).toNat := by
  have hmod := Nat.mod_lt n hk
  rw [UInt8.toNat_ofNat', Nat.mod_eq_of_lt (by omega)]
  omega

theorem mem_utf8EncodeChar {c : Char} {b : UInt8} (h : b ∈ String.utf8EncodeChar c) :
    (c.toNat < 128 ∧ b = UInt8.ofNat c.toNat) ∨ 128 ≤ b.toNat := by
  unfold String.utf8EncodeChar at h
  dsimp only at h
  split at h
  . next hle =>
    rw [List.mem_singleton] at h
    exact .inl ⟨by simpa using Nat.lt_succ_of_le hle, h⟩
  . right
    split at h
    . simp only [List.mem_cons, List.not_mem_nil, or_false] at h
      rcases h with rfl | rfl
      . apply le_toNat_ofNat <;> decide
      . apply le_toNat_ofNat <;> decide
    . split at h
      . simp only [List.mem_cons, List.not_mem_nil, or_false] at h
        rcases h with rfl | rfl | rfl
        . apply le_toNat_ofNat <;> decide
        . apply le_toNat_ofNat <;> decide
        . apply le_toNat_ofNat <;> decide
      . simp only [List.mem_cons, List.not_mem_nil, or_false] at h
        rcases h with rfl | rfl | rfl | rfl
        . apply le_toNat_ofNat <;> decide
        . apply le_toNat_ofNat <;> decide
        . apply le_toNat_ofNat <;> decide
        . apply le_toNat_ofNat <;> decide

theorem utf8EncodeChar_ascii {c : Char} (h : c.toNat < 128) :
    String.utf8EncodeChar c = [UInt8.ofNat c.toNat] := by
  have hle : c.val.toNat ≤ 0x7f := Nat.le_of_lt_succ h
  unfold String.utf8EncodeChar
  dsimp only
  rw [if_pos hle]
  rfl

/--
The byte of an ASCII character occurs only where the character does.
-/
theorem mem_utf8_iff {d : Char} (hd : d.toNat < 128) {s : List Char} :
    UInt8.ofNat d.toNat ∈ utf8 (String.ofList s) ↔ d ∈ s := by
  rw [utf8_ofList, List.mem_flatMap]
  constructor
  . rintro ⟨c, hc, hmem⟩
    have htoNat (n : Nat) (h : n < 128) : (UInt8.ofNat n).toNat = n := by
      rw [UInt8.toNat_ofNat', Nat.mod_eq_of_lt (by omega)]
    cases mem_utf8EncodeChar hmem with
    | inl hascii =>
      have heq := congrArg UInt8.toNat hascii.2
      rw [htoNat _ hd, htoNat _ hascii.1] at heq
      have hchar : d = c := Char.toNat_inj.mp heq
      rwa [hchar]
    | inr hhigh =>
      rw [htoNat _ hd] at hhigh
      omega
  . intro hmem
    refine ⟨d, hmem, ?_⟩
    rw [utf8EncodeChar_ascii hd]
    apply List.mem_singleton_self

section Lossy

/--
The ranges of the bytes that may follow the first byte of a character.
-/
def continuations (b : UInt8) : Option (List (Nat × Nat)) :=
  let b := b.toNat
  if b < 0x80 then some []
  else if b < 0xC2 then none
  else if b < 0xE0 then some [(0x80, 0xBF)]
  else if b = 0xE0 then some [(0xA0, 0xBF), (0x80, 0xBF)]
  else if b = 0xED then some [(0x80, 0x9F), (0x80, 0xBF)]
  else if b < 0xF0 then some [(0x80, 0xBF), (0x80, 0xBF)]
  else if b = 0xF0 then some [(0x90, 0xBF), (0x80, 0xBF), (0x80, 0xBF)]
  else if b < 0xF4 then some [(0x80, 0xBF), (0x80, 0xBF), (0x80, 0xBF)]
  else if b = 0xF4 then some [(0x80, 0x8F), (0x80, 0xBF), (0x80, 0xBF)]
  else none

/--
How many bytes are in their ranges, up to the first that is not.
-/
def matching : List (Nat × Nat) → Bytes → Nat
  | (low, high) :: ranges, b :: bytes =>
    if low ≤ b.toNat ∧ b.toNat ≤ high then matching ranges bytes + 1 else 0
  | _, _ => 0

/--
Decoding with a replacement character for each longest beginning of a character, and for each byte that
begins none. The first `skip` bytes are dealt with already.
-/
def lossyFrom (skip : Nat) : Bytes → List Char
  | [] => []
  | b :: bytes =>
    match skip with
    | skip + 1 => lossyFrom skip bytes
    | 0 =>
      match continuations b with
      | none => Char.ofNat 0xFFFD :: lossyFrom 0 bytes
      | some ranges =>
        let n := matching ranges bytes
        if n = ranges.length then
          ((ofUtf8 (b :: bytes.take n)).getD "").toList ++ lossyFrom n bytes
        else
          Char.ofNat 0xFFFD :: lossyFrom n bytes

/--
`String::from_utf8_lossy`
-/
def fromUtf8Lossy (bytes : Bytes) : String :=
  String.ofList (lossyFrom 0 bytes)

example : (fromUtf8Lossy ([72, 0xF0, 0x90, 0x80] ++ utf8 "W")).toList =
    ['H', Char.ofNat 0xFFFD, 'W'] := by
  decide +kernel

theorem matching_le : ∀ (ranges : List (Nat × Nat)) (bytes : Bytes),
    matching ranges bytes ≤ bytes.length
  | [], _ => by simp [matching]
  | _ :: _, [] => by simp [matching]
  | (low, high) :: ranges, b :: bytes => by
    have ih := matching_le ranges bytes
    unfold matching
    split
    . simpa using ih
    . simp

theorem le_of_continuations {b : UInt8} {ranges : List (Nat × Nat)}
    (h : continuations b = some ranges) : ∀ range ∈ ranges, 128 ≤ range.1 := by
  unfold continuations at h
  dsimp only at h
  intro range hrange
  repeat
    split at h
    . cases h <;> simp_all
  all_goals grind

/--
No continuation is an ASCII byte.
-/
theorem matching_append {ranges : List (Nat × Nat)} (hranges : ∀ range ∈ ranges, 128 ≤ range.1)
    {a : UInt8} (ha : a.toNat < 128) (s t : Bytes) :
    matching ranges (s ++ a :: t) = matching ranges s := by
  induction s generalizing ranges with
  | nil =>
    cases ranges with
    | nil => rfl
    | cons range ranges =>
      have hlow := hranges range List.mem_cons_self
      rw [List.nil_append]
      unfold matching
      exact if_neg (by omega)
  | cons b s ih =>
    cases ranges with
    | nil => rfl
    | cons range ranges =>
      rw [List.forall_mem_cons] at hranges
      rw [List.cons_append, matching, matching, ih hranges.2]

theorem toNat_ofNat_ascii {n : Nat} (h : n < 128) : (Char.ofNat n).toNat = n := by
  have hall : ∀ n : Fin 128, (Char.ofNat n).toNat = n := by decide
  exact hall ⟨n, h⟩

theorem ofUtf8_ascii {a : UInt8} (ha : a.toNat < 128) :
    ofUtf8 [a] = some (String.ofList [Char.ofNat a.toNat]) := by
  have hchar := toNat_ofNat_ascii ha
  rw [ofUtf8_eq_some_iff, utf8_ofList, List.flatMap_singleton, utf8EncodeChar_ascii (by omega), hchar,
    UInt8.ofNat_toNat]

theorem lossyFrom_append_cons {a : UInt8} (ha : a.toNat < 128) {s : Bytes} {skip : Nat}
    (hskip : skip ≤ s.length) (t : Bytes) :
    lossyFrom skip (s ++ a :: t) = lossyFrom skip s ++ Char.ofNat a.toNat :: lossyFrom 0 t := by
  induction s generalizing skip with
  | nil =>
    obtain rfl : skip = 0 := by simpa using hskip
    have hcontinuations : continuations a = some [] := if_pos ha
    simp only [List.nil_append, lossyFrom, hcontinuations, matching, List.length_nil, if_true,
      List.take_zero, ofUtf8_ascii ha, Option.getD_some, String.toList_ofList, List.cons_append]
  | cons b s ih =>
    rw [List.cons_append]
    generalize lossyFrom 0 t = rest at ih ⊢
    cases skip with
    | succ skip =>
      have hle : skip ≤ s.length := by simpa using hskip
      exact ih hle
    | zero =>
      unfold lossyFrom
      cases hranges : continuations b with
      | none => exact congrArg (_ :: ·) (ih (Nat.zero_le _))
      | some ranges =>
        have hle := matching_le ranges s
        dsimp only
        rw [matching_append (le_of_continuations hranges) ha, List.take_append_of_le_length hle, ih hle]
        split
        . rw [List.append_assoc]
        . rfl

/--
Lossy decoding, too, can be cut at the byte of an ASCII character.
-/
theorem fromUtf8Lossy_append_cons {a : UInt8} (ha : a.toNat < 128) (s t : Bytes) :
    (fromUtf8Lossy (s ++ a :: t)).toList =
      (fromUtf8Lossy s).toList ++ Char.ofNat a.toNat :: (fromUtf8Lossy t).toList := by
  unfold fromUtf8Lossy
  rw [String.toList_ofList, String.toList_ofList, String.toList_ofList]
  exact lossyFrom_append_cons ha (Nat.zero_le _) t

/--
ASCII bytes are themselves.
-/
theorem fromUtf8Lossy_ascii {s : Bytes} (h : ∀ b ∈ s, b.toNat < 128) :
    (fromUtf8Lossy s).toList = s.map fun b => Char.ofNat b.toNat := by
  induction s with
  | nil => rfl
  | cons b s ih =>
    rw [List.forall_mem_cons] at h
    rw [← List.nil_append (b :: s), fromUtf8Lossy_append_cons h.1, ih h.2]
    rfl

theorem fromUtf8Lossy_utf8 {s : List Char} (h : ∀ c ∈ s, c.toNat < 128) :
    (fromUtf8Lossy (utf8 (String.ofList s))).toList = s := by
  have hbytes : utf8 (String.ofList s) = s.map fun c => UInt8.ofNat c.toNat := by
    rw [utf8_ofList]
    induction s with
    | nil => rfl
    | cons c s ih =>
      rw [List.forall_mem_cons] at h
      rw [List.flatMap_cons, utf8EncodeChar_ascii h.1, ih h.2]
      rfl
  have htoNat {c : Char} (hc : c ∈ s) : (UInt8.ofNat c.toNat).toNat = c.toNat := by
    have hsmall := h c hc
    rw [UInt8.toNat_ofNat', Nat.mod_eq_of_lt (by omega)]
  rw [hbytes, fromUtf8Lossy_ascii, List.map_map]
  . conv_rhs => rw [← List.map_id s]
    apply List.map_congr_left
    intro c hc
    rw [Function.comp_apply, htoNat hc, Char.ofNat_toNat, id]
  . intro b hb
    obtain ⟨c, hc, rfl⟩ := List.mem_map.mp hb
    rw [htoNat hc]
    exact h c hc

end Lossy

end Codec
