import Mathlib.Data.List.Basic
import Mathlib.Data.Vector.Basic

/-!
This module contains self-delimiting binary codecs: an encoder, a decoder that returns what it did
not consume, and the proof that the decoder inverts the encoder whatever follows. The combinators
follow the fixed-width little-endian layout that `bincode` documents.
-/

abbrev Bytes := List UInt8

structure Codec (α : Type) where
  put : α → Bytes
  get : Bytes → Option (α × Bytes)
  get_put : ∀ (a : α) (rest : Bytes), get (put a ++ rest) = some (a, rest)

namespace Codec

variable {α β : Type}

/--
Serialize a value on its own.
-/
def serialize (c : Codec α) (a : α) : Bytes :=
  c.put a

/--
Deserialize a value from the front of `bytes`; like `bincode::deserialize` this allows trailing
bytes.
-/
def deserialize (c : Codec α) (bytes : Bytes) : Option α :=
  (c.get bytes).map Prod.fst

@[simp]
theorem deserialize_serialize (c : Codec α) (a : α) : c.deserialize (c.serialize a) = some a := by
  have := c.get_put a []
  rw [List.append_nil] at this
  simp [deserialize, serialize, this]

theorem put_append_inj (c : Codec α) {a b : α} {r s : Bytes} (h : c.put a ++ r = c.put b ++ s) :
    a = b ∧ r = s := by
  have ha := c.get_put a r
  rw [h, c.get_put b s] at ha
  simp only [Option.some.injEq, Prod.mk.injEq] at ha
  exact ⟨ha.1.symm, ha.2.symm⟩

theorem serialize_inj (c : Codec α) {a b : α} : c.serialize a = c.serialize b ↔ a = b := by
  constructor
  . intro h
    have h : c.put a ++ [] = c.put b ++ [] := by
      rw [List.append_nil, List.append_nil]
      exact h
    exact (c.put_append_inj h).1
  . intro h
    rw [h]

-- `decide` on the right side goes over all of `α` when `α` is finite.
theorem forall_mem_of_all {p : α → Prop} [DecidablePred p] {l : List α}
    (h : (l.all fun a => p a) = true) : ∀ a ∈ l, p a := by
  simpa only [List.all_eq_true, decide_eq_true_eq] using h

section Raw

/--
Split off exactly `n` bytes, failing when there are fewer.
-/
def takeExact (n : Nat) (bytes : Bytes) : Option (Bytes × Bytes) :=
  if n ≤ bytes.length then some (bytes.take n, bytes.drop n) else none

theorem takeExact_append {n : Nat} {bytes : Bytes} (rest : Bytes) (h : bytes.length = n) :
    takeExact n (bytes ++ rest) = some (bytes, rest) := by
  unfold takeExact
  subst h
  simp

/--
The `k` low bytes of `n`, least significant first.
-/
def leBytes : Nat → Nat → Bytes
  | 0, _ => []
  | k + 1, n => UInt8.ofNat n :: leBytes k (n / 256)

def ofLeBytes : Bytes → Nat
  | [] => 0
  | b :: bs => b.toNat + 256 * ofLeBytes bs

@[simp]
theorem leBytes_length (k n : Nat) : (leBytes k n).length = k := by
  induction k generalizing n with
  | zero => rfl
  | succ k ih => simp [leBytes, ih]

theorem ofLeBytes_leBytes (k n : Nat) : ofLeBytes (leBytes k n) = n % 256 ^ k := by
  induction k generalizing n with
  | zero => simp [leBytes, ofLeBytes, Nat.mod_one]
  | succ k ih =>
    have hbyte : (UInt8.ofNat n).toNat = n % 256 := by simp
    rw [leBytes, ofLeBytes, ih, hbyte]
    rw [Nat.pow_succ, Nat.mul_comm (256 ^ k) 256, Nat.mod_mul]

theorem ofLeBytes_lt (bytes : Bytes) : ofLeBytes bytes < 256 ^ bytes.length := by
  induction bytes with
  | nil => simp [ofLeBytes]
  | cons b bs ih =>
    have hb := b.toNat_lt
    simp only [ofLeBytes, List.length_cons, Nat.pow_succ]
    omega

theorem leBytes_ofLeBytes (bytes : Bytes) : leBytes bytes.length (ofLeBytes bytes) = bytes := by
  induction bytes with
  | nil => rfl
  | cons b bs ih =>
    have hb := b.toNat_lt
    have hdiv : (b.toNat + 256 * ofLeBytes bs) / 256 = ofLeBytes bs := by omega
    have hmod : UInt8.ofNat (b.toNat + 256 * ofLeBytes bs) = b := by
      apply UInt8.toNat_inj.mp
      rw [UInt8.toNat_ofNat']
      omega
    rw [List.length_cons, ofLeBytes, leBytes, hdiv, hmod, ih]

def beBytes (k n : Nat) : Bytes :=
  (leBytes k n).reverse

def ofBeBytes (bytes : Bytes) : Nat :=
  ofLeBytes bytes.reverse

@[simp]
theorem beBytes_length (k n : Nat) : (beBytes k n).length = k := by
  simp [beBytes]

theorem ofBeBytes_beBytes (k n : Nat) : ofBeBytes (beBytes k n) = n % 256 ^ k := by
  rw [ofBeBytes, beBytes, List.reverse_reverse, ofLeBytes_leBytes]

/--
Leading `1` bytes up to a closing `0`.
-/
def takeOnes : Bytes → Option (Nat × Bytes)
  | 0 :: rest => some (0, rest)
  | 1 :: rest => (takeOnes rest).map fun (n, rest) => (n + 1, rest)
  | _ => none

theorem takeOnes_replicate (n : Nat) (rest : Bytes) :
    takeOnes (List.replicate n 1 ++ 0 :: rest) = some (n, rest) := by
  induction n with
  | zero => rfl
  | succ n ih => simp [List.replicate_succ, takeOnes, ih]

end Raw

/--
A value that is stored in `k` little-endian bytes.
-/
def fixed (k : Nat) (toNat : α → Nat) (ofNat : Nat → α)
    (h : ∀ a, ofNat (toNat a % 256 ^ k) = a) : Codec α where
  put a := leBytes k (toNat a)
  get bytes := (takeExact k bytes).map fun (b, rest) => (ofNat (ofLeBytes b), rest)
  get_put := by
    intro a rest
    rw [takeExact_append rest (leBytes_length k (toNat a))]
    simp [ofLeBytes_leBytes, h]

def u8 : Codec UInt8 :=
  fixed 1 UInt8.toNat UInt8.ofNat (by
    intro a
    rw [Nat.mod_eq_of_lt (by simpa using a.toNat_lt)]
    simp)

def u32 : Codec UInt32 :=
  fixed 4 UInt32.toNat UInt32.ofNat (by
    intro a
    rw [Nat.mod_eq_of_lt (by simpa using a.toNat_lt)]
    simp)

def u64 : Codec UInt64 :=
  fixed 8 UInt64.toNat UInt64.ofNat (by
    intro a
    rw [Nat.mod_eq_of_lt (by simpa using a.toNat_lt)]
    simp)

/--
The largest value of the eight length bytes. It never prefixes a vector, whose length is below
`2 ^ 63`; here it escapes the lengths that only unbounded lists have.
-/
def lengthEscape : Nat := 2 ^ 64 - 1

/--
Length prefix: eight little-endian bytes.
-/
def length : Codec Nat where
  put n :=
    if n < lengthEscape then
      leBytes 8 n
    else
      leBytes 8 lengthEscape ++ (List.replicate n 1 ++ [0])
  get bytes :=
    match takeExact 8 bytes with
    | none => none
    | some (b, rest) =>
      if ofLeBytes b = lengthEscape then
        (takeOnes rest).filter fun (n, _) => lengthEscape ≤ n
      else
        some (ofLeBytes b, rest)
  get_put := by
    intro n rest
    by_cases hn : n < lengthEscape
    . have hmod : n % 256 ^ 8 = n := by
        apply Nat.mod_eq_of_lt
        unfold lengthEscape at hn
        omega
      rw [if_pos hn, takeExact_append rest (leBytes_length 8 n)]
      simp only [ofLeBytes_leBytes, hmod]
      rw [if_neg (by omega)]
    . have hmod : lengthEscape % 256 ^ 8 = lengthEscape := by decide
      rw [if_neg hn, List.append_assoc, takeExact_append _ (leBytes_length 8 lengthEscape)]
      simp only [ofLeBytes_leBytes, hmod, List.append_assoc, List.cons_append, List.nil_append,
        takeOnes_replicate]
      simp only [↓reduceIte, Option.filter_some, decide_eq_true_eq, ite_eq_left_iff]
      omega

/--
A byte vector: its length, then the bytes.
-/
def bytes : Codec Bytes where
  put bs := length.put bs.length ++ bs
  get input :=
    match length.get input with
    | none => none
    | some (n, rest) => takeExact n rest
  get_put := by
    intro bs rest
    rw [List.append_assoc, length.get_put]
    simp [takeExact_append]

/--
An array of `n` bytes, which carries no length prefix.
-/
def array (n : Nat) : Codec (List.Vector UInt8 n) where
  put v := v.toList
  get input :=
    match takeExact n input with
    | none => none
    | some (b, rest) => if h : b.length = n then some (⟨b, h⟩, rest) else none
  get_put := by
    intro v rest
    rw [takeExact_append rest v.toList_length]
    simp only [v.toList_length, ↓reduceDIte]
    rfl

/--
The UTF-8 bytes of a text.
-/
def utf8 (s : String) : Bytes :=
  s.toByteArray.data.toList

def ofUtf8 (bytes : Bytes) : Option String :=
  String.fromUTF8? bytes.toByteArray

theorem utf8_append (s t : String) : utf8 (s ++ t) = utf8 s ++ utf8 t := by
  simp [utf8, String.toByteArray_append]

theorem utf8_toByteArray (s : String) : (utf8 s).toByteArray = s.toByteArray := by
  unfold utf8
  apply ByteArray.ext
  simp [List.data_toByteArray]

theorem utf8_inj {s t : String} : utf8 s = utf8 t ↔ s = t := by
  constructor
  . intro h
    rw [← String.toByteArray_inj, ← utf8_toByteArray, ← utf8_toByteArray, h]
  . intro h
    rw [h]

@[simp]
theorem ofUtf8_utf8 (s : String) : ofUtf8 (utf8 s) = some s := by
  unfold ofUtf8 String.fromUTF8?
  rw [utf8_toByteArray, dif_pos s.isValidUTF8]
  rfl

/--
Lowercase hexadecimal, two digits a byte.
-/
def hex (bytes : Bytes) : String :=
  String.ofList (bytes.flatMap fun b => [Nat.digitChar (b.toNat / 16), Nat.digitChar (b.toNat % 16)])

theorem digitChar_inj : ∀ a b : Fin 16, Nat.digitChar a = Nat.digitChar b → a = b := by
  decide

theorem hexByte_inj {a b : UInt8}
    (hhigh : Nat.digitChar (a.toNat / 16) = Nat.digitChar (b.toNat / 16))
    (hlow : Nat.digitChar (a.toNat % 16) = Nat.digitChar (b.toNat % 16)) : a = b := by
  have ha := a.toNat_lt
  have hb := b.toNat_lt
  have hhigh := digitChar_inj ⟨a.toNat / 16, by omega⟩ ⟨b.toNat / 16, by omega⟩ hhigh
  have hlow := digitChar_inj ⟨a.toNat % 16, by omega⟩ ⟨b.toNat % 16, by omega⟩ hlow
  simp only [Fin.mk.injEq] at hhigh hlow
  apply UInt8.toNat_inj.mp
  omega

theorem not_mem_hex {c : Char} (h : ∀ n : Fin 16, c ≠ Nat.digitChar n) (bytes : Bytes) :
    c ∉ (hex bytes).toList := by
  unfold hex
  rw [String.toList_ofList]
  intro hmem
  obtain ⟨b, _, hb⟩ := List.mem_flatMap.mp hmem
  have hlt := b.toNat_lt
  simp only [List.mem_cons, List.not_mem_nil, or_false] at hb
  cases hb with
  | inl hhigh => exact h ⟨b.toNat / 16, by omega⟩ hhigh
  | inr hlow => exact h ⟨b.toNat % 16, by omega⟩ hlow

theorem hex_inj {as bs : Bytes} : hex as = hex bs ↔ as = bs := by
  constructor
  . intro h
    unfold hex at h
    rw [String.ofList_inj] at h
    induction as generalizing bs with
    | nil =>
      cases bs with
      | nil => rfl
      | cons b bs => simp at h
    | cons a as ih =>
      cases bs with
      | nil => simp at h
      | cons b bs =>
        simp only [List.flatMap_cons, List.cons_append, List.nil_append, List.cons.injEq] at h
        rw [hexByte_inj h.1 h.2.1, ih h.2.2]
  . intro h
    rw [h]

theorem mem_hex {bytes : Bytes} {c : Char} (h : c ∈ (hex bytes).toList) :
    ∃ k : Fin 16, c = Nat.digitChar k := by
  simp only [hex, String.toList_ofList, List.mem_flatMap, List.mem_cons, List.not_mem_nil,
    or_false] at h
  obtain ⟨b, _, hc⟩ := h
  have hb := b.toNat_lt
  cases hc with
  | inl hc => exact ⟨⟨b.toNat / 16, by omega⟩, hc⟩
  | inr hc => exact ⟨⟨b.toNat % 16, by omega⟩, hc⟩

theorem utf8_digitChars : ∀ a b : Fin 16,
    (utf8 (String.ofList [Nat.digitChar a, Nat.digitChar b])).length = 2 := by
  decide +kernel

theorem length_utf8_hex (bytes : Bytes) : (utf8 (hex bytes)).length = 2 * bytes.length := by
  induction bytes with
  | nil => rfl
  | cons b bytes ih =>
    have hb := b.toNat_lt
    have hdigits := utf8_digitChars ⟨b.toNat / 16, by omega⟩ ⟨b.toNat % 16, by omega⟩
    have hcons : hex (b :: bytes) =
        String.ofList [Nat.digitChar (b.toNat / 16), Nat.digitChar (b.toNat % 16)] ++ hex bytes := by
      unfold hex
      rw [List.flatMap_cons, String.ofList_append]
    rw [hcons, utf8_append, List.length_append, ih, hdigits, List.length_cons]
    omega

/--
A text: the length of its UTF-8 form, then the form, which the decoder validates.
-/
def text : Codec String where
  put s := bytes.put (utf8 s)
  get input :=
    match bytes.get input with
    | none => none
    | some (b, rest) => (ofUtf8 b).map fun s => (s, rest)
  get_put := by
    intro s rest
    simp [bytes.get_put]

/--
A value of `α` whose encoding is that of its image in `β`; `f` may reject what is not an image.
-/
def refine (c : Codec β) (g : α → β) (f : β → Option α) (h : ∀ a, f (g a) = some a) : Codec α where
  put a := c.put (g a)
  get input :=
    match c.get input with
    | none => none
    | some (b, rest) => (f b).map fun a => (a, rest)
  get_put := by
    intro a rest
    simp [c.get_put, h]

/--
A structure, encoded as the tuple of its fields.
-/
def iso (c : Codec β) (g : α → β) (f : β → α) (h : ∀ a, f (g a) = a) : Codec α :=
  c.refine g (fun b => some (f b)) (by simp [h])

def pair (c : Codec α) (d : Codec β) : Codec (α × β) where
  put p := c.put p.1 ++ d.put p.2
  get input :=
    match c.get input with
    | none => none
    | some (a, rest) => (d.get rest).map fun (b, rest) => ((a, b), rest)
  get_put := by
    intro p rest
    rw [List.append_assoc, c.get_put]
    simp [d.get_put]

/--
One byte, `0` or `1`; any other byte is rejected.
-/
def bool : Codec Bool :=
  u8.refine (fun b => if b then 1 else 0)
    (fun n => if n = 0 then some false else if n = 1 then some true else none)
    (by intro b; cases b <;> rfl)

def option (c : Codec α) : Codec (Option α) where
  put
    | none => u8.put 0
    | some a => u8.put 1 ++ c.put a
  get input :=
    match u8.get input with
    | none => none
    | some (tag, rest) =>
      if tag = 0 then
        some (none, rest)
      else if tag = 1 then
        (c.get rest).map fun (a, rest) => (some a, rest)
      else
        none
  get_put := by
    intro a rest
    cases a with
    | none => simp [u8.get_put]
    | some a => simp [u8.get_put, c.get_put, List.append_assoc]

/--
Decode `n` values one after the other.
-/
def getMany (c : Codec α) : Nat → Bytes → Option (List α × Bytes)
  | 0, input => some ([], input)
  | n + 1, input =>
    match c.get input with
    | none => none
    | some (a, rest) => (getMany c n rest).map fun (as, rest) => (a :: as, rest)

theorem getMany_flatMap (c : Codec α) (as : List α) (rest : Bytes) :
    getMany c as.length (as.flatMap c.put ++ rest) = some (as, rest) := by
  induction as with
  | nil => rfl
  | cons a as ih => simp [getMany, c.get_put, ih, List.append_assoc]

/--
A vector: its length, then its elements.
-/
def list (c : Codec α) : Codec (List α) where
  put as := length.put as.length ++ as.flatMap c.put
  get input :=
    match length.get input with
    | none => none
    | some (n, rest) => getMany c n rest
  get_put := by
    intro as rest
    rw [List.append_assoc, length.get_put]
    simp [getMany_flatMap]

end Codec
