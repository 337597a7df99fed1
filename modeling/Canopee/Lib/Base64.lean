import Canopee.Lib.Codec

/-!
This module contains base64 with the standard alphabet and with padding: three bytes are four
characters, and what was encoded is decoded again.
-/

namespace Base64

/--
The character of a value of six bits.
-/
def digit (n : Nat) : Char :=
  if n < 26 then Char.ofNat (65 + n)
  else if n < 52 then Char.ofNat (71 + n)
  else if n < 62 then Char.ofNat (n - 4)
  else if n = 62 then '+'
  else '/'

def value (c : Char) : Option Nat :=
  if c.isUpper then some (c.toNat - 65)
  else if c.isLower then some (c.toNat - 71)
  else if c.isDigit then some (c.toNat + 4)
  else if c = '+' then some 62
  else if c = '/' then some 63
  else none

def encode : Bytes → List Char
  | [] => []
  | [a] => [digit (a.toNat / 4), digit (a.toNat % 4 * 16), '=', '=']
  | [a, b] =>
    [digit (a.toNat / 4), digit (a.toNat % 4 * 16 + b.toNat / 16), digit (b.toNat % 16 * 4), '=']
  | a :: b :: c :: rest =>
    digit (a.toNat / 4) :: digit (a.toNat % 4 * 16 + b.toNat / 16) ::
      digit (b.toNat % 16 * 4 + c.toNat / 64) :: digit (c.toNat % 64) :: encode rest

/--
The last four characters, with padding. What is left of the bits has to be zero.
-/
def decodeLast (w x y : Char) : Option Bytes := do
  let w ← value w
  let x ← value x
  if y = '=' then
    if x % 16 = 0 then some [UInt8.ofNat (w * 4 + x / 16)] else none
  else
    let y ← value y
    if y % 4 = 0 then
      some [UInt8.ofNat (w * 4 + x / 16), UInt8.ofNat (x % 16 * 16 + y / 4)]
    else
      none

def decodeGroup (w x y z : Char) : Option Bytes := do
  let w ← value w
  let x ← value x
  let y ← value y
  let z ← value z
  some [UInt8.ofNat (w * 4 + x / 16), UInt8.ofNat (x % 16 * 16 + y / 4), UInt8.ofNat (y % 4 * 64 + z)]

def decode : List Char → Option Bytes
  | [] => some []
  | w :: x :: y :: z :: rest =>
    if z = '=' then
      if rest = [] then decodeLast w x y else none
    else do
      let group ← decodeGroup w x y z
      let more ← decode rest
      some (group ++ more)
  | _ => none

theorem value_digit {n : Nat} (h : n < 64) : value (digit n) = some n := by
  have hall : ∀ n : Fin 64, value (digit n) = some n.val := by decide
  exact hall ⟨n, h⟩

theorem digit_ne_pad {n : Nat} (h : n < 64) : digit n ≠ '=' := by
  have hall : ∀ n : Fin 64, digit n ≠ '=' := by decide
  exact hall ⟨n, h⟩

theorem ofNat_eq {n : Nat} {b : UInt8} (h : n = b.toNat) : UInt8.ofNat n = b := by
  rw [h, UInt8.ofNat_toNat]

theorem decodeGroup_digits (a b c : UInt8) :
    decodeGroup (digit (a.toNat / 4)) (digit (a.toNat % 4 * 16 + b.toNat / 16))
        (digit (b.toNat % 16 * 4 + c.toNat / 64)) (digit (c.toNat % 64)) =
      some [a, b, c] := by
  have ha := a.toNat_lt
  have hb := b.toNat_lt
  have hc := c.toNat_lt
  have hfirst : UInt8.ofNat (a.toNat / 4 * 4 + (a.toNat % 4 * 16 + b.toNat / 16) / 16) = a :=
    ofNat_eq (by omega)
  have hsecond : UInt8.ofNat ((a.toNat % 4 * 16 + b.toNat / 16) % 16 * 16 +
      (b.toNat % 16 * 4 + c.toNat / 64) / 4) = b :=
    ofNat_eq (by omega)
  have hthird : UInt8.ofNat ((b.toNat % 16 * 4 + c.toNat / 64) % 4 * 64 + c.toNat % 64) = c :=
    ofNat_eq (by omega)
  unfold decodeGroup
  rw [value_digit (by omega), value_digit (by omega), value_digit (by omega),
    value_digit (by omega)]
  simp only [Option.bind_eq_bind, Option.bind_some, hfirst, hsecond, hthird]

theorem decodeLast_one (a : UInt8) :
    decodeLast (digit (a.toNat / 4)) (digit (a.toNat % 4 * 16)) '=' = some [a] := by
  have ha := a.toNat_lt
  have hfirst : UInt8.ofNat (a.toNat / 4 * 4 + a.toNat % 4 * 16 / 16) = a :=
    ofNat_eq (by omega)
  have hbits : a.toNat % 4 * 16 % 16 = 0 := by omega
  unfold decodeLast
  rw [value_digit (by omega), value_digit (by omega)]
  simp only [Option.bind_eq_bind, Option.bind_some, if_true, hbits, hfirst]

theorem decodeLast_two (a b : UInt8) :
    decodeLast (digit (a.toNat / 4)) (digit (a.toNat % 4 * 16 + b.toNat / 16))
        (digit (b.toNat % 16 * 4)) =
      some [a, b] := by
  have ha := a.toNat_lt
  have hb := b.toNat_lt
  have hfirst : UInt8.ofNat (a.toNat / 4 * 4 + (a.toNat % 4 * 16 + b.toNat / 16) / 16) = a :=
    ofNat_eq (by omega)
  have hsecond : UInt8.ofNat ((a.toNat % 4 * 16 + b.toNat / 16) % 16 * 16 +
      b.toNat % 16 * 4 / 4) = b :=
    ofNat_eq (by omega)
  have hbits : b.toNat % 16 * 4 % 4 = 0 := by omega
  have hpad : digit (b.toNat % 16 * 4) ≠ '=' := digit_ne_pad (by omega)
  have hvalue : value (digit (b.toNat % 16 * 4)) = some (b.toNat % 16 * 4) :=
    value_digit (by omega)
  unfold decodeLast
  rw [value_digit (by omega), value_digit (by omega)]
  simp only [Option.bind_eq_bind, Option.bind_some, if_neg hpad, hvalue, if_true, hbits, hfirst,
    hsecond]

/--
What is encoded is written with the characters of the alphabet and with padding.
-/
theorem mem_encode {bytes : Bytes} {c : Char} (h : c ∈ encode bytes) : c = '=' ∨ ∃ n < 64, c = digit n := by
  have hsmall (b : UInt8) : b.toNat < 256 := b.toNat_lt
  fun_induction encode bytes with
  | case1 => cases h
  | case2 a =>
    have ha := hsmall a
    simp only [List.mem_cons, List.not_mem_nil, or_false] at h
    rcases h with h | h | h | h
    . exact .inr ⟨_, by omega, h⟩
    . exact .inr ⟨_, by omega, h⟩
    . exact .inl h
    . exact .inl h
  | case3 a b =>
    have ha := hsmall a
    have hb := hsmall b
    simp only [List.mem_cons, List.not_mem_nil, or_false] at h
    rcases h with h | h | h | h
    . exact .inr ⟨_, by omega, h⟩
    . exact .inr ⟨_, by omega, h⟩
    . exact .inr ⟨_, by omega, h⟩
    . exact .inl h
  | case4 a b c rest ih =>
    have ha := hsmall a
    have hb := hsmall b
    have hc := hsmall c
    simp only [List.mem_cons] at h
    rcases h with h | h | h | h | h
    . exact .inr ⟨_, by omega, h⟩
    . exact .inr ⟨_, by omega, h⟩
    . exact .inr ⟨_, by omega, h⟩
    . exact .inr ⟨_, by omega, h⟩
    . exact ih h

theorem decode_encode (bytes : Bytes) : decode (encode bytes) = some bytes := by
  fun_induction encode bytes with
  | case1 => rfl
  | case2 a => exact decodeLast_one a
  | case3 a b => exact decodeLast_two a b
  | case4 a b c rest ih =>
    rw [decode, if_neg (digit_ne_pad (by omega)), decodeGroup_digits, ih]
    rfl

example : encode [102, 111, 111, 98] = "Zm9vYg==".toList := by decide

end Base64
