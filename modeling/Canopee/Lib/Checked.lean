import Canopee.Lib.Codec

/-!
This module contains the operations on byte slices and lengths that fault as a program runs: indexing,
slicing, sums and products that must fit a machine word, and conversions to arrays.
-/

namespace Checked

inductive Fault where
  | outOfRange
  | overflow
  | wrongLength
deriving DecidableEq

def wordMax : Nat := 2 ^ 64 - 1

section Operations

/--
`bytes[i]`
-/
def index (bytes : Bytes) (i : Nat) : Except Fault UInt8 :=
  if i < bytes.length then .ok (bytes.getD i 0) else .error .outOfRange

/--
`&bytes[start..stop]`
-/
def range (bytes : Bytes) (start stop : Nat) : Except Fault Bytes :=
  if start ≤ stop ∧ stop ≤ bytes.length then .ok ((bytes.take stop).drop start) else .error .outOfRange

/--
`&bytes[start..]`
-/
def behind (bytes : Bytes) (start : Nat) : Except Fault Bytes :=
  if start ≤ bytes.length then .ok (bytes.drop start) else .error .outOfRange

def add (a b : Nat) : Except Fault Nat :=
  if a + b ≤ wordMax then .ok (a + b) else .error .overflow

def mul (a b : Nat) : Except Fault Nat :=
  if a * b ≤ wordMax then .ok (a * b) else .error .overflow

/--
`a.checked_add(b)`
-/
def tryAdd (a b : Nat) : Option Nat :=
  if a + b ≤ wordMax then some (a + b) else none

/--
`a.checked_mul(b)`
-/
def tryMul (a b : Nat) : Option Nat :=
  if a * b ≤ wordMax then some (a * b) else none

def vector {n : Nat} (bytes : Bytes) (h : bytes.length = n) : List.Vector UInt8 n :=
  ⟨bytes, h⟩

/--
An array of `n` bytes from a slice, which must have that length.
-/
def array (n : Nat) (bytes : Bytes) : Except Fault (List.Vector UInt8 n) :=
  if h : bytes.length = n then .ok (vector bytes h) else .error .wrongLength

end Operations

theorem ok_bind {ε α β : Type} (a : α) (f : α → Except ε β) : (Except.ok a >>= f) = f a := rfl

theorem pure_eq {ε α : Type} (a : α) : (pure a : Except ε α) = .ok a := rfl

variable {bytes : Bytes} {i n a b start stop : Nat}

theorem index_eq (h : i < bytes.length) : index bytes i = .ok (bytes.getD i 0) :=
  if_pos h

theorem range_eq (h : start ≤ stop) (hstop : stop ≤ bytes.length) :
    range bytes start stop = .ok ((bytes.take stop).drop start) :=
  if_pos ⟨h, hstop⟩

theorem behind_eq (h : start ≤ bytes.length) : behind bytes start = .ok (bytes.drop start) :=
  if_pos h

theorem add_eq (h : a + b ≤ wordMax) : add a b = .ok (a + b) :=
  if_pos h

theorem mul_eq (h : a * b ≤ wordMax) : mul a b = .ok (a * b) :=
  if_pos h

theorem tryAdd_eq (h : a + b ≤ wordMax) : tryAdd a b = some (a + b) :=
  if_pos h

theorem tryMul_eq (h : a * b ≤ wordMax) : tryMul a b = some (a * b) :=
  if_pos h

theorem array_eq (h : bytes.length = n) : array n bytes = .ok (vector bytes h) :=
  dif_pos h

theorem toList_vector (h : bytes.length = n) : (vector bytes h).toList = bytes := rfl

theorem length_range (h : start ≤ stop) (hstop : stop ≤ bytes.length) :
    ((bytes.take stop).drop start).length = stop - start := by
  rw [List.length_drop, List.length_take]
  omega

end Checked
