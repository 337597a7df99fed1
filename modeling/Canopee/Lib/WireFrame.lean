import Canopee.Lib.Codec
import Canopee.Lib.Incremental
import Mathlib.Data.Fintype.Prod

/-!
This module contains the frames of RFC 6455 as they are on the wire: the bits of the two header bytes,
the three forms of the length, the mask, and how a frame is parsed.
-/

open Incremental

/--
What a frame says, in whatever form its length is written and under whatever mask.
-/
@[ext]
structure Content where
  fin : Bool
  rsv : Fin 8
  opcode : Fin 16
  payload : Bytes

namespace WireFrame

/--
The length in the second byte, in two bytes behind it, or in eight.
-/
inductive Form where
  | short
  | middle
  | long
deriving DecidableEq

namespace Form

/--
The bound of the lengths that can be written in a form.
-/
def limit : Form → Nat
  | short => 126
  | middle => 2 ^ 16
  | long => 2 ^ 64

/--
The form that takes the fewest bytes.
-/
def minimal (length : Nat) : Form :=
  if length < 126 then short else if length < 2 ^ 16 then middle else long

/--
The low bits of the second byte.
-/
def low (length : Nat) : Form → Nat
  | short => length
  | middle => 126
  | long => 127

/--
What follows the second byte.
-/
def extended (length : Nat) : Form → Bytes
  | short => []
  | middle => Codec.beBytes 2 length
  | long => Codec.beBytes 8 length

theorem low_middle (length : Nat) : middle.low length = 126 := rfl

theorem low_long (length : Nat) : long.low length = 127 := rfl

theorem lt_limit_minimal {length : Nat} (h : length < 2 ^ 64) : length < (minimal length).limit := by
  unfold minimal
  split
  . assumption
  . split
    . assumption
    . exact h

end Form

def xorMask (mask payload : Bytes) : Bytes :=
  payload.mapIdx fun i byte => byte ^^^ mask.getD (i % 4) 0

theorem length_xorMask (mask payload : Bytes) : (xorMask mask payload).length = payload.length := by
  simp [xorMask]

theorem xorMask_xorMask (mask payload : Bytes) : xorMask mask (xorMask mask payload) = payload := by
  unfold xorMask
  apply List.ext_getElem
  . simp
  . intro i h h'
    simp [UInt8.xor_assoc]

end WireFrame

open WireFrame (Form)

/--
A frame on the wire.
-/
structure WireFrame extends Content where
  form : Form
  fits : payload.length < form.limit
  mask : Option Bytes
  mask_length : ∀ m ∈ mask, m.length = 4

namespace WireFrame

def firstByte (fin : Bool) (rsv : Fin 8) (opcode : Fin 16) : UInt8 :=
  UInt8.ofNat (128 * fin.toNat + 16 * rsv.val + opcode.val)

def secondByte (masked : Bool) (low : Nat) : UInt8 :=
  UInt8.ofNat (128 * masked.toNat + low)

def masked (mask : Option Bytes) (payload : Bytes) : Bytes :=
  match mask with
  | some m => xorMask m payload
  | none => payload

def encode (f : WireFrame) : Bytes :=
  firstByte f.fin f.rsv f.opcode :: secondByte f.mask.isSome (f.form.low f.payload.length) ::
    (f.form.extended f.payload.length ++ (f.mask.getD [] ++ masked f.mask f.payload))

section Parsing

def parseLength (low : Nat) : Reader UInt8 Nat :=
  if low = 126 then do
    return Codec.ofBeBytes (← Reader.exact 2)
  else if low = 127 then do
    return Codec.ofBeBytes (← Reader.exact 8)
  else
    return low

def parsePayload (isMasked : Bool) (length : Nat) : Reader UInt8 Bytes :=
  if isMasked then do
    let mask ← Reader.exact 4
    return xorMask mask (← Reader.exact length)
  else
    Reader.exact length

/--
The frame that the next bytes are.
-/
def parse : Reader UInt8 Content := do
  let b0 ← Reader.one
  let b1 ← Reader.one
  let length ← parseLength (b1.toNat % 128)
  let payload ← parsePayload (128 ≤ b1.toNat) length
  return {
    fin := 128 ≤ b0.toNat
    rsv := Fin.ofNat 8 (b0.toNat / 16)
    opcode := Fin.ofNat 16 b0.toNat
    payload := payload
  }

theorem low_lt {form : Form} {length : Nat} (h : length < form.limit) : form.low length < 128 := by
  cases form with
  | short => exact Nat.lt_trans h (by decide)
  | middle => simp [Form.low_middle]
  | long => simp [Form.low_long]

theorem toNat_firstByte (fin : Bool) (rsv : Fin 8) (opcode : Fin 16) :
    (firstByte fin rsv opcode).toNat = 128 * fin.toNat + 16 * rsv.val + opcode.val := by
  have hfin := Bool.toNat_le fin
  rw [firstByte, UInt8.toNat_ofNat', Nat.mod_eq_of_lt (by omega)]

theorem fin_firstByte (fin : Bool) (rsv : Fin 8) (opcode : Fin 16) :
    decide (128 ≤ (firstByte fin rsv opcode).toNat) = fin := by
  rw [toNat_firstByte]
  cases fin with
  | false => exact decide_eq_false (by simp; omega)
  | true => exact decide_eq_true (by simp; omega)

theorem rsv_firstByte (fin : Bool) (rsv : Fin 8) (opcode : Fin 16) :
    Fin.ofNat 8 ((firstByte fin rsv opcode).toNat / 16) = rsv := by
  rw [toNat_firstByte]
  apply Fin.ext
  rw [Fin.val_ofNat]
  omega

theorem opcode_firstByte (fin : Bool) (rsv : Fin 8) (opcode : Fin 16) :
    Fin.ofNat 16 (firstByte fin rsv opcode).toNat = opcode := by
  rw [toNat_firstByte]
  apply Fin.ext
  rw [Fin.val_ofNat]
  omega

theorem toNat_secondByte (isMasked : Bool) {low : Nat} (h : low < 128) :
    (secondByte isMasked low).toNat = 128 * isMasked.toNat + low := by
  have hmasked := Bool.toNat_le isMasked
  rw [secondByte, UInt8.toNat_ofNat', Nat.mod_eq_of_lt (by omega)]

theorem run_parseLength {form : Form} {length : Nat} (h : length < form.limit) (rest : Bytes) :
    (parseLength (form.low length)).run (form.extended length ++ rest) = .done length rest := by
  unfold parseLength
  cases form with
  | short =>
    have hlow : Form.short.low length < 126 := h
    rw [if_neg (by omega), if_neg (by omega)]
    rfl
  | middle =>
    change length < 2 ^ 16 at h
    rw [Form.low_middle, if_pos rfl, Form.extended, Reader.run_bind_done (Reader.run_exact rest (Codec.beBytes_length 2 length)),
      Codec.ofBeBytes_beBytes, Nat.mod_eq_of_lt (by omega)]
    rfl
  | long =>
    change length < 2 ^ 64 at h
    rw [Form.low_long, if_neg (by decide), if_pos rfl, Form.extended,
      Reader.run_bind_done (Reader.run_exact rest (Codec.beBytes_length 8 length)),
      Codec.ofBeBytes_beBytes, Nat.mod_eq_of_lt (by omega)]
    rfl

theorem run_parsePayload {mask : Option Bytes} (hmask : ∀ m ∈ mask, m.length = 4)
    (payload rest : Bytes) :
    (parsePayload mask.isSome payload.length).run (mask.getD [] ++ (masked mask payload ++ rest)) =
      .done payload rest := by
  unfold parsePayload
  cases mask with
  | none => exact Reader.run_exact rest rfl
  | some m =>
    change Reader.run (do
      let mask ← Reader.exact 4
      return xorMask mask (← Reader.exact payload.length)) (m ++ (xorMask m payload ++ rest)) = _
    rw [Reader.run_bind_done (Reader.run_exact _ (hmask m rfl)),
      Reader.run_bind_done (Reader.run_exact rest (length_xorMask m payload)), xorMask_xorMask]
    rfl

/--
A frame is parsed back, and exactly its bytes are taken.
-/
theorem run_parse_encode (f : WireFrame) (rest : Bytes) :
    parse.run (f.encode ++ rest) = .done f.toContent rest := by
  have hlow := low_lt f.fits
  have hsecond := toNat_secondByte f.mask.isSome hlow
  have hmod : (secondByte f.mask.isSome (f.form.low f.payload.length)).toNat % 128 =
      f.form.low f.payload.length := by
    omega
  have hmasked : decide (128 ≤ (secondByte f.mask.isSome (f.form.low f.payload.length)).toNat) =
      f.mask.isSome := by
    rw [hsecond]
    cases f.mask.isSome with
    | false => simp [hlow]
    | true => simp
  unfold parse encode
  simp only [List.cons_append, List.append_assoc]
  rw [Reader.run_bind_done (Reader.run_one _ _), Reader.run_bind_done (Reader.run_one _ _), hmod,
    Reader.run_bind_done (run_parseLength f.fits _), hmasked,
    Reader.run_bind_done (run_parsePayload f.mask_length f.payload rest), fin_firstByte,
    rsv_firstByte, opcode_firstByte]
  rfl

end Parsing

section Opcodes

def CONTINUATION : Fin 16 := 0x0
def TEXT : Fin 16 := 0x1
def BINARY : Fin 16 := 0x2
def CLOSE : Fin 16 := 0x8
def PING : Fin 16 := 0x9
def PONG : Fin 16 := 0xA

def Control (f : WireFrame) : Prop :=
  8 ≤ f.opcode.val

/--
What a client may send as a message in one frame, or as a control frame, up to a limit.
-/
structure Allowed (limit : Nat) (f : WireFrame) : Prop where
  masked : f.mask.isSome = true
  whole : f.fin = true
  reserved : f.rsv = 0
  opcode : f.opcode ∈ [TEXT, BINARY, PING, PONG, CLOSE]
  minimal : f.form = .minimal f.payload.length
  control : f.Control → f.payload.length ≤ 125
  -- the body of a close frame starts with a status code
  close : f.opcode = CLOSE → f.payload.length ≠ 1
  within : f.payload.length ≤ limit

/--
What a client must not send.
-/
inductive Forbidden (limit : Nat) (f : WireFrame) : Prop where
  | unmasked (h : f.mask = none)
  | fragmented (h : f.Control) (hfin : f.fin = false)
  | overlong (h : f.Control) (hlength : 125 < f.payload.length)
  | reserved (h : f.rsv ≠ 0)
  | unknown (h : f.opcode ∉ [CONTINUATION, TEXT, BINARY, CLOSE, PING, PONG])
  | oversized (h : limit < f.payload.length)

end Opcodes

end WireFrame
