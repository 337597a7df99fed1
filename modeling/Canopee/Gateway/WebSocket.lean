import Canopee.Lib.Codec
import Canopee.Lib.Incremental

/-!
This module contains the WebSocket frames of a gateway: how it reads them from a stream, and how a
client writes them.
-/

namespace Canopee

namespace Gateway

open Incremental

def MAX_MESSAGE_BYTES : Nat := 16 * 1024 * 1024

def OP_CONTINUATION : UInt8 := 0x0
def OP_TEXT : UInt8 := 0x1
def OP_BINARY : UInt8 := 0x2
def OP_CLOSE : UInt8 := 0x8
def OP_PING : UInt8 := 0x9
def OP_PONG : UInt8 := 0xA

/--
One parsed incoming frame.
-/
inductive Frame where
  | data (payload : Bytes)
  | ping (payload : Bytes)
  | pong (payload : Bytes)
  | close (reason : Option Nat)
deriving DecidableEq

/--
The payload under a mask of four bytes.
-/
def unmask (mask payload : Bytes) : Bytes :=
  payload.mapIdx fun i byte => byte ^^^ mask.getD (i % 4) 0

/--
The length that the low bits of the second byte stand for.
-/
def readLength (low : UInt8) : Reader UInt8 Nat :=
  if low = 126 then do
    return Codec.ofBeBytes (← Reader.exact 2)
  else if low = 127 then do
    return Codec.ofBeBytes (← Reader.exact 8)
  else
    return low.toNat

/--
The mask of a frame, which is zero when the frame has none.
-/
def readMask (masked : Bool) : Reader UInt8 Bytes :=
  if masked then Reader.exact 4 else return [0, 0, 0, 0]

/--
What a payload means under an opcode; fragments, and opcodes that are not known, are refused.
-/
def frameOf (opcode : UInt8) (fin : Bool) (payload : Bytes) : Reader UInt8 Frame :=
  if opcode = OP_TEXT ∨ opcode = OP_BINARY then
    if fin then return .data payload else Reader.fail
  else if opcode = OP_PING then
    return .ping payload
  else if opcode = OP_PONG then
    return .pong payload
  else if opcode = OP_CLOSE ∧ fin = true then
    return .close (if 2 ≤ payload.length then some (Codec.ofBeBytes (payload.take 2)) else none)
  else
    Reader.fail

/--
What follows the first two bytes of a frame.
-/
def readBody (b0 b1 : UInt8) : Reader UInt8 Frame :=
  let fin : Bool := b0 &&& 0x80 ≠ 0
  let rsv := (b0 >>> 4) &&& 0x7
  let opcode := b0 &&& 0x0f
  if rsv ≠ 0 then
    Reader.fail
  else do
    let masked : Bool := b1 &&& 0x80 ≠ 0
    let length ← readLength (b1 &&& 0x7f)
    if length > MAX_MESSAGE_BYTES then
      Reader.fail
    else
      let mask ← readMask masked
      let payload ← Reader.exact length
      frameOf opcode fin (if masked then unmask mask payload else payload)

/--
`WebSocket::read_frame`
-/
def readFrame : Reader UInt8 Frame := do
  let b0 ← Reader.one
  let b1 ← Reader.one
  readBody b0 b1

section Client

/--
A frame that a client may send: a message in one frame, or a ping or a pong.
-/
structure ClientFrame where
  opcode : UInt8
  known : opcode ∈ [OP_TEXT, OP_BINARY, OP_PING, OP_PONG]
  mask : Option Bytes
  mask_length : ∀ m ∈ mask, m.length = 4
  payload : Bytes
  payload_length : payload.length ≤ MAX_MESSAGE_BYTES

/--
The low bits of the second byte, and the longer form of the length that follows it.
-/
def lengthBytes (n : Nat) : UInt8 × Bytes :=
  if n < 126 then
    (UInt8.ofNat n, [])
  else if n ≤ 65535 then
    (126, Codec.beBytes 2 n)
  else
    (127, Codec.beBytes 8 n)

namespace ClientFrame

def encode (f : ClientFrame) : Bytes :=
  let (low, long) := lengthBytes f.payload.length
  [0x80 ||| f.opcode, (if f.mask.isSome then 0x80 else 0) ||| low] ++ long ++ f.mask.getD [] ++
    (match f.mask with
    | some mask => unmask mask f.payload
    | none => f.payload)

/--
What the gateway is to read.
-/
def frame (f : ClientFrame) : Frame :=
  if f.opcode = OP_PING then
    .ping f.payload
  else if f.opcode = OP_PONG then
    .pong f.payload
  else
    .data f.payload

end ClientFrame

end Client

/--
`WebSocket::write_frame`, whose length has the same three forms.
-/
def writeFrame (opcode : UInt8) (payload : Bytes) : Bytes :=
  let (low, long) := lengthBytes payload.length
  [0x80 ||| opcode, low] ++ long ++ payload

section Lemmas

theorem unmask_unmask (mask payload : Bytes) : unmask mask (unmask mask payload) = payload := by
  unfold unmask
  apply List.ext_getElem
  . simp
  . intro i h h'
    simp [UInt8.xor_assoc]

theorem length_unmask (mask payload : Bytes) : (unmask mask payload).length = payload.length := by
  simp [unmask]

theorem stable_readLength (low : UInt8) : (readLength low).Stable := by
  apply Reader.stable_ite
  . exact (Reader.stable_exact 2).bind fun _ => Reader.stable_pure _
  . apply Reader.stable_ite
    . exact (Reader.stable_exact 8).bind fun _ => Reader.stable_pure _
    . exact Reader.stable_pure _

theorem stable_readMask (masked : Bool) : (readMask masked).Stable := by
  apply Reader.stable_ite
  . exact Reader.stable_exact 4
  . exact Reader.stable_pure _

theorem stable_frameOf (opcode : UInt8) (fin : Bool) (payload : Bytes) :
    (frameOf opcode fin payload).Stable := by
  apply Reader.stable_ite
  . apply Reader.stable_ite
    . exact Reader.stable_pure _
    . exact Reader.stable_fail
  . apply Reader.stable_ite
    . exact Reader.stable_pure _
    . apply Reader.stable_ite
      . exact Reader.stable_pure _
      . apply Reader.stable_ite
        . exact Reader.stable_pure _
        . exact Reader.stable_fail

theorem stable_readBody (b0 b1 : UInt8) : (readBody b0 b1).Stable := by
  apply Reader.stable_ite Reader.stable_fail
  apply (stable_readLength _).bind
  intro length
  apply Reader.stable_ite Reader.stable_fail
  apply (stable_readMask _).bind
  intro mask
  apply (Reader.stable_exact _).bind
  intro payload
  apply stable_frameOf

theorem stable_readFrame : readFrame.Stable := by
  apply Reader.stable_one.bind
  intro b0
  apply Reader.stable_one.bind
  intro b1
  apply stable_readBody

theorem readFrame_length {bytes rest : Bytes} {frame : Frame}
    (h : readFrame.run bytes = .done frame rest) : rest.length < bytes.length := by
  unfold readFrame at h
  cases bytes with
  | nil => cases h
  | cons b0 bytes =>
    rw [Reader.run_bind_done (Reader.run_one b0 bytes)] at h
    have hstable : (Reader.one >>= fun b1 => readBody b0 b1).Stable :=
      Reader.stable_one.bind fun b1 => stable_readBody b0 b1
    exact Nat.lt_succ_of_le (hstable.left h)

theorem header_bits : ∀ opcode ∈ [OP_TEXT, OP_BINARY, OP_PING, OP_PONG],
    ((0x80 ||| opcode) &&& 0x80 ≠ 0) ∧ ((0x80 ||| opcode) >>> 4) &&& 0x7 = 0 ∧
      (0x80 ||| opcode) &&& 0x0f = opcode := by
  apply Codec.forall_mem_of_all
  decide

theorem low_bits : ∀ low : Fin 128,
    ((0x80 ||| UInt8.ofNat low) &&& 0x80 ≠ 0) ∧ (0x80 ||| UInt8.ofNat low) &&& 0x7f = UInt8.ofNat low ∧
      ((0 ||| UInt8.ofNat low) &&& 0x80 = 0) ∧ (0 ||| UInt8.ofNat low) &&& 0x7f = UInt8.ofNat low := by
  decide +kernel

theorem lengthBytes_low (n : Nat) : ∃ low : Fin 128, (lengthBytes n).1 = UInt8.ofNat low := by
  unfold lengthBytes
  split
  . next h => exact ⟨⟨n, by omega⟩, rfl⟩
  . split
    . exact ⟨126, rfl⟩
    . exact ⟨127, rfl⟩

theorem run_readLength {n : Nat} (h : n ≤ MAX_MESSAGE_BYTES) (rest : Bytes) :
    (readLength (lengthBytes n).1).run ((lengthBytes n).2 ++ rest) = .done n rest := by
  have hmax : n < 256 ^ 8 := by
    unfold MAX_MESSAGE_BYTES at h
    omega
  unfold lengthBytes readLength
  split
  . next hsmall =>
    have htoNat : (UInt8.ofNat n).toNat = n := by
      rw [UInt8.toNat_ofNat', Nat.mod_eq_of_lt (by omega)]
    have hne : UInt8.ofNat n ≠ 126 ∧ UInt8.ofNat n ≠ 127 := by
      constructor
      . intro heq
        have hn := congrArg UInt8.toNat heq
        rw [htoNat] at hn
        simp at hn
        omega
      . intro heq
        have hn := congrArg UInt8.toNat heq
        rw [htoNat] at hn
        simp at hn
        omega
    rw [if_neg hne.1, if_neg hne.2, htoNat]
    rfl
  . split
    . next hmiddle =>
      rw [if_pos rfl, Reader.run_bind_done (Reader.run_exact rest (Codec.beBytes_length 2 n)),
        Codec.ofBeBytes_beBytes, Nat.mod_eq_of_lt (by omega)]
      rfl
    . dsimp only
      rw [if_neg (by decide), if_pos rfl,
        Reader.run_bind_done (Reader.run_exact rest (Codec.beBytes_length 8 n)),
        Codec.ofBeBytes_beBytes, Nat.mod_eq_of_lt hmax]
      rfl

theorem run_readMask_false (rest : Bytes) :
    (readMask false).run rest = .done [0, 0, 0, 0] rest := rfl

theorem run_readMask_true {mask : Bytes} (rest : Bytes) (h : mask.length = 4) :
    (readMask true).run (mask ++ rest) = .done mask rest :=
  Reader.run_exact rest h

theorem run_frameOf (f : ClientFrame) (rest : Bytes) :
    (frameOf f.opcode true f.payload).run rest = .done f.frame rest := by
  have hknown := f.known
  simp only [List.mem_cons, List.not_mem_nil, or_false] at hknown
  unfold frameOf ClientFrame.frame
  rcases hknown with h | h | h | h
  . rw [h]
    rfl
  . rw [h]
    rfl
  . rw [h]
    rfl
  . rw [h]
    rfl

theorem readFrame_encode (f : ClientFrame) (rest : Bytes) :
    readFrame.run (f.encode ++ rest) = .done f.frame rest := by
  obtain ⟨low, hlow⟩ := lengthBytes_low f.payload.length
  have ⟨hfin, hrsv, hopcode⟩ := header_bits f.opcode f.known
  have ⟨hmasked, hlength, hbare, hlength'⟩ := low_bits low
  have hread := run_readLength f.payload_length
  rw [hlow] at hread
  unfold readFrame readBody ClientFrame.encode
  cases hmask : f.mask with
  | none =>
    simp only [hlow, Option.isSome_none, Bool.false_eq_true, if_false, Option.getD_none,
      List.append_nil, List.cons_append, List.nil_append, List.append_assoc]
    rw [Reader.run_bind_done (Reader.run_one _ _), Reader.run_bind_done (Reader.run_one _ _)]
    simp only [hrsv, hopcode, hfin, hbare, hlength', ne_eq, not_true_eq_false, if_false,
      decide_true, decide_false, not_false_eq_true]
    rw [Reader.run_bind_done (hread _), if_neg (by have := f.payload_length; omega),
      Reader.run_bind_done (run_readMask_false _),
      Reader.run_bind_done (Reader.run_exact rest rfl)]
    apply run_frameOf
  | some mask =>
    have hmask4 := f.mask_length mask hmask
    simp only [hlow, Option.isSome_some, if_true, Option.getD_some, List.cons_append,
      List.nil_append, List.append_assoc]
    rw [Reader.run_bind_done (Reader.run_one _ _), Reader.run_bind_done (Reader.run_one _ _)]
    simp only [hrsv, hopcode, hfin, hmasked, hlength, ne_eq, not_true_eq_false, if_false,
      decide_true, not_false_eq_true]
    rw [Reader.run_bind_done (hread _), if_neg (by have := f.payload_length; omega),
      Reader.run_bind_done (run_readMask_true _ hmask4),
      Reader.run_bind_done (Reader.run_exact rest (length_unmask mask f.payload))]
    simp only [if_true, unmask_unmask]
    apply run_frameOf

end Lemmas

end Gateway

end Canopee
