import Canopee.Gateway.WebSocket
import Canopee.Lib.WireFrame

/-!
This module contains how the frames of a gateway conform to RFC 6455: which frames it reads, and that
it also takes control frames that are too long or fragmented and frames without a mask.
-/

namespace Canopee

namespace Gateway

open Incremental
open WireFrame (Form firstByte secondByte parseLength xorMask)

section Bytes

theorem bits_firstByte : ∀ (fin : Bool) (rsv : Fin 8) (opcode : Fin 16),
    decide (firstByte fin rsv opcode &&& 0x80 ≠ 0) = fin ∧
      (firstByte fin rsv opcode >>> 4) &&& 0x7 = UInt8.ofNat rsv ∧
      firstByte fin rsv opcode &&& 0x0f = UInt8.ofNat opcode := by
  decide

theorem bits_secondByte : ∀ (isMasked : Bool) (low : Fin 128),
    decide (secondByte isMasked low &&& 0x80 ≠ 0) = isMasked ∧
      secondByte isMasked low &&& 0x7f = UInt8.ofNat low := by
  decide

theorem ofNat_eq_zero_iff : ∀ rsv : Fin 8, UInt8.ofNat rsv = 0 ↔ rsv = 0 := by
  decide

theorem unmask_eq (mask payload : Bytes) : unmask mask payload = xorMask mask payload := rfl

theorem readLength_ofNat : ∀ low : Fin 128, readLength (UInt8.ofNat low) = parseLength low := by
  intro low
  unfold readLength parseLength
  have h126 : UInt8.ofNat low = 126 ↔ low.val = 126 := by
    revert low
    decide
  have h127 : UInt8.ofNat low = 127 ↔ low.val = 127 := by
    revert low
    decide
  have htoNat : (UInt8.ofNat low).toNat = low.val := by
    rw [UInt8.toNat_ofNat', Nat.mod_eq_of_lt (by omega)]
  simp only [h126, h127, htoNat]

end Bytes

section Reading

/--
What the gateway is to read.
-/
def frameOfContent (c : Content) : Frame :=
  if c.opcode = WireFrame.PING then
    .ping c.payload
  else if c.opcode = WireFrame.PONG then
    .pong c.payload
  else if c.opcode = WireFrame.CLOSE then
    .close (match c.payload with
      | high :: low :: _ => some (256 * high.toNat + low.toNat)
      | _ => none)
  else
    .data c.payload

/--
The gateway goes by the reserved bits, the length and the opcode, and looks at the `fin` bit only of
what is not a ping or a pong.
-/
structure Handled (f : WireFrame) : Prop where
  reserved : f.rsv = 0
  within : f.payload.length ≤ MAX_MESSAGE_BYTES
  opcode : f.opcode ∈ [WireFrame.PING, WireFrame.PONG] ∨
    f.fin = true ∧ f.opcode ∈ [WireFrame.TEXT, WireFrame.BINARY, WireFrame.CLOSE]

theorem run_body (f : WireFrame) (rest : Bytes) :
    (do
      let mask ← readMask f.mask.isSome
      let payload ← Reader.exact f.payload.length
      frameOf (UInt8.ofNat f.opcode) f.fin
        (if f.mask.isSome then unmask mask payload else payload)).run
        (f.mask.getD [] ++ (WireFrame.masked f.mask f.payload ++ rest)) =
      (frameOf (UInt8.ofNat f.opcode) f.fin f.payload).run rest := by
  cases hmask : f.mask with
  | none =>
    rw [Option.isSome_none, WireFrame.masked, Option.getD_none, List.nil_append,
      Reader.run_bind_done (run_readMask_false _), Reader.run_bind_done (Reader.run_exact rest rfl),
      if_neg Bool.false_ne_true]
  | some mask =>
    rw [Option.isSome_some, WireFrame.masked, Option.getD_some,
      Reader.run_bind_done (run_readMask_true _ (f.mask_length mask hmask)),
      Reader.run_bind_done (Reader.run_exact rest (WireFrame.length_xorMask mask f.payload)),
      if_pos rfl, unmask_eq, WireFrame.xorMask_xorMask]

theorem readFrame_wire (f : WireFrame) (rest : Bytes) :
    readFrame.run (f.encode ++ rest) =
      if f.rsv ≠ 0 then .fail
      else if MAX_MESSAGE_BYTES < f.payload.length then .fail
      else (frameOf (UInt8.ofNat f.opcode) f.fin f.payload).run rest := by
  have hlow := WireFrame.low_lt f.fits
  obtain ⟨hfin, hrsv, hopcode⟩ := bits_firstByte f.fin f.rsv f.opcode
  obtain ⟨hmasked, hlength⟩ := bits_secondByte f.mask.isSome ⟨_, hlow⟩
  dsimp only at hmasked hlength
  unfold readFrame readBody WireFrame.encode
  simp only [List.cons_append, List.append_assoc]
  rw [Reader.run_bind_done (Reader.run_one _ _), Reader.run_bind_done (Reader.run_one _ _)]
  rw [hfin, hrsv, hopcode, hmasked, hlength, readLength_ofNat ⟨_, hlow⟩]
  by_cases hreserved : f.rsv = 0
  . rw [if_neg (not_not.mpr ((ofNat_eq_zero_iff f.rsv).mpr hreserved)),
      if_neg (not_not.mpr hreserved),
      Reader.run_bind_done (WireFrame.run_parseLength f.fits _)]
    split
    . rfl
    . exact run_body f rest
  . rw [if_pos (fun h => hreserved ((ofNat_eq_zero_iff f.rsv).mp h)), if_pos hreserved]
    rfl

theorem ofNat_eq_opcode_iff : ∀ opcode : Fin 16,
    (UInt8.ofNat opcode = OP_TEXT ↔ opcode = WireFrame.TEXT) ∧
      (UInt8.ofNat opcode = OP_BINARY ↔ opcode = WireFrame.BINARY) ∧
      (UInt8.ofNat opcode = OP_PING ↔ opcode = WireFrame.PING) ∧
      (UInt8.ofNat opcode = OP_PONG ↔ opcode = WireFrame.PONG) ∧
      (UInt8.ofNat opcode = OP_CLOSE ↔ opcode = WireFrame.CLOSE) := by
  decide

theorem closeReason_eq (payload : Bytes) :
    (if 2 ≤ payload.length then some (Codec.ofBeBytes (payload.take 2)) else none) =
      match payload with
      | high :: low :: _ => some (256 * high.toNat + low.toNat)
      | _ => none := by
  match payload with
  | [] => rfl
  | [_] => rfl
  | high :: low :: rest =>
    rw [if_pos (by simp)]
    simp [Codec.ofBeBytes, Codec.ofLeBytes]
    omega

theorem readFrame_handled {f : WireFrame} (h : Handled f) (rest : Bytes) :
    readFrame.run (f.encode ++ rest) = .done (frameOfContent f.toContent) rest := by
  rw [readFrame_wire, if_neg (not_not.mpr h.reserved), if_neg (Nat.not_lt.mpr h.within)]
  unfold frameOf frameOfContent
  rw [closeReason_eq]
  rcases h.opcode with hopcode | ⟨hfin, hopcode⟩
  . simp only [List.mem_cons, List.not_mem_nil, or_false] at hopcode
    rcases hopcode with hopcode | hopcode
    . rw [hopcode]
      rfl
    . rw [hopcode]
      rfl
  . simp only [List.mem_cons, List.not_mem_nil, or_false] at hopcode
    rw [hfin]
    rcases hopcode with hopcode | hopcode | hopcode
    . rw [hopcode]
      rfl
    . rw [hopcode]
      rfl
    . rw [hopcode]
      rfl

theorem readFrame_not_handled {f : WireFrame} (h : ¬ Handled f) (rest : Bytes) :
    readFrame.run (f.encode ++ rest) = .fail := by
  rw [readFrame_wire]
  by_cases hreserved : f.rsv = 0
  . rw [if_neg (not_not.mpr hreserved)]
    split
    . rfl
    . next hwithin =>
      obtain ⟨htext, hbinary, hping, hpong, hclose⟩ := ofNat_eq_opcode_iff f.opcode
      have hopcode : ¬ (f.opcode ∈ [WireFrame.PING, WireFrame.PONG] ∨ f.fin = true ∧
          f.opcode ∈ [WireFrame.TEXT, WireFrame.BINARY, WireFrame.CLOSE]) := by
        intro hopcode
        exact h ⟨hreserved, Nat.not_lt.mp hwithin, hopcode⟩
      simp only [List.mem_cons, List.not_mem_nil, or_false, not_or, not_and] at hopcode
      unfold frameOf
      simp only [htext, hbinary, hping, hpong, hclose, if_neg hopcode.1.1, if_neg hopcode.1.2]
      split
      . next hdata =>
        rw [if_neg]
        . rfl
        . intro hfin
          rcases hdata with hdata | hdata
          . exact (hopcode.2 hfin).1 hdata
          . exact (hopcode.2 hfin).2.1 hdata
      . rw [if_neg (fun hc => (hopcode.2 hc.2).2.2 hc.1)]
        rfl
  . rw [if_pos hreserved]

end Reading

/--
What is asked of the frames that are read and of those that are written.
-/
structure Conforms (f : WireFrame) : Prop where
  read : f.Allowed MAX_MESSAGE_BYTES → ∀ rest,
    readFrame.run (f.encode ++ rest) = .done (frameOfContent f.toContent) rest
  refused : f.Forbidden MAX_MESSAGE_BYTES → ∀ rest, readFrame.run (f.encode ++ rest) = .fail
  written : ∀ (opcode : Fin 16) (payload rest : Bytes), payload.length < 2 ^ 64 →
    WireFrame.parse.run (writeFrame (UInt8.ofNat opcode) payload ++ rest) =
      .done ⟨true, 0, opcode, payload⟩ rest

section Conformance

theorem Handled.of_allowed {f : WireFrame} (h : f.Allowed MAX_MESSAGE_BYTES) : Handled f where
  reserved := h.reserved
  within := h.within
  opcode := by
    have hopcode := h.opcode
    simp only [List.mem_cons, List.not_mem_nil, or_false] at hopcode ⊢
    rcases hopcode with hopcode | hopcode | hopcode | hopcode | hopcode
    . exact .inr ⟨h.whole, .inl hopcode⟩
    . exact .inr ⟨h.whole, .inr (.inl hopcode)⟩
    . exact .inl (.inl hopcode)
    . exact .inl (.inr hopcode)
    . exact .inr ⟨h.whole, .inr (.inr hopcode)⟩

theorem Handled.known {f : WireFrame} (h : Handled f) :
    f.opcode ∈ [WireFrame.CONTINUATION, WireFrame.TEXT, WireFrame.BINARY, WireFrame.CLOSE,
      WireFrame.PING, WireFrame.PONG] := by
  have hopcode := h.opcode
  simp only [List.mem_cons, List.not_mem_nil, or_false] at hopcode ⊢
  tauto

/--
The gateway writes a frame without a mask, in the shortest form.
-/
def written (opcode : Fin 16) (payload : Bytes) (h : payload.length < 2 ^ 64) : WireFrame where
  fin := true
  rsv := ⟨0, by decide⟩
  opcode := opcode
  payload := payload
  form := .minimal payload.length
  fits := Form.lt_limit_minimal h
  mask := none
  mask_length := by simp

theorem firstByte_written : ∀ opcode : Fin 16,
    firstByte true 0 opcode = 0x80 ||| UInt8.ofNat opcode := by
  decide

theorem lengthBytes_eq (n : Nat) :
    lengthBytes n = (secondByte false ((Form.minimal n).low n), (Form.minimal n).extended n) := by
  unfold lengthBytes Form.minimal secondByte
  rw [Bool.toNat_false, Nat.mul_zero, Nat.zero_add]
  split
  . rfl
  . by_cases hmiddle : n ≤ 65535
    . rw [if_pos hmiddle, if_pos (by omega)]
      rfl
    . rw [if_neg hmiddle, if_neg (by omega)]
      rfl

theorem writeFrame_eq (opcode : Fin 16) (payload : Bytes) (h : payload.length < 2 ^ 64) :
    writeFrame (UInt8.ofNat opcode) payload = (written opcode payload h).encode := by
  unfold writeFrame WireFrame.encode written
  rw [lengthBytes_eq]
  dsimp only
  rw [← firstByte_written]
  rfl

/--
A frame is dealt with as RFC 6455 asks for exactly when it is not one of those that the gateway takes
although it has no mask, or although it is a fragmented or overlong control frame.
-/
theorem conforms_iff (f : WireFrame) :
    Conforms f ↔ (Handled f →
      f.mask.isSome = true ∧ (f.Control → f.fin = true ∧ f.payload.length ≤ 125)) := by
  constructor
  . intro h hhandled
    have hallowed : ¬ f.Forbidden MAX_MESSAGE_BYTES := by
      intro hforbidden
      have hfail := h.refused hforbidden []
      rw [readFrame_handled hhandled] at hfail
      cases hfail
    refine ⟨?_, ?_⟩
    . by_contra hmask
      exact hallowed (.unmasked (by simpa using hmask))
    . intro hcontrol
      refine ⟨?_, ?_⟩
      . by_contra hfin
        exact hallowed (.fragmented hcontrol (by simpa using hfin))
      . by_contra hlength
        exact hallowed (.overlong hcontrol (by omega))
  . intro h
    constructor
    . intro hallowed rest
      exact readFrame_handled (.of_allowed hallowed) rest
    . intro hforbidden rest
      apply readFrame_not_handled
      intro hhandled
      obtain ⟨hmask, hcontrol⟩ := h hhandled
      cases hforbidden with
      | unmasked hnone =>
        rw [hnone] at hmask
        cases hmask
      | fragmented hcontrolled hfin =>
        have hwhole := (hcontrol hcontrolled).1
        rw [hfin] at hwhole
        cases hwhole
      | overlong hcontrolled hlength =>
        have hshort := (hcontrol hcontrolled).2
        omega
      | reserved hreserved => exact hreserved hhandled.reserved
      | unknown hunknown => exact hunknown hhandled.known
      | oversized hlength =>
        have hwithin := hhandled.within
        omega
    . intro opcode payload rest hlength
      rw [writeFrame_eq opcode payload hlength]
      exact WireFrame.run_parse_encode _ rest

end Conformance

section Counterexample

/--
A text frame without a mask.
-/
def bareText : WireFrame where
  fin := true
  rsv := ⟨0, by decide⟩
  opcode := WireFrame.TEXT
  payload := Codec.utf8 "{}"
  form := .short
  fits := by decide
  mask := none
  mask_length := by simp

theorem length_someMask : ∀ m ∈ some ([1, 2, 3, 4] : Bytes), m.length = 4 := by simp

/--
A ping that says that more of it is to come.
-/
def partialPing : WireFrame where
  fin := false
  rsv := ⟨0, by decide⟩
  opcode := WireFrame.PING
  payload := [1]
  form := .short
  fits := by decide
  mask := some [1, 2, 3, 4]
  mask_length := length_someMask

theorem bareText_delivered (rest : Bytes) :
    readFrame.run (bareText.encode ++ rest) = .done (.data (Codec.utf8 "{}")) rest :=
  readFrame_handled ⟨rfl, by decide, .inr ⟨rfl, by decide⟩⟩ rest

theorem partialPing_taken (rest : Bytes) :
    readFrame.run (partialPing.encode ++ rest) = .done (.ping [1]) rest :=
  readFrame_handled ⟨rfl, by decide, .inl (by decide)⟩ rest

/--
The first is delivered as a message, and the second is answered.
-/
theorem not_conforms :
    ((∀ rest, readFrame.run (bareText.encode ++ rest) = .done (.data (Codec.utf8 "{}")) rest) ∧
      ¬ Conforms bareText) ∧
    (∀ rest, readFrame.run (partialPing.encode ++ rest) = .done (.ping [1]) rest) ∧
      ¬ Conforms partialPing := by
  refine ⟨⟨bareText_delivered, ?_⟩, partialPing_taken, ?_⟩
  . intro h
    have hfail := h.refused (.unmasked rfl) []
    rw [bareText_delivered] at hfail
    cases hfail
  . intro h
    have hfail := h.refused (.fragmented (show 8 ≤ 9 by decide) rfl) []
    rw [partialPing_taken] at hfail
    cases hfail

end Counterexample

end Gateway

end Canopee
