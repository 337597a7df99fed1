import Canopee.Sdk.Frames

/-!
This module contains which frames of the node's socket every reader gets back: the readers agree on
a length when it is the same in both byte orders.
-/

namespace Canopee

open Prog (exec exec_bind_ok exec_bind_error)

namespace Socket

variable {α β : Type}

theorem exec_readExact (n : Nat) (stream : Bytes) :
    exec (readExact n) () stream =
      if n ≤ stream.length then (.ok (stream.take n), stream.drop n)
      else (.error .unexpectedEof, []) := by
  unfold readExact
  rw [exec_bind_ok (Prog.exec_get () stream)]
  by_cases h : n ≤ stream.length
  . simp only [Codec.takeExact, if_pos h]
    rfl
  . simp only [Codec.takeExact, if_neg h]
    rfl

theorem exec_readExact_append {n : Nat} {bytes : Bytes} (rest : Bytes) (h : bytes.length = n) :
    exec (readExact n) () (bytes ++ rest) = (.ok bytes, rest) := by
  rw [exec_readExact, if_pos (by simp; omega)]
  subst h
  simp

theorem exec_readU32 (n : Nat) (rest : Bytes) :
    exec readU32 () (Codec.beBytes 4 n ++ rest) = (.ok (UInt32.ofNat n), rest) := by
  unfold readU32
  rw [exec_bind_ok (exec_readExact_append rest (Codec.beBytes_length 4 n)), Codec.ofBeBytes_beBytes]
  have heq : UInt32.ofNat (n % 256 ^ 4) = UInt32.ofNat n := by
    apply UInt32.toNat_inj.mp
    simp
  rw [heq]
  rfl

theorem exec_readBody_iff (c : Codec α) (a : α) (size : Nat) (rest : Bytes) :
    exec (do
      let buffer ← readExact size
      deserialize c buffer) () (c.serialize a ++ rest) = (.ok a, rest) ↔
      size = (c.serialize a).length := by
  constructor
  . intro h
    rw [Prog.exec_bind, exec_readExact] at h
    by_cases hsize : size ≤ (c.serialize a ++ rest).length
    . rw [if_pos hsize] at h
      -- a read that leaves the rest has taken as much as the frame has
      have hrest : (exec (deserialize c ((c.serialize a ++ rest).take size)) ()
          ((c.serialize a ++ rest).drop size)).2 = (c.serialize a ++ rest).drop size := by
        unfold deserialize
        split
        . rfl
        . rfl
      dsimp only at h
      rw [h] at hrest
      have hlength := congrArg List.length hrest
      simp only [List.length_drop, List.length_append] at hlength hsize
      omega
    . rw [if_neg hsize] at h
      cases h
  . intro h
    rw [exec_bind_ok (exec_readExact_append rest h.symm), deserialize, Codec.deserialize_serialize]
    rfl

theorem exec_readFrame_iff (c : Codec α) (a : α) (rest : Bytes) :
    exec (readFrame c) () (writeResponse c a ++ rest) = (.ok a, rest) ↔
      (c.serialize a).length < 2 ^ 32 := by
  unfold readFrame writeResponse
  dsimp only
  rw [List.append_assoc, exec_bind_ok (exec_readU32 _ _), exec_readBody_iff]
  rw [UInt32.ofNat_toNat, UInt32.toNat_ofNat']
  omega

/--
The length of a frame is below 2^32 and is the same in both byte orders.
-/
def SameInBothOrders (length : Nat) : Prop :=
  length < 2 ^ 32 ∧ Codec.beBytes 4 length = Codec.leBytes 4 length

theorem sameInBothOrders_iff (length : Nat) :
    Codec.ofLeBytes (Codec.beBytes 4 (UInt32.ofNat length).toNat) = length ↔
      SameInBothOrders length := by
  constructor
  . intro h
    have hlt := Codec.ofLeBytes_lt (Codec.beBytes 4 (UInt32.ofNat length).toNat)
    rw [h, Codec.beBytes_length] at hlt
    have hlt : length < 2 ^ 32 := hlt
    refine ⟨hlt, ?_⟩
    rw [UInt32.toNat_ofNat', Nat.mod_eq_of_lt hlt] at h
    have hround := Codec.leBytes_ofLeBytes (Codec.beBytes 4 length)
    rw [Codec.beBytes_length, h] at hround
    apply hround.symm
  . intro ⟨hlt, hsame⟩
    rw [UInt32.toNat_ofNat', Nat.mod_eq_of_lt hlt, hsame, Codec.ofLeBytes_leBytes]
    apply Nat.mod_eq_of_lt hlt

theorem exec_readFrameOpt_iff (c : Codec α) (a : α) (rest : Bytes) :
    exec (readFrameOpt c) () (writeResponse c a ++ rest) = (.ok (some a), rest) ↔
      SameInBothOrders (c.serialize a).length := by
  rw [← sameInBothOrders_iff]
  unfold readFrameOpt writeResponse
  dsimp only
  generalize hheader : Codec.beBytes 4 _ = header
  obtain ⟨b₀, b₁, b₂, b₃, hbytes⟩ : ∃ b₀ b₁ b₂ b₃, header = [b₀, b₁, b₂, b₃] :=
    ⟨_, _, _, _, hheader.symm⟩
  have hfirst (stream : Bytes) : exec (Prog.attempt (readExact 1)) () (b₀ :: stream) =
      (.ok (.ok [b₀]), stream) := by
    rw [Prog.exec_attempt, exec_readExact]
    simp
  have hrest (stream : Bytes) : exec (readExact 3) () (b₁ :: b₂ :: b₃ :: stream) =
      (.ok [b₁, b₂, b₃], stream) := by
    rw [exec_readExact]
    simp
  rw [hbytes]
  simp only [List.cons_append, List.nil_append]
  rw [exec_bind_ok (hfirst _)]
  dsimp only
  rw [exec_bind_ok (hrest _), List.singleton_append, ← exec_readBody_iff c a _ rest]
  constructor
  . intro h
    obtain ⟨buffer, u, hbuffer, hvalue⟩ := Prog.exec_bind_eq_iff.mp h
    obtain ⟨a', v, ha, hpure⟩ := Prog.exec_bind_eq_iff.mp hvalue
    cases hpure
    rw [exec_bind_ok hbuffer, ha]
  . intro h
    obtain ⟨buffer, u, hbuffer, ha⟩ := Prog.exec_bind_eq_iff.mp h
    rw [exec_bind_ok hbuffer, exec_bind_ok ha]
    rfl

theorem writeFrame_serialize (c : Codec α) (a : α) :
    writeFrame (c.serialize a) = writeResponse c a := rfl

def readMany (read : ReadM β) : Nat → ReadM (List β)
  | 0 => pure []
  | k + 1 => do
    let b ← read
    let bs ← readMany read k
    pure (b :: bs)

/--
From a stream of frames and whatever comes after them, `read` gets the values of the frames in
order, and each read takes exactly one frame.
-/
def Delivers (read : ReadM β) (frames : List (Bytes × β)) : Prop :=
  ∀ rest, ∀ k ≤ frames.length,
    exec (readMany read k) () ((frames.map Prod.fst).flatten ++ rest) =
      (.ok ((frames.take k).map Prod.snd), ((frames.drop k).map Prod.fst).flatten ++ rest)

theorem delivers_iff {read : ReadM β} {write : α → Bytes} {value : α → β} {C : α → Prop}
    (h : ∀ a rest, exec read () (write a ++ rest) = (.ok (value a), rest) ↔ C a) (values : List α) :
    Delivers read (values.map fun a => (write a, value a)) ↔ ∀ a ∈ values, C a := by
  induction values with
  | nil =>
    constructor
    . intro _ _ ha
      cases ha
    . intro _ rest k hk
      obtain rfl : k = 0 := by simpa using hk
      rfl
  | cons a values ih =>
    rw [List.forall_mem_cons, ← ih]
    constructor
    . intro hdelivers
      have hC : C a := by
        apply (h a _).mp
        obtain ⟨b, u, hread, hpure⟩ := Prog.exec_bind_eq_iff.mp (hdelivers [] 1 (by simp))
        cases hpure
        simpa using hread
      refine ⟨hC, ?_⟩
      intro rest k hk
      have hmore := hdelivers rest (k + 1) (by simpa using hk)
      simp only [List.map_cons, List.flatten_cons, List.append_assoc] at hmore
      unfold readMany at hmore
      rw [exec_bind_ok ((h a _).mpr hC)] at hmore
      obtain ⟨bs, u, hread, hpure⟩ := Prog.exec_bind_eq_iff.mp hmore
      cases hpure
      apply hread
    . intro ⟨hC, hdelivers⟩ rest k hk
      cases k with
      | zero => rfl
      | succ k =>
        simp only [List.map_cons, List.flatten_cons, List.append_assoc]
        unfold readMany
        rw [exec_bind_ok ((h a _).mpr hC), exec_bind_ok (hdelivers rest k (by simpa using hk))]
        rfl

/--
What both writers write for `values` is read back by every reader, and `read_frame_opt` tells the end
of the stream from a failure.
-/
structure RoundTrips (c : Codec α) (values : List α) : Prop where
  readFrame : ∀ write ∈ [writeResponse c, fun a => writeFrame (c.serialize a)],
    Delivers (readFrame c) (values.map fun a => (write a, a))
  readFrameOpt : ∀ write ∈ [writeResponse c, fun a => writeFrame (c.serialize a)],
    Delivers (readFrameOpt c) (values.map fun a => (write a, some a))
  closed : exec (Socket.readFrameOpt c) () [] = (.ok none, [])

/--
All readers get back what both writers wrote just when the length of every frame is the same in both
byte orders.
-/
theorem frames_roundTrip_iff (c : Codec α) (values : List α) :
    RoundTrips c values ↔ ∀ a ∈ values, SameInBothOrders (c.serialize a).length := by
  have hplain := delivers_iff (fun a rest => exec_readFrame_iff c a rest) values
  have hopt := delivers_iff (fun a rest => exec_readFrameOpt_iff c a rest) values
  have hwriter {write : α → Bytes}
      (h : write ∈ [writeResponse c, fun a => writeFrame (c.serialize a)]) :
      write = writeResponse c := by
    simpa [writeFrame_serialize] using h
  constructor
  . intro h
    apply hopt.mp
    apply h.readFrameOpt
    simp
  . intro h
    constructor
    . intro write hwrite
      rw [hwriter hwrite]
      apply hplain.mpr
      intro a ha
      apply (h a ha).1
    . intro write hwrite
      rw [hwriter hwrite]
      apply hopt.mpr h
    . rfl

section Counterexample

/--
An empty message on a topic, as the node hands it on.
-/
def handedOn : SubscriptionResponse :=
  .pubSub ⟨"t", none, []⟩

theorem pubSub_unread :
    (SubscriptionResponse.codec.serialize handedOn).length = 22 ∧
      (exec (readFrame SubscriptionResponse.codec) ()
        (writeResponse SubscriptionResponse.codec handedOn)).1 = .ok handedOn ∧
      (exec Subscription.next () (writeResponse SubscriptionResponse.codec handedOn)).1 =
        .error .unexpectedEof ∧
      ¬ RoundTrips SubscriptionResponse.codec [handedOn] := by
  refine ⟨by decide, by decide, by decide, ?_⟩
  intro h
  have hread := h.readFrameOpt (writeResponse SubscriptionResponse.codec) (by simp) [] 1 (by simp)
  obtain ⟨b, u, hfirst, _⟩ := Prog.exec_bind_eq_iff.mp hread
  have herror : (exec (readFrameOpt SubscriptionResponse.codec) ()
      (writeResponse SubscriptionResponse.codec handedOn)).1 = .error .unexpectedEof := by decide
  simp only [List.map_cons, List.map_nil, List.flatten_cons, List.flatten_nil,
    List.append_nil] at hfirst
  rw [hfirst] at herror
  cases herror

end Counterexample

end Socket

end Canopee
