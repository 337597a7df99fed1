import Canopee.Identity.Bounds
import Canopee.Results.Sealing

/-!
This module contains what becomes of an envelope that was tampered with: reading one never faults, and
a reader gets nothing out of an envelope that was changed, except where the change leaves the content
key to be found.
-/

namespace Canopee

open Primitives
open Checked (Fault wordMax)

variable [Primitives]

namespace Envelope

section Bounds

variable {identity : Identity} {bytes salt : Bytes}

omit [Primitives] in
theorem checked_isEnvelope (bytes : Bytes) :
    Envelope.Checked.isEnvelope bytes = .ok (isEnvelope bytes) := by
  unfold Envelope.Checked.isEnvelope isEnvelope
  split
  . next hlength =>
    have hfour : 4 ≤ bytes.length := Nat.le_trans (by decide) (Nat.le_of_lt hlength)
    rw [Checked.range_eq (Nat.zero_le 4) hfour]
    simp [hlength, Checked.ok_bind, Checked.pure_eq]
  . next hlength => simp [hlength, Checked.pure_eq]

omit [Primitives] in
theorem key32?_eq (h : bytes.length = 32) : key32? bytes = some (Checked.vector bytes h) :=
  dif_pos h

/--
A block that is inside of the bytes is read without a fault.
-/
theorem checked_unwrapAt {i : Nat} (hword : i < 65536)
    (h : headerLen + (i + 1) * perRecipientLen ≤ bytes.length) :
    Envelope.Checked.unwrapAt identity bytes salt i =
      .ok (unwrapAt identity bytes salt (headerLen + i * perRecipientLen)) := by
  have hmul : Checked.mul i perRecipientLen = .ok (i * perRecipientLen) := by
    apply Checked.mul_eq
    simp only [perRecipientLen, keyLen, nonceLen, wrappedKeyLen, wordMax]
    omega
  generalize hbase : headerLen + i * perRecipientLen = base
  have hsmall : base + perRecipientLen ≤ wordMax := by
    rw [← hbase]
    simp only [headerLen, saltLen, perRecipientLen, keyLen, nonceLen, wrappedKeyLen, wordMax]
    omega
  have hinside : base + perRecipientLen ≤ bytes.length := by
    rw [← hbase]
    rw [Nat.succ_mul] at h
    omega
  have hparts : base + perRecipientLen = base + keyLen + nonceLen + wrappedKeyLen := by
    simp only [perRecipientLen]
    omega
  have hadd : Checked.add headerLen (i * perRecipientLen) = .ok base := by
    rw [← hbase]
    exact Checked.add_eq (by omega)
  have hkey := Checked.add_eq (a := base) (b := keyLen) (by omega)
  have hnonce := Checked.add_eq (a := base + keyLen) (b := nonceLen) (by omega)
  have hend := Checked.add_eq hsmall
  have hepk : Checked.range bytes base (base + keyLen) = .ok (slice bytes base (base + keyLen)) :=
    Checked.range_eq (by omega) (by omega)
  have hwrapNonce : Checked.range bytes (base + keyLen) (base + keyLen + nonceLen) =
      .ok (slice bytes (base + keyLen) (base + keyLen + nonceLen)) :=
    Checked.range_eq (by omega) (by omega)
  have hwrapped : Checked.range bytes (base + keyLen + nonceLen) (base + perRecipientLen) =
      .ok (slice bytes (base + keyLen + nonceLen) (base + perRecipientLen)) :=
    Checked.range_eq (by omega) (by omega)
  have hepkLength : (slice bytes base (base + keyLen)).length = 32 :=
    (Checked.length_range (by omega) (by omega)).trans (Nat.add_sub_cancel_left ..)
  have hnonceLength : (slice bytes (base + keyLen) (base + keyLen + nonceLen)).length = nonceLen :=
    (Checked.length_range (by omega) (by omega)).trans (Nat.add_sub_cancel_left ..)
  unfold Envelope.Checked.unwrapAt unwrapAt
  simp only [hmul, hadd, hkey, hnonce, hend, hepk, hwrapNonce, hwrapped, Checked.ok_bind,
    Checked.array_eq hepkLength, Checked.array_eq hnonceLength, key32?_eq hepkLength]
  by_cases hzero : (Checked.vector (slice bytes base (base + keyLen)) hepkLength).toList =
      List.replicate 32 0
  . rw [if_pos hzero, if_pos hzero]
    rfl
  . rw [if_neg hzero, if_neg hzero, Checked.toList_vector hnonceLength]
    generalize aeadDecrypt _ _ _ = opened
    cases opened with
    | none => rfl
    | some key =>
      by_cases hlength : key.length = keyLen
      . rw [Option.bind_some, key32?_eq hlength]
        dsimp only
        rw [if_pos hlength, Checked.array_eq (show key.length = 32 from hlength)]
        rfl
      . have hnone : key32? key = none := dif_neg hlength
        rw [Option.bind_some, hnone]
        exact if_neg hlength

omit [Primitives] in
theorem slice_six (h : 7 < bytes.length) :
    [bytes.getD 6 0, bytes.getD 7 0] = slice bytes 6 8 := by
  match bytes, h with
  | _ :: _ :: _ :: _ :: _ :: _ :: low :: high :: rest, _ => rfl

theorem checked_findContentKey {i count : Nat} (hword : i + count ≤ 65536)
    (h : headerLen + (i + count) * perRecipientLen ≤ bytes.length) :
    Envelope.Checked.findContentKey identity bytes salt i count =
      .ok (findContentKey identity bytes salt (headerLen + i * perRecipientLen) count) := by
  induction count generalizing i with
  | zero => rfl
  | succ count ih =>
    have hsum : i + (count + 1) = i + 1 + count := by omega
    rw [hsum] at h
    have hblock : headerLen + (i + 1) * perRecipientLen ≤ bytes.length := by
      have hmono := Nat.mul_le_mul_right perRecipientLen (Nat.le_add_right (i + 1) count)
      omega
    have hnext : headerLen + i * perRecipientLen + perRecipientLen =
        headerLen + (i + 1) * perRecipientLen := by
      rw [Nat.succ_mul]
      omega
    rw [Envelope.Checked.findContentKey, checked_unwrapAt (by omega) hblock, findContentKey, hnext,
      Checked.ok_bind, ih (by omega) h]
    cases unwrapAt identity bytes salt (headerLen + i * perRecipientLen) with
    | none => rfl
    | some key => rfl

/--
Reading an envelope never faults, whatever the bytes are.
-/
theorem checked_decryptEnvelope (identity : Identity) (bytes : Bytes) :
    Envelope.Checked.decryptEnvelope identity bytes = .ok (decryptEnvelope identity bytes) := by
  unfold Envelope.Checked.decryptEnvelope decryptEnvelope
  rw [checked_isEnvelope, Checked.ok_bind]
  cases henvelope : isEnvelope bytes with
  | false => rfl
  | true =>
    have hlength : headerLen < bytes.length := by
      unfold isEnvelope at henvelope
      simpa using (Bool.and_eq_true_iff.mp henvelope).1
    have hheader : 40 < bytes.length := hlength
    have hcount := slice_six (Nat.lt_trans (by decide) hheader)
    have hsalt : Checked.range bytes 8 (8 + saltLen) = .ok (slice bytes 8 (8 + saltLen)) :=
      Checked.range_eq (by omega) (by simp only [saltLen]; omega)
    have hnonce : Checked.range bytes (8 + saltLen) headerLen =
        .ok (slice bytes (8 + saltLen) headerLen) :=
      Checked.range_eq (by decide) (by omega)
    have hnonceLength : (slice bytes (8 + saltLen) headerLen).length = nonceLen :=
      (Checked.length_range (by decide) (by omega)).trans rfl
    simp only [Bool.not_true, Bool.false_eq_true, if_false, Checked.index_eq (show 4 < bytes.length by omega),
      Checked.index_eq (show 6 < bytes.length by omega), Checked.index_eq (show 7 < bytes.length by omega),
      Checked.ok_bind, hcount, hsalt, hnonce]
    split
    . rfl
    . split
      . rfl
      . generalize hn : Codec.ofLeBytes (slice bytes 6 8) = count
        have hsmall : count < 65536 := by
          have hlt : Codec.ofLeBytes [bytes.getD 6 0, bytes.getD 7 0] < 256 ^ 2 :=
            Codec.ofLeBytes_lt _
          rw [hcount, hn] at hlt
          omega
        have hmul : Checked.tryMul count perRecipientLen = some (count * perRecipientLen) := by
          apply Checked.tryMul_eq
          simp only [perRecipientLen, keyLen, nonceLen, wrappedKeyLen, wordMax]
          omega
        have hadd : Checked.tryAdd headerLen (count * perRecipientLen) =
            some (headerLen + count * perRecipientLen) := by
          apply Checked.tryAdd_eq
          simp only [headerLen, saltLen, perRecipientLen, keyLen, nonceLen, wrappedKeyLen, wordMax]
          omega
        simp only [hmul, hadd]
        split
        . rfl
        . next hinside =>
          have hfound : Envelope.Checked.findContentKey identity bytes (slice bytes 8 (8 + saltLen)) 0
              count = .ok (findContentKey identity bytes (slice bytes 8 (8 + saltLen))
                (headerLen + 0 * perRecipientLen) count) :=
            checked_findContentKey (by omega) (by rw [Nat.zero_add]; omega)
          rw [Nat.zero_mul, Nat.add_zero] at hfound
          rw [Checked.behind_eq (by omega), Checked.ok_bind, hfound, Checked.ok_bind]
          cases findContentKey identity bytes (slice bytes 8 (8 + saltLen)) headerLen count with
          | none => rfl
          | some key =>
            dsimp only
            rw [Checked.array_eq hnonceLength, Checked.ok_bind, Checked.toList_vector]
            generalize aeadDecrypt _ _ _ = opened
            cases opened with
            | none => rfl
            | some plaintext => rfl

end Bounds

section Recipients

variable {own pub : Key32} {alsoFor : List Key32}

omit [Primitives] in
theorem nodup_recipientPubs (own : Key32) (alsoFor : List Key32) :
    (recipientPubs own alsoFor).Nodup := by
  have hfold (pubs : List Key32) (hnodup : pubs.Nodup) : (alsoFor.foldl
      (fun pubs pub => if pub ∈ pubs then pubs else pubs ++ [pub]) pubs).Nodup := by
    induction alsoFor generalizing pubs with
    | nil => exact hnodup
    | cons other alsoFor ih =>
      rw [List.foldl_cons]
      split
      . exact ih pubs hnodup
      . next hother =>
        apply ih
        rw [← List.concat_eq_append]
        exact hnodup.concat hother
  exact hfold [own] (List.nodup_singleton own)

end Recipients

section Slices

variable {bytes bytes' : Bytes} {start stop a b c : Nat}

omit [Primitives] in
theorem slice_append_slice (hab : a ≤ b) (hbc : b ≤ c) :
    slice bytes a b ++ slice bytes b c = slice bytes a c := by
  have htake : bytes.take b = (bytes.take c).take b := by
    rw [List.take_take, Nat.min_eq_left hbc]
  unfold slice
  rw [htake, List.drop_take, ← Nat.add_sub_cancel' hab, ← List.drop_drop, Nat.add_sub_cancel_left]
  exact List.take_append_drop _ _

omit [Primitives] in
theorem slice_append_drop (h : a ≤ b) : slice bytes a b ++ bytes.drop b = bytes.drop a := by
  unfold slice
  rw [List.drop_take, ← Nat.add_sub_cancel' h, ← List.drop_drop, Nat.add_sub_cancel_left]
  exact List.take_append_drop _ _

omit [Primitives] in
theorem slice_drop : slice (bytes.drop c) a b = slice bytes (c + a) (c + b) := by
  unfold slice
  rw [List.drop_take, List.drop_take, List.drop_drop, Nat.add_sub_add_left]

omit [Primitives] in
theorem slice_append_of_le (h : b ≤ bytes.length) : slice (bytes ++ bytes') a b = slice bytes a b := by
  unfold slice
  rw [List.take_append_of_le_length h]

omit [Primitives] in
theorem slice_of_take (h : bytes'.take c = bytes.take c) (hb : b ≤ c) :
    slice bytes' a b = slice bytes a b := by
  have htake (bytes : Bytes) : bytes.take b = (bytes.take c).take b := by
    rw [List.take_take, Nat.min_eq_left hb]
  unfold slice
  rw [htake, h, ← htake]

omit [Primitives] in
theorem drop_of_drop_eq (h : bytes'.drop c = bytes.drop c) (ha : c ≤ a) :
    bytes'.drop a = bytes.drop a := by
  rw [← Nat.add_sub_cancel' ha, ← List.drop_drop, ← List.drop_drop, h]

omit [Primitives] in
theorem slice_of_drop_eq (h : bytes'.drop c = bytes.drop c) (ha : c ≤ a) :
    slice bytes' a b = slice bytes a b := by
  unfold slice
  rw [List.drop_take, List.drop_take, drop_of_drop_eq h ha]

/--
`bytes'` differs from `bytes` between `start` and `stop` and nowhere else.
-/
structure ChangedIn (start stop : Nat) (bytes bytes' : Bytes) : Prop where
  changed : bytes' ≠ bytes
  length : bytes'.length = bytes.length
  before : bytes'.take start = bytes.take start
  behind : bytes'.drop stop = bytes.drop stop

omit [Primitives] in
theorem ChangedIn.slice_ne (h : ChangedIn start stop bytes bytes') (hle : start ≤ stop) :
    slice bytes' start stop ≠ slice bytes start stop := by
  intro hslice
  apply h.changed
  rw [← List.take_append_drop start bytes', ← List.take_append_drop start bytes, h.before,
    ← slice_append_drop hle, ← slice_append_drop hle, hslice, h.behind]

end Slices

section Search

variable {reader : Identity} {random : Random} {bytes salt wraps : Bytes} {draw base count i : Nat}
variable {contentKey key pub : Key32} {pubs : List Key32}

/--
Where the `i`-th recipient block starts.
-/
def blockAt (i : Nat) : Nat :=
  headerLen + i * perRecipientLen

omit [Primitives] in
theorem blockAt_succ : blockAt (i + 1) = blockAt i + perRecipientLen := by
  unfold blockAt
  rw [Nat.succ_mul, Nat.add_assoc]

omit [Primitives] in
theorem blockAt_mono {j : Nat} (h : i ≤ j) : blockAt i ≤ blockAt j :=
  Nat.add_le_add_left (Nat.mul_le_mul_right _ h) _

theorem findContentKey_add {m : Nat} :
    findContentKey reader bytes salt (blockAt i) (count + m) =
      (findContentKey reader bytes salt (blockAt i) count).or
        (findContentKey reader bytes salt (blockAt (i + count)) m) := by
  induction count generalizing i with
  | zero =>
    rw [Nat.zero_add]
    rfl
  | succ count ih =>
    rw [Nat.succ_add, findContentKey, findContentKey, ← blockAt_succ, ih, Nat.succ_add_eq_add_succ]
    cases unwrapAt reader bytes salt (blockAt i) with
    | none => rfl
    | some key => rfl

theorem findContentKey_one :
    findContentKey reader bytes salt base 1 = unwrapAt reader bytes salt base := by
  unfold findContentKey findContentKey
  cases unwrapAt reader bytes salt base with
  | none => rfl
  | some key => rfl

theorem findContentKey_eq_some
    (h : findContentKey reader bytes salt (blockAt i) count = some key) :
    ∃ k < count, unwrapAt reader bytes salt (blockAt (i + k)) = some key := by
  induction count generalizing i with
  | zero => cases h
  | succ count ih =>
    rw [Nat.add_comm, findContentKey_add, findContentKey_one, Option.or_eq_some_iff] at h
    rcases h with h | ⟨_, h⟩
    . exact ⟨0, Nat.succ_pos _, h⟩
    . obtain ⟨k, hk, hfound⟩ := ih h
      rw [Nat.add_right_comm] at hfound
      exact ⟨k + 1, Nat.succ_lt_succ hk, hfound⟩

/--
The derivation by which `reader` tries a block with the point `epk`.
-/
def attempt (reader : Identity) (salt : Bytes) (epk : Key32) : Derivation where
  shared := diffieHellman reader.dhSecret epk
  salt := salt
  epk := epk
  recipient := reader.dhPublicKey

omit [Primitives] in
theorem toList_of_key32? (h : key32? bytes = some key) : key.toList = bytes := by
  unfold key32? at h
  split at h
  . cases h
    rfl
  . contradiction

theorem unwrapAt_eq_some (h : unwrapAt reader bytes salt base = some key) :
    ∃ epk, key32? (slice bytes base (base + keyLen)) = some epk ∧
      aeadDecrypt (attempt reader salt epk).key
        (slice bytes (base + keyLen) (base + keyLen + nonceLen))
        (slice bytes (base + keyLen + nonceLen) (base + perRecipientLen)) = some key.toList := by
  unfold unwrapAt at h
  split at h
  . contradiction
  . next epk hepk =>
    split at h
    . contradiction
    . obtain ⟨opened, hopened, hkey⟩ := Option.bind_eq_some_iff.mp h
      exact ⟨epk, hepk, toList_of_key32? hkey ▸ hopened⟩

theorem mem_derivations_of_getElem? (h : pubs[i]? = some pub) :
    wrapping random (draw + 2 * i) salt pub ∈ derivations reader random salt draw pubs ∧
      unwrapping reader random (draw + 2 * i) salt ∈ derivations reader random salt draw pubs := by
  induction pubs generalizing draw i with
  | nil => cases h
  | cons other pubs ih =>
    cases i with
    | zero =>
      cases h
      exact ⟨.inl (.inl rfl), .inl (.inr rfl)⟩
    | succ i =>
      have hmem : wrapping random (draw + 2 + 2 * i) salt pub ∈
            derivations reader random salt (draw + 2) pubs ∧
          unwrapping reader random (draw + 2 + 2 * i) salt ∈
            derivations reader random salt (draw + 2) pubs := ih h
      rw [show draw + 2 + 2 * i = draw + 2 * (i + 1) by omega] at hmem
      exact ⟨.inr hmem.1, .inr hmem.2⟩

theorem wrapAll_slice (laws : CipherLaws)
    (hwraps : wrapAll random salt contentKey draw pubs = .ok wraps) (h : pubs[i]? = some pub) :
    wrapFor random (draw + 2 * i) salt contentKey pub =
      .ok (slice wraps (i * perRecipientLen) ((i + 1) * perRecipientLen)) := by
  induction pubs generalizing draw i wraps with
  | nil => cases h
  | cons other pubs ih =>
    obtain ⟨block, others, hblock, hothers, heq⟩ := wrapAll_cons_eq_ok hwraps
    have hlength := wrapFor_length laws hblock
    cases i with
    | zero =>
      cases h
      rw [Nat.zero_mul, Nat.zero_add, Nat.one_mul, heq,
        slice_append_of_le (Nat.le_of_eq hlength.symm), ← hlength]
      unfold slice
      rw [List.take_length]
      exact hblock
    | succ i =>
      have hslice := ih hothers h
      have hdrop : wraps.drop perRecipientLen = others := by
        rw [heq, ← hlength]
        exact List.drop_left
      rw [← hdrop, slice_drop] at hslice
      rw [show draw + 2 + 2 * i = draw + 2 * (i + 1) by omega] at hslice
      rw [hslice, Nat.add_comm, ← Nat.succ_mul, Nat.add_comm, ← Nat.succ_mul]

end Search

section Tampered

variable {sender reader : Identity} {random : Random} {plaintext envelope bytes : Bytes}
variable {alsoFor : List Key32} {contentKey pub : Key32} {i j : Nat}

/--
The recipient count of the header.
-/
def counted (bytes : Bytes) : Nat :=
  Codec.ofLeBytes (slice bytes 6 8)

/--
What stands behind the counted recipient blocks.
-/
def behindBlocks (bytes : Bytes) : Bytes :=
  bytes.drop (blockAt (counted bytes))

theorem decryptEnvelope_eq_ok (h : decryptEnvelope reader bytes = .ok plaintext) :
    headerLen < bytes.length ∧ blockAt (counted bytes) ≤ bytes.length ∧
      ∃ key, findContentKey reader bytes (slice bytes 8 (8 + saltLen)) (blockAt 0) (counted bytes) =
          some key ∧
        aeadDecrypt key (slice bytes (8 + saltLen) headerLen) (behindBlocks bytes) =
          some plaintext := by
  unfold decryptEnvelope at h
  split at h
  . contradiction
  . next henvelope =>
    rw [Bool.not_eq_true', Bool.not_eq_false] at henvelope
    have hlength : headerLen < bytes.length :=
      of_decide_eq_true (Bool.and_eq_true_iff.mp henvelope).1
    split at h
    . contradiction
    . dsimp only at h
      split at h
      . contradiction
      . split at h
        . contradiction
        . next hblocks =>
          split at h
          . contradiction
          . next key hkey =>
            split at h
            . next opened hopened =>
              cases h
              exact ⟨hlength, Nat.le_of_not_lt hblocks, key, hkey, hopened⟩
            . contradiction

theorem decryptEnvelope_of_found (henvelope : isEnvelope bytes = true)
    (hversion : bytes.getD 4 0 = version) (hcount : counted bytes ≠ 0)
    (hblocks : blockAt (counted bytes) ≤ bytes.length)
    (hfound : findContentKey reader bytes (slice bytes 8 (8 + saltLen)) (blockAt 0)
      (counted bytes) = some contentKey) :
    decryptEnvelope reader bytes =
      match aeadDecrypt contentKey (slice bytes (8 + saltLen) headerLen) (behindBlocks bytes) with
      | some plaintext => .ok plaintext
      | none => .error .decryptFailed := by
  have hversion : (bytes.getD 4 0 != version) = false := by
    rw [hversion]
    exact bne_self_eq_false _
  unfold counted at hcount
  unfold counted blockAt at hblocks
  unfold counted blockAt at hfound
  rw [Nat.zero_mul, Nat.add_zero] at hfound
  unfold decryptEnvelope
  rw [henvelope, hversion]
  simp only [Bool.not_true, Bool.false_eq_true, if_false]
  rw [if_neg hcount, if_neg (Nat.not_lt_of_le hblocks), hfound]
  rfl

/--
The envelope that the sender made, by its parts.
-/
structure Made (sender : Identity) (random : Random) (plaintext : Bytes) (alsoFor : List Key32)
    (envelope ciphertext extra : Bytes) : Prop where
  form : isEnvelope envelope = true
  versioned : envelope.getD 4 0 = version
  count : counted envelope = (recipientPubs sender.dhPublicKey alsoFor).length % 65536
  salt : slice envelope 8 (8 + saltLen) = (random 1 saltLen).toList
  contentNonce : slice envelope (8 + saltLen) headerLen = (random 2 nonceLen).toList
  block : ∀ i pub, (recipientPubs sender.dhPublicKey alsoFor)[i]? = some pub →
    wrapFor random (3 + 2 * i) (random 1 saltLen).toList (random 0 keyLen) pub =
      .ok (slice envelope (blockAt i) (blockAt (i + 1)))
  sealing : aeadEncrypt (random 0 keyLen) (random 2 nonceLen).toList plaintext = some ciphertext
  rest : envelope.drop (blockAt (recipientPubs sender.dhPublicKey alsoFor).length) = ciphertext
  behind : behindBlocks envelope = extra ++ ciphertext
  uncounted : extra.length = ((recipientPubs sender.dhPublicKey alsoFor).length -
    (recipientPubs sender.dhPublicKey alsoFor).length % 65536) * perRecipientLen
  length : blockAt (recipientPubs sender.dhPublicKey alsoFor).length + ciphertext.length =
    envelope.length

theorem made_of_encrypted (laws : CipherLaws)
    (h : encryptForRecipients sender random plaintext alsoFor = .ok envelope) :
    ∃ ciphertext extra, Made sender random plaintext alsoFor envelope ciphertext extra := by
  have henvelope := isEnvelope_encrypted laws h
  obtain ⟨ciphertext, wraps, hsealing, hwraps, rfl⟩ := encryptForRecipients_eq_ok h
  generalize hpubs : recipientPubs sender.dhPublicKey alsoFor = pubs at *
  have hlength := wrapAll_length laws hwraps
  have hsalt : (random 1 saltLen).toList.length = saltLen := List.Vector.toList_length _
  have hnonce : (random 2 nonceLen).toList.length = nonceLen := List.Vector.toList_length _
  have hdrop : (layout pubs.length (random 1 saltLen).toList (random 2 nonceLen).toList
      (wraps ++ ciphertext)).drop headerLen = wraps ++ ciphertext := drop_headerLen hsalt hnonce
  generalize hbytes : layout pubs.length (random 1 saltLen).toList (random 2 nonceLen).toList
    (wraps ++ ciphertext) = bytes at *
  have hcounted : counted bytes = pubs.length % 65536 := by
    rw [← hbytes]
    exact count_layout
  have hcount : pubs.length % 65536 * perRecipientLen ≤ wraps.length := by
    rw [hlength]
    exact Nat.mul_le_mul_right _ (Nat.mod_le _ _)
  refine ⟨ciphertext, wraps.drop (pubs.length % 65536 * perRecipientLen), ?_⟩
  constructor
  . exact henvelope
  . rw [← hbytes]
    exact version_layout
  . rw [hcounted, hpubs]
  . rw [← hbytes]
    exact salt_layout hsalt
  . rw [← hbytes]
    exact contentNonce_layout hsalt hnonce
  . intro i pub hpub
    rw [hpubs] at hpub
    have hi : i < pubs.length := (List.getElem?_eq_some_iff.mp hpub).1
    rw [wrapAll_slice laws hwraps hpub]
    unfold blockAt
    rw [← slice_drop, hdrop, slice_append_of_le]
    rw [hlength]
    exact Nat.mul_le_mul_right _ hi
  . exact hsealing
  . unfold blockAt
    rw [hpubs, ← List.drop_drop, hdrop, ← hlength]
    exact List.drop_left
  . unfold behindBlocks blockAt
    rw [hcounted, ← List.drop_drop, hdrop, List.drop_append_of_le_length hcount]
  . rw [List.length_drop, hlength, hpubs, Nat.sub_mul]
  . rw [← hbytes, length_layout hsalt hnonce, hpubs, List.length_append, hlength]
    unfold blockAt
    omega

/--
The derivations of `reader` as it tries the blocks of `bytes`.
-/
def attempts (reader : Identity) (bytes : Bytes) : Set Derivation :=
  {d | ∃ i < counted bytes, ∃ epk,
    key32? (slice bytes (blockAt i) (blockAt i + keyLen)) = some epk ∧
    d = attempt reader (slice bytes 8 (8 + saltLen)) epk}

/--
Ideal encryption, around one envelope: under the content key only the plaintext was sealed, the content
key was sealed in the blocks of the envelope only, and what stands behind the counted blocks opens under
no other key. Behind the blocks the sealed plaintext does not come twice.
-/
structure Unforged (sender : Identity) (random : Random) (plaintext : Bytes) (alsoFor : List Key32)
    (envelope : Bytes) : Prop where
  content : ∀ nonce ciphertext opened, aeadDecrypt (random 0 keyLen) nonce ciphertext = some opened →
    nonce = (random 2 nonceLen).toList ∧ opened = plaintext
  wraps : ∀ key nonce wrapped, aeadDecrypt key nonce wrapped = some (random 0 keyLen).toList →
    ∃ i pub, (recipientPubs sender.dhPublicKey alsoFor)[i]? = some pub ∧
      key = (wrapping random (3 + 2 * i) (random 1 saltLen).toList pub).key ∧
      nonce = (random (3 + 2 * i + 1) nonceLen).toList
  committing : ∀ key opened,
    aeadDecrypt key (random 2 nonceLen).toList (behindBlocks envelope) = some opened →
      key = random 0 keyLen
  once : ∀ ciphertext rest,
    aeadEncrypt (random 0 keyLen) (random 2 nonceLen).toList plaintext = some ciphertext →
    behindBlocks envelope = ciphertext ++ rest → rest = []

theorem mem_derivationsFor (reader : Identity) (random : Random)
    (hpub : (recipientPubs sender.dhPublicKey alsoFor)[i]? = some pub) :
    wrapping random (3 + 2 * i) (random 1 saltLen).toList pub ∈
        derivationsFor sender reader random alsoFor ∧
      unwrapping reader random (3 + 2 * i) (random 1 saltLen).toList ∈
        derivationsFor sender reader random alsoFor :=
  mem_derivations_of_getElem? hpub

theorem mem_attempts {epk : Key32} {rest : Bytes} (hcount : i < counted bytes)
    (hdrop : bytes.drop (blockAt i) = epk.toList ++ rest) :
    attempt reader (slice bytes 8 (8 + saltLen)) epk ∈ attempts reader bytes := by
  refine ⟨i, hcount, epk, ?_, rfl⟩
  have hepk : slice bytes (blockAt i) (blockAt i + keyLen) = epk.toList := by
    apply slice_of_drop hdrop
    rw [List.Vector.toList_length, Nat.add_sub_cancel_left]
    rfl
  rw [hepk]
  exact key32?_toList epk

section Blocks

variable {ciphertext extra : Bytes}
variable (laws : CipherLaws) (agreement : AgreementLaws)
variable (made : Made sender random plaintext alsoFor envelope ciphertext extra)

include laws agreement made

theorem Made.unwrapAt_intact (ideal : Ideal (derivationsFor sender reader random alsoFor))
    (hpub : (recipientPubs sender.dhPublicKey alsoFor)[i]? = some pub)
    (hslice : slice bytes (blockAt i) (blockAt (i + 1)) =
      slice envelope (blockAt i) (blockAt (i + 1))) :
    unwrapAt reader bytes (random 1 saltLen).toList (blockAt i) =
      if reader.dhPublicKey = pub then some (random 0 keyLen) else none := by
  have hmem := mem_derivationsFor reader random hpub
  have hdrop : slice bytes (blockAt i) (blockAt (i + 1)) ++ bytes.drop (blockAt (i + 1)) =
      bytes.drop (blockAt i) := slice_append_drop (blockAt_mono (Nat.le_succ i))
  rw [hslice] at hdrop
  exact unwrapAt_block laws agreement ideal hmem.1 hmem.2 (made.block i pub hpub) hdrop.symm

theorem Made.unwrapAt_resalted
    (ideal : Ideal (derivationsFor sender reader random alsoFor ∪ attempts reader bytes))
    (hpub : (recipientPubs sender.dhPublicKey alsoFor)[i]? = some pub) (hcount : i < counted bytes)
    (hsalt : slice bytes 8 (8 + saltLen) ≠ (random 1 saltLen).toList)
    (hslice : slice bytes (blockAt i) (blockAt (i + 1)) =
      slice envelope (blockAt i) (blockAt (i + 1))) :
    unwrapAt reader bytes (slice bytes 8 (8 + saltLen)) (blockAt i) = none := by
  have hmem := mem_derivationsFor reader random hpub
  have hdrop : slice bytes (blockAt i) (blockAt (i + 1)) ++ bytes.drop (blockAt (i + 1)) =
      bytes.drop (blockAt i) := slice_append_drop (blockAt_mono (Nat.le_succ i))
  rw [hslice] at hdrop
  obtain ⟨wrapped, hwrapped, hblock⟩ := wrapFor_eq_ok (made.block i pub hpub)
  have hlength : wrapped.length = wrappedKeyLen :=
    (laws.length _ _ _ _ hwrapped).trans (congrArg (· + 16) (List.Vector.toList_length _))
  rw [hblock, List.append_assoc, List.append_assoc] at hdrop
  rw [unwrapAt_of_drop hdrop.symm (List.Vector.toList_length _) hlength (agreement.nonzero _)]
  generalize hepk : dhPublicOf (random (3 + 2 * i) keyLen) = epk at *
  change (aeadDecrypt (attempt reader (slice bytes 8 (8 + saltLen)) epk).key _ wrapped).bind key32? = _
  cases hopened : aeadDecrypt (attempt reader (slice bytes 8 (8 + saltLen)) epk).key
      (random (3 + 2 * i + 1) nonceLen).toList wrapped with
  | none => rfl
  | some opened =>
    exfalso
    have hattempt : attempt reader _ epk ∈ attempts reader bytes :=
      mem_attempts hcount hdrop.symm
    have hkey := ideal.exclusive _ (.inl hmem.1) _ (.inr hattempt) _ _ _ _ hwrapped hopened
    have hsame := ideal.distinct (.inr hattempt) (.inl hmem.1) hkey
    exact hsalt (congrArg Derivation.salt hsame)

omit agreement in
theorem Made.slot_of_contentKey (unforged : Unforged sender random plaintext alsoFor envelope)
    (ideal : Ideal (derivationsFor sender reader random alsoFor ∪ attempts reader bytes))
    (hpub : (recipientPubs sender.dhPublicKey alsoFor)[j]? = some reader.dhPublicKey)
    (hcount : j < counted bytes) (hsalt : slice bytes 8 (8 + saltLen) = (random 1 saltLen).toList)
    (h : unwrapAt reader bytes (random 1 saltLen).toList (blockAt j) = some (random 0 keyLen)) :
    slice bytes (blockAt j) (blockAt (j + 1)) = slice envelope (blockAt j) (blockAt (j + 1)) := by
  obtain ⟨epk, hepk, hopened⟩ := unwrapAt_eq_some h
  obtain ⟨i, pub, hi, hkey, hnonce⟩ := unforged.wraps _ _ _ hopened
  have hattempt : attempt reader (random 1 saltLen).toList epk ∈ attempts reader bytes :=
    ⟨j, hcount, epk, hepk, by rw [hsalt]⟩
  have hmem := mem_derivationsFor reader random hi
  have hsame := ideal.distinct (.inr hattempt) (.inl hmem.1) hkey
  have hrecipient : reader.dhPublicKey = pub := congrArg Derivation.recipient hsame
  have hpoint : epk = dhPublicOf (random (3 + 2 * i) keyLen) := congrArg Derivation.epk hsame
  -- the recipients are different, so it is the block of the reader itself
  have hindex : i = j := by
    rw [← hrecipient, ← hpub] at hi
    have hlt := (List.getElem?_eq_some_iff.mp (hpub)).1
    exact ((List.getElem?_inj hlt (nodup_recipientPubs _ _)).mp hi.symm).symm
  subst hindex
  obtain ⟨wrapped, hwrapped, hblock⟩ := wrapFor_eq_ok (made.block i _ hpub)
  rw [hkey, ← hrecipient, hnonce, laws.decrypt_iff, hwrapped, Option.some_inj] at hopened
  have hparts : blockAt i + keyLen + nonceLen ≤ blockAt i + perRecipientLen := by
    simp only [perRecipientLen]
    omega
  rw [hblock, blockAt_succ, ← hpoint, toList_of_key32? hepk, ← hnonce, hopened,
    slice_append_slice (Nat.le_add_right _ _) hparts,
    slice_append_slice (Nat.le_add_right _ _) ((Nat.le_add_right _ _).trans hparts)]

end Blocks

section Rejections

variable {ciphertext extra opened rest : Bytes} {start stop : Nat}

omit [Primitives] in
theorem counted_append (h : headerLen ≤ bytes.length) : counted (bytes ++ rest) = counted bytes := by
  unfold counted
  rw [slice_append_of_le (Nat.le_trans (by decide) h)]

omit [Primitives] in
theorem behindBlocks_append (h : headerLen ≤ bytes.length)
    (hblocks : blockAt (counted bytes) ≤ bytes.length) :
    behindBlocks (bytes ++ rest) = behindBlocks bytes ++ rest := by
  unfold behindBlocks
  rw [counted_append h, List.drop_append_of_le_length hblocks]

omit [Primitives] in
theorem ChangedIn.counted_eq (h : ChangedIn start stop envelope bytes) (hstart : 8 ≤ start) :
    counted bytes = counted envelope := by
  unfold counted
  rw [slice_of_take h.before hstart]

omit [Primitives] in
theorem ChangedIn.salt_eq (h : ChangedIn start stop envelope bytes) (hstart : 8 + saltLen ≤ start) :
    slice bytes 8 (8 + saltLen) = slice envelope 8 (8 + saltLen) :=
  slice_of_take h.before hstart

omit [Primitives] in
theorem headerLen_le_blockAt (i : Nat) : headerLen ≤ blockAt i :=
  Nat.le_add_right _ _

theorem Made.exists_recipient
    (made : Made sender random plaintext alsoFor envelope ciphertext extra)
    (h : i < counted envelope) :
    ∃ pub, (recipientPubs sender.dhPublicKey alsoFor)[i]? = some pub := by
  rw [made.count] at h
  exact ⟨_, List.getElem?_eq_getElem (Nat.lt_of_lt_of_le h (Nat.mod_le _ _))⟩

variable (laws : CipherLaws) (agreement : AgreementLaws)
variable (made : Made sender random plaintext alsoFor envelope ciphertext extra)
variable (unforged : Unforged sender random plaintext alsoFor envelope)
variable (ideal : Ideal (derivationsFor sender reader random alsoFor ∪ attempts reader bytes))

include laws agreement made unforged ideal

theorem Made.behind_of_intact (hcount : counted bytes = counted envelope)
    (hsalt : slice bytes 8 (8 + saltLen) = slice envelope 8 (8 + saltLen))
    (hblocks : ∀ i < counted envelope, slice bytes (blockAt i) (blockAt (i + 1)) =
      slice envelope (blockAt i) (blockAt (i + 1)))
    (h : decryptEnvelope reader bytes = .ok opened) :
    slice bytes (8 + saltLen) headerLen = slice envelope (8 + saltLen) headerLen ∧
      behindBlocks bytes = ciphertext := by
  obtain ⟨_, _, key, hfound, hopened⟩ := decryptEnvelope_eq_ok h
  obtain ⟨i, hi, hblock⟩ := findContentKey_eq_some hfound
  rw [hcount] at hi
  obtain ⟨pub, hpub⟩ := made.exists_recipient hi
  rw [Nat.zero_add, hsalt, made.salt, made.unwrapAt_intact laws agreement
    (ideal.mono Set.subset_union_left) hpub (hblocks i hi)] at hblock
  have hkey : key = random 0 keyLen := by
    split at hblock
    . exact (Option.some.inj hblock).symm
    . contradiction
  rw [hkey] at hopened
  obtain ⟨hnonce, hplain⟩ := unforged.content _ _ _ hopened
  rw [hnonce, hplain] at hopened
  have hsealed := (laws.decrypt_iff _ _ _ _).mp hopened
  exact ⟨hnonce.trans made.contentNonce.symm,
    Option.some_inj.mp (hsealed.symm.trans made.sealing)⟩

theorem Made.not_ok_of_shortened (hrest : rest ≠ []) (henvelope : bytes ++ rest = envelope) :
    decryptEnvelope reader bytes ≠ .ok opened := by
  intro h
  obtain ⟨hheader, hlength, _⟩ := decryptEnvelope_eq_ok h
  have hheader : headerLen ≤ bytes.length := Nat.le_of_lt hheader
  have hcount : counted bytes = counted envelope := by
    rw [← henvelope, counted_append hheader]
  have hintact := made.behind_of_intact laws agreement unforged ideal hcount
    (by rw [← henvelope, slice_append_of_le (Nat.le_trans (by decide) hheader)])
    (fun i hi => by
      rw [← hcount] at hi
      rw [← henvelope, slice_append_of_le ((blockAt_mono hi).trans hlength)]) h
  have hbehind : behindBlocks (bytes ++ rest) = behindBlocks bytes ++ rest :=
    behindBlocks_append hheader hlength
  rw [henvelope, hintact.2] at hbehind
  exact hrest (unforged.once ciphertext rest made.sealing hbehind)

theorem Made.not_ok_of_extended (hrest : rest ≠ []) (hbytes : bytes = envelope ++ rest) :
    decryptEnvelope reader bytes ≠ .ok opened := by
  intro h
  have hlong := made.length
  have hheader : headerLen ≤ envelope.length :=
    (headerLen_le_blockAt _).trans (by rw [← hlong]; exact Nat.le_add_right _ _)
  have hblocks : blockAt (counted envelope) ≤ envelope.length := by
    rw [made.count, ← hlong]
    exact (blockAt_mono (Nat.mod_le _ _)).trans (Nat.le_add_right _ _)
  have hintact := made.behind_of_intact laws agreement unforged ideal
    (by rw [hbytes, counted_append hheader])
    (by rw [hbytes, slice_append_of_le (Nat.le_trans (by decide) hheader)])
    (fun i hi => by
      rw [hbytes, slice_append_of_le ((blockAt_mono hi).trans hblocks)]) h
  have hbehind := hintact.2
  rw [hbytes, behindBlocks_append hheader hblocks, made.behind] at hbehind
  have hlength := congrArg List.length hbehind
  simp only [List.length_append] at hlength
  exact hrest (List.length_eq_zero_iff.mp (by omega))

theorem Made.not_ok_of_contentNonce (hchanged : ChangedIn (8 + saltLen) headerLen envelope bytes) :
    decryptEnvelope reader bytes ≠ .ok opened := by
  intro h
  have hintact := made.behind_of_intact laws agreement unforged ideal
    (hchanged.counted_eq (by decide)) (hchanged.salt_eq (Nat.le_refl _))
    (fun i _ => slice_of_drop_eq hchanged.behind (headerLen_le_blockAt i)) h
  exact hchanged.slice_ne (by decide) hintact.1

theorem Made.not_ok_of_behind (hchanged : ChangedIn start stop envelope bytes)
    (hstart : blockAt (counted envelope) ≤ start) : decryptEnvelope reader bytes ≠ .ok opened := by
  intro h
  have hheader : headerLen ≤ start := (headerLen_le_blockAt _).trans hstart
  have hcount : counted bytes = counted envelope :=
    hchanged.counted_eq (Nat.le_trans (by decide) hheader)
  have hintact := made.behind_of_intact laws agreement unforged ideal hcount
    (hchanged.salt_eq (Nat.le_trans (by decide) hheader))
    (fun i hi => slice_of_take hchanged.before ((blockAt_mono hi).trans hstart)) h
  have htake : bytes.take (blockAt (counted envelope)) = envelope.take (blockAt (counted envelope)) := by
    have hslice := slice_of_take (a := 0) hchanged.before hstart
    exact hslice
  -- what is opened is as long as the ciphertext, so that nothing stands between it and the blocks
  have hbehind : behindBlocks bytes = behindBlocks envelope := by
    have hlength : (behindBlocks bytes).length = (behindBlocks envelope).length := by
      unfold behindBlocks
      rw [List.length_drop, List.length_drop, hchanged.length, hcount]
    rw [hintact.2, made.behind, List.length_append] at hlength
    rw [hintact.2, made.behind, List.length_eq_zero_iff.mp (show extra.length = 0 by omega),
      List.nil_append]
  unfold behindBlocks at hbehind
  rw [hcount] at hbehind
  apply hchanged.changed
  rw [← List.take_append_drop (blockAt (counted envelope)) bytes, htake, hbehind,
    List.take_append_drop]

omit unforged in
theorem Made.not_ok_of_salt (hchanged : ChangedIn 8 (8 + saltLen) envelope bytes) :
    decryptEnvelope reader bytes ≠ .ok opened := by
  intro h
  obtain ⟨_, _, key, hfound, _⟩ := decryptEnvelope_eq_ok h
  obtain ⟨i, hi, hblock⟩ := findContentKey_eq_some hfound
  have hcount := hchanged.counted_eq (Nat.le_refl _)
  obtain ⟨pub, hpub⟩ := made.exists_recipient (hcount ▸ hi)
  have hsalt := hchanged.slice_ne (Nat.le_add_right _ _)
  rw [made.salt] at hsalt
  rw [Nat.zero_add, made.unwrapAt_resalted laws agreement ideal hpub hi hsalt
    (slice_of_drop_eq hchanged.behind (Nat.le_trans (by decide) (headerLen_le_blockAt i)))] at hblock
  contradiction

/--
A change in the block of the reader.
-/
theorem Made.not_ok_of_ownBlock
    (hreader : (recipientPubs sender.dhPublicKey alsoFor)[j]? = some reader.dhPublicKey)
    (hchanged : ChangedIn (blockAt j) (blockAt (j + 1)) envelope bytes) :
    decryptEnvelope reader bytes ≠ .ok opened := by
  by_cases hj : j < counted envelope
  . intro h
    have hheader : headerLen ≤ blockAt j := headerLen_le_blockAt j
    have hcount : counted bytes = counted envelope :=
      hchanged.counted_eq (Nat.le_trans (by decide) hheader)
    have hsalt := (hchanged.salt_eq (Nat.le_trans (by decide) hheader)).trans made.salt
    obtain ⟨_, _, key, hfound, hopened⟩ := decryptEnvelope_eq_ok h
    obtain ⟨i, hi, hblock⟩ := findContentKey_eq_some hfound
    rw [hcount] at hi
    obtain ⟨pub, hpub⟩ := made.exists_recipient hi
    rw [Nat.zero_add, hsalt] at hblock
    have hindex : i = j := by
      -- the other blocks were left as they are, and they are for others
      by_contra hne
      have hslice : slice bytes (blockAt i) (blockAt (i + 1)) =
          slice envelope (blockAt i) (blockAt (i + 1)) := by
        rcases Nat.lt_or_gt_of_ne hne with hlt | hgt
        . exact slice_of_take hchanged.before (blockAt_mono hlt)
        . exact slice_of_drop_eq hchanged.behind (blockAt_mono hgt)
      rw [made.unwrapAt_intact laws agreement (ideal.mono Set.subset_union_left) hpub hslice] at hblock
      split at hblock
      . next hsame =>
        rw [← hsame, ← hreader] at hpub
        have hlt := (List.getElem?_eq_some_iff.mp hreader).1
        exact hne ((List.getElem?_inj hlt (nodup_recipientPubs _ _)).mp hpub.symm).symm
      . contradiction
    have hbehind : behindBlocks bytes = behindBlocks envelope := by
      unfold behindBlocks
      rw [hcount]
      exact drop_of_drop_eq hchanged.behind (blockAt_mono hj)
    rw [slice_of_take hchanged.before hheader, made.contentNonce, hbehind] at hopened
    rw [unforged.committing _ _ hopened, hindex] at hblock
    exact hchanged.slice_ne (blockAt_mono (Nat.le_succ j))
      (made.slot_of_contentKey laws unforged ideal hreader (hcount ▸ hj) hsalt hblock)
  . exact made.not_ok_of_behind laws agreement unforged ideal hchanged
      (blockAt_mono (Nat.le_of_not_lt hj))

end Rejections

/--
`envelope` with its end cut off, with bytes put behind it, or with a change inside of one of its parts,
as far as the reader in the place `j` of `recipients` goes.
-/
inductive Altered (recipients j : Nat) (envelope : Bytes) : Bytes → Prop where
  | shortened {bytes rest : Bytes} : rest ≠ [] → bytes ++ rest = envelope →
    Altered recipients j envelope bytes
  | extended {rest : Bytes} : rest ≠ [] → Altered recipients j envelope (envelope ++ rest)
  | salt {bytes : Bytes} : ChangedIn 8 (8 + saltLen) envelope bytes →
    Altered recipients j envelope bytes
  | contentNonce {bytes : Bytes} : ChangedIn (8 + saltLen) headerLen envelope bytes →
    Altered recipients j envelope bytes
  | ownBlock {bytes : Bytes} : ChangedIn (blockAt j) (blockAt (j + 1)) envelope bytes →
    Altered recipients j envelope bytes
  | ciphertext {bytes : Bytes} : ChangedIn (blockAt recipients) envelope.length envelope bytes →
    Altered recipients j envelope bytes

/--
`bytes` differs from `envelope` at most in the recipient blocks other than the `j`-th.
-/
structure ChangedElsewhere (recipients j : Nat) (envelope bytes : Bytes) : Prop where
  length : bytes.length = envelope.length
  header : bytes.take headerLen = envelope.take headerLen
  ownBlock : slice bytes (blockAt j) (blockAt (j + 1)) = slice envelope (blockAt j) (blockAt (j + 1))
  ciphertext : bytes.drop (blockAt recipients) = envelope.drop (blockAt recipients)

/--
A block in front of the reader's own opens for the reader, to another key.
-/
def Hijacked (reader : Identity) (contentKey : Key32) (j : Nat) (bytes : Bytes) : Prop :=
  ∃ key ≠ contentKey,
    findContentKey reader bytes (slice bytes 8 (8 + saltLen)) (blockAt 0) j = some key

section Elsewhere

variable {ciphertext extra : Bytes}
variable (laws : CipherLaws) (agreement : AgreementLaws)
variable (made : Made sender random plaintext alsoFor envelope ciphertext extra)
variable (ideal : Ideal (derivationsFor sender reader random alsoFor ∪ attempts reader bytes))
variable (hreader : (recipientPubs sender.dhPublicKey alsoFor)[j]? = some reader.dhPublicKey)
variable (hchanged : ChangedElsewhere (recipientPubs sender.dhPublicKey alsoFor).length j envelope bytes)
variable (hshort : (recipientPubs sender.dhPublicKey alsoFor).length < 65536)

include laws agreement made ideal hreader hchanged hshort

/--
The key that is found comes from a block in front of the reader's own, or else it is the content key.
-/
theorem Made.decryptEnvelope_elsewhere {key : Key32}
    (hkey : (findContentKey reader bytes (slice bytes 8 (8 + saltLen)) (blockAt 0) j).getD
      (random 0 keyLen) = key) :
    decryptEnvelope reader bytes =
      match aeadDecrypt key (random 2 nonceLen).toList (behindBlocks envelope) with
      | some plaintext => .ok plaintext
      | none => .error .decryptFailed := by
  have hj := (List.getElem?_eq_some_iff.mp hreader).1
  have hcount := made.count
  have hlong := made.length
  rw [Nat.mod_eq_of_lt hshort] at hcount
  generalize (recipientPubs sender.dhPublicKey alsoFor).length = recipients at *
  have hcounted : counted bytes = recipients := by
    have hslice : slice bytes 6 8 = slice envelope 6 8 := slice_of_take hchanged.header (by decide)
    unfold counted at hcount ⊢
    rw [hslice, hcount]
  have hsalt : slice bytes 8 (8 + saltLen) = (random 1 saltLen).toList :=
    (slice_of_take hchanged.header (by decide)).trans made.salt
  have hnonce : slice bytes (8 + saltLen) headerLen = (random 2 nonceLen).toList :=
    (slice_of_take hchanged.header (Nat.le_refl _)).trans made.contentNonce
  have hbehind : behindBlocks bytes = behindBlocks envelope := by
    unfold behindBlocks
    rw [hcounted, hcount]
    exact hchanged.ciphertext
  have hform : isEnvelope bytes = true := by
    have htake : bytes.take 4 = envelope.take 4 := by
      have hslice := slice_of_take (a := 0) hchanged.header (show 4 ≤ headerLen by decide)
      exact hslice
    have hform := made.form
    unfold isEnvelope at hform ⊢
    rw [hchanged.length, htake, hform]
  have hversion : bytes.getD 4 0 = version := by
    have hget (bytes : Bytes) : bytes.getD 4 0 = (bytes.take headerLen).getD 4 0 := by
      rw [List.getD_eq_getElem?_getD, List.getD_eq_getElem?_getD,
        List.getElem?_take_of_lt (show 4 < headerLen by decide)]
    rw [hget, hchanged.header, ← hget]
    exact made.versioned
  have hlength : blockAt (counted bytes) ≤ bytes.length := by
    rw [hcounted, hchanged.length, ← hlong]
    exact Nat.le_add_right _ _
  have hown := made.unwrapAt_intact laws agreement (ideal.mono Set.subset_union_left) hreader
    hchanged.ownBlock
  rw [if_pos rfl, ← hsalt] at hown
  have hfound : findContentKey reader bytes (slice bytes 8 (8 + saltLen)) (blockAt 0)
      (counted bytes) = some key := by
    obtain ⟨more, hmore⟩ := Nat.exists_eq_add_of_lt hj
    rw [hcounted, hmore, Nat.add_assoc, Nat.add_comm more, findContentKey_add, findContentKey_add,
      findContentKey_one, Nat.zero_add, hown]
    rw [← hkey]
    cases findContentKey reader bytes (slice bytes 8 (8 + saltLen)) (blockAt 0) j with
    | none => rfl
    | some other => rfl
  rw [decryptEnvelope_of_found hform hversion (by rw [hcounted]; omega) hlength hfound, hnonce, hbehind]

end Elsewhere

/--
Reading an envelope never faults. A reader gets nothing out of an envelope that was cut off, put longer
or changed in the salt, in the nonce, in its own block or in the ciphertext; changes in the blocks of
others leave what it gets, but for a block in front of its own that opens for it to another key.
-/
theorem rejectsAltered (laws : CipherLaws) (agreement : AgreementLaws) (sender reader : Identity)
    (random : Random) (plaintext : Bytes) (alsoFor : List Key32) (envelope : Bytes) (j : Nat)
    (h : encryptForRecipients sender random plaintext alsoFor = .ok envelope)
    (hreader : (recipientPubs sender.dhPublicKey alsoFor)[j]? = some reader.dhPublicKey)
    (unforged : Unforged sender random plaintext alsoFor envelope) :
    (∀ identity bytes,
      Envelope.Checked.decryptEnvelope identity bytes = .ok (decryptEnvelope identity bytes)) ∧
    ∀ bytes, Ideal (derivationsFor sender reader random alsoFor ∪ attempts reader bytes) →
      (Altered (recipientPubs sender.dhPublicKey alsoFor).length j envelope bytes →
        ∃ e, decryptEnvelope reader bytes = .error e) ∧
      (ChangedElsewhere (recipientPubs sender.dhPublicKey alsoFor).length j envelope bytes →
        (recipientPubs sender.dhPublicKey alsoFor).length < 65536 →
        (Hijacked reader (random 0 keyLen) j bytes →
          decryptEnvelope reader bytes = .error .decryptFailed) ∧
        (¬ Hijacked reader (random 0 keyLen) j bytes →
          decryptEnvelope reader bytes = decryptEnvelope reader envelope)) := by
  obtain ⟨ciphertext, extra, made⟩ := made_of_encrypted laws h
  refine ⟨checked_decryptEnvelope, fun bytes ideal => ⟨fun haltered => ?_, fun hchanged hshort => ?_⟩⟩
  . have hnot (opened : Bytes) : decryptEnvelope reader bytes ≠ .ok opened := by
      cases haltered with
      | shortened hrest henvelope =>
        exact made.not_ok_of_shortened laws agreement unforged ideal hrest henvelope
      | extended hrest => exact made.not_ok_of_extended laws agreement unforged ideal hrest rfl
      | salt hchanged => exact made.not_ok_of_salt laws agreement ideal hchanged
      | contentNonce hchanged =>
        exact made.not_ok_of_contentNonce laws agreement unforged ideal hchanged
      | ownBlock hchanged =>
        exact made.not_ok_of_ownBlock laws agreement unforged ideal hreader hchanged
      | ciphertext hchanged =>
        apply made.not_ok_of_behind laws agreement unforged ideal hchanged
        rw [made.count]
        exact blockAt_mono (Nat.mod_le _ _)
    cases hresult : decryptEnvelope reader bytes with
    | error e => exact ⟨e, rfl⟩
    | ok opened => exact absurd hresult (hnot opened)
  . constructor
    . rintro ⟨key, hne, hkey⟩
      have hfound : (findContentKey reader bytes (slice bytes 8 (8 + saltLen)) (blockAt 0) j).getD
          (random 0 keyLen) = key := by
        rw [hkey]
        rfl
      rw [made.decryptEnvelope_elsewhere laws agreement ideal hreader hchanged hshort hfound]
      cases hopened : aeadDecrypt key (random 2 nonceLen).toList (behindBlocks envelope) with
      | none => rfl
      | some opened => exact absurd (unforged.committing _ _ hopened) hne
    . intro hhijacked
      have hkey : (findContentKey reader bytes (slice bytes 8 (8 + saltLen)) (blockAt 0) j).getD
          (random 0 keyLen) = random 0 keyLen := by
        cases hfound : findContentKey reader bytes (slice bytes 8 (8 + saltLen)) (blockAt 0) j with
        | none => rfl
        | some key =>
          by_contra hne
          exact hhijacked ⟨key, hne, hfound⟩
      have hextra := made.uncounted
      rw [Nat.mod_eq_of_lt hshort, Nat.sub_self, Nat.zero_mul, List.length_eq_zero_iff] at hextra
      rw [made.decryptEnvelope_elsewhere laws agreement ideal hreader hchanged hshort hkey,
        made.behind, hextra, List.nil_append, (laws.decrypt_iff _ _ _ _).mpr made.sealing,
        decryptEnvelope_of_short laws agreement h (ideal.mono Set.subset_union_left) hshort,
        if_pos (List.mem_of_getElem? hreader)]

end Tampered

end Envelope

end Canopee

namespace Canopee.Recorded

open Envelope Primitives
open Transparent (recording sealed recording_encrypt_iff recording_decrypt_iff take_of_sealed
  cipherLaws_recording agreementLaws_recording)

/--
The encryptions for a note to Bob, and one block for Bob that someone else made around another key.
-/
def inputs : List (Bytes × Bytes × Bytes) :=
  [(List.replicate 32 9, List.replicate 24 11, [7]),
    (13 :: List.replicate 30 12 ++ [2], List.replicate 24 13, List.replicate 32 9),
    (17 :: List.replicate 30 14 ++ [2], List.replicate 24 15, List.replicate 32 9),
    (43 :: List.replicate 30 40 ++ [2], List.replicate 24 41, List.replicate 32 42)]

scoped instance primitives : Primitives :=
  recording inputs

def alice : Identity := @Identity.mk primitives (1 : UInt8)
def bob : Identity := @Identity.mk primitives (3 : UInt8)

/--
The random bytes of a draw are all the same, and those of the next draw are greater by one.
-/
def counting (start : UInt8) : Random :=
  fun draw n => List.Vector.replicate n (start + UInt8.ofNat draw)

def note : Bytes :=
  (encryptForRecipients alice (counting 9) [7] [bob.dhPublicKey]).toOption.getD []

def foreignBlock : Bytes :=
  (wrapFor (counting 40) 0 (slice note 8 (8 + saltLen)) (List.Vector.replicate 32 42)
    bob.dhPublicKey).toOption.getD []

/--
The note, with the block of the sender replaced.
-/
def forged : Bytes :=
  note.take (blockAt 0) ++ foreignBlock ++ note.drop (blockAt 1)

theorem note_evaluated :
    encryptForRecipients alice (counting 9) [7] [bob.dhPublicKey] = .ok note ∧
      aeadEncrypt (counting 9 0 keyLen) (counting 9 2 nonceLen).toList [7] =
        some (behindBlocks note) ∧
      decryptEnvelope bob note = .ok [7] := by
  decide +kernel

theorem unforged_note : Unforged alice (counting 9) [7] [bob.dhPublicKey] note where
  content := by
    intro nonce ciphertext opened h
    have hcontent : ∀ input ∈ inputs, input.1 = (counting 9 0 keyLen).toList →
        input.2.1 = (counting 9 2 nonceLen).toList ∧ input.2.2 = [7] := by
      decide
    exact hcontent _ (recording_decrypt_iff.mp h).2 rfl
  wraps := by
    intro key nonce wrapped h
    have hwraps : ∀ input ∈ inputs, input.2.2 = (counting 9 0 keyLen).toList →
        ∃ i ∈ [0, 1], ∃ pub ∈ recipientPubs alice.dhPublicKey [bob.dhPublicKey],
          (recipientPubs alice.dhPublicKey [bob.dhPublicKey])[i]? = some pub ∧
          input.1 =
            (wrapping (counting 9) (3 + 2 * i) (counting 9 1 saltLen).toList pub).key.toList ∧
          input.2.1 = (counting 9 (3 + 2 * i + 1) nonceLen).toList := by
      decide
    obtain ⟨i, _, pub, _, hpub, hkey, hnonce⟩ := hwraps _ (recording_decrypt_iff.mp h).2 rfl
    exact ⟨i, pub, hpub, List.Vector.eq _ _ hkey, hnonce⟩
  committing := by
    intro key opened h
    have hcommitting : ∀ input ∈ inputs, input.2.1 = (counting 9 2 nonceLen).toList →
        input.1 = (counting 9 0 keyLen).toList := by
      decide
    exact List.Vector.eq _ _ (hcommitting _ (recording_decrypt_iff.mp h).2 rfl)
  once := by
    intro ciphertext rest hsealed hbehind
    have hsame := Option.some_inj.mp (note_evaluated.2.1.symm.trans hsealed)
    rw [hsame] at hbehind
    exact List.self_eq_append_right.mp hbehind

/--
The derivations of Bob as he tries the blocks, in a list.
-/
def tried (bytes : Bytes) : List Derivation :=
  (List.range (counted bytes)).filterMap fun i =>
    (key32? (slice bytes (blockAt i) (blockAt i + keyLen))).map
      (attempt bob (slice bytes 8 (8 + saltLen)))

def involved (bytes : Bytes) : List Derivation :=
  let salt := (counting 9 1 saltLen).toList
  [wrapping (counting 9) 3 salt alice.dhPublicKey, unwrapping bob (counting 9) 3 salt,
    wrapping (counting 9) 5 salt bob.dhPublicKey, unwrapping bob (counting 9) 5 salt] ++ tried bytes

theorem ideal_of_involved {bytes : Bytes}
    (h : ∀ d ∈ involved bytes, ∀ d' ∈ involved bytes,
      d.key.toList.take 16 = d'.key.toList.take 16 → d = d') :
    Ideal (derivationsFor alice bob (counting 9) [bob.dhPublicKey] ∪ attempts bob bytes) := by
  have hmem {d : Derivation}
      (hd : d ∈ derivationsFor alice bob (counting 9) [bob.dhPublicKey] ∪ attempts bob bytes) :
      d ∈ involved bytes := by
    rcases hd with hd | ⟨i, hi, epk, hepk, rfl⟩
    . apply List.mem_append_left
      have hpubs : recipientPubs alice.dhPublicKey [bob.dhPublicKey] =
          [alice.dhPublicKey, bob.dhPublicKey] := by
        decide
      unfold derivationsFor at hd
      rw [hpubs] at hd
      rcases hd with (rfl | rfl) | (rfl | rfl) | hd
      . simp
      . simp
      . simp
      . simp
      . cases hd
    . apply List.mem_append_right
      exact List.mem_filterMap.mpr ⟨i, List.mem_range.mpr hi, by rw [hepk]; rfl⟩
  constructor
  . intro d hd d' hd' hkey
    exact h d (hmem hd) d' (hmem hd') (by rw [hkey])
  . intro d hd d' hd' nonce plaintext plaintext' ciphertext hseal hopen
    have hsame : sealed d'.key nonce plaintext' = sealed d.key nonce plaintext :=
      (recording_decrypt_iff.mp hopen).1.trans (recording_encrypt_iff.mp hseal).1.symm
    rw [h d (hmem hd) d' (hmem hd') (take_of_sealed hsame).symm]

theorem involved_evaluated : ∀ bytes ∈ [forged, note ++ [0]], ∀ d ∈ involved bytes,
    ∀ d' ∈ involved bytes, d.key.toList.take 16 = d'.key.toList.take 16 → d = d' := by
  decide

theorem changedElsewhere_forged : ChangedElsewhere 2 1 note forged where
  length := by decide +kernel
  header := by decide
  ownBlock := by decide
  ciphertext := by decide

/--
Only the block of the sender is changed, and Bob does not get the note any more.
-/
theorem forged_not_unchanged :
    encryptForRecipients alice (counting 9) [7] [bob.dhPublicKey] = .ok note ∧
      Unforged alice (counting 9) [7] [bob.dhPublicKey] note ∧
      ¬ ∀ bytes,
        Ideal (derivationsFor alice bob (counting 9) [bob.dhPublicKey] ∪ attempts bob bytes) →
        ChangedElsewhere 2 1 note bytes →
        decryptEnvelope bob bytes = decryptEnvelope bob note := by
  refine ⟨note_evaluated.1, unforged_note, fun hunchanged => ?_⟩
  have hideal := ideal_of_involved (involved_evaluated forged (by simp))
  have hread : decryptEnvelope bob forged = .error .decryptFailed := by decide +kernel
  have hsame := hunchanged forged hideal changedElsewhere_forged
  cases hread.symm.trans (hsame.trans note_evaluated.2.2)

theorem rejectsAltered_note :
    (∃ e, decryptEnvelope bob (note ++ [0]) = .error e) ∧
      decryptEnvelope bob forged = .error .decryptFailed := by
  have hrejects := rejectsAltered cipherLaws_recording agreementLaws_recording alice bob (counting 9)
    [7] [bob.dhPublicKey] note 1 note_evaluated.1 (by decide) unforged_note
  have hlength : (recipientPubs alice.dhPublicKey [bob.dhPublicKey]).length = 2 := by decide
  rw [hlength] at hrejects
  constructor
  . exact (hrejects.2 _ (ideal_of_involved (involved_evaluated (note ++ [0]) (by simp)))).1
      (.extended (by simp))
  . apply ((hrejects.2 _ (ideal_of_involved (involved_evaluated forged (by simp)))).2
      changedElsewhere_forged (by decide)).1
    have hother : (List.replicate 32 42 : Bytes) ≠ List.replicate 32 9 := by decide
    exact ⟨List.Vector.replicate 32 42, fun heq => hother (congrArg List.Vector.toList heq),
      by decide⟩

end Canopee.Recorded
