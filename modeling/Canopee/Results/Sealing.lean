import Canopee.Identity.Envelope
import Mathlib.Data.Set.Function

/-!
This module contains the round trip of envelopes: who can open the envelope of a recipient list, and
what the fixed width of the recipient count does to long lists.
-/

namespace Canopee

open Primitives

variable [Primitives]

namespace Envelope

section Recipients

variable {self pub : Key32} {alsoFor : List Key32}

omit [Primitives] in
theorem recipientPubs_eq (self : Key32) (alsoFor : List Key32) :
    ∃ others, recipientPubs self alsoFor = self :: others := by
  have hfold (pubs : List Key32) : ∀ others, ∃ others', alsoFor.foldl
      (fun pubs pub => if pub ∈ pubs then pubs else pubs ++ [pub]) (self :: others) =
        self :: others' := by
    clear pubs
    induction alsoFor with
    | nil => exact fun others => ⟨others, rfl⟩
    | cons pub alsoFor ih =>
      intro others
      rw [List.foldl_cons]
      split
      . exact ih others
      . exact ih (others ++ [pub])
  exact hfold [] []

omit [Primitives] in
theorem length_recipientPubs (h : alsoFor.Nodup) (hself : self ∉ alsoFor) :
    (recipientPubs self alsoFor).length = alsoFor.length + 1 := by
  have hfold (pubs : List Key32) (hdisjoint : ∀ pub ∈ pubs, pub ∉ alsoFor) : (alsoFor.foldl
      (fun pubs pub => if pub ∈ pubs then pubs else pubs ++ [pub]) pubs).length =
        alsoFor.length + pubs.length := by
    clear hself
    induction alsoFor generalizing pubs with
    | nil => simp
    | cons other alsoFor ih =>
      rw [List.nodup_cons] at h
      have hother : other ∉ pubs := fun hmem => hdisjoint other hmem List.mem_cons_self
      rw [List.foldl_cons, if_neg hother, ih h.2]
      . simp only [List.length_append, List.length_cons, List.length_nil]
        omega
      . intro pub hpub
        rw [List.mem_append, List.mem_singleton] at hpub
        cases hpub with
        | inl hpub => exact fun hmem => hdisjoint pub hpub (List.mem_cons_of_mem _ hmem)
        | inr hpub => exact hpub ▸ h.1
  unfold recipientPubs
  rw [hfold [self] (by simpa using hself)]
  rfl

omit [Primitives] in
theorem length_recipientPubs_le (self : Key32) (alsoFor : List Key32) :
    (recipientPubs self alsoFor).length ≤ alsoFor.length + 1 := by
  have hfold (pubs : List Key32) : (alsoFor.foldl
      (fun pubs pub => if pub ∈ pubs then pubs else pubs ++ [pub]) pubs).length ≤
        alsoFor.length + pubs.length := by
    induction alsoFor generalizing pubs with
    | nil => simp
    | cons other alsoFor ih =>
      rw [List.foldl_cons, List.length_cons]
      apply (ih _).trans
      split
      . omega
      . rw [List.length_append, List.length_singleton]
        omega
  exact hfold [self]

omit [Primitives] in
theorem mem_recipientPubs : pub ∈ recipientPubs self alsoFor ↔ pub = self ∨ pub ∈ alsoFor := by
  have hfold (pubs : List Key32) : pub ∈ alsoFor.foldl
      (fun pubs pub => if pub ∈ pubs then pubs else pubs ++ [pub]) pubs ↔
        pub ∈ pubs ∨ pub ∈ alsoFor := by
    induction alsoFor generalizing pubs with
    | nil => simp
    | cons other alsoFor ih =>
      rw [List.foldl_cons, ih]
      split
      . next hmem => grind
      . simp [or_assoc]
  unfold recipientPubs
  rw [hfold, List.mem_singleton]

end Recipients

section Derivations

/--
The input of a key derivation for one recipient block.
-/
structure Derivation where
  shared : Key32
  salt : Bytes
  epk : Key32
  recipient : Key32
  deriving DecidableEq

def Derivation.key (derivation : Derivation) : Key32 :=
  deriveWrapKey derivation.shared derivation.salt derivation.epk derivation.recipient

/--
The derivation that wraps the content key for `pub`.
-/
def wrapping (random : Random) (draw : Nat) (salt : Bytes) (pub : Key32) : Derivation where
  shared := diffieHellman (random draw keyLen) pub
  salt := salt
  epk := dhPublicOf (random draw keyLen)
  recipient := pub

/--
The derivation by which `reader` tries to unwrap the block of this draw.
-/
def unwrapping (reader : Identity) (random : Random) (draw : Nat) (salt : Bytes) : Derivation where
  shared := diffieHellman reader.dhSecret (dhPublicOf (random draw keyLen))
  salt := salt
  epk := dhPublicOf (random draw keyLen)
  recipient := reader.dhPublicKey

/--
Ideal key derivation and encryption, among the derivations of a set: different inputs give different
keys, and what is encrypted under one of the keys opens under no other one.
-/
structure Ideal (derivations : Set Derivation) : Prop where
  distinct : Set.InjOn Derivation.key derivations
  exclusive : ∀ d ∈ derivations, ∀ d' ∈ derivations, ∀ nonce plaintext plaintext' ciphertext,
    aeadEncrypt d.key nonce plaintext = some ciphertext →
    aeadDecrypt d'.key nonce ciphertext = some plaintext' → d'.key = d.key

/--
The derivations for an envelope to `pubs`, from the block of `draw` on: the sender's, and those of
`reader` when it tries the blocks.
-/
def derivations (reader : Identity) (random : Random) (salt : Bytes) :
    Nat → List Key32 → Set Derivation
  | _, [] => ∅
  | draw, pub :: pubs =>
    {wrapping random draw salt pub, unwrapping reader random draw salt} ∪
      derivations reader random salt (draw + 2) pubs

variable {reader : Identity} {random : Random} {salt : Bytes} {draw : Nat} {pub : Key32}

theorem Ideal.mono {D D' : Set Derivation} (h : Ideal D) (hsub : D' ⊆ D) : Ideal D' where
  distinct := h.distinct.mono hsub
  exclusive d hd d' hd' := h.exclusive d (hsub hd) d' (hsub hd')

theorem mem_derivations {pubs : List Key32} {d : Derivation}
    (h : d ∈ derivations reader random salt draw pubs) :
    ∃ draw', (∃ pub ∈ pubs, d = wrapping random draw' salt pub) ∨
      d = unwrapping reader random draw' salt := by
  induction pubs generalizing draw with
  | nil => cases h
  | cons pub pubs ih =>
    rcases h with (h | h) | h
    . exact ⟨draw, .inl ⟨pub, List.mem_cons_self, h⟩⟩
    . exact ⟨draw, .inr h⟩
    . obtain ⟨draw', ⟨other, hother, heq⟩ | heq⟩ := ih h
      . exact ⟨draw', .inl ⟨other, List.mem_cons_of_mem _ hother, heq⟩⟩
      . exact ⟨draw', .inr heq⟩

theorem unwrapping_eq (laws : AgreementLaws) (h : reader.dhPublicKey = pub) :
    unwrapping reader random draw salt = wrapping random draw salt pub := by
  unfold unwrapping wrapping
  rw [← h]
  simp only [Derivation.mk.injEq, and_true]
  exact laws.comm _ _

end Derivations

section Blocks

variable {reader : Identity} {random : Random} {salt : Bytes} {draw base count : Nat}
variable {contentKey pub : Key32} {pubs : List Key32} {bytes block wraps rest : Bytes}

omit [Primitives] in
theorem slice_of_drop {part : Bytes} {start stop : Nat} (h : bytes.drop start = part ++ rest)
    (hlength : part.length = stop - start) : slice bytes start stop = part := by
  unfold slice
  rw [List.drop_take, h, ← hlength]
  exact List.take_left

omit [Primitives] in
theorem drop_of_drop {part : Bytes} {start stop : Nat} (h : bytes.drop start = part ++ rest)
    (hlength : start + part.length = stop) : bytes.drop stop = rest := by
  rw [← hlength, ← List.drop_drop, h]
  exact List.drop_left

omit [Primitives] in
theorem key32?_toList (key : Key32) : key32? key.toList = some key := by
  unfold key32?
  rw [dif_pos key.toList_length]
  rfl

theorem wrapFor_eq_ok (h : wrapFor random draw salt contentKey pub = .ok block) :
    ∃ wrapped, aeadEncrypt (wrapping random draw salt pub).key (random (draw + 1) nonceLen).toList
        contentKey.toList = some wrapped ∧
      block = (dhPublicOf (random draw keyLen)).toList ++ ((random (draw + 1) nonceLen).toList ++
        wrapped) := by
  unfold wrapFor at h
  dsimp only at h
  split at h
  . next wrapped hwrapped =>
    refine ⟨wrapped, hwrapped, ?_⟩
    rw [Except.ok.injEq] at h
    rw [← h, List.append_assoc]
  . contradiction

theorem wrapFor_length (laws : CipherLaws) (h : wrapFor random draw salt contentKey pub = .ok block) :
    block.length = perRecipientLen := by
  obtain ⟨wrapped, hwrapped, hblock⟩ := wrapFor_eq_ok h
  have hlength := laws.length _ _ _ _ hwrapped
  rw [hblock]
  simp only [List.length_append, List.Vector.toList_length, hlength]
  rfl

theorem wrapAll_cons_eq_ok (h : wrapAll random salt contentKey draw (pub :: pubs) = .ok wraps) :
    ∃ block others, wrapFor random draw salt contentKey pub = .ok block ∧
      wrapAll random salt contentKey (draw + 2) pubs = .ok others ∧ wraps = block ++ others := by
  unfold wrapAll at h
  split at h
  . contradiction
  . next block hblock =>
    cases hothers : wrapAll random salt contentKey (draw + 2) pubs with
    | error e =>
      rw [hothers] at h
      contradiction
    | ok others =>
      rw [hothers] at h
      exact ⟨block, others, hblock, rfl, (Except.ok.inj h).symm⟩

theorem wrapAll_length (laws : CipherLaws)
    (h : wrapAll random salt contentKey draw pubs = .ok wraps) :
    wraps.length = pubs.length * perRecipientLen := by
  induction pubs generalizing draw wraps with
  | nil =>
    cases h
    simp
  | cons pub pubs ih =>
    obtain ⟨block, others, hblock, hothers, hwraps⟩ := wrapAll_cons_eq_ok h
    rw [hwraps, List.length_append, wrapFor_length laws hblock, ih hothers, List.length_cons,
      Nat.succ_mul, Nat.add_comm]

theorem unwrapAt_of_drop {epk : Key32} {wrapNonce wrapped : Bytes}
    (hdrop : bytes.drop base = epk.toList ++ (wrapNonce ++ (wrapped ++ rest)))
    (hnonceLength : wrapNonce.length = nonceLen) (hlength : wrapped.length = wrappedKeyLen)
    (hnonzero : epk.toList ≠ List.replicate 32 0) :
    unwrapAt reader bytes salt base =
      (aeadDecrypt (deriveWrapKey (diffieHellman reader.dhSecret epk) salt epk reader.dhPublicKey)
        wrapNonce wrapped).bind key32? := by
  have hnonce : bytes.drop (base + keyLen) = wrapNonce ++ (wrapped ++ rest) := by
    apply drop_of_drop hdrop
    rw [List.Vector.toList_length]
    rfl
  have hwrap : bytes.drop (base + keyLen + nonceLen) = wrapped ++ rest :=
    drop_of_drop hnonce (by rw [hnonceLength])
  have hepk : slice bytes base (base + keyLen) = epk.toList := by
    apply slice_of_drop hdrop
    rw [List.Vector.toList_length, Nat.add_sub_cancel_left]
    rfl
  have hnonce : slice bytes (base + keyLen) (base + keyLen + nonceLen) = wrapNonce := by
    apply slice_of_drop hnonce
    rw [hnonceLength, Nat.add_sub_cancel_left]
  have hwrap : slice bytes (base + keyLen + nonceLen) (base + perRecipientLen) = wrapped := by
    apply slice_of_drop hwrap
    rw [hlength]
    simp only [keyLen, nonceLen, perRecipientLen, wrappedKeyLen]
    omega
  unfold unwrapAt
  rw [hepk, key32?_toList, hnonce, hwrap]
  dsimp only
  rw [if_neg hnonzero]

theorem unwrapAt_block (laws : CipherLaws) (agreement : AgreementLaws) {D : Set Derivation}
    (ideal : Ideal D) (hwrapping : wrapping random draw salt pub ∈ D)
    (hunwrapping : unwrapping reader random draw salt ∈ D)
    (hblock : wrapFor random draw salt contentKey pub = .ok block)
    (hdrop : bytes.drop base = block ++ rest) :
    unwrapAt reader bytes salt base =
      if reader.dhPublicKey = pub then some contentKey else none := by
  obtain ⟨wrapped, hwrapped, rfl⟩ := wrapFor_eq_ok hblock
  have hlength := laws.length _ _ _ _ hwrapped
  rw [List.Vector.toList_length] at hlength
  simp only [List.append_assoc] at hdrop
  rw [unwrapAt_of_drop hdrop (List.Vector.toList_length _) hlength (agreement.nonzero _)]
  change (aeadDecrypt (unwrapping reader random draw salt).key _ wrapped).bind key32? = _
  split
  . next hreader =>
    rw [unwrapping_eq agreement hreader, (laws.decrypt_iff _ _ _ _).mpr hwrapped, Option.bind_some,
      key32?_toList]
  . next hreader =>
    cases hopened : aeadDecrypt (unwrapping reader random draw salt).key
        (random (draw + 1) nonceLen).toList wrapped with
    | none => rfl
    | some plaintext =>
      exfalso
      have hkey := ideal.exclusive _ hwrapping _ hunwrapping _ _ _ _ hwrapped hopened
      have hsame := ideal.distinct hunwrapping hwrapping hkey
      exact hreader (congrArg Derivation.recipient hsame)

/--
Among the first `count` blocks the one of the reader is found.
-/
theorem findContentKey_blocks (laws : CipherLaws) (agreement : AgreementLaws)
    (ideal : Ideal (derivations reader random salt draw pubs))
    (hwraps : wrapAll random salt contentKey draw pubs = .ok wraps)
    (hdrop : bytes.drop base = wraps ++ rest) (hcount : count ≤ pubs.length) :
    findContentKey reader bytes salt base count =
      if reader.dhPublicKey ∈ pubs.take count then some contentKey else none := by
  induction pubs generalizing draw base count wraps with
  | nil =>
    rw [Nat.le_zero.mp hcount]
    simp [findContentKey]
  | cons pub pubs ih =>
    cases count with
    | zero => simp [findContentKey]
    | succ count =>
      obtain ⟨block, others, hblock, hothers, heq⟩ := wrapAll_cons_eq_ok hwraps
      rw [heq, List.append_assoc] at hdrop
      have hfirst := unwrapAt_block laws agreement ideal (.inl (.inl rfl)) (.inl (.inr rfl)) hblock
        hdrop
      have hrest : bytes.drop (base + perRecipientLen) = others ++ rest :=
        drop_of_drop hdrop (by rw [wrapFor_length laws hblock])
      have hmore := ih (ideal.mono Set.subset_union_right) hothers hrest (by simpa using hcount)
      rw [findContentKey, hfirst, List.take_succ_cons]
      split
      . next key hkey =>
        split at hkey
        . next hreader =>
          rw [if_pos (by simp [hreader]), ← hkey]
        . contradiction
      . next hnone =>
        split at hnone
        . contradiction
        . next hreader =>
          rw [hmore]
          simp [hreader]

end Blocks

section Layout

variable {reader sender : Identity} {random : Random} {plaintext envelope : Bytes}
variable {alsoFor : List Key32}

/--
The bytes of an envelope: the header, then the recipient blocks and the ciphertext.
-/
def layout (recipients : Nat) (salt contentNonce body : Bytes) : Bytes :=
  magic ++ [version, 0] ++ Codec.leBytes 2 recipients ++ salt ++ contentNonce ++ body

section Header

variable {recipients : Nat} {salt contentNonce body : Bytes}

omit [Primitives] in
theorem drop_layout : (layout recipients salt contentNonce body).drop 8 =
    salt ++ (contentNonce ++ body) := by
  unfold layout
  rw [show magic = [67, 78, 80, 49] by decide]
  simp only [List.append_assoc]
  rfl

omit [Primitives] in
theorem drop_headerLen (hsalt : salt.length = saltLen) (hnonce : contentNonce.length = nonceLen) :
    (layout recipients salt contentNonce body).drop headerLen = body := by
  have hrest : (layout recipients salt contentNonce body).drop (8 + saltLen) = contentNonce ++ body :=
    drop_of_drop drop_layout (by rw [hsalt])
  exact drop_of_drop hrest (by rw [hnonce]; rfl)

omit [Primitives] in
theorem length_layout (hsalt : salt.length = saltLen) (hnonce : contentNonce.length = nonceLen) :
    (layout recipients salt contentNonce body).length = headerLen + body.length := by
  unfold layout
  rw [show magic = [67, 78, 80, 49] by decide]
  simp only [List.length_append, List.length_cons, List.length_nil, Codec.leBytes_length, hsalt,
    hnonce, saltLen, nonceLen, headerLen]

omit [Primitives] in
theorem isEnvelope_layout (hsalt : salt.length = saltLen) (hnonce : contentNonce.length = nonceLen)
    (hbody : 0 < body.length) : isEnvelope (layout recipients salt contentNonce body) = true := by
  unfold isEnvelope
  rw [length_layout hsalt hnonce, Bool.and_eq_true, decide_eq_true_eq, beq_iff_eq]
  refine ⟨by omega, ?_⟩
  unfold layout
  simp only [List.append_assoc]
  exact List.take_left' (by decide)

omit [Primitives] in
theorem count_layout :
    Codec.ofLeBytes (slice (layout recipients salt contentNonce body) 6 8) = recipients % 65536 := by
  have hslice : slice (layout recipients salt contentNonce body) 6 8 =
      Codec.leBytes 2 recipients := by
    unfold slice layout
    rw [show magic = [67, 78, 80, 49] by decide]
    simp only [List.append_assoc]
    rfl
  rw [hslice, Codec.ofLeBytes_leBytes]
  rfl

omit [Primitives] in
theorem version_layout : (layout recipients salt contentNonce body).getD 4 0 = version := by
  unfold layout
  rw [show magic = [67, 78, 80, 49] by decide]
  simp only [List.append_assoc]
  rfl

omit [Primitives] in
theorem salt_layout (hsalt : salt.length = saltLen) :
    slice (layout recipients salt contentNonce body) 8 (8 + saltLen) = salt :=
  slice_of_drop drop_layout (by rw [hsalt, Nat.add_sub_cancel_left])

omit [Primitives] in
theorem contentNonce_layout (hsalt : salt.length = saltLen) (hnonce : contentNonce.length = nonceLen) :
    slice (layout recipients salt contentNonce body) (8 + saltLen) headerLen = contentNonce := by
  have hrest : (layout recipients salt contentNonce body).drop (8 + saltLen) =
      contentNonce ++ body := drop_of_drop drop_layout (by rw [hsalt])
  exact slice_of_drop hrest (by rw [hnonce]; rfl)

/--
What decryption makes of a layout.
-/
theorem decryptEnvelope_layout (hsalt : salt.length = saltLen)
    (hnonce : contentNonce.length = nonceLen) (hbody : 0 < body.length) :
    decryptEnvelope reader (layout recipients salt contentNonce body) =
      if recipients % 65536 = 0 then
        .error (.malformed "envelope has no recipients")
      else if body.length < recipients % 65536 * perRecipientLen then
        .error (.malformed "envelope is truncated")
      else
        match findContentKey reader (layout recipients salt contentNonce body) salt headerLen
            (recipients % 65536) with
        | none => .error .noMatchingRecipient
        | some contentKey =>
          match aeadDecrypt contentKey contentNonce
              (body.drop (recipients % 65536 * perRecipientLen)) with
          | some plaintext => .ok plaintext
          | none => .error .decryptFailed := by
  have hdrop (n : Nat) : (layout recipients salt contentNonce body).drop (headerLen + n) =
      body.drop n := by
    rw [← List.drop_drop, drop_headerLen hsalt hnonce]
  have hlength (n : Nat) : (layout recipients salt contentNonce body).length < headerLen + n ↔
      body.length < n := by
    rw [length_layout hsalt hnonce]
    omega
  unfold decryptEnvelope
  rw [isEnvelope_layout hsalt hnonce hbody, version_layout, count_layout, salt_layout hsalt,
    contentNonce_layout hsalt hnonce]
  dsimp only
  cases findContentKey reader (layout recipients salt contentNonce body) salt headerLen
      (recipients % 65536) with
  | none => simp only [hlength, Bool.not_true, Bool.false_eq_true, if_false, bne_self_eq_false]
  | some contentKey =>
    dsimp only
    rw [hdrop]
    cases aeadDecrypt contentKey contentNonce
        (body.drop (recipients % 65536 * perRecipientLen)) with
    | none => simp only [hlength, Bool.not_true, Bool.false_eq_true, if_false, bne_self_eq_false]
    | some plaintext =>
      simp only [hlength, Bool.not_true, Bool.false_eq_true, if_false, bne_self_eq_false]

end Header

/--
The derivations of an envelope from `sender`, and of `reader` when it opens that.
-/
def derivationsFor (sender reader : Identity) (random : Random) (alsoFor : List Key32) :
    Set Derivation :=
  derivations reader random (random 1 saltLen).toList 3 (recipientPubs sender.dhPublicKey alsoFor)

theorem encryptForRecipients_eq_ok
    (h : encryptForRecipients sender random plaintext alsoFor = .ok envelope) :
    ∃ ciphertext wraps,
      aeadEncrypt (random 0 keyLen) (random 2 nonceLen).toList plaintext = some ciphertext ∧
      wrapAll random (random 1 saltLen).toList (random 0 keyLen) 3
        (recipientPubs sender.dhPublicKey alsoFor) = .ok wraps ∧
      envelope = layout (recipientPubs sender.dhPublicKey alsoFor).length (random 1 saltLen).toList
        (random 2 nonceLen).toList (wraps ++ ciphertext) := by
  unfold encryptForRecipients at h
  dsimp only at h
  split at h
  . contradiction
  . next ciphertext hciphertext =>
    split at h
    . contradiction
    . next wraps hwraps =>
      refine ⟨ciphertext, wraps, hciphertext, hwraps, ?_⟩
      rw [Except.ok.injEq] at h
      rw [← h, layout, List.append_assoc _ wraps]

theorem length_recipientPubs_pos (sender : Identity) (alsoFor : List Key32) :
    0 < (recipientPubs sender.dhPublicKey alsoFor).length := by
  obtain ⟨others, hothers⟩ := recipientPubs_eq sender.dhPublicKey alsoFor
  rw [hothers]
  exact Nat.succ_pos _

theorem isEnvelope_encrypted (laws : CipherLaws)
    (h : encryptForRecipients sender random plaintext alsoFor = .ok envelope) :
    isEnvelope envelope = true := by
  obtain ⟨ciphertext, wraps, _, hwraps, henvelope⟩ := encryptForRecipients_eq_ok h
  rw [henvelope]
  apply isEnvelope_layout (List.Vector.toList_length _) (List.Vector.toList_length _)
  have hpos := length_recipientPubs_pos sender alsoFor
  rw [List.length_append, wrapAll_length laws hwraps]
  exact Nat.add_pos_left (Nat.mul_pos hpos (by decide)) _

/--
What a reader makes of an envelope, by the recipient count modulo its two bytes.
-/
theorem decryptEnvelope_encrypted (laws : CipherLaws) (agreement : AgreementLaws)
    (h : encryptForRecipients sender random plaintext alsoFor = .ok envelope)
    (ideal : Ideal (derivationsFor sender reader random alsoFor)) (count : Nat)
    (hcount : (recipientPubs sender.dhPublicKey alsoFor).length % 65536 = count) :
    ∃ ciphertext extra,
      aeadEncrypt (random 0 keyLen) (random 2 nonceLen).toList plaintext = some ciphertext ∧
      extra.length =
        ((recipientPubs sender.dhPublicKey alsoFor).length - count) * perRecipientLen ∧
      decryptEnvelope reader envelope =
        if count = 0 then
          .error (.malformed "envelope has no recipients")
        else if reader.dhPublicKey ∈ (recipientPubs sender.dhPublicKey alsoFor).take count then
          match aeadDecrypt (random 0 keyLen) (random 2 nonceLen).toList (extra ++ ciphertext) with
          | some plaintext => .ok plaintext
          | none => .error .decryptFailed
        else
          .error .noMatchingRecipient := by
  obtain ⟨ciphertext, wraps, hciphertext, hwraps, henvelope⟩ := encryptForRecipients_eq_ok h
  have hpos := length_recipientPubs_pos sender alsoFor
  have hlength := wrapAll_length laws hwraps
  have hsalt : (random 1 saltLen).toList.length = saltLen := List.Vector.toList_length _
  have hnonce : (random 2 nonceLen).toList.length = nonceLen := List.Vector.toList_length _
  have hle : count ≤ (recipientPubs sender.dhPublicKey alsoFor).length := by
    rw [← hcount]
    exact Nat.mod_le _ _
  have hblocks : count * perRecipientLen ≤ wraps.length := by
    rw [hlength]
    exact Nat.mul_le_mul_right _ hle
  have hbody : 0 < (wraps ++ ciphertext).length := by
    rw [List.length_append, hlength]
    exact Nat.add_pos_left (Nat.mul_pos hpos (by decide)) _
  have hdrop : envelope.drop headerLen = wraps ++ ciphertext := by
    rw [henvelope]
    exact drop_headerLen hsalt hnonce
  have hfound := findContentKey_blocks laws agreement ideal hwraps hdrop hle
  refine ⟨ciphertext, wraps.drop (count * perRecipientLen), hciphertext, ?_, ?_⟩
  . rw [List.length_drop, hlength, Nat.sub_mul]
  . rw [henvelope] at hfound ⊢
    rw [decryptEnvelope_layout hsalt hnonce hbody, hcount, hfound,
      List.drop_append_of_le_length hblocks]
    congr 1
    rw [if_neg (by rw [List.length_append]; omega)]
    by_cases hmem :
        reader.dhPublicKey ∈ (recipientPubs sender.dhPublicKey alsoFor).take count
    . rw [if_pos hmem, if_pos hmem]
    . rw [if_neg hmem, if_neg hmem]

theorem decryptEnvelope_of_short (laws : CipherLaws) (agreement : AgreementLaws)
    (h : encryptForRecipients sender random plaintext alsoFor = .ok envelope)
    (ideal : Ideal (derivationsFor sender reader random alsoFor))
    (hshort : (recipientPubs sender.dhPublicKey alsoFor).length < 65536) :
    decryptEnvelope reader envelope =
      if reader.dhPublicKey ∈ recipientPubs sender.dhPublicKey alsoFor then
        .ok plaintext
      else
        .error .noMatchingRecipient := by
  have hpos := length_recipientPubs_pos sender alsoFor
  obtain ⟨ciphertext, extra, hciphertext, hextra, hdecrypt⟩ :=
    decryptEnvelope_encrypted laws agreement h ideal _ (Nat.mod_eq_of_lt hshort)
  rw [Nat.sub_self, Nat.zero_mul, List.length_eq_zero_iff] at hextra
  rw [hdecrypt, if_neg (Nat.ne_of_gt hpos), List.take_length, hextra, List.nil_append,
    (laws.decrypt_iff _ _ _ _).mpr hciphertext]

theorem decryptEnvelope_of_long (laws : CipherLaws) (agreement : AgreementLaws)
    (h : encryptForRecipients sender random plaintext alsoFor = .ok envelope)
    (ideal : Ideal (derivationsFor sender reader random alsoFor))
    (hlong : 65536 ≤ (recipientPubs sender.dhPublicKey alsoFor).length) :
    decryptEnvelope reader envelope ≠ .ok plaintext := by
  obtain ⟨ciphertext, extra, hciphertext, hextra, hdecrypt⟩ :=
    decryptEnvelope_encrypted laws agreement h ideal _ rfl
  have hlt := Nat.mod_lt (recipientPubs sender.dhPublicKey alsoFor).length (by omega : 65536 > 0)
  intro hok
  rw [hdecrypt] at hok
  split at hok
  . contradiction
  . split at hok
    . split at hok
      . next opened hopened =>
        -- the cipher accepts the ciphertext of the plaintext only, which is shorter
        rw [Except.ok.injEq] at hok
        rw [hok] at hopened
        have hsealed := (laws.decrypt_iff _ _ _ _).mp hopened
        have hlength := congrArg List.length (Option.some_inj.mp (hciphertext.symm.trans hsealed))
        rw [List.length_append, hextra] at hlength
        have hpositive : 0 < ((recipientPubs sender.dhPublicKey alsoFor).length -
            (recipientPubs sender.dhPublicKey alsoFor).length % 65536) * perRecipientLen :=
          Nat.mul_pos (by omega) (by decide)
        omega
      . contradiction
    . contradiction

theorem not_decryptEnvelope_of_stranger (laws : CipherLaws) (agreement : AgreementLaws)
    (h : encryptForRecipients sender random plaintext alsoFor = .ok envelope)
    (ideal : Ideal (derivationsFor sender reader random alsoFor))
    (hreader : reader.dhPublicKey ∉ recipientPubs sender.dhPublicKey alsoFor) :
    (decryptEnvelope reader envelope).toOption = none := by
  obtain ⟨_, _, _, _, hdecrypt⟩ := decryptEnvelope_encrypted laws agreement h ideal _ rfl
  rw [hdecrypt]
  split
  . rfl
  . rw [if_neg fun hmem => hreader (List.mem_of_mem_take hmem)]
    rfl

/--
The sender and every listed recipient read the plaintext, and nobody else reads anything.
-/
def RoundTrips (sender : Identity) (random : Random) (plaintext : Bytes) (alsoFor : List Key32)
    (envelope : Bytes) : Prop :=
  ∀ reader : Identity, Ideal (derivationsFor sender reader random alsoFor) →
    (reader.dhPublicKey = sender.dhPublicKey ∨ reader.dhPublicKey ∈ alsoFor →
      decryptEnvelope reader envelope = .ok plaintext) ∧
    (reader.dhPublicKey ≠ sender.dhPublicKey → reader.dhPublicKey ∉ alsoFor →
      (decryptEnvelope reader envelope).toOption = none)

theorem not_roundTrips_of_error (ideal : Ideal (derivationsFor sender sender random alsoFor))
    {e : EnvelopeError} (h : decryptEnvelope sender envelope = .error e) :
    ¬ RoundTrips sender random plaintext alsoFor envelope := by
  intro htrips
  have hok := (htrips sender ideal).1 (.inl rfl)
  rw [h] at hok
  contradiction

/--
An envelope makes the round trip exactly when the number of its different recipients fits two bytes.
-/
theorem roundTrips_iff (laws : CipherLaws) (agreement : AgreementLaws) (sender : Identity)
    (random : Random) (plaintext : Bytes) (alsoFor : List Key32) (envelope : Bytes)
    (h : encryptForRecipients sender random plaintext alsoFor = .ok envelope)
    (ideal : Ideal (derivationsFor sender sender random alsoFor)) :
    RoundTrips sender random plaintext alsoFor envelope ↔
      (recipientPubs sender.dhPublicKey alsoFor).length < 65536 := by
  constructor
  . intro htrips
    by_contra hlong
    have hok := (htrips sender ideal).1 (.inl rfl)
    exact decryptEnvelope_of_long laws agreement h ideal (not_lt.mp hlong) hok
  . intro hshort reader hreader
    have hdecrypt := decryptEnvelope_of_short laws agreement h hreader hshort
    constructor
    . intro hmem
      rw [hdecrypt, if_pos (mem_recipientPubs.mpr hmem)]
    . intro hne hnot
      apply not_decryptEnvelope_of_stranger laws agreement h hreader
      rw [mem_recipientPubs, not_or]
      exact ⟨hne, hnot⟩

end Layout

end Envelope

end Canopee

namespace Canopee.Envelope

section Witness

open Canopee.Transparent

theorem ideal_of_take {D : Set Derivation}
    (h : ∀ d ∈ D, ∀ d' ∈ D, d.key.toList.take 16 = d'.key.toList.take 16 → d = d') : Ideal D where
  distinct := by
    intro d hd d' hd' hkey
    exact h d hd d' hd' (by rw [hkey])
  exclusive := by
    intro d hd d' hd' nonce plaintext plaintext' ciphertext hseal hopen
    have hsame : sealed d'.key nonce plaintext' = sealed d.key nonce plaintext :=
      (unsealed_iff.mp hopen).trans (Option.some_inj.mp hseal).symm
    rw [h d hd d' hd' (take_of_sealed hsame).symm]

/--
The random bytes are all the same.
-/
def draws : Random :=
  fun _ n => List.Vector.replicate n 9

theorem take_key_draws (salt : Bytes) (draw : Nat) (pub : Key32) :
    (wrapping draws draw salt pub).key.toList.take 16 = (pub.toList.take 16).map (9 + ·) := by
  have hzip (n : Nat) (bytes : Bytes) (hlength : bytes.length = n) :
      (List.replicate n 9).zipWith (· + ·) bytes = bytes.map ((9 : UInt8) + ·) := by
    induction bytes generalizing n with
    | nil => cases hlength; rfl
    | cons b bytes ih =>
      rw [← hlength, List.length_cons, List.replicate_succ, List.zipWith_cons_cons, ih _ rfl,
        List.map_cons]
  change ((((clamped (List.Vector.replicate 32 9)).toList.zipWith (· + ·) pub.toList) ++
    List.replicate 32 0).take 32).take 16 = _
  rw [List.take_take, List.take_append_of_le_length (by simp), List.take_zipWith]
  exact hzip 16 _ (by simp)

/--
Different keys differ in their first half.
-/
def differEarly (pubs : List Key32) : Bool :=
  pubs.all fun pub => pubs.all fun pub' =>
    pub.toList.take 16 != pub'.toList.take 16 || pub.toList == pub'.toList

theorem eq_of_differEarly {pubs : List Key32} (h : differEarly pubs = true) :
    ∀ pub ∈ pubs, ∀ pub' ∈ pubs, pub.toList.take 16 = pub'.toList.take 16 → pub = pub' := by
  intro pub hpub pub' hpub' hsame
  have hdiffer := List.all_eq_true.mp (List.all_eq_true.mp h pub hpub) pub' hpub'
  rw [hsame] at hdiffer
  simp only [bne_self_eq_false, Bool.false_or, beq_iff_eq] at hdiffer
  exact List.Vector.eq pub pub' hdiffer

/--
The sender reads its envelope by the derivations of an ideal set, when the recipients' keys differ in
their first half.
-/
theorem ideal_draws {alsoFor : List Key32}
    (h : ∀ pub ∈ recipientPubs alice.dhPublicKey alsoFor,
      ∀ pub' ∈ recipientPubs alice.dhPublicKey alsoFor,
      pub.toList.take 16 = pub'.toList.take 16 → pub = pub') :
    Ideal (derivationsFor alice alice draws alsoFor) := by
  have hform {d : Derivation} (hd : d ∈ derivationsFor alice alice draws alsoFor) :
      ∃ pub ∈ recipientPubs alice.dhPublicKey alsoFor,
        d = wrapping draws 0 (draws 1 saltLen).toList pub := by
    obtain ⟨draw, ⟨pub, hpub, heq⟩ | heq⟩ := mem_derivations hd
    . exact ⟨pub, hpub, heq⟩
    . rw [unwrapping_eq agreementLaws rfl] at heq
      exact ⟨alice.dhPublicKey, mem_recipientPubs.mpr (.inl rfl), heq⟩
  apply ideal_of_take
  intro d hd d' hd' hkey
  obtain ⟨pub, hpub, rfl⟩ := hform hd
  obtain ⟨pub', hpub', rfl⟩ := hform hd'
  rw [take_key_draws, take_key_draws] at hkey
  have hinj : Function.Injective ((9 : UInt8) + ·) := fun a b hab => UInt8.add_right_inj 9 |>.mp hab
  rw [h pub hpub pub' hpub' (List.map_injective_iff.mpr hinj hkey)]

def sealedNote : Bytes :=
  (encryptForRecipients alice draws [7] [bob.dhPublicKey]).toOption.getD []

theorem sealedNote_evaluated :
    encryptForRecipients alice draws [7] [bob.dhPublicKey] = .ok sealedNote ∧
      (recipientPubs alice.dhPublicKey [bob.dhPublicKey]).length < 65536 ∧
      differEarly (recipientPubs alice.dhPublicKey [bob.dhPublicKey]) = true := by
  decide +kernel

theorem roundTrips_sealedNote : RoundTrips alice draws [7] [bob.dhPublicKey] sealedNote :=
  (roundTrips_iff cipherLaws agreementLaws alice draws [7] [bob.dhPublicKey] sealedNote
    sealedNote_evaluated.1 (ideal_draws (eq_of_differEarly sealedNote_evaluated.2.2))).mpr
      sealedNote_evaluated.2.1

end Witness

section Counterexample

open Canopee.Transparent

/--
One of 65536 keys.
-/
def numbered (i : Nat) : Key32 :=
  pad32 (Codec.leBytes 2 i ++ [1])

/--
With the sender's own key these are 65536 recipients.
-/
def crowd : List Key32 :=
  (List.range 65535).map numbered

theorem numbered_take (i : Nat) :
    (numbered i).toList.take 16 = Codec.leBytes 2 i ++ 1 :: List.replicate 13 0 := by
  rfl

theorem numbered_inj {i j : Nat} (hi : i < 65536) (hj : j < 65536)
    (h : (numbered i).toList.take 16 = (numbered j).toList.take 16) : i = j := by
  rw [numbered_take, numbered_take] at h
  have hbytes := congrArg Codec.ofLeBytes (List.append_inj_left' h rfl)
  rw [Codec.ofLeBytes_leBytes, Codec.ofLeBytes_leBytes] at hbytes
  omega

theorem alice_not_numbered (i : Nat) :
    alice.dhPublicKey.toList.take 16 ≠ (numbered i).toList.take 16 := by
  rw [numbered_take]
  intro h
  have hthird : some (0 : UInt8) = some 1 := congrArg (fun bytes => bytes[2]?) h
  exact absurd hthird (by decide)

theorem length_crowd : (recipientPubs alice.dhPublicKey crowd).length = 65536 := by
  rw [length_recipientPubs]
  . simp [crowd]
  . apply List.Nodup.map_on _ List.nodup_range
    intro i hi j hj heq
    rw [List.mem_range] at hi hj
    exact numbered_inj (by omega) (by omega) (by rw [heq])
  . intro hmem
    obtain ⟨i, _, hi⟩ := List.mem_map.mp hmem
    exact alice_not_numbered i (by rw [hi])

theorem encrypts (random : Random) (plaintext : Bytes) (alsoFor : List Key32) :
    ∃ envelope, encryptForRecipients alice random plaintext alsoFor = .ok envelope := by
  have hwrap (salt : Bytes) (contentKey : Key32) (pubs : List Key32) : ∀ draw,
      ∃ wraps, wrapAll random salt contentKey draw pubs = .ok wraps := by
    induction pubs with
    | nil => exact fun draw => ⟨[], rfl⟩
    | cons pub pubs ih =>
      intro draw
      obtain ⟨others, hothers⟩ := ih (draw + 2)
      exact ⟨_, by rw [wrapAll, hothers]; rfl⟩
  obtain ⟨wraps, hwraps⟩ := hwrap (random 1 saltLen).toList (random 0 keyLen)
    (recipientPubs alice.dhPublicKey alsoFor) 3
  cases h : encryptForRecipients alice random plaintext alsoFor with
  | ok envelope => exact ⟨envelope, rfl⟩
  | error e =>
    exfalso
    unfold encryptForRecipients at h
    dsimp only at h
    split at h
    . next hnone => cases hnone
    . rw [hwraps] at h
      cases h

/--
The envelope for the crowd is made, and the recipient count in it is zero: its sender cannot open it.
-/
theorem crowd_not_roundTrips : ∃ envelope,
    encryptForRecipients alice draws [7] crowd = .ok envelope ∧
    Ideal (derivationsFor alice alice draws crowd) ∧
    decryptEnvelope alice envelope = .error (.malformed "envelope has no recipients") ∧
    ¬ RoundTrips alice draws [7] crowd envelope := by
  have hideal : Ideal (derivationsFor alice alice draws crowd) := by
    apply ideal_draws
    intro pub hpub pub' hpub' htake
    rw [mem_recipientPubs] at hpub hpub'
    rcases hpub with rfl | hpub
    . rcases hpub' with rfl | hpub'
      . rfl
      . obtain ⟨j, _, rfl⟩ := List.mem_map.mp hpub'
        exact absurd htake (alice_not_numbered j)
    . obtain ⟨i, hi, rfl⟩ := List.mem_map.mp hpub
      rcases hpub' with rfl | hpub'
      . exact absurd htake.symm (alice_not_numbered i)
      . obtain ⟨j, hj, rfl⟩ := List.mem_map.mp hpub'
        rw [List.mem_range] at hi hj
        rw [numbered_inj (by omega) (by omega) htake]
  obtain ⟨envelope, henvelope⟩ := encrypts draws [7] crowd
  obtain ⟨_, _, _, _, hdecrypt⟩ := decryptEnvelope_encrypted cipherLaws agreementLaws henvelope hideal
    0 (by rw [length_crowd])
  rw [if_pos rfl] at hdecrypt
  exact ⟨envelope, henvelope, hideal, hdecrypt, not_roundTrips_of_error hideal hdecrypt⟩

end Counterexample

end Canopee.Envelope
