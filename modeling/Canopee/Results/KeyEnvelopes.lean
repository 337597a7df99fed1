import Canopee.Results.OneIdentity
import Canopee.Results.Tampering
import Canopee.Runtime.Maintenance

/-!
This module contains the envelopes around identity keys: what is read back from one, which passphrases
and which other bytes are refused, and how key files are told from envelopes.
-/

namespace Canopee

open Primitives
open Envelope (slice slice_append_drop slice_of_drop drop_of_drop)

variable [Primitives]

namespace AtRest

section Bounds

variable {bytes : Bytes} {off : Nat}

omit [Primitives] in
theorem checked_isEncryptedEnvelope (bytes : Bytes) :
    AtRest.Checked.isEncryptedEnvelope bytes = .ok (isEncryptedEnvelope bytes) := by
  unfold AtRest.Checked.isEncryptedEnvelope isEncryptedEnvelope
  split
  . next hlength =>
    have hmagic : encryptedMagic.length ≤ bytes.length :=
      Nat.le_trans (by decide) (Nat.le_of_lt hlength)
    rw [Checked.range_eq (Nat.zero_le _) hmagic]
    simp [hlength, Checked.ok_bind, Checked.pure_eq]
  . next hlength => simp [hlength, Checked.pure_eq]

omit [Primitives] in
theorem checked_cost (h : off + 4 ≤ bytes.length) (hword : off + 4 ≤ Checked.wordMax) :
    AtRest.Checked.cost bytes off = .ok (Codec.ofLeBytes (slice bytes off (off + 4))) := by
  have hlength : ((bytes.take (off + 4)).drop off).length = 4 :=
    (Checked.length_range (Nat.le_add_right _ _) h).trans (Nat.add_sub_cancel_left ..)
  unfold AtRest.Checked.cost
  rw [Checked.add_eq hword, Checked.ok_bind, Checked.range_eq (Nat.le_add_right _ _) h, Checked.ok_bind,
    Checked.array_eq hlength]
  rfl

/--
Reading a key envelope never faults, whatever the bytes are.
-/
theorem checked_decryptKeyEnvelope (bytes passphrase : Bytes) :
    AtRest.Checked.decryptKeyEnvelope bytes passphrase = .ok (decryptKeyEnvelope bytes passphrase) := by
  unfold AtRest.Checked.decryptKeyEnvelope decryptKeyEnvelope
  rw [checked_isEncryptedEnvelope, Checked.ok_bind]
  cases henvelope : isEncryptedEnvelope bytes with
  | false => rfl
  | true =>
    have hlength : headerLen < bytes.length := by
      unfold isEncryptedEnvelope at henvelope
      simpa using (Bool.and_eq_true_iff.mp henvelope).1
    have hmagic : encryptedMagic.length = 13 := by decide
    have hversion : encryptedVersion.length = 18 := by decide
    have hheader : headerLen = 83 := by decide
    rw [hheader] at hlength
    have hword : 83 ≤ Checked.wordMax := by decide
    have hadd (a b : Nat) (h : a + b ≤ 83) : Checked.add a b = .ok (a + b) :=
      Checked.add_eq (h.trans hword)
    have hrange (a b : Nat) (hab : a ≤ b) (hb : b ≤ 83) : Checked.range bytes a b =
        .ok (slice bytes a b) :=
      Checked.range_eq hab (by omega)
    have hcost (off : Nat) (h : off + 4 ≤ 83) : AtRest.Checked.cost bytes off =
        .ok (Codec.ofLeBytes (slice bytes off (off + 4))) :=
      checked_cost (by omega) (h.trans hword)
    have hnonce : (slice bytes 59 83).length = 24 :=
      Checked.length_range (by decide) (by omega)
    simp only [hmagic, hversion, hheader, saltLen, nonceLen, Bool.not_true, Bool.false_eq_true, if_false,
      Checked.ok_bind, hadd 13 18 (by decide), hrange 13 31 (by decide) (by decide)]
    split
    . rfl
    . simp only [hadd 31 4 (by decide), hadd 31 8 (by decide), hadd 31 12 (by decide),
        hadd 43 16 (by decide), hadd 59 24 (by decide), hcost 31 (by decide), hcost 35 (by decide),
        hcost 39 (by decide), hrange 43 59 (by decide) (by decide), hrange 59 83 (by decide) (by decide),
        Checked.behind_eq (Nat.le_of_lt hlength), Checked.ok_bind, Nat.reduceAdd, Nat.reduceMul]
      generalize deriveKey _ passphrase _ = derived
      cases derived with
      | none => rfl
      | some key =>
        dsimp only
        rw [Checked.array_eq hnonce, Checked.ok_bind, Checked.toList_vector]
        generalize aeadDecrypt _ _ _ = opened
        cases opened with
        | none => rfl
        | some plaintext => rfl

end Bounds

section Parts

variable {bytes bytes' plaintext passphrase salt nonce ciphertext : Bytes} {random : Envelope.Random}

/--
What is opened has the magic and the version, and is opened under the key that its costs and its salt
give.
-/
theorem decryptKeyEnvelope_eq_ok (h : decryptKeyEnvelope bytes passphrase = .ok plaintext) :
    bytes.take 13 = encryptedMagic ∧ slice bytes 13 31 = encryptedVersion ∧ headerLen < bytes.length ∧
      ∃ key, deriveKey (Codec.ofLeBytes (slice bytes 31 35), Codec.ofLeBytes (slice bytes 35 39),
          Codec.ofLeBytes (slice bytes 39 43)) passphrase (slice bytes 43 59) = some key ∧
        aeadDecrypt key (slice bytes 59 83) (bytes.drop 83) = some plaintext := by
  unfold decryptKeyEnvelope at h
  split at h
  . contradiction
  . next henvelope =>
    rw [Bool.not_eq_true', Bool.not_eq_false] at henvelope
    obtain ⟨hlength, hmagic⟩ := Bool.and_eq_true_iff.mp henvelope
    dsimp only at h
    split at h
    . contradiction
    . next hversion =>
      rw [bne_iff_ne, not_not] at hversion
      split at h
      . contradiction
      . next key hkey =>
        split at h
        . next opened hopened =>
          cases h
          exact ⟨beq_iff_eq.mp hmagic, hversion, of_decide_eq_true hlength, key, hkey, hopened⟩
        . contradiction

omit [Primitives] in
theorem leBytes_of_slice {a n : Nat} (h : a + 4 ≤ bytes.length)
    (hn : Codec.ofLeBytes (slice bytes a (a + 4)) = n) :
    slice bytes a (a + 4) = Codec.leBytes 4 n := by
  have hlength : (slice bytes a (a + 4)).length = 4 :=
    (Checked.length_range (Nat.le_add_right _ _) h).trans (Nat.add_sub_cancel_left ..)
  have hback := Codec.leBytes_ofLeBytes (slice bytes a (a + 4))
  rw [hlength, hn] at hback
  exact hback.symm

omit [Primitives] in
theorem frames_of_parts (hlength : headerLen < bytes.length)
    (hmagic : bytes.take 13 = encryptedMagic) (hversion : slice bytes 13 31 = encryptedVersion)
    (hcosts : (Codec.ofLeBytes (slice bytes 31 35), Codec.ofLeBytes (slice bytes 35 39),
      Codec.ofLeBytes (slice bytes 39 43)) = defaultParams) :
    Frames (slice bytes 43 59) (slice bytes 59 83) (bytes.drop 83) bytes := by
  have hlength : 83 < bytes.length := hlength
  have hmemory := leBytes_of_slice (a := 31) (by omega) (congrArg Prod.fst hcosts)
  have htime := leBytes_of_slice (a := 35) (by omega) (congrArg (fun costs => costs.2.1) hcosts)
  have hlanes := leBytes_of_slice (a := 39) (by omega) (congrArg (fun costs => costs.2.2) hcosts)
  constructor
  . exact Checked.length_range (by decide) (by omega)
  . exact Checked.length_range (by decide) (by omega)
  . rw [← hmemory, ← htime, ← hlanes, ← hversion, ← hmagic, slice_append_drop (by decide),
      slice_append_drop (by decide), slice_append_drop (by decide), slice_append_drop (by decide),
      slice_append_drop (by decide), slice_append_drop (by decide), List.take_append_drop,
      List.drop_zero]

omit [Primitives] in
theorem Frames.parts (h : Frames salt nonce ciphertext bytes) :
    slice bytes 43 59 = salt ∧ slice bytes 59 83 = nonce ∧ bytes.drop 83 = ciphertext := by
  have h13 := drop_of_drop h.framed (show 0 + encryptedMagic.length = 13 by decide)
  have h31 := drop_of_drop h13 (show 13 + encryptedVersion.length = 31 by decide)
  have h35 := drop_of_drop h31 (congrArg (31 + ·) (Codec.leBytes_length 4 _))
  have h39 := drop_of_drop h35 (congrArg (35 + ·) (Codec.leBytes_length 4 _))
  have h43 := drop_of_drop h39 (congrArg (39 + ·) (Codec.leBytes_length 4 _))
  have h59 := drop_of_drop h43 (congrArg (43 + ·) h.salt_length)
  exact ⟨slice_of_drop h43 h.salt_length, slice_of_drop h59 h.nonce_length,
    drop_of_drop h59 (congrArg (59 + ·) h.nonce_length)⟩

omit [Primitives] in
theorem Frames.unique (h : Frames salt nonce ciphertext bytes)
    (h' : Frames salt nonce ciphertext bytes') : bytes = bytes' := by
  have hframed := h.framed.trans h'.framed.symm
  rwa [List.drop_zero, List.drop_zero] at hframed

/--
Ideal key derivation and encryption, around one envelope: nothing else derives its key, what opens under
a key that its passphrase gives is what was sealed in it, and its ciphertext opens under no other key.
-/
structure Ideal (random : Envelope.Random) (plaintext passphrase : Bytes) : Prop where
  distinct : ∀ key params passphrase' salt,
    deriveKey defaultParams passphrase (random 0 saltLen).toList = some key →
    deriveKey params passphrase' salt = some key →
    params = defaultParams ∧ passphrase' = passphrase ∧ salt = (random 0 saltLen).toList
  sealedOnce : ∀ key params salt nonce ciphertext opened, deriveKey params passphrase salt = some key →
    aeadDecrypt key nonce ciphertext = some opened →
    deriveKey defaultParams passphrase (random 0 saltLen).toList = some key ∧
      nonce = (random 1 nonceLen).toList ∧ opened = plaintext
  committing : ∀ key key' ciphertext opened,
    deriveKey defaultParams passphrase (random 0 saltLen).toList = some key →
    aeadEncrypt key (random 1 nonceLen).toList plaintext = some ciphertext →
    aeadDecrypt key' (random 1 nonceLen).toList ciphertext = some opened → key' = key

variable {envelope opened : Bytes} (ideal : Ideal random plaintext passphrase)

include ideal

theorem eq_of_decryptKeyEnvelope (laws : CipherLaws)
    (h : encryptKeyEnvelope random plaintext passphrase = .ok envelope)
    (hopened : decryptKeyEnvelope bytes passphrase = .ok opened) : bytes = envelope := by
  obtain ⟨key, ciphertext, hframes, hkey, hsealed⟩ := encryptKeyEnvelope_eq_ok h
  obtain ⟨hmagic, hversion, hlength, key', hderived, hread⟩ := decryptKeyEnvelope_eq_ok hopened
  -- another nonce and another ciphertext do not open, and other costs and another salt give another key
  obtain ⟨hsame, hnonce, hplain⟩ := ideal.sealedOnce _ _ _ _ _ _ hderived hread
  obtain ⟨hcosts, _, hsalt⟩ := ideal.distinct _ _ _ _ hsame hderived
  have hkeys : key' = key := Option.some_inj.mp (hsame.symm.trans hkey)
  rw [hkeys, hnonce, hplain] at hread
  have hciphertext := Option.some_inj.mp (hsealed.symm.trans ((laws.decrypt_iff _ _ _ _).mp hread))
  have hparts := frames_of_parts hlength hmagic hversion hcosts
  rw [hsalt, hnonce, ← hciphertext] at hparts
  exact hparts.unique hframes

theorem not_decryptKeyEnvelope_of_ne {passphrase' : Bytes}
    (h : encryptKeyEnvelope random plaintext passphrase = .ok envelope)
    (hne : passphrase' ≠ passphrase) : decryptKeyEnvelope envelope passphrase' ≠ .ok opened := by
  intro hopened
  obtain ⟨key, ciphertext, hframes, hkey, hsealed⟩ := encryptKeyEnvelope_eq_ok h
  obtain ⟨_, _, _, key', hderived, hread⟩ := decryptKeyEnvelope_eq_ok hopened
  obtain ⟨_, hnonce, hbody⟩ := hframes.parts
  rw [hnonce, hbody] at hread
  rw [ideal.committing _ _ _ _ hkey hsealed hread] at hderived
  exact hne (ideal.distinct _ _ _ _ hkey hderived).2.1

end Parts

end AtRest

section Keys

open AtRest (encryptedMagic isEncryptedEnvelope)

variable {identity : Identity} {random : Envelope.Random} {passphrase : String} {envelope bytes : Bytes}

theorem importFromEncrypted_eq_error (h : ∀ plaintext,
    AtRest.decryptKeyEnvelope bytes (Codec.utf8 passphrase) ≠ .ok plaintext) :
    ∃ e, Runtime.importFromEncrypted bytes passphrase = .error e := by
  unfold Runtime.importFromEncrypted
  cases hopened : AtRest.decryptKeyEnvelope bytes (Codec.utf8 passphrase) with
  | error e => exact ⟨e, rfl⟩
  | ok plaintext => exact absurd hopened (h plaintext)

theorem loadEncrypted_eq (bytes again : Bytes) (passphrase : String) :
    Identity.loadEncrypted bytes again passphrase =
      if isEncryptedEnvelope bytes then
        (Runtime.importFromEncrypted bytes passphrase).map fun identity => (identity, true)
      else
        (Identity.load again).map fun identity => (identity, false) := by
  unfold Identity.loadEncrypted Runtime.importFromEncrypted
  split
  . cases AtRest.decryptKeyEnvelope bytes (Codec.utf8 passphrase) with
    | error e => rfl
    | ok plaintext =>
      dsimp only
      cases Identity.importBytes plaintext with
      | none => rfl
      | some identity => rfl
  . rfl

theorem flag_of_loadEncrypted {again : Bytes} {flag : Bool}
    (h : Identity.loadEncrypted bytes again passphrase = .ok (identity, flag)) :
    flag = isEncryptedEnvelope bytes := by
  have hflag {result : Except String Identity} {b : Bool}
      (h : (result.map fun identity => (identity, b)) = .ok (identity, flag)) : flag = b := by
    cases result with
    | error e => cases h
    | ok found =>
      cases h
      rfl
  rw [loadEncrypted_eq] at h
  split at h
  . next henvelope =>
    rw [henvelope]
    exact hflag h
  . next henvelope =>
    rw [Bool.not_eq_true] at henvelope
    rw [henvelope]
    exact hflag h

/--
How the file of a key and the file with its envelope are told apart.
-/
structure ToldApart (identity : Identity) (envelope : Bytes) : Prop where
  plain : ∀ passphrase, Identity.loadEncrypted identity.exportBytes identity.exportBytes passphrase =
    .ok (identity, false)
  encrypted : ∀ again passphrase, Identity.loadEncrypted envelope again passphrase =
    (Runtime.importFromEncrypted envelope passphrase).map fun identity => (identity, true)
  flag : ∀ bytes again passphrase found flag,
    Identity.loadEncrypted bytes again passphrase = .ok (found, flag) → flag = isEncryptedEnvelope bytes

end Keys

end Canopee

namespace Canopee.RecordedKey

open AtRest (saltLen nonceLen deriveKey defaultParams)
open Transparent (recording recording_encrypt_iff recording_decrypt_iff)

/--
One key is derived and one thing is encrypted: the key of Alice, under her passphrase.
-/
scoped instance primitives : Primitives :=
  { recording [(List.replicate 32 1, List.replicate 24 7, [1])] with
    argon2 := fun memory time lanes passphrase salt =>
      some (List.Vector.replicate 32 (if (memory, time, lanes) = (19456, 2, 1) ∧
        passphrase = Codec.utf8 "open sesame" ∧ salt = List.replicate 16 7 then 1 else 0)) }

def alice : Identity := @Identity.mk primitives (1 : UInt8)

def draws : Envelope.Random :=
  fun _ n => List.Vector.replicate n 7

def envelope : Bytes :=
  (alice.exportEncrypted draws "open sesame").toOption.getD []

theorem cipherLaws : Primitives.CipherLaws :=
  @Primitives.CipherLaws.mk primitives
    (fun _ _ _ _ => recording_decrypt_iff.trans recording_encrypt_iff.symm)
    (fun key nonce plaintext _ h => by
      rw [← (recording_encrypt_iff.mp h).1]
      exact Transparent.length_sealed key nonce plaintext)

theorem deriveKey_iff {params : Nat × Nat × Nat} {passphrase salt : Bytes} {key : Key32} :
    deriveKey params passphrase salt = some key ↔
      List.Vector.replicate 32 (if params = defaultParams ∧ passphrase = Codec.utf8 "open sesame" ∧
        salt = List.replicate 16 7 then 1 else 0) = key :=
  Option.some_inj

theorem ideal : AtRest.Ideal draws alice.exportBytes (Codec.utf8 "open sesame") := by
  have hown : deriveKey defaultParams (Codec.utf8 "open sesame") (draws 0 saltLen).toList =
      some (List.Vector.replicate 32 1) := by
    rw [deriveKey_iff, if_pos ⟨rfl, rfl, rfl⟩]
  have hsealed {key : Key32} {nonce ciphertext opened : Bytes}
      (h : Primitives.aeadDecrypt key nonce ciphertext = some opened) :
      key = List.Vector.replicate 32 1 ∧ nonce = List.replicate 24 7 ∧ opened = [1] := by
    have hmem := (recording_decrypt_iff.mp h).2
    rw [List.mem_singleton, Prod.mk.injEq, Prod.mk.injEq] at hmem
    exact ⟨List.Vector.eq _ _ hmem.1, hmem.2⟩
  constructor
  . intro key params passphrase salt h h'
    rw [hown, Option.some_inj] at h
    rw [deriveKey_iff, ← h] at h'
    split at h'
    . next hinputs => exact hinputs
    . exact absurd (congrArg List.Vector.toList h') (by decide)
  . intro key params salt nonce ciphertext opened _ hopened
    obtain ⟨hkey, hnonce, hplain⟩ := hsealed hopened
    exact ⟨by rw [hkey, hown], hnonce, hplain⟩
  . intro key key' ciphertext opened h _ hopened
    rw [hown, Option.some_inj] at h
    rw [(hsealed hopened).1, h]

end Canopee.RecordedKey
