import Canopee.Identity.Opening
import Canopee.Lib.Run
import Canopee.Results.Sealing

/-!
This module contains the identities that concurrent starts of the node on one identity directory end
up with.
-/

namespace Canopee

open Primitives

variable [Primitives]

/--
The library reads back its form of a key, and a password protected file is no such form.
-/
structure KeyFileLaws : Prop where
  cipher : CipherLaws
  import_export : ∀ identity : Identity, Identity.importBytes identity.exportBytes = some identity
  not_keypair : ∀ bytes, AtRest.isEncryptedEnvelope bytes = true → Identity.importBytes bytes = none

section RoundTrip

open Envelope (slice slice_of_drop drop_of_drop)

namespace AtRest

/--
`bytes` is an encrypted key file with these parts behind its parameters.
-/
structure Frames (salt nonce ciphertext bytes : Bytes) : Prop where
  salt_length : salt.length = saltLen
  nonce_length : nonce.length = nonceLen
  framed : bytes.drop 0 = encryptedMagic ++ (encryptedVersion ++
    (Codec.leBytes 4 defaultParams.1 ++ (Codec.leBytes 4 defaultParams.2.1 ++
      (Codec.leBytes 4 defaultParams.2.2 ++ (salt ++ (nonce ++ ciphertext))))))

variable {salt nonce ciphertext plaintext passphrase bytes : Bytes}

theorem encryptKeyEnvelope_eq_ok {random : Envelope.Random}
    (h : encryptKeyEnvelope random plaintext passphrase = .ok bytes) :
    ∃ key ciphertext,
      Frames (random 0 saltLen).toList (random 1 nonceLen).toList ciphertext bytes ∧
      deriveKey defaultParams passphrase (random 0 saltLen).toList = some key ∧
      aeadEncrypt key (random 1 nonceLen).toList plaintext = some ciphertext := by
  unfold encryptKeyEnvelope at h
  dsimp only at h
  cases hkey : deriveKey defaultParams passphrase (random 0 saltLen).toList with
  | none => simp [hkey] at h
  | some key =>
    rw [hkey, Option.bind_some] at h
    cases hsealed : aeadEncrypt key (random 1 nonceLen).toList plaintext with
    | none => simp [hsealed] at h
    | some ciphertext =>
      rw [hsealed] at h
      have hbytes := Except.ok.inj h
      simp only [List.append_assoc] at hbytes
      exact ⟨key, ciphertext, ⟨List.Vector.toList_length _, List.Vector.toList_length _, hbytes.symm⟩,
        rfl, hsealed⟩

omit [Primitives] in
theorem Frames.isEncryptedEnvelope (h : Frames salt nonce ciphertext bytes)
    (hciphertext : 0 < ciphertext.length) : isEncryptedEnvelope bytes = true := by
  have hbytes := h.framed
  rw [List.drop_zero] at hbytes
  have hlength : bytes.length = headerLen + ciphertext.length := by
    rw [hbytes]
    simp only [List.length_append, Codec.leBytes_length, h.salt_length, h.nonce_length, headerLen]
    omega
  unfold AtRest.isEncryptedEnvelope
  rw [Bool.and_eq_true, decide_eq_true_eq, beq_iff_eq]
  refine ⟨by omega, ?_⟩
  rw [hbytes]
  exact List.take_left

theorem Frames.decryptKeyEnvelope (h : Frames salt nonce ciphertext bytes)
    (henvelope : AtRest.isEncryptedEnvelope bytes = true) {key : Key32}
    (hkey : deriveKey defaultParams passphrase salt = some key)
    (hopened : aeadDecrypt key nonce ciphertext = some plaintext) :
    decryptKeyEnvelope bytes passphrase = .ok plaintext := by
  -- what stands behind each of the parts
  have h1 := drop_of_drop h.framed (Nat.zero_add encryptedMagic.length)
  have h2 := drop_of_drop h1 rfl
  have h3 := drop_of_drop h2 (congrArg _ (Codec.leBytes_length 4 _))
  have h4 := drop_of_drop h3 (congrArg _ (Codec.leBytes_length 4 _))
  have h5 := drop_of_drop h4 (congrArg _ (Codec.leBytes_length 4 _))
  have h6 := drop_of_drop h5 (congrArg _ h.salt_length)
  have hbody : bytes.drop headerLen = ciphertext := drop_of_drop h6 (congrArg _ h.nonce_length)
  -- the fields as the reader cuts them out
  have hversion := slice_of_drop h1 (Nat.add_sub_cancel_left ..).symm
  have hcost (i : Nat) (n : Nat) (hn : n < 256 ^ 4) {rest : Bytes}
      (h : bytes.drop (encryptedMagic.length + encryptedVersion.length + 4 * i) =
        Codec.leBytes 4 n ++ rest) :
      Codec.ofLeBytes (slice bytes (encryptedMagic.length + encryptedVersion.length + 4 * i)
        (encryptedMagic.length + encryptedVersion.length + 4 * i + 4)) = n := by
    rw [slice_of_drop h ((Codec.leBytes_length 4 n).trans (Nat.add_sub_cancel_left ..).symm),
      Codec.ofLeBytes_leBytes, Nat.mod_eq_of_lt hn]
  have hmemory := hcost 0 defaultParams.1 (by decide) h2
  have htime := hcost 1 defaultParams.2.1 (by decide) h3
  have hlanes := hcost 2 defaultParams.2.2 (by decide) h4
  have hsalt := slice_of_drop h5 (h.salt_length.trans (Nat.add_sub_cancel_left ..).symm)
  have hnonce := slice_of_drop h6 (h.nonce_length.trans (Nat.add_sub_cancel_left ..).symm)
  have hderived : deriveKey (defaultParams.1, defaultParams.2.1, defaultParams.2.2) passphrase
      (slice bytes (encryptedMagic.length + encryptedVersion.length + 12)
        (encryptedMagic.length + encryptedVersion.length + 12 + saltLen)) = some key :=
    (congrArg _ hsalt).trans hkey
  have hdecrypted : aeadDecrypt key
      (slice bytes (encryptedMagic.length + encryptedVersion.length + 12 + saltLen)
        (encryptedMagic.length + encryptedVersion.length + 12 + saltLen + nonceLen))
      ciphertext = some plaintext :=
    (congrArg (aeadDecrypt key · ciphertext) hnonce).trans hopened
  unfold AtRest.decryptKeyEnvelope
  rw [henvelope, Bool.not_true, if_neg Bool.false_ne_true]
  dsimp only
  rw [hversion, bne_self_eq_false, if_neg Bool.false_ne_true, hmemory, htime, hlanes, hderived]
  dsimp only
  rw [hbody, hdecrypted]

theorem decryptKeyEnvelope_encryptKeyEnvelope (laws : CipherLaws) {random : Envelope.Random}
    (h : encryptKeyEnvelope random plaintext passphrase = .ok bytes) :
    isEncryptedEnvelope bytes = true ∧ decryptKeyEnvelope bytes passphrase = .ok plaintext := by
  obtain ⟨key, ciphertext, hframes, hkey, hsealed⟩ := encryptKeyEnvelope_eq_ok h
  have hciphertext := laws.length _ _ _ _ hsealed
  have henvelope := hframes.isEncryptedEnvelope (by omega)
  exact ⟨henvelope,
    hframes.decryptKeyEnvelope henvelope hkey ((laws.decrypt_iff _ _ _ _).mpr hsealed)⟩

end AtRest

theorem Identity.loadAtRest_exportAtRest (laws : KeyFileLaws) {identity : Identity}
    {random : Envelope.Random} {passphrase : Option String} {bytes : Bytes}
    (h : identity.exportAtRest random passphrase = .ok bytes) :
    loadAtRest bytes passphrase = some identity := by
  cases passphrase with
  | none =>
    rw [← Except.ok.inj h]
    exact laws.import_export identity
  | some pass =>
    obtain ⟨henvelope, hdecrypt⟩ :=
      AtRest.decryptKeyEnvelope_encryptKeyEnvelope laws.cipher h
    unfold loadAtRest
    dsimp only
    rw [if_pos henvelope, hdecrypt]
    exact laws.import_export identity

end RoundTrip

namespace Openings

variable {ι : Type} [DecidableEq ι] {passphrase : Option String} {generated : ι → Generated}
variable {s : Openings ι}

/--
No strict prefix of a key file that one of the nodes may write parses as a key.
-/
def PrefixesFail (passphrase : Option String) (generated : ι → Generated) : Prop :=
  ∀ i bytes, (generated i).identity.exportAtRest (generated i).random passphrase = .ok bytes →
    ∀ n < bytes.length, Identity.loadAtRest (bytes.take n) passphrase = none

/--
The nodes that have their identity have the same one, and the key file contains it.
-/
structure OneIdentity (passphrase : Option String) (s : Openings ι) : Prop where
  same : ∀ i j a b, s.calls i = .ok a → s.calls j = .ok b → a = b
  stored : ∀ i identity, s.calls i = .ok identity → ∃ bytes, s.disk.read keyName = some bytes ∧
    Identity.loadAtRest bytes passphrase = some identity

/--
`create_encrypted` opens the key file only while there is none.
-/
def OpensNew (l : ι × Nat) (s : Openings ι) : Prop :=
  s.calls l.1 = .creating → s.disk.names.lookup keyName = none

/--
Where a call may stand as long as there is no key file.
-/
def Idle : Opening → Prop
  | .start | .creating | .error _ => True
  | _ => False

/--
Where the call `i` may stand when `writer` has written `n` bytes of its key into `file`, `bytes`
when it is all written.
-/
def Fits (passphrase : Option String) (identity : Identity) (bytes : Bytes) (file n : Nat)
    (writes : Prop) : Opening → Prop
  | .writing f written => writes ∧ f = file ∧ written = n
  | .loading _ f part => f = file ∧ part <+: bytes.take n
  | .opening => passphrase.isSome = true
  | .reading f part => passphrase.isSome = true ∧ f = file ∧ part <+: bytes.take n
  | .rereading f part => f = file ∧ part <+: bytes.take n
  | .ok found => found = identity ∧ n = bytes.length
  | _ => True

/--
One node has created the key file and writes it, and the others only read it.
-/
structure Written (passphrase : Option String) (generated : ι → Generated) (s : Openings ι)
    (writer : ι) (bytes : Bytes) (file n : Nat) : Prop where
  exported : (generated writer).identity.exportAtRest (generated writer).random passphrase =
    .ok bytes
  found : s.disk.names.lookup keyName = some file
  le : n ≤ bytes.length
  contents : s.disk.contents file = bytes.take n
  fits : ∀ i, Fits passphrase (generated writer).identity bytes file n (i = writer) (s.calls i)

/--
The key file is not there yet, or it is one node's.
-/
def Owned (passphrase : Option String) (generated : ι → Generated) (s : Openings ι) : Prop :=
  (s.disk.names.lookup keyName = none ∧ ∀ i, Idle (s.calls i)) ∨
    ∃ writer bytes file n, Written passphrase generated s writer bytes file n

instance (p : Opening) : Decidable (p = .creating) :=
  match p with
  | .creating => .isTrue rfl
  | .start | .writing _ _ | .adopting _ | .loading _ _ _ | .opening | .reading _ _ | .reopening
  | .rereading _ _ | .ok _ | .error _ => .isFalse nofun

instance (l : ι × Nat) (s : Openings ι) : Decidable (OpensNew l s) :=
  inferInstanceAs (Decidable (s.calls l.1 = .creating → s.disk.names.lookup keyName = none))

section Loads

theorem loadAtRest_of_importBytes (laws : KeyFileLaws) {bytes : Bytes} {identity : Identity}
    (h : Identity.importBytes bytes = some identity) :
    Identity.loadAtRest bytes passphrase = some identity := by
  unfold Identity.loadAtRest
  cases passphrase with
  | none => exact h
  | some pass =>
    dsimp only
    rw [if_neg]
    . exact h
    . intro henvelope
      rw [laws.not_keypair bytes henvelope] at h
      contradiction

omit [DecidableEq ι] in
theorem Written.loads {writer : ι} {bytes : Bytes} {file n : Nat} (laws : KeyFileLaws)
    (hfails : PrefixesFail passphrase generated)
    (h : Written passphrase generated s writer bytes file n) {identity : Identity}
    (hload : Identity.loadAtRest (bytes.take n) passphrase = some identity) :
    identity = (generated writer).identity ∧ n = bytes.length := by
  have hwhole : n = bytes.length := by
    by_contra hne
    have hlt : n < bytes.length := Nat.lt_of_le_of_ne h.le hne
    rw [hfails writer bytes h.exported n hlt] at hload
    contradiction
  refine ⟨?_, hwhole⟩
  rw [hwhole, List.take_length, Identity.loadAtRest_exportAtRest laws h.exported] at hload
  exact (Option.some.inj hload).symm

end Loads

section Held

variable {writer i : ι} {bytes part : Bytes} {file n : Nat} {p : Opening} {disk : Disk}

theorem Written.moved (h : Written passphrase generated s writer bytes file n)
    (hp : Fits passphrase (generated writer).identity bytes file n (i = writer) p) :
    Written passphrase generated (s.moved i p s.disk) writer bytes file n where
  exported := h.exported
  found := h.found
  le := h.le
  contents := h.contents
  fits := by
    intro j
    by_cases hj : j = i
    . rw [hj, calls_moved_self]
      exact hp
    . rw [calls_moved_of_ne hj]
      exact h.fits j

theorem Written.openKey (h : Written passphrase generated s writer bytes file n)
    {next : Nat → Opening} (absent : Opening)
    (hnext : Fits passphrase (generated writer).identity bytes file n (i = writer) (next file)) :
    Written passphrase generated (s.openKey i next absent) writer bytes file n := by
  unfold Openings.openKey
  rw [h.found]
  exact h.moved hnext

theorem Written.readKey (h : Written passphrase generated s writer bytes file n) (m : Nat)
    (hpart : part <+: bytes.take n) {next : Bytes → Opening} {done : Opening}
    (hnext : ∀ more, more <+: bytes.take n →
      Fits passphrase (generated writer).identity bytes file n (i = writer) (next more))
    (hdone : part = bytes.take n →
      Fits passphrase (generated writer).identity bytes file n (i = writer) done) :
    Written passphrase generated (s.readKey i m file part next done) writer bytes file n := by
  rw [← h.contents] at hpart
  unfold Openings.readKey
  dsimp only
  split
  . next hempty =>
    apply h.moved
    apply hdone
    rw [← h.contents]
    exact Disk.eq_contents_of_readAt hpart (List.isEmpty_iff.mp hempty)
  . apply h.moved
    apply hnext
    rw [← h.contents]
    exact Disk.append_readAt_prefix (m + 1) hpart

omit [DecidableEq ι] in
theorem Fits.mono {identity : Identity} {writes : Prop} {m : Nat}
    (h : Fits passphrase identity bytes file n writes p) (hwrites : ¬ writes)
    (hlt : n < bytes.length) (hle : n ≤ m) : Fits passphrase identity bytes file m writes p := by
  have hmore {part : Bytes} (hpart : part <+: bytes.take n) : part <+: bytes.take m :=
    hpart.trans (List.take_prefix_take_left hle)
  cases p with
  | writing f written => exact absurd h.1 hwrites
  | loading attempt f part => exact ⟨h.1, hmore h.2⟩
  | reading f part => exact ⟨h.1, h.2.1, hmore h.2.2⟩
  | rereading f part => exact ⟨h.1, hmore h.2⟩
  -- nobody has an identity before the file is all written
  | ok found => exact absurd h.2 (Nat.ne_of_lt hlt)
  | opening => exact h
  | start => trivial
  | creating => trivial
  | adopting attempt => trivial
  | reopening => trivial
  | error e => trivial

theorem Written.writeKey (h : Written passphrase generated s writer bytes file n) (m : Nat) :
    ∃ k, Written passphrase generated
      (s.writeKey writer m file n (generated writer).identity bytes) writer bytes file k := by
  unfold Openings.writeKey
  dsimp only
  split
  . next hlt =>
    obtain ⟨hmore, happended⟩ := Disk.contents_writeAt_take (m + 1) h.found h.le h.contents
    refine ⟨n + ((bytes.drop n).take (m + 1)).length, h.exported, h.found, hmore, happended, ?_⟩
    intro j
    by_cases hj : j = writer
    . rw [hj, calls_moved_self]
      exact ⟨rfl, rfl, rfl⟩
    . rw [calls_moved_of_ne hj]
      -- what the others have read is still a prefix of the longer file
      exact (h.fits j).mono hj hlt (Nat.le_add_right n _)
  . next hend =>
    refine ⟨n, h.moved ⟨rfl, ?_⟩⟩
    have hle := h.le
    omega

theorem written_of_created (hidle : ∀ j, Idle (s.calls j))
    (hexport : (generated i).identity.exportAtRest (generated i).random passphrase = .ok bytes)
    (hfound : disk.names.lookup keyName = some file) (hcontents : disk.contents file = []) :
    Written passphrase generated (s.moved i (.writing file 0) disk) i bytes file 0 where
  exported := hexport
  found := hfound
  le := Nat.zero_le _
  contents := hcontents
  fits := by
    intro j
    by_cases hj : j = i
    . rw [hj, calls_moved_self]
      exact ⟨rfl, rfl, rfl⟩
    . have hidle := hidle j
      rw [calls_moved_of_ne hj]
      cases hcall' : s.calls j with
      | start => trivial
      | creating => trivial
      | error e => trivial
      | _ => rw [hcall'] at hidle; exact hidle.elim

theorem owned_of_idle (hnone : s.disk.names.lookup keyName = none)
    (hidle : ∀ j, Idle (s.calls j)) (l : ι × Nat) :
    Owned passphrase generated (openIdentity passphrase generated l s) := by
  have hstays {p : Opening} (hp : Idle p) : Owned passphrase generated (s.moved l.1 p s.disk) := by
    refine .inl ⟨hnone, ?_⟩
    intro j
    by_cases hj : j = l.1
    . rw [hj, calls_moved_self]
      exact hp
    . rw [calls_moved_of_ne hj]
      exact hidle j
  have hcall := hidle l.1
  unfold openIdentity
  dsimp only
  generalize hat : s.calls l.1 = p at hcall
  cases p with
  | start =>
    cases passphrase with
    | none =>
      dsimp only
      rw [Disk.openNew_of_none hnone]
      exact .inr ⟨_, _, _, _, written_of_created hidle rfl Disk.lookup_create Disk.contents_create⟩
    | some pass =>
      dsimp only
      unfold Openings.openKey
      rw [hnone]
      exact hstays trivial
  | creating =>
    dsimp only
    cases hexport : (generated l.1).identity.exportAtRest (generated l.1).random passphrase with
    | error e => exact hstays trivial
    | ok bytes => exact .inr ⟨_, _, _, _, written_of_created hidle hexport Disk.lookup_openTruncate
        Disk.contents_openTruncate⟩
  | error e => exact .inl ⟨hnone, hidle⟩
  | _ => exact hcall.elim

end Held

section Invariant

variable {writer : ι} {bytes : Bytes} {file n : Nat} {l : ι × Nat}

omit [DecidableEq ι] in
theorem Written.fits_loaded (h : Written passphrase generated s writer bytes file n)
    (laws : KeyFileLaws) (hfails : PrefixesFail passphrase generated) {writes : Prop}
    {failed : String → Opening} (hfailed : ∀ e,
      Fits passphrase (generated writer).identity bytes file n writes (failed e)) :
    Fits passphrase (generated writer).identity bytes file n writes
      (loaded failed (bytes.take n)) := by
  unfold loaded
  cases himport : Identity.importBytes (bytes.take n) with
  | some identity => exact h.loads laws hfails (loadAtRest_of_importBytes laws himport)
  | none => exact hfailed _

omit [DecidableEq ι] in
theorem Written.fits_loadedEncrypted (h : Written passphrase generated s writer bytes file n)
    (laws : KeyFileLaws) (hfails : PrefixesFail passphrase generated) {writes : Prop}
    (hpass : passphrase.isSome = true) :
    Fits passphrase (generated writer).identity bytes file n writes
      (loadedEncrypted (passphrase.getD "") (bytes.take n)) := by
  obtain ⟨pass, rfl⟩ := Option.isSome_iff_exists.mp hpass
  rw [Option.getD_some]
  unfold loadedEncrypted
  split
  . next henvelope =>
    cases hdecrypt : AtRest.decryptKeyEnvelope (bytes.take n) (Codec.utf8 pass) with
    | error e => trivial
    | ok plaintext =>
      dsimp only
      cases himport : Identity.importBytes plaintext with
      | none => trivial
      | some identity =>
        apply h.loads laws hfails
        unfold Identity.loadAtRest
        dsimp only
        rw [if_pos henvelope, hdecrypt]
        exact himport
  . trivial

theorem fits_retry {identity : Identity} {writes : Prop} (attempt : Nat) (e : String) :
    Fits passphrase identity bytes file n writes (.retry attempt e) := by
  unfold Opening.retry
  split
  . trivial
  . trivial

theorem Written.step (h : Written passphrase generated s writer bytes file n) (laws : KeyFileLaws)
    (hfails : PrefixesFail passphrase generated) (hnew : OpensNew l s) :
    ∃ k, Written passphrase generated (openIdentity passphrase generated l s) writer bytes file k := by
  have hfits := h.fits l.1
  unfold openIdentity
  dsimp only
  generalize hat : s.calls l.1 = p at hfits
  cases p with
  | start =>
    cases passphrase with
    | none =>
      dsimp only
      rw [Disk.openNew_of_some h.found]
      exact ⟨n, h.moved trivial⟩
    | some pass => exact ⟨n, h.openKey _ rfl⟩
  | creating =>
    -- this step alone could truncate the file of another node, and `OpensNew` rules it out
    have hfound := h.found
    rw [hnew hat] at hfound
    contradiction
  | writing f written =>
    obtain ⟨hwriter, hfile, hwritten⟩ := hfits
    dsimp only
    rw [hwriter, h.exported, hfile, hwritten]
    exact h.writeKey l.2
  | adopting attempt => exact ⟨n, h.openKey _ ⟨rfl, List.nil_prefix⟩⟩
  | loading attempt f part =>
    obtain ⟨hfile, hpart⟩ := hfits
    subst hfile
    refine ⟨n, h.readKey l.2 hpart (fun more hmore => ⟨rfl, hmore⟩) ?_⟩
    intro hwhole
    rw [hwhole]
    exact h.fits_loaded laws hfails (fits_retry attempt)
  | opening => exact ⟨n, h.openKey _ ⟨hfits, rfl, List.nil_prefix⟩⟩
  | reading f part =>
    obtain ⟨hpass, hfile, hpart⟩ := hfits
    subst hfile
    refine ⟨n, h.readKey l.2 hpart (fun more hmore => ⟨hpass, rfl, hmore⟩) ?_⟩
    intro hwhole
    rw [hwhole]
    exact h.fits_loadedEncrypted laws hfails hpass
  | reopening => exact ⟨n, h.openKey _ ⟨rfl, List.nil_prefix⟩⟩
  | rereading f part =>
    obtain ⟨hfile, hpart⟩ := hfits
    subst hfile
    refine ⟨n, h.readKey l.2 hpart (fun more hmore => ⟨rfl, hmore⟩) ?_⟩
    intro hwhole
    rw [hwhole]
    exact h.fits_loaded laws hfails fun e => trivial
  | ok identity => exact ⟨n, h⟩
  | error e => exact ⟨n, h⟩

theorem Owned.step (h : Owned passphrase generated s) (laws : KeyFileLaws)
    (hfails : PrefixesFail passphrase generated) (hnew : OpensNew l s) :
    Owned passphrase generated (openIdentity passphrase generated l s) := by
  rcases h with ⟨hnone, hidle⟩ | ⟨writer, bytes, file, n, hwritten⟩
  . exact owned_of_idle hnone hidle l
  . obtain ⟨k, hstep⟩ := hwritten.step laws hfails hnew
    exact .inr ⟨writer, bytes, file, k, hstep⟩

omit [DecidableEq ι] in
theorem Owned.oneIdentity (h : Owned passphrase generated s) (laws : KeyFileLaws) :
    OneIdentity passphrase s := by
  rcases h with ⟨_, hidle⟩ | ⟨writer, bytes, file, n, hwritten⟩
  . have hnone (i : ι) (identity : Identity) : s.calls i ≠ .ok identity := by
      intro hcall
      have hidle := hidle i
      rw [hcall] at hidle
      exact hidle
    exact ⟨fun i _ a _ ha => absurd ha (hnone i a), fun i identity hi => absurd hi (hnone i identity)⟩
  . have hfits {i : ι} {identity : Identity} (hcall : s.calls i = .ok identity) :
        identity = (generated writer).identity ∧ n = bytes.length := by
      have hfits := hwritten.fits i
      rw [hcall] at hfits
      exact hfits
    constructor
    . intro i j a b ha hb
      rw [(hfits ha).1, (hfits hb).1]
    . intro i identity hi
      obtain ⟨hidentity, hwhole⟩ := hfits hi
      refine ⟨bytes, ?_, ?_⟩
      . rw [Disk.read_of_lookup hwritten.found, hwritten.contents, hwhole, List.take_length]
      . rw [hidentity]
        exact Identity.loadAtRest_exportAtRest laws hwritten.exported

end Invariant

theorem openIdentity_oneIdentity (laws : KeyFileLaws) (hfails : PrefixesFail passphrase generated)
    {ls : List (ι × Nat)}
    (hnew : Run.Along (openIdentity passphrase generated) OpensNew begin ls) :
    Run.Always (openIdentity passphrase generated) (OneIdentity passphrase) begin ls := by
  -- the invariant is that the key file, once it is there, has one writer
  have hbegin : Owned passphrase generated (begin : Openings ι) :=
    .inl ⟨rfl, fun _ => trivial⟩
  apply (hnew.always hbegin ?_).mono
  . intro s h
    exact h.oneIdentity laws
  . intro l s hopens h
    exact h.step laws hfails hopens

end Openings

end Canopee

namespace Canopee.Openings

open Primitives

/--
The implementations of the tests, with a tag in front of a private key.
-/
local instance tagged : Primitives :=
  { Compact.primitives with
    decodeKeypair := fun
      | [tag, pair] => if tag = 8 then some pair else none
      | _ => none
    encodeKeypair := fun pair => [8, pair] }

theorem keyFileLaws_tagged : KeyFileLaws where
  cipher := @CipherLaws.mk tagged (@CipherLaws.decrypt_iff Compact.primitives Compact.cipherLaws)
    (@CipherLaws.length Compact.primitives Compact.cipherLaws)
  import_export _ := rfl
  not_keypair := by
    intro bytes henvelope
    unfold AtRest.isEncryptedEnvelope at henvelope
    rw [Bool.and_eq_true, decide_eq_true_eq] at henvelope
    rcases bytes with _ | ⟨a, _ | ⟨b, _ | ⟨c, rest⟩⟩⟩
    . rfl
    . rfl
    . have hshort : ¬ AtRest.headerLen < 2 := by decide
      exact absurd henvelope.1 hshort
    . rfl

/--
Two programs of one user, with the keys that they would generate.
-/
def twoPrograms (first : Bool) : Generated where
  identity := ⟨if first then (1 : UInt8) else (2 : UInt8)⟩
  random _ n := List.Vector.replicate n (if first then 5 else 6)

theorem prefixesFail_twoPrograms : PrefixesFail (some "pass") twoPrograms := by
  have hnone : ∀ first, ∀ n < (((twoPrograms first).identity.exportAtRest (twoPrograms first).random
      (some "pass")).toOption.getD []).length,
      (Identity.loadAtRest ((((twoPrograms first).identity.exportAtRest (twoPrograms first).random
        (some "pass")).toOption.getD []).take n) (some "pass")).isNone = true := by
    decide +kernel
  intro first bytes hexport n hn
  have hnone := hnone first n
  rw [hexport] at hnone
  exact Option.isNone_iff_eq_none.mp (hnone hn)

/--
The first program creates the key file, and the second one finds it.
-/
def oneAfterTheOther : List (Bool × Nat) :=
  [(true, 0), (true, 0), (true, 999), (true, 0), (false, 0), (false, 0), (false, 999), (false, 0)]

theorem openIdentity_oneIdentity_oneAfterTheOther :
    Run.Always (openIdentity (some "pass") twoPrograms) (OneIdentity (some "pass")) begin
      oneAfterTheOther := by
  apply openIdentity_oneIdentity keyFileLaws_tagged prefixesFail_twoPrograms
  decide +kernel

/--
Both look for the key file before one of them has created it.
-/
def bothFirst : List (Bool × Nat) :=
  [(true, 0), (false, 0), (true, 0), (true, 999), (true, 0), (false, 0), (false, 999), (false, 0)]

theorem not_oneIdentity_bothFirst :
    PrefixesFail (some "pass") twoPrograms ∧
      ¬ Run.Always (openIdentity (some "pass") twoPrograms) (OneIdentity (some "pass")) begin
        bothFirst := by
  refine ⟨prefixesFail_twoPrograms, ?_⟩
  intro halways
  have hsame := halways.last.same true false (twoPrograms true).identity
    (twoPrograms false).identity rfl rfl
  have hkeys := congrArg (fun identity => identity.exportBytes) hsame
  contradiction

end Canopee.Openings
