import Canopee.Results.Advance
import Canopee.Results.Grant

/-!
This module contains what a pointer record's signature fixes, and which records share a key.
-/

namespace Canopee

open Primitives

variable [Primitives]

namespace AppPointerRecord

/--
The owner between two colons stands in the signed text where it belongs and nowhere else.
-/
def Told (name : String) (owner : IdentityId) (manifest : ObjectId) : Prop :=
  ¬ ':' :: (owner.text.toList ++ [':']) <:+: name.toList ++ [':'] ∧
    ¬ ':' :: (owner.text.toList ++ [':']) <:+: ':' :: manifest.text.toList

theorem identityIdOf_toList (key : PublicKey) : (identityIdOf key).text.toList =
    "canopee".toList ++ ':' :: ("//identity/".toList ++ (peerIdOf key).base58.toList) := by
  simp [identityIdOf, identityPrefix]

theorem unbordered_identityIdOf (colonless : Colonless) (key : PublicKey) :
    Separated.Unbordered ':' (identityIdOf key).text.toList := by
  intro before after heq x y h
  have hscheme : ':' ∉ "canopee".toList := by decide
  have hpath : ':' ∉ "//identity/".toList ++ (peerIdOf key).base58.toList := by
    rw [List.mem_append, not_or]
    exact ⟨by decide, colonless key⟩
  rw [identityIdOf_toList] at heq h
  -- the identity has one colon
  have hcount := congrArg (List.count ':') heq
  simp only [List.count_append, List.count_cons_self, List.count_eq_zero_of_not_mem hscheme,
    List.count_eq_zero_of_not_mem hpath] at hcount
  have hbefore : ':' ∉ before := by
    rw [← List.count_eq_zero]
    omega
  obtain ⟨_, rfl⟩ := (Separated.append_cons_inj hscheme hbefore).mp heq
  simp at h

omit [Primitives] in
theorem signingBytes_eq_iff {name name' : String} {owner : IdentityId} {manifest manifest' : ObjectId}
    {publishedAt publishedAt' : UInt64} :
    signingBytes name' owner manifest' publishedAt' = signingBytes name owner manifest publishedAt ↔
      name'.toList ++ ':' :: (owner.text.toList ++ ':' :: manifest'.text.toList) =
        name.toList ++ ':' :: (owner.text.toList ++ ':' :: manifest.text.toList) ∧
      publishedAt' = publishedAt := by
  have htext (name : String) (manifest : ObjectId) (publishedAt : UInt64) :
      (name ++ ":" ++ owner.text ++ ":" ++ manifest.text ++ ":" ++ publishedAt.toNat.repr).toList =
        (name.toList ++ ':' :: (owner.text.toList ++ ':' :: manifest.text.toList)) ++
          ':' :: publishedAt.toNat.repr.toList := by
    simp
  unfold signingBytes
  rw [Codec.utf8_inj, ← String.toList_inj, htext, htext,
    Separated.append_cons_inj_right (Capability.colon_not_mem_repr _)
      (Capability.colon_not_mem_repr _), Text.repr_toList_inj, UInt64.toNat_inj]

/--
No other name, manifest and time are signed as the same bytes.
-/
def FixesBytes (name : String) (owner : IdentityId) (manifest : ObjectId) (publishedAt : UInt64) :
    Prop :=
  ∀ name' manifest' publishedAt',
    signingBytes name' owner manifest' publishedAt' = signingBytes name owner manifest publishedAt →
      name' = name ∧ manifest' = manifest ∧ publishedAt' = publishedAt

theorem fixesBytes_iff (colonless : Colonless) (key : PublicKey) (name : String)
    (manifest : ObjectId) (publishedAt : UInt64) :
    FixesBytes name (identityIdOf key) manifest publishedAt ↔
      Told name (identityIdOf key) manifest := by
  unfold FixesBytes Told
  rw [← Separated.framed_inj_iff (unbordered_identityIdOf colonless key)]
  simp only [signingBytes_eq_iff]
  constructor
  . intro h before after heq
    obtain ⟨hname, hmanifest, _⟩ := h (String.ofList before) ⟨String.ofList after⟩ publishedAt
      ⟨by simpa using heq, rfl⟩
    rw [← hname, ← hmanifest]
    simp
  . intro h name' manifest' publishedAt' ⟨heq, htime⟩
    obtain ⟨hname, hmanifest⟩ := h _ _ heq
    refine ⟨String.toList_inj.mp hname, ?_, htime⟩
    rw [← ObjectId.text_inj, ← String.toList_inj]
    exact hmanifest

/--
Whatever carries the owner, the key and the signature of `record` and verifies is the same record.
-/
def FixesRecord (record : AppPointerRecord) : Prop :=
  ∀ other : AppPointerRecord, other.owner = record.owner → other.publicKey = record.publicKey →
    other.signature = record.signature → other.verify = true →
      other.name = record.name ∧ other.manifest = record.manifest ∧
        other.publishedAt = record.publishedAt

theorem fixesRecord_iff_fixesBytes (laws : SignatureLaws) (binding : SignatureBinding)
    (identity : Identity) (now : Int) (name : String) (manifest : ObjectId) :
    FixesRecord (sign identity now name manifest) ↔
      FixesBytes name identity.id manifest (asU64 now) := by
  have hsign := verify_sign laws identity now name manifest
  rw [verify_iff] at hsign
  constructor
  . intro h name' manifest' publishedAt' hbytes
    apply h { sign identity now name manifest with
      name := name'
      manifest := manifest'
      publishedAt := publishedAt' } rfl rfl rfl
    rw [verify_iff]
    refine ⟨hsign.1, ?_⟩
    change signatureValid _ (signingBytes name' identity.id manifest' publishedAt') _ = true
    rw [hbytes]
    exact hsign.2
  . intro h other howner hkey hsignature hverify
    rw [verify_iff, howner, hkey, hsignature] at hverify
    apply h
    apply binding identity.signingKey
    have hvalid := hverify.2
    unfold signatureValid sign Identity.publicKeyBytes at hvalid
    rw [laws.decode_encode] at hvalid
    exact hvalid

/--
The signature of a record fixes it, and the signed bytes tell its fields, just when the owner stands
in the signed text in one place; the keys of two names or two owners always differ.
-/
theorem fixesRecord_iff (laws : SignatureLaws) (binding : SignatureBinding) (hash : CollisionFree)
    (colonless : Colonless) (identity : Identity) (now : Int) (name : String)
    (manifest : ObjectId) :
    (FixesRecord (sign identity now name manifest) ↔ Told name identity.id manifest) ∧
    (∀ publishedAt, FixesBytes name identity.id manifest publishedAt ↔
      Told name identity.id manifest) ∧
    ∀ k l n m, key (identityIdOf k) n = key (identityIdOf l) m →
      identityIdOf k = identityIdOf l ∧ n = m := by
  refine ⟨?_, fixesBytes_iff colonless _ name manifest, ?_⟩
  . rw [fixesRecord_iff_fixesBytes laws binding]
    exact fixesBytes_iff colonless _ name manifest _
  . intro k l n m h
    exact key_inj_of_colonless hash colonless h

end AppPointerRecord

end Canopee

namespace Canopee.AppPointerRecord

section Witness

open Canopee.Transparent

theorem fixesRecord_iff_notes :
    (FixesRecord (sign alice 3 "entry:notes" ⟨"ab"⟩) ↔ Told "entry:notes" alice.id ⟨"ab"⟩) ∧
    (∀ publishedAt, FixesBytes "entry:notes" alice.id ⟨"ab"⟩ publishedAt ↔
      Told "entry:notes" alice.id ⟨"ab"⟩) ∧
    ∀ k l n m, key (identityIdOf k) n = key (identityIdOf l) m →
      identityIdOf k = identityIdOf l ∧ n = m :=
  fixesRecord_iff signatureLaws Capability.signatureBinding collisionFree PointerOp.colonless alice 3
    "entry:notes" ⟨"ab"⟩

end Witness

section Counterexample

open Canopee.Compact

/--
A pointer to an entry of which the name has Alice's own identity in it.
-/
def notesPointer : AppPointerRecord :=
  sign alice 3 "entry:notes:canopee://identity/01:draft" ⟨"ab"⟩

/--
The same signature, on a pointer to the entry `notes`.
-/
def draftPointer : AppPointerRecord :=
  { notesPointer with
    name := "entry:notes"
    manifest := ⟨"draft:canopee://identity/01:ab"⟩ }

theorem notesPointer_not_fixed :
    notesPointer.verify = true ∧ draftPointer.verify = true ∧
      draftPointer.name ≠ notesPointer.name ∧ ¬ FixesRecord notesPointer := by
  have hverify : notesPointer.verify = true := verify_sign signatureLaws _ _ _ _
  have hother : draftPointer.verify = true := by decide +kernel
  have hname : draftPointer.name ≠ notesPointer.name := by decide +kernel
  refine ⟨hverify, hother, hname, ?_⟩
  intro h
  exact hname (h draftPointer rfl rfl rfl hother).1

end Counterexample

end Canopee.AppPointerRecord
