import Canopee.Results.Revocation
import Mathlib.Data.String.Basic

/-!
This module contains what decides that a grant is effective, which changes of an index its decisions
do not depend on, and which resource is denoted by the text that is shown for it.
-/

namespace Canopee

open Primitives

namespace Permission

theorem sorted_perm {permissions others : List Permission} (h : permissions.Perm others) :
    (permissions.map asStr).insertionSort (· ≤ ·) = (others.map asStr).insertionSort (· ≤ ·) := by
  apply List.Perm.eq_of_pairwise' (List.pairwise_insertionSort _ _) (List.pairwise_insertionSort _ _)
  calc ((permissions.map asStr).insertionSort (· ≤ ·)).Perm (permissions.map asStr) :=
        List.perm_insertionSort _ _
    List.Perm _ (others.map asStr) := h.map asStr
    List.Perm _ ((others.map asStr).insertionSort (· ≤ ·)) := (List.perm_insertionSort _ _).symm

end Permission

variable [Primitives]

namespace CapabilityIndex

/--
The entry lets `subject` through at `now`.
-/
def Admits (entry : CapabilityEntry) (subject : IdentityId) (resource : Resource)
    (permission : Permission) (now : UInt64) : Prop :=
  entry.revoked = false ∧ entry.capability.verify = true ∧ entry.capability.subject = subject ∧
    entry.capability.resource = resource ∧ permission ∈ entry.capability.permissions ∧
    entry.capability.issuedAt ≤ now ∧ ∀ t, entry.capability.expiresAt = some t → now ≤ t

/--
The same entry, with the permissions of its capability in another order.
-/
def Reordered (entry other : CapabilityEntry) : Prop :=
  ∃ permissions, entry.capability.permissions.Perm permissions ∧
    other = { entry with capability := { entry.capability with permissions := permissions } }

variable {index : CapabilityIndex} {subject : IdentityId} {resource : Resource}
  {permission : Permission} {now : UInt64}

omit [Primitives] in
theorem isActiveAt_iff {capability : Capability} : capability.isActiveAt now = true ↔
    capability.issuedAt ≤ now ∧ ∀ t, capability.expiresAt = some t → now ≤ t := by
  unfold Capability.isActiveAt
  cases capability.expiresAt with
  | none => simp
  | some t => simp

theorem permits_iff {entry : CapabilityEntry} :
    (!entry.revoked && entry.capability.permits subject permission resource now) = true ↔
      Admits entry subject resource permission now := by
  unfold Capability.permits Admits
  simp only [Bool.and_eq_true, Bool.not_eq_true', isActiveAt_iff, beq_iff_eq, List.contains_iff_mem,
    eq_comm (a := subject)]
  tauto

theorem grants_iff_exists : index.grants subject resource permission now = true ↔
    ∃ entry ∈ index.entries, Admits entry subject resource permission now := by
  unfold grants findActive
  rw [List.findSome?_isSome_iff]
  simp only [Option.isSome_ite, permits_iff]

theorem verify_reordered (capability : Capability) {permissions : List Permission}
    (h : capability.permissions.Perm permissions) :
    Capability.verify { capability with permissions := permissions } = capability.verify := by
  have hfields : Capability.fields { capability with permissions := permissions } =
      capability.fields := by
    unfold Capability.fields Capability.signingFields
    rw [Permission.sorted_perm h]
  unfold Capability.verify
  rw [hfields]

theorem Reordered.admits_iff {entry other : CapabilityEntry} (h : Reordered entry other) :
    Admits other subject resource permission now ↔
      Admits entry subject resource permission now := by
  obtain ⟨permissions, hperm, rfl⟩ := h
  unfold Admits
  rw [verify_reordered entry.capability hperm]
  simp only [hperm.mem_iff]

theorem grants_of_grants {other : CapabilityIndex}
    (hlike : ∀ entry ∈ index.entries, Admits entry subject resource permission now →
      ∃ e ∈ other.entries, Admits e subject resource permission now)
    (h : index.grants subject resource permission now = true) :
    other.grants subject resource permission now = true := by
  rw [grants_iff_exists] at h ⊢
  obtain ⟨entry, hentry, hadmits⟩ := h
  exact hlike entry hentry hadmits

theorem exists_admits_reordered {entries others : List CapabilityEntry}
    (h : List.Forall₂ Reordered entries others) :
    (∃ entry ∈ others, Admits entry subject resource permission now) ↔
      ∃ entry ∈ entries, Admits entry subject resource permission now := by
  induction h with
  | nil => rfl
  | cons hsame _ ih => simp only [List.exists_mem_cons_iff, hsame.admits_iff, ih]

theorem grants_reordered {other : CapabilityIndex} {middle : List CapabilityEntry}
    (hperm : index.entries.Perm middle) (h : List.Forall₂ Reordered middle other.entries) :
    other.grants subject resource permission now = index.grants subject resource permission now := by
  rw [Bool.eq_iff_iff, grants_iff_exists, grants_iff_exists, exists_admits_reordered h]
  simp only [hperm.mem_iff]

/--
The decision for an index, in whatever order it lists its grants and these their permissions; a
further entry takes nothing away, and revoking an entry gives nothing.
-/
theorem grants_follows (index : CapabilityIndex) (subject : IdentityId) (resource : Resource)
    (permission : Permission) (now : UInt64) :
    (index.grants subject resource permission now = true ↔
      ∃ entry ∈ index.entries, Admits entry subject resource permission now) ∧
    (∀ (middle : List CapabilityEntry) (other : CapabilityIndex), index.entries.Perm middle →
      List.Forall₂ Reordered middle other.entries →
        other.grants subject resource permission now =
          index.grants subject resource permission now) ∧
    (∀ (entry : CapabilityEntry) (version : UInt64),
      index.grants subject resource permission now = true →
        grants ⟨index.entries ++ [entry], version⟩ subject resource permission now = true) ∧
    (∀ (before : List CapabilityEntry) (entry : CapabilityEntry) (after : List CapabilityEntry)
      (version : UInt64), index.entries = before ++ entry :: after →
        grants ⟨before ++ { entry with revoked := true } :: after, version⟩ subject resource
          permission now = true →
        index.grants subject resource permission now = true) ∧
    ∀ (id : CapabilityId) (entries : List CapabilityEntry) (version : UInt64),
      revokeFirst id index.entries = some entries →
        grants ⟨entries, version⟩ subject resource permission now = true →
        index.grants subject resource permission now = true := by
  refine ⟨grants_iff_exists, fun _ _ => grants_reordered, ?_, ?_, ?_⟩
  . intro entry version
    apply grants_of_grants
    intro e he hadmits
    exact ⟨e, List.mem_append_left _ he, hadmits⟩
  . intro before entry after version hentries
    apply grants_of_grants
    intro e he hadmits
    rw [hentries]
    simp only [List.mem_append, List.mem_cons] at he ⊢
    rcases he with hbefore | rfl | hafter
    . exact ⟨e, .inl hbefore, hadmits⟩
    . cases hadmits.1
    . exact ⟨e, .inr (.inr hafter), hadmits⟩
  . intro id entries version hrevoked
    apply grants_of_grants
    intro e he hadmits
    cases (mem_revokeFirst hrevoked).2.2 e he with
    | inl hmem => exact ⟨e, hmem, hadmits⟩
    | inr hid =>
      rw [hadmits.1] at hid
      cases hid.2

end CapabilityIndex

namespace Resource

omit [Primitives] in
theorem parse_sharedName (owner : IdentityId) (name : String) :
    parse (sharedName owner name).canonical =
      match Text.splitOnce ':' (owner.text.toList ++ ':' :: name.toList) with
      | none => .error "shared resource must be shared:<owner>:<name>"
      | some (owner, name) => .ok (sharedName ⟨String.ofList owner⟩ (String.ofList name)) := by
  have htext : (sharedName owner name).canonical.toList =
      "shared".toList ++ ':' :: (owner.text.toList ++ ':' :: name.toList) := by
    simp [canonical]
  unfold parse
  rw [htext, Text.splitOnce_append _ (by decide)]
  rfl

omit [Primitives] in
/--
The text that is shown for an object or a channel is read as it; the text for an entry only where no
colon stands in the owner.
-/
theorem parse_canonical_iff_colonless (r : Resource) : parse r.canonical = .ok r ↔
    ∀ owner name, r = sharedName owner name → ':' ∉ owner.text.toList := by
  cases r with
  | object id =>
    have htext : (object id).canonical.toList = "object".toList ++ ':' :: id.text.toList := by
      simp [canonical]
    unfold parse
    rw [htext, Text.splitOnce_append _ (by decide)]
    simp
  | channel topic =>
    have htext : (channel topic).canonical.toList = "channel".toList ++ ':' :: topic.toList := by
      simp [canonical]
    unfold parse
    rw [htext, Text.splitOnce_append _ (by decide)]
    simp
  | sharedName owner name =>
    rw [parse_sharedName]
    constructor
    . intro h other otherName heq
      cases heq
      intro hcolon
      -- the owner is read up to its first colon
      obtain ⟨x, y, howner, hnot⟩ := List.eq_append_cons_of_mem hcolon
      rw [howner, List.append_assoc, List.cons_append, Text.splitOnce_append _ hnot] at h
      have hread : (⟨String.ofList x⟩ : IdentityId) = owner := by
        simp at h
        exact h.1
      have hlength := congrArg (fun owner : IdentityId => owner.text.toList.length) hread
      simp [howner] at hlength
    . intro h
      rw [Text.splitOnce_append _ (h owner name rfl)]
      simp

omit [Primitives] in
theorem canonical_of_parse {s : String} {r : Resource} (h : parse s = .ok r) : r.canonical = s := by
  unfold parse at h
  cases hkind : Text.splitOnce ':' s.toList with
  | none => simp [hkind] at h
  | some pieces =>
    obtain ⟨kind, rest⟩ := pieces
    obtain ⟨hs, hcolon⟩ := Text.splitOnce_eq_some hkind
    rw [← String.toList_inj, hs]
    simp only [hkind] at h
    split at h
    . next hobject =>
      cases h
      simp [canonical, hobject]
    . split at h
      . next hchannel =>
        cases h
        simp [canonical, hchannel]
      . split at h
        . next hshared =>
          cases howner : Text.splitOnce ':' rest with
          | none => simp [howner] at h
          | some pieces =>
            obtain ⟨owner, name⟩ := pieces
            obtain ⟨rfl, _⟩ := Text.splitOnce_eq_some howner
            simp only [howner] at h
            cases h
            simp [canonical, hshared]
        . cases h

omit [Primitives] in
/--
The text that is shown for an object or a channel is read as it, and the text for an entry only where
no colon stands in the owner; whatever a text is read as is shown as that text.
-/
theorem parse_canonical_iff (r : Resource) :
    (parse r.canonical = .ok r ↔
      ∀ owner name, r = sharedName owner name → ':' ∉ owner.text.toList) ∧
    ∀ s : String, parse s = .ok r → r.canonical = s :=
  ⟨parse_canonical_iff_colonless r, fun _ h => canonical_of_parse h⟩

end Resource

end Canopee

namespace Canopee.Resource

section Counterexample

/--
The entry `notes` of an owner's home index is shown as a text that is read as another entry of
another owner.
-/
theorem parse_canonical_notes :
    parse (sharedName ⟨"canopee://identity/12D3KooW"⟩ "notes").canonical =
      .ok (sharedName ⟨"canopee"⟩ "//identity/12D3KooW:notes") ∧
    parse (sharedName ⟨"canopee://identity/12D3KooW"⟩ "notes").canonical ≠
      .ok (sharedName ⟨"canopee://identity/12D3KooW"⟩ "notes") := by
  constructor
  . decide +kernel
  . decide +kernel

end Counterexample

end Canopee.Resource
