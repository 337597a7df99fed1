import Canopee.Lib.Separated
import Canopee.Lib.Text
import Canopee.Storage.Capability
import Mathlib.Data.List.Infix

/-!
This module contains what a capability's signature fixes: which parts of a grant can be told from the
text that is signed.
-/

namespace Canopee

open Primitives

variable [Primitives]

omit [Primitives] in
theorem IdentityId.toList_inj {a b : IdentityId} : a.text.toList = b.text.toList ↔ a = b := by
  obtain ⟨a⟩ := a
  obtain ⟨b⟩ := b
  simp [String.toList_inj]

namespace Permission

omit [Primitives] in
theorem asStr_inj : Function.Injective asStr := by
  intro p q h
  cases p <;> cases q <;> first | rfl | simp [asStr] at h

omit [Primitives] in
theorem asStr_plain (p : Permission) : ',' ∉ p.asStr.toList ∧ p.asStr.toList ≠ [] := by
  cases p <;> decide

/--
The sorted names of the permissions, joined with commas.
-/
def joined (permissions : List Permission) : List Char :=
  [','].intercalate (((permissions.map asStr).insertionSort (· ≤ ·)).map String.toList)

omit [Primitives] in
theorem joined_plain {permissions : List Permission} :
    ∀ word ∈ ((permissions.map asStr).insertionSort (· ≤ ·)).map String.toList,
      ',' ∉ word ∧ word ≠ [] := by
  intro word hword
  simp only [List.mem_map, List.mem_insertionSort] at hword
  obtain ⟨_, ⟨p, _, rfl⟩, rfl⟩ := hword
  exact p.asStr_plain

omit [Primitives] in
theorem perm_of_joined_eq {permissions others : List Permission}
    (h : joined permissions = joined others) : permissions.Perm others := by
  unfold joined at h
  rw [Separated.intercalate_inj joined_plain joined_plain] at h
  have hsorted := List.map_injective_iff.mpr (fun _ _ => String.toList_inj.mp) h
  rw [← List.map_perm_map_iff asStr_inj]
  calc (permissions.map asStr).Perm ((permissions.map asStr).insertionSort (· ≤ ·)) :=
        (List.perm_insertionSort _ _).symm
    _ = (others.map asStr).insertionSort (· ≤ ·) := hsorted
    List.Perm _ (others.map asStr) := List.perm_insertionSort _ _

omit [Primitives] in
theorem colon_not_mem_joined (permissions : List Permission) : ':' ∉ joined permissions := by
  apply Separated.not_mem_intercalate (by decide)
  intro word hword
  simp only [List.mem_map, List.mem_insertionSort] at hword
  obtain ⟨_, ⟨p, _, rfl⟩, rfl⟩ := hword
  cases p <;> decide

end Permission

namespace Resource

variable {owner : IdentityId} {name : String}

/--
No colon stands in the parts of a shared name.
-/
def plain : Resource → Prop
  | sharedName owner name => ':' ∉ owner.text.toList ∧ ':' ∉ name.toList
  | _ => True

/--
`tail` is a separator with the text of a resource behind it.
-/
def startsIn (tail : List Char) : Bool :=
  ":object:".toList.isPrefixOf tail || ":channel:".toList.isPrefixOf tail ||
    (":shared:".toList.isPrefixOf tail && decide (':' ∈ tail.drop 8))

/--
The subject and the resource as they are signed.
-/
def scope (subject : IdentityId) (resource : Resource) : List Char :=
  subject.text.toList ++ ':' :: resource.canonical.toList

/--
Nothing in the signed text looks like a resource but the resource, and no colon stands in the parts
of a shared name.
-/
def Told (subject : IdentityId) (resource : Resource) : Prop :=
  resource.plain ∧
    ∀ tail ∈ (scope subject resource).tails, startsIn tail = true →
      tail = ':' :: resource.canonical.toList

omit [Primitives] in
theorem toList_sharedName : (sharedName owner name).canonical.toList =
    "shared:".toList ++ (owner.text.toList ++ ':' :: name.toList) := by
  simp [canonical]

omit [Primitives] in
theorem startsIn_iff {tail : List Char} :
    startsIn tail = true ↔ ∃ resource : Resource, tail = ':' :: resource.canonical.toList := by
  constructor
  . intro h
    simp only [startsIn, Bool.or_eq_true, Bool.and_eq_true, List.isPrefixOf_iff_prefix,
      decide_eq_true_eq] at h
    rcases h with (⟨rest, hrest⟩ | ⟨rest, hrest⟩) | ⟨⟨rest, hrest⟩, hcolon⟩
    . exact ⟨object ⟨String.ofList rest⟩, by rw [← hrest]; simp [canonical]⟩
    . exact ⟨channel (String.ofList rest), by rw [← hrest]; simp [canonical]⟩
    . rw [← hrest] at hcolon
      have hcolon : ':' ∈ rest := by simpa using hcolon
      obtain ⟨owner, name, heq⟩ := List.append_of_mem hcolon
      refine ⟨sharedName ⟨String.ofList owner⟩ (String.ofList name), ?_⟩
      rw [← hrest, toList_sharedName, heq]
      simp
  . intro ⟨resource, h⟩
    rw [h]
    cases resource with
    | object id => simp [startsIn, canonical]
    | sharedName owner name => simp [startsIn, toList_sharedName]
    | channel topic => simp [startsIn, canonical]

omit [Primitives] in
theorem eq_of_canonical_eq {resource other : Resource} (hplain : resource.plain)
    (h : other.canonical.toList = resource.canonical.toList) : other = resource := by
  cases resource with
  | object id =>
    cases other with
    | object id' => simpa [canonical, String.toList_inj, ObjectId.text_inj] using h
    | sharedName owner' name' => simp [canonical] at h
    | channel topic' => simp [canonical] at h
  | channel topic =>
    cases other with
    | object id' => simp [canonical] at h
    | sharedName owner' name' => simp [canonical] at h
    | channel topic' => simpa [canonical, String.toList_inj] using h
  | sharedName owner name =>
    cases other with
    | object id' => simp [canonical] at h
    | channel topic' => simp [canonical] at h
    | sharedName owner' name' =>
      rw [toList_sharedName, toList_sharedName, List.append_cancel_left_eq] at h
      -- both texts have one colon, so it is the separator in both
      have hcount := congrArg (List.count ':') h
      simp only [List.count_append, List.count_cons_self, List.count_eq_zero_of_not_mem hplain.1,
        List.count_eq_zero_of_not_mem hplain.2] at hcount
      have hplain' : ':' ∉ owner'.text.toList := by
        rw [← List.count_eq_zero]
        omega
      obtain ⟨howner, hname⟩ := (Separated.append_cons_inj hplain' hplain.1).mp h
      rw [IdentityId.toList_inj.mp howner, String.toList_inj.mp hname]

omit [Primitives] in
theorem plain_of_unique {resource : Resource}
    (h : ∀ other : Resource, other.canonical.toList = resource.canonical.toList → other = resource) :
    resource.plain := by
  cases resource with
  | object id => trivial
  | channel topic => trivial
  | sharedName owner name =>
    constructor
    . intro hcolon
      obtain ⟨a, b, heq⟩ := List.append_of_mem hcolon
      have hother := h (sharedName ⟨String.ofList a⟩ (String.ofList (b ++ ':' :: name.toList)))
        (by simp [toList_sharedName, heq])
      simp only [sharedName.injEq] at hother
      rw [← hother.1] at heq
      simp at heq
    . intro hcolon
      obtain ⟨a, b, heq⟩ := List.append_of_mem hcolon
      have hother := h
        (sharedName ⟨String.ofList (owner.text.toList ++ ':' :: a)⟩ (String.ofList b))
        (by simp [toList_sharedName, heq])
      simp only [sharedName.injEq] at hother
      have hlength := congrArg List.length heq
      rw [← hother.2] at hlength
      simp only [String.toList_ofList, List.length_append, List.length_cons] at hlength
      omega

omit [Primitives] in
/--
The signed text tells the subject and the resource exactly when the resource is plain and the only
one in it.
-/
theorem told_iff {subject : IdentityId} {resource : Resource} :
    (∀ subject' resource', scope subject' resource' = scope subject resource →
      subject' = subject ∧ resource' = resource) ↔ Told subject resource := by
  constructor
  . intro h
    constructor
    . apply plain_of_unique
      intro other hother
      have hscope : scope subject other = scope subject resource := by rw [scope, scope, hother]
      exact (h subject other hscope).2
    . intro tail htail hstarts
      rw [List.mem_tails] at htail
      obtain ⟨before, hbefore⟩ := htail
      obtain ⟨other, hother⟩ := startsIn_iff.mp hstarts
      rw [hother] at hbefore ⊢
      have hscope : scope ⟨String.ofList before⟩ other = scope subject resource := by
        rw [← hbefore]
        simp [scope]
      rw [(h _ _ hscope).2]
  . intro ⟨hplain, honly⟩ subject' resource' hscope
    have htail : ':' :: resource'.canonical.toList ∈ (scope subject resource).tails := by
      rw [List.mem_tails, ← hscope]
      exact List.suffix_append _ _
    have heq := honly _ htail (startsIn_iff.mpr ⟨resource', rfl⟩)
    unfold scope at hscope
    rw [heq, List.append_cancel_right_eq] at hscope
    rw [List.cons.injEq] at heq
    exact ⟨IdentityId.toList_inj.mp hscope, eq_of_canonical_eq hplain heq.2⟩

end Resource

/--
A signature that was made with a key verifies no other message under its public half.
-/
def SignatureBinding : Prop :=
  ∀ pair msg msg', verifySignature (keypairPublic pair) msg' (keypairSign pair msg) = true →
    msg' = msg

namespace Capability

omit [Primitives] in
theorem colon_not_mem_repr (n : Nat) : ':' ∉ n.repr.toList := by
  intro hmem
  exact absurd (Text.isDigit_of_mem_repr hmem) (by decide)

/--
The text of the expiry: nothing, when there is none.
-/
def expiry (expiresAt : Option UInt64) : List Char :=
  ((expiresAt.map fun t => t.toNat.repr).getD "").toList

omit [Primitives] in
theorem expiry_inj {a b : Option UInt64} : expiry a = expiry b ↔ a = b := by
  cases a with
  | none =>
    cases b with
    | none => simp
    | some t => simp [expiry]
  | some s =>
    cases b with
    | none => simp [expiry]
    | some t =>
      simp only [expiry, Option.map_some, Option.getD_some, Text.repr_toList_inj, UInt64.toNat_inj,
        Option.some.injEq]

omit [Primitives] in
theorem colon_not_mem_expiry (expiresAt : Option UInt64) : ':' ∉ expiry expiresAt := by
  cases expiresAt with
  | none => simp [expiry]
  | some t => exact colon_not_mem_repr t.toNat

omit [Primitives] in
theorem toList_signingFields (subject : IdentityId) (resource : Resource)
    (permissions : List Permission) (issuedAt : UInt64) (expiresAt : Option UInt64) :
    (signingFields subject resource permissions issuedAt expiresAt).toList =
      ((Resource.scope subject resource ++ ':' :: Permission.joined permissions) ++
        ':' :: issuedAt.toNat.repr.toList) ++ ':' :: expiry expiresAt := by
  simp [signingFields, Resource.scope, Permission.joined, expiry, String.toList_intercalate]

omit [Primitives] in
/--
From the right the fields can be told: the expiry, the time of issue and the permissions have no
colon.
-/
theorem signingFields_inj {subject subject' : IdentityId} {resource resource' : Resource}
    {permissions permissions' : List Permission} {issuedAt issuedAt' : UInt64}
    {expiresAt expiresAt' : Option UInt64}
    (h : signingFields subject' resource' permissions' issuedAt' expiresAt' =
      signingFields subject resource permissions issuedAt expiresAt) :
    Resource.scope subject' resource' = Resource.scope subject resource ∧
      permissions'.Perm permissions ∧ issuedAt' = issuedAt ∧ expiresAt' = expiresAt := by
  have hlist := congrArg String.toList h
  rw [toList_signingFields, toList_signingFields,
    Separated.append_cons_inj_right (colon_not_mem_expiry _) (colon_not_mem_expiry _),
    Separated.append_cons_inj_right (colon_not_mem_repr _) (colon_not_mem_repr _),
    Separated.append_cons_inj_right (Permission.colon_not_mem_joined _)
      (Permission.colon_not_mem_joined _), Text.repr_toList_inj, UInt64.toNat_inj, expiry_inj] at hlist
  obtain ⟨⟨⟨hscope, hpermissions⟩, hissued⟩, hexpires⟩ := hlist
  exact ⟨hscope, Permission.perm_of_joined_eq hpermissions, hissued, hexpires⟩

theorem colon_not_mem_digestHex (data : Bytes) : ':' ∉ (digestHex data).toList := by
  have hdigit : ∀ n : Fin 16, ':' ≠ Nat.digitChar n := by decide
  unfold digestHex Codec.hex
  rw [String.toList_ofList]
  intro hmem
  obtain ⟨b, _, hb⟩ := List.mem_flatMap.mp hmem
  have hlt := b.toNat_lt
  simp only [List.mem_cons, List.not_mem_nil, or_false] at hb
  cases hb with
  | inl hhigh => exact hdigit ⟨b.toNat / 16, by omega⟩ hhigh
  | inr hlow => exact hdigit ⟨b.toNat % 16, by omega⟩ hlow

theorem signingBytes_inj {data data' : Bytes} {fields fields' : String}
    (h : signingBytes (digestHex data') fields' = signingBytes (digestHex data) fields) :
    fields' = fields := by
  have hlist := congrArg String.toList (Codec.utf8_inj.mp h)
  simp only [String.toList_append, List.append_assoc, List.append_cancel_left_eq] at hlist
  have hsplit := (Separated.append_cons_inj (colon_not_mem_digestHex _)
    (colon_not_mem_digestHex _)).mp hlist
  exact String.toList_inj.mp hsplit.2

/--
The capability with the subject and the resource replaced.
-/
def withScope (capability : Capability) (subject : IdentityId) (resource : Resource) : Capability :=
  { capability with
    subject := subject
    resource := resource }

theorem verify_withScope {capability : Capability} {subject : IdentityId} {resource : Resource}
    (h : Resource.scope subject resource = Resource.scope capability.subject capability.resource) :
    (capability.withScope subject resource).verify = capability.verify := by
  have hfields : (capability.withScope subject resource).fields = capability.fields := by
    unfold fields
    rw [← String.toList_inj, toList_signingFields, toList_signingFields, ← h]
    rfl
  unfold verify
  rw [hfields]
  rfl

/--
Whatever carries the key and the signature of `capability` and verifies is the same grant.
-/
def FixesGrant (capability : Capability) : Prop :=
  ∀ other : Capability, other.publicKey = capability.publicKey →
    other.signature = capability.signature → other.verify = true →
    other.issuer = capability.issuer ∧ other.subject = capability.subject ∧
      other.resource = capability.resource ∧ other.permissions.Perm capability.permissions ∧
      other.issuedAt = capability.issuedAt ∧ other.expiresAt = capability.expiresAt

theorem verify_iff {capability : Capability} :
    capability.verify = true ↔ derives capability.publicKey capability.issuer = true ∧
      capability.id.text = digestHex (Codec.utf8 capability.fields) ∧
      signatureValid capability.publicKey (signingBytes capability.id.text capability.fields)
        capability.signature = true := by
  unfold verify
  cases derives capability.publicKey capability.issuer with
  | false => simp
  | true => simp

theorem verify_issue (laws : SignatureLaws) (issuer : Identity) (now : Int) (subject : IdentityId)
    (resource : Resource) (permissions : List Permission) (expiresAt : Option UInt64) :
    (issue issuer now subject resource permissions expiresAt).verify = true := by
  rw [verify_iff]
  exact ⟨derives_publicKeyBytes laws issuer, rfl, signatureValid_sign laws issuer _⟩

theorem eq_of_derives {publicKey : Bytes} {owner other : IdentityId}
    (h : derives publicKey owner = true) (h' : derives publicKey other = true) :
    owner = other := by
  unfold derives at h h'
  cases hkey : decodePublicKey publicKey with
  | none => simp [hkey] at h
  | some key =>
    simp only [hkey, beq_iff_eq] at h h'
    rw [← h, ← h']

/--
The signature of a capability fixes the grant exactly when the signed text tells the subject and the
resource.
-/
theorem fixesGrant_iff (laws : SignatureLaws) (binding : SignatureBinding) (issuer : Identity)
    (now : Int) (subject : IdentityId) (resource : Resource) (permissions : List Permission)
    (expiresAt : Option UInt64) :
    FixesGrant (issue issuer now subject resource permissions expiresAt) ↔
      Resource.Told subject resource := by
  have hissue := verify_issue laws issuer now subject resource permissions expiresAt
  rw [← Resource.told_iff]
  constructor
  . intro h subject' resource' hscope
    have hverify := hissue
    rw [← verify_withScope hscope] at hverify
    have hsame := h (Capability.withScope _ subject' resource') rfl rfl hverify
    exact ⟨hsame.2.1, hsame.2.2.1⟩
  . intro h other hkey hsignature hverify
    rw [verify_iff] at hissue hverify
    obtain ⟨hderives, hid, hvalid⟩ := hverify
    rw [hkey] at hderives hvalid
    rw [hsignature] at hvalid
    have hmessage : signingBytes other.id.text other.fields =
        signingBytes (idOf subject resource permissions (nowTs now) expiresAt).text
          (signingFields subject resource permissions (nowTs now) expiresAt) := by
      apply binding issuer.signingKey
      unfold signatureValid issue Identity.publicKeyBytes at hvalid
      rw [laws.decode_encode] at hvalid
      exact hvalid
    rw [hid] at hmessage
    obtain ⟨hscope, hpermissions, hissued, hexpires⟩ :=
      signingFields_inj (signingBytes_inj hmessage)
    obtain ⟨hsubject, hresource⟩ := h _ _ hscope
    exact ⟨eq_of_derives hderives hissue.1, hsubject, hresource, hpermissions, hissued, hexpires⟩

end Capability

end Canopee

namespace Canopee.Capability

section Witness

open Canopee.Transparent

theorem signatureBinding : SignatureBinding := by
  intro pair msg msg' h
  exact (List.cons.inj (eq_of_beq h)).2.symm

theorem told_object : Resource.Told bob.id (.object ⟨"ab"⟩) :=
  ⟨trivial, by decide +kernel⟩

theorem fixesGrant_object : FixesGrant (issue alice 3 bob.id (.object ⟨"ab"⟩) [.read] none) :=
  (fixesGrant_iff signatureLaws signatureBinding alice 3 bob.id (.object ⟨"ab"⟩) [.read] none).mpr
    told_object

end Witness

section Counterexample

open Canopee.Compact

/--
Bob may read the entry `notes` of Alice's home index.
-/
def notesGrant : Capability :=
  issue alice 3 bob.id (.sharedName alice.id "notes") [.read] none

/--
The colon of an identity's scheme taken for the one behind the owner.
-/
def notesOfScheme : Resource :=
  .sharedName ⟨"canopee"⟩ "//identity/01:notes"

/--
The signature of the grant is one of a grant on another entry of another owner.
-/
theorem notesGrant_not_fixed :
    (notesGrant.withScope bob.id notesOfScheme).verify = true ∧
      notesOfScheme ≠ notesGrant.resource ∧ ¬ FixesGrant notesGrant := by
  have hverify : (notesGrant.withScope bob.id notesOfScheme).verify = true := by
    have hscope : Resource.scope bob.id notesOfScheme =
        Resource.scope notesGrant.subject notesGrant.resource := by decide +kernel
    rw [verify_withScope hscope]
    exact verify_issue signatureLaws _ _ _ _ _ _
  have hne : notesOfScheme ≠ notesGrant.resource := by decide
  refine ⟨hverify, hne, ?_⟩
  intro h
  exact hne (h (notesGrant.withScope bob.id notesOfScheme) rfl rfl hverify).2.2.1

end Counterexample

end Canopee.Capability
