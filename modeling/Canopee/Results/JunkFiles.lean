import Canopee.Results.Convergence
import Canopee.Results.OwnerRecords

/-!
This module contains what the scans of the store find while there are files in it that do not verify
or do not decode.
-/

namespace Canopee

open Primitives
open Canopee.Runtime
open Prog (exec exec_bind_ok)

variable [Primitives]

namespace Runtime

section Newest

variable {env : Env} {w : Runtime} {owner : IdentityId} {name : String}

/--
A verified pointer object of the store has the record that `owner` signed for `name`, whatever the
object is labelled with.
-/
def HeldPointer (w : Runtime) (owner : IdentityId) (name : String) (record : AppPointerRecord) :
    Prop :=
  ∃ text ∈ w.storage.files.keys, isHidden text = false ∧ ∃ object,
    w.storage.getVerified ⟨text⟩ = .ok object ∧ object.objectType = .appPointer ∧
      object.decode AppPointerRecord.codec = some record ∧ record.Authentic owner name

theorem StoredPointer.held {record : AppPointerRecord} (h : StoredPointer w owner name record)
    (howner : record.owner = owner) : HeldPointer w owner name record := by
  obtain ⟨text, hmem, hhidden, hvalue⟩ := h
  unfold Storage.pointerFor at hvalue
  rw [Option.filter_eq_some_iff] at hvalue
  obtain ⟨hlabelled, hsigned⟩ := hvalue
  simp only [decide_eq_true_eq] at hsigned
  unfold Storage.labelledPointer at hlabelled
  split at hlabelled
  . contradiction
  . next object hobject =>
    split at hlabelled
    . contradiction
    . next hlabel =>
      rw [not_or, not_not, not_not] at hlabel
      exact ⟨text, hmem, hhidden, object, hobject, hlabel.2, hlabelled,
        ⟨howner, hsigned.1, hsigned.2⟩⟩

/--
`latest_pointer_record` returns a newest record among the valid ones in the store, and none only if
there is none.
-/
def FindsNewest (env : Env) (w : Runtime) (owner : IdentityId) (name : String) : Prop :=
  ∃ found, (exec (latestPointerRecord owner name) env w).1 = .ok found ∧
    match found with
    | some record => HeldPointer w owner name record ∧
        ∀ other, HeldPointer w owner name other → other.publishedAt ≤ record.publishedAt
    | none => ∀ other, ¬ HeldPointer w owner name other

/--
The newest pointer labelled with `owner` is not somebody else's; and when the store has a valid record
at all, the store can be listed, nothing stops the scan, and a pointer labelled with `owner` is as new
as any valid record.
-/
structure Unobscured (env : Env) (w : Runtime) (owner : IdentityId) (name : String) : Prop where
  unshadowed : ¬ Shadowed env w owner name
  clear : ∀ record, HeldPointer w owner name record → Lists env w ∧ Clear w owner ∧
    ∃ labelled, StoredPointer w owner name labelled ∧ record.publishedAt ≤ labelled.publishedAt

theorem findsNewest_iff : FindsNewest env w owner name ↔ Unobscured env w owner name := by
  unfold FindsNewest
  rw [latestPointerRecord_fst]
  simp only [Except.ok.injEq, exists_eq_left']
  cases hscan : scannedPointer env w owner name with
  | none =>
    constructor
    . intro hnone
      constructor
      . rw [shadowed_iff]
        rintro ⟨record, hrecord, _⟩
        rw [hscan] at hrecord
        cases hrecord
      . intro record hrecord
        exact absurd hrecord (hnone record)
    . intro h other hother
      obtain ⟨hlists, hclear, labelled, hlabelled, _⟩ := h.clear other hother
      exact scannedPointer_ne_none hlists hclear hlabelled hscan
  | some record =>
    obtain ⟨hstored, hclear, hmax⟩ := stored_of_scannedPointer hscan
    constructor
    . intro ⟨hheld, hnewest⟩
      constructor
      . rw [shadowed_iff]
        rintro ⟨found, hfound, hforeign⟩
        rw [hscan, Option.some.injEq] at hfound
        obtain ⟨_, _, _, _, _, _, _, hauthentic⟩ := hheld
        exact hforeign (hfound ▸ hauthentic.owner)
      . intro other hother
        refine ⟨?_, hclear, record, hstored, hnewest other hother⟩
        obtain ⟨ids, hids, _⟩ := Option.bind_eq_some_iff.mp hscan
        exact Option.isSome_iff_exists.mpr ⟨ids, hids⟩
    . intro h
      -- a foreign record on top is what `Shadowed` says
      have howner : record.owner = owner := by
        by_contra hforeign
        exact h.unshadowed (shadowed_iff.mpr ⟨record, hscan, hforeign⟩)
      refine ⟨hstored.held howner, ?_⟩
      intro other hother
      obtain ⟨_, _, labelled, hlabelled, hle⟩ := h.clear other hother
      exact UInt64.le_trans hle (hmax labelled hlabelled)

end Newest

section Claims

variable {env : Env} {w : Runtime}

/--
The scan for usernames gets past the file: it reads, and decodes if it is a pointer object.
-/
def Plain (storage : Storage) (id : ObjectId) : Prop :=
  ∃ object, storage.getVerified id = .ok object ∧
    (object.objectType = .appPointer → (object.decode AppPointerRecord.codec).isSome)

/--
The file is a pointer object with a signed username pointer of `owner`.
-/
def Claim (storage : Storage) (id : ObjectId) (owner : IdentityId) : Prop :=
  ∃ object record, storage.getVerified id = .ok object ∧ object.objectType = .appPointer ∧
    object.decode AppPointerRecord.codec = some record ∧ record.Authentic owner RECORD_USERNAME

theorem scanUsernameOwners_of_not_plain {storage : Storage} {ids : List ObjectId}
    (owners : List IdentityId) (h : ¬ ∀ id ∈ ids, Plain storage id) :
    scanUsernameOwners storage ids owners = none := by
  induction ids generalizing owners with
  | nil => simp at h
  | cons id ids ih =>
    rw [List.forall_mem_cons, not_and_or] at h
    unfold scanUsernameOwners
    split
    . rfl
    . next object hobject =>
      by_cases hids : ∀ id ∈ ids, Plain storage id
      . have hid : object.objectType = .appPointer ∧
            object.decode AppPointerRecord.codec = none := by
          by_contra hno
          apply h.resolve_right (not_not_intro hids)
          refine ⟨object, hobject, ?_⟩
          intro htype
          rw [and_iff_right htype] at hno
          exact Option.isSome_iff_ne_none.mpr hno
        simp [hid]
      -- the file stops the scan later in the list, whichever branch this one takes
      . simp only [ih _ hids]
        repeat' split
        all_goals rfl

theorem scanUsernameOwners_of_plain {storage : Storage} {ids : List ObjectId}
    (owners : List IdentityId) (h : ∀ id ∈ ids, Plain storage id) :
    ∃ found, scanUsernameOwners storage ids owners = some found ∧
      ∀ owner, owner ∈ found ↔ owner ∈ owners ∨ ∃ id ∈ ids, Claim storage id owner := by
  induction ids generalizing owners with
  | nil => exact ⟨owners, rfl, by simp⟩
  | cons id ids ih =>
    rw [List.forall_mem_cons] at h
    obtain ⟨⟨object, hobject, hdecodes⟩, hids⟩ := h
    simp only [List.exists_mem_cons_iff]
    unfold scanUsernameOwners
    simp only [hobject]
    by_cases htype : object.objectType = .appPointer
    . obtain ⟨record, hrecord⟩ := Option.isSome_iff_exists.mp (hdecodes htype)
      have hclaim (owner : IdentityId) :
          Claim storage id owner ↔ record.Authentic owner RECORD_USERNAME := by
        constructor
        . rintro ⟨object', record', hobject', _, hrecord', hauthentic⟩
          rw [hobject, Except.ok.injEq] at hobject'
          rw [← hobject', hrecord, Option.some.injEq] at hrecord'
          rw [hrecord']
          exact hauthentic
        . intro hauthentic
          exact ⟨object, record, hobject, htype, hrecord, hauthentic⟩
      simp only [htype, hrecord, ne_eq, not_true_eq_false, if_false, hclaim]
      by_cases hsigned : record.name ≠ RECORD_USERNAME ∨ record.verify = false
      . obtain ⟨found, hfound, hmem⟩ := ih owners hids
        have hnone (owner : IdentityId) : ¬ record.Authentic owner RECORD_USERNAME := by
          intro hauthentic
          rcases hsigned with hname | hverify
          . exact hname hauthentic.name
          . rw [hauthentic.verify] at hverify
            cases hverify
        refine ⟨found, by rw [if_pos hsigned, hfound], ?_⟩
        simpa only [hnone, false_or] using hmem
      . rw [if_neg hsigned]
        rw [not_or, not_not, Bool.not_eq_false] at hsigned
        have hown (owner : IdentityId) :
            record.Authentic owner RECORD_USERNAME ↔ owner = record.owner :=
          ⟨fun hauthentic => hauthentic.owner.symm, fun heq => ⟨heq.symm, hsigned.1, hsigned.2⟩⟩
        simp only [hown]
        by_cases hknown : record.owner ∈ owners
        . obtain ⟨found, hfound, hmem⟩ := ih owners hids
          refine ⟨found, by rw [if_pos hknown, hfound], ?_⟩
          intro owner
          rw [hmem]
          constructor
          . rintro (hin | hin)
            . exact .inl hin
            . exact .inr (.inr hin)
          . rintro (hin | rfl | hin)
            . exact .inl hin
            . exact .inl hknown
            . exact .inr hin
        . obtain ⟨found, hfound, hmem⟩ := ih (owners ++ [record.owner]) hids
          refine ⟨found, by rw [if_neg hknown, hfound], ?_⟩
          intro owner
          rw [hmem, List.mem_append, List.mem_singleton, or_assoc]
    . have hnone (owner : IdentityId) : ¬ Claim storage id owner := by
        rintro ⟨object', _, hobject', htype', _⟩
        rw [hobject, Except.ok.injEq] at hobject'
        exact htype (hobject' ▸ htype')
      obtain ⟨found, hfound, hmem⟩ := ih owners hids
      refine ⟨found, by rw [if_pos htype, hfound], ?_⟩
      simpa only [hnone, false_or] using hmem

/--
The owners whose username `owner_claiming_username` looks up now.
-/
def claimants (env : Env) (w : Runtime) : List IdentityId :=
  ((listed env w).bind fun ids => scanUsernameOwners w.storage ids []).getD []

theorem exec_ownerClaimingUsername (username : String) :
    exec (ownerClaimingUsername username) env w =
      exec (firstClaiming username (claimants env w)) env { w with tick := w.tick + 1 } := by
  unfold ownerClaimingUsername claimants
  rw [exec_bind_ok (Prog.exec_attempt list env w), exec_list]
  cases listed env w with
  | none => rfl
  | some ids =>
    dsimp only
    rw [exec_bind_ok (Prog.exec_get env _), Option.bind_some]
    cases scanUsernameOwners w.storage ids [] with
    | none => rfl
    | some owners => rfl

/--
The store has a username claim that `owner` signed.
-/
def UsernameClaim (w : Runtime) (owner : IdentityId) : Prop :=
  ∃ record, HeldPointer w owner RECORD_USERNAME record

theorem usernameClaim_iff {ids : List ObjectId} (h : listed env w = some ids) (owner : IdentityId) :
    UsernameClaim w owner ↔ ∃ id ∈ ids, Claim w.storage id owner := by
  unfold UsernameClaim HeldPointer
  simp only [mem_listed h]
  constructor
  . rintro ⟨record, text, hmem, hhidden, object, hclaim⟩
    exact ⟨⟨text⟩, ⟨hmem, hhidden⟩, object, record, hclaim⟩
  . rintro ⟨id, ⟨hmem, hhidden⟩, object, record, hclaim⟩
    exact ⟨record, id.text, hmem, hhidden, object, hclaim⟩

/--
`owner_claiming_username` looks up the username of every owner with a username claim in the store.
-/
structure ConsidersClaims (env : Env) (w : Runtime) : Prop where
  looksUp : ∀ username, exec (ownerClaimingUsername username) env w =
    exec (firstClaiming username (claimants env w)) env { w with tick := w.tick + 1 }
  considered : ∀ owner, UsernameClaim w owner → owner ∈ claimants env w

/--
Nothing stops the scan for usernames.
-/
def Tidy (env : Env) (w : Runtime) : Prop :=
  Lists env w ∧ ∀ text ∈ w.storage.files.keys, isHidden text = false → Plain w.storage ⟨text⟩

theorem considersClaims_iff :
    ConsidersClaims env w ↔ ((∃ owner, UsernameClaim w owner) → Tidy env w) := by
  have hlooks : ConsidersClaims env w ↔ ∀ owner, UsernameClaim w owner → owner ∈ claimants env w :=
    ⟨ConsidersClaims.considered, fun h => ⟨exec_ownerClaimingUsername, h⟩⟩
  rw [hlooks]
  unfold Tidy claimants Lists
  cases hlisted : listed env w with
  | none =>
    constructor
    . intro h ⟨owner, hclaim⟩
      exact absurd (h owner hclaim) List.not_mem_nil
    . intro h owner hclaim
      cases (h ⟨owner, hclaim⟩).1
  | some ids =>
    rw [Option.bind_some]
    have htidy : (∀ text ∈ w.storage.files.keys, isHidden text = false → Plain w.storage ⟨text⟩) ↔
        ∀ id ∈ ids, Plain w.storage id := by
      simp only [mem_listed hlisted]
      constructor
      . intro h id hid
        exact h id.text hid.1 hid.2
      . intro h text hmem hhidden
        exact h ⟨text⟩ ⟨hmem, hhidden⟩
    rw [htidy]
    by_cases hplain : ∀ id ∈ ids, Plain w.storage id
    . obtain ⟨found, hfound, hmem⟩ := scanUsernameOwners_of_plain [] hplain
      apply iff_of_true
      . intro owner hclaim
        rw [hfound, Option.getD_some, hmem]
        exact .inr ((usernameClaim_iff hlisted owner).mp hclaim)
      . intro _
        exact ⟨rfl, hplain⟩
    . rw [scanUsernameOwners_of_not_plain [] hplain]
      constructor
      . intro h ⟨owner, hclaim⟩
        exact absurd (h owner hclaim) List.not_mem_nil
      . intro h owner hclaim
        exact absurd (h ⟨owner, hclaim⟩).2 hplain

end Claims

/--
Both scans find what the store has, whatever else it has, just when nothing obscures the newest
pointer and nothing stops the scan for usernames.
-/
theorem scans_find_iff {env : Env} {w : Runtime} {owner : IdentityId} {name : String} :
    FindsNewest env w owner name ∧ ConsidersClaims env w ↔
      Unobscured env w owner name ∧ ((∃ owner, UsernameClaim w owner) → Tidy env w) := by
  rw [findsNewest_iff, considersClaims_iff]

end Runtime

end Canopee

namespace Canopee.Runtime

open Canopee.Compact
open Prog (exec)

section Counterexample

/--
A pointer object of Alice's, and an empty one that Mallory labels with her.
-/
def aliceProfilePointer : AppPointerRecord :=
  AppPointerRecord.sign alice 5 RECORD_PROFILE ⟨"00"⟩

def withoutJunk : Runtime :=
  NodeOp.step (.objectRequest (.store ⟨1, Object.new alice 5
    (AppPointerRecord.codec.serialize aliceProfilePointer) .appPointer⟩), Env.quiet 0)
    (fresh bob laptop)

def withJunk : Runtime :=
  NodeOp.step (.objectRequest (.store ⟨1, NodeOp.mislabelled .appPointer []⟩), Env.quiet 0)
    withoutJunk

theorem aliceProfilePointer_authentic :
    aliceProfilePointer.Authentic alice.id RECORD_PROFILE := by
  constructor <;> decide

theorem withJunk_keys : ∃ text ∈ withJunk.storage.files.keys, isHidden text = false ∧
    (withJunk.storage.getVerified ⟨text⟩).toOption.map (·.objectType) = some .appPointer ∧
      (withJunk.storage.getVerified ⟨text⟩).toOption.bind (·.decode AppPointerRecord.codec) =
        some aliceProfilePointer := by
  decide +kernel

theorem aliceProfilePointer_held :
    HeldPointer withJunk alice.id RECORD_PROFILE aliceProfilePointer := by
  have hauthentic := aliceProfilePointer_authentic
  obtain ⟨text, hmem, hhidden, htype, hdecode⟩ := withJunk_keys
  revert htype hdecode hauthentic
  generalize aliceProfilePointer = record
  cases hread : withJunk.storage.getVerified ⟨text⟩ with
  | error _ =>
    intro _ htype _
    simp [Except.toOption] at htype
  | ok object =>
    intro hauthentic htype hdecode
    simp only [Except.toOption, Option.map_some, Option.some.injEq, Option.bind_some] at htype hdecode
    exact ⟨text, hmem, hhidden, object, hread, htype, hdecode, hauthentic⟩

/--
The pointer is found until an object that does not decode is pushed beside it.
-/
theorem latestPointerRecord_of_junk :
    (exec (latestPointerRecord alice.id RECORD_PROFILE) (Env.quiet 0) withoutJunk).1 =
        .ok (some aliceProfilePointer) ∧
      ¬ FindsNewest (Env.quiet 0) withJunk alice.id RECORD_PROFILE := by
  have hfound : (exec (latestPointerRecord alice.id RECORD_PROFILE) (Env.quiet 0) withoutJunk).1 =
      .ok (some aliceProfilePointer) := by
    decide +kernel
  have hlost : (exec (latestPointerRecord alice.id RECORD_PROFILE) (Env.quiet 0) withJunk).1 =
      .ok none := by
    decide +kernel
  refine ⟨hfound, ?_⟩
  intro ⟨found, hexec, hnewest⟩
  rw [hlost, Except.ok.injEq] at hexec
  rw [← hexec] at hnewest
  exact hnewest aliceProfilePointer aliceProfilePointer_held

end Counterexample

end Canopee.Runtime
