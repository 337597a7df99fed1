import Canopee.Lib.Run
import Canopee.Lib.Selection
import Canopee.Runtime.Node

/-!
This module contains the authenticity of resolved pointers: what each of the three sources can yield,
and exactly when the pointer objects in the store make a resolution return a foreign record.
-/

namespace Canopee

open Primitives
open Canopee.Runtime
open Prog (exec exec_bind_ok)
open Selection (Selects)

variable [Primitives]

/--
A record that `owner` signed for `name`.
-/
structure AppPointerRecord.Authentic (owner : IdentityId) (name : String)
    (record : AppPointerRecord) : Prop where
  owner : record.owner = owner
  name : record.name = name
  verify : record.verify = true

namespace Storage

/--
The record of a pointer object in the store that is labelled with `owner`.
-/
def labelledPointer (storage : Storage) (owner : IdentityId) (id : ObjectId) :
    Option AppPointerRecord :=
  match storage.getVerified id with
  | .error _ => none
  | .ok object =>
    if object.payload.owner ≠ owner ∨ object.objectType ≠ .appPointer then
      none
    else
      object.decode AppPointerRecord.codec

/--
The same, when the record is a signed one for `name`, whoever signed it.
-/
def pointerFor (storage : Storage) (owner : IdentityId) (name : String) (id : ObjectId) :
    Option AppPointerRecord :=
  (storage.labelledPointer owner id).filter fun record => record.name = name ∧ record.verify = true

/--
A scan for `owner` gets past the file: it reads, and decodes if it is a pointer labelled with `owner`.
-/
def Legible (storage : Storage) (owner : IdentityId) (id : ObjectId) : Prop :=
  ∃ object, storage.getVerified id = .ok object ∧
    (object.payload.owner = owner → object.objectType = .appPointer →
      (object.decode AppPointerRecord.codec).isSome)

theorem pointerFor_of_decode {storage : Storage} {owner : IdentityId} (name : String)
    {id : ObjectId} {object : Object} {record : AppPointerRecord}
    (hobject : storage.getVerified id = .ok object)
    (hlabel : object.payload.owner = owner ∧ object.objectType = .appPointer)
    (hrecord : object.decode AppPointerRecord.codec = some record) :
    storage.pointerFor owner name id =
      if record.name ≠ name ∨ record.verify = false then none else some record := by
  have hlabelled : storage.labelledPointer owner id = some record := by
    simp [labelledPointer, hobject, hlabel, hrecord]
  by_cases hname : record.name = name
  . cases hverify : record.verify with
    | true => simp [pointerFor, hlabelled, hname, hverify, Option.filter]
    | false => simp [pointerFor, hlabelled, hname, hverify, Option.filter]
  . simp [pointerFor, hlabelled, hname, Option.filter]

end Storage

namespace Runtime

theorem scanPointers_of_not_legible {storage : Storage} {owner : IdentityId} {name : String}
    {ids : List ObjectId} (newest : Option AppPointerRecord)
    (h : ¬ ∀ id ∈ ids, storage.Legible owner id) :
    scanPointers storage owner name ids newest = none := by
  induction ids generalizing newest with
  | nil => simp at h
  | cons id ids ih =>
    unfold scanPointers
    split
    . rfl
    . next object hobject =>
      by_cases hid : storage.Legible owner id
      . have hids : ¬ ∀ id ∈ ids, storage.Legible owner id := by
          intro hids
          apply h
          simp only [List.mem_cons, forall_eq_or_imp]
          exact ⟨hid, hids⟩
        simp only [ih _ hids]
        repeat' split
        all_goals rfl
      . have hpointer : object.payload.owner = owner ∧ object.objectType = .appPointer ∧
            object.decode AppPointerRecord.codec = none := by
          by_contra hno
          apply hid
          refine ⟨object, hobject, ?_⟩
          intro howner htype
          simp only [howner, htype, true_and] at hno
          simpa [Option.isSome_iff_ne_none] using hno
        simp [hpointer]

theorem scanPointers_of_legible {storage : Storage} {owner : IdentityId} {name : String}
    {ids : List ObjectId} (newest : Option AppPointerRecord)
    (h : ∀ id ∈ ids, storage.Legible owner id) :
    scanPointers storage owner name ids newest =
      (newest.toList ++ ids.filterMap (storage.pointerFor owner name)).argmax
        (·.publishedAt.toNat) := by
  induction ids generalizing newest with
  | nil => cases newest with
    | none => rfl
    | some current => rfl
  | cons id ids ih =>
    simp only [List.mem_cons, forall_eq_or_imp] at h
    obtain ⟨⟨object, hobject, hdecodes⟩, hids⟩ := h
    simp only [scanPointers, hobject, ih _ hids, List.filterMap_cons]
    by_cases hlabel : object.payload.owner ≠ owner ∨ object.objectType ≠ .appPointer
    . simp [hlabel, Storage.pointerFor, Storage.labelledPointer, hobject]
    . rw [not_or, not_not, not_not] at hlabel
      obtain ⟨record, hrecord⟩ := Option.isSome_iff_exists.mp (hdecodes hlabel.1 hlabel.2)
      have hfor := Storage.pointerFor_of_decode name hobject hlabel hrecord
      by_cases hsigned : record.name ≠ name ∨ record.verify = false
      . rw [if_pos hsigned] at hfor
        simp [hlabel, hrecord, hsigned, hfor]
      . rw [if_neg hsigned] at hfor
        simp only [hlabel, hrecord, hsigned, hfor]
        cases newest with
        | none => simp
        | some current => simp [Selection.argmax_cons_cons, UInt64.le_iff_toNat_le]

/--
The ids that a listing of the store yields now.
-/
def listed (env : Env) (w : Runtime) : Option (List ObjectId) :=
  (env.listing w.tick w.storage.files.keys).map fun names =>
    (names.filter fun name => !isHidden name).map ObjectId.mk

/--
What `latest_pointer_record` finds now.
-/
def scannedPointer (env : Env) (w : Runtime) (owner : IdentityId) (name : String) :
    Option AppPointerRecord :=
  (listed env w).bind fun ids => scanPointers w.storage owner name ids none

theorem exec_list (env : Env) (w : Runtime) :
    exec list env w =
      (match listed env w with
        | none => .error "read_dir failed"
        | some ids => .ok ids, { w with tick := w.tick + 1 }) := by
  unfold list listed
  rw [exec_bind_ok (exec_nextTick env w), exec_bind_ok (Prog.exec_read env _),
    exec_bind_ok (Prog.exec_get env _)]
  cases env.listing w.tick w.storage.files.keys with
  | none => rfl
  | some names => rfl

theorem exec_latestPointerRecord (env : Env) (w : Runtime) (owner : IdentityId) (name : String) :
    exec (latestPointerRecord owner name) env w =
      (.ok (scannedPointer env w owner name), { w with tick := w.tick + 1 }) := by
  unfold latestPointerRecord scannedPointer
  rw [exec_bind_ok (Prog.exec_attempt list env w), exec_list]
  cases listed env w with
  | none => rfl
  | some ids => rfl

theorem scanPointers_eq_some_iff {storage : Storage} {owner : IdentityId} {name : String}
    {ids : List ObjectId} {record : AppPointerRecord} :
    scanPointers storage owner name ids none = some record ↔
      (∀ id ∈ ids, storage.Legible owner id) ∧
        ∃ id, Selects (storage.pointerFor owner name) (·.publishedAt.toNat) ids id record := by
  by_cases hids : ∀ id ∈ ids, storage.Legible owner id
  . rw [scanPointers_of_legible none hids, Option.toList_none, List.nil_append,
      and_iff_right hids]
    exact Selection.argmax_filterMap_eq_some_iff
  . simp [scanPointers_of_not_legible none hids, hids]

/--
A scan gets through the store, and the newest of the pointers that are labelled with `owner`, the
first listed among equals, is the record of somebody else.
-/
def Shadowed (env : Env) (w : Runtime) (owner : IdentityId) (name : String) : Prop :=
  ∃ ids id record, listed env w = some ids ∧ (∀ id ∈ ids, w.storage.Legible owner id) ∧
    Selects (w.storage.pointerFor owner name) (·.publishedAt.toNat) ids id record ∧
    record.owner ≠ owner

theorem shadowed_iff {env : Env} {w : Runtime} {owner : IdentityId} {name : String} :
    Shadowed env w owner name ↔
      ∃ record, scannedPointer env w owner name = some record ∧ record.owner ≠ owner := by
  simp only [Shadowed, scannedPointer, Option.bind_eq_some_iff, scanPointers_eq_some_iff]
  constructor
  . intro ⟨ids, id, record, hlisted, hlegible, hselects, howner⟩
    exact ⟨record, ⟨ids, hlisted, hlegible, id, hselects⟩, howner⟩
  . intro ⟨record, ⟨ids, hlisted, hlegible, id, hselects⟩, howner⟩
    exact ⟨ids, id, record, hlisted, hlegible, hselects, howner⟩

theorem signed_of_scannedPointer {env : Env} {w : Runtime} {owner : IdentityId} {name : String}
    {record : AppPointerRecord} (h : scannedPointer env w owner name = some record) :
    record.name = name ∧ record.verify = true := by
  simp only [scannedPointer, Option.bind_eq_some_iff, scanPointers_eq_some_iff] at h
  obtain ⟨ids, hlisted, hlegible, id, hselects⟩ := h
  have hvalue := hselects.value_eq
  simp only [Storage.pointerFor, Option.filter_eq_some_iff] at hvalue
  simpa using hvalue.2

theorem authentic_of_acceptRecord {owner : IdentityId} {name : String} {bytes : Bytes}
    {record : AppPointerRecord} (h : acceptRecord owner name bytes = some record) :
    record.Authentic owner name := by
  unfold acceptRecord at h
  split at h
  . contradiction
  . split at h
    . next hchecks =>
      simp only [Option.some.injEq] at h
      subst h
      exact ⟨hchecks.1, hchecks.2.1, hchecks.2.2⟩
    . contradiction

theorem authentic_of_cachedPointer {w : Runtime} {owner : IdentityId} {name : String}
    {record : AppPointerRecord} (h : cachedPointer w owner name = some record) :
    record.Authentic owner name := by
  obtain ⟨bytes, _, hbytes⟩ := Option.bind_eq_some_iff.mp h
  exact authentic_of_acceptRecord hbytes

theorem exec_dhtPointer (env : Env) (w : Runtime) (owner : IdentityId) (name : String) :
    ∃ r w', exec (dhtPointer owner name) env w = (.ok r, w') ∧
      ∀ record, r = some record → record.Authentic owner name := by
  unfold dhtPointer
  rw [exec_bind_ok (Prog.exec_attempt _ env w)]
  split
  . exact ⟨_, _, rfl, by simp⟩
  . next bytes _ =>
    refine ⟨_, _, rfl, ?_⟩
    intro record hrecord
    obtain ⟨bytes, _, hbytes⟩ := Option.bind_eq_some_iff.mp hrecord
    exact authentic_of_acceptRecord hbytes

theorem resolvePointer_of_cached {env : Env} {w : Runtime} {owner : IdentityId} {name : String}
    {record : AppPointerRecord} (h : cachedPointer w owner name = some record) :
    exec (resolvePointer owner name) env w = (.ok (some record), w) := by
  unfold resolvePointer
  rw [exec_bind_ok (Prog.exec_get env w)]
  simp only [h]
  rfl

theorem resolvePointer_of_scanned {env : Env} {w : Runtime} {owner : IdentityId} {name : String}
    {record : AppPointerRecord} (hcached : cachedPointer w owner name = none)
    (h : scannedPointer env w owner name = some record) :
    (exec (resolvePointer owner name) env w).1 = .ok (some record) := by
  unfold resolvePointer
  rw [exec_bind_ok (Prog.exec_get env w)]
  simp only [hcached]
  rw [exec_bind_ok (exec_latestPointerRecord env w owner name), h]
  rfl

theorem resolvePointer_of_dht {env : Env} {w : Runtime} {owner : IdentityId} {name : String}
    {record : AppPointerRecord} (hcached : cachedPointer w owner name = none)
    (hscanned : scannedPointer env w owner name = none)
    (h : (exec (resolvePointer owner name) env w).1 = .ok (some record)) :
    record.Authentic owner name := by
  unfold resolvePointer at h
  rw [exec_bind_ok (Prog.exec_get env w)] at h
  simp only [hcached] at h
  rw [exec_bind_ok (exec_latestPointerRecord env w owner name), hscanned] at h
  obtain ⟨r, w', hdht, hauthentic⟩ :=
    exec_dhtPointer env { w with tick := w.tick + 1 } owner name
  simp only at h
  rw [exec_bind_ok hdht] at h
  cases r with
  | none => cases h
  | some found =>
    have hfound : found = record := by
      cases h
      rfl
    exact hauthentic record (by rw [hfound])

/--
A resolution is authentic unless it is answered from the store while the newest labelled pointer
there is somebody else's.
-/
theorem resolvePointer_authentic_iff {env : Env} {w : Runtime} {owner : IdentityId}
    {name : String} :
    (∀ record, (exec (resolvePointer owner name) env w).1 = .ok (some record) →
      record.Authentic owner name) ↔
    (cachedPointer w owner name).isSome = true ∨ ¬ Shadowed env w owner name := by
  cases hcached : cachedPointer w owner name with
  | some cached =>
    simp only [resolvePointer_of_cached hcached, Except.ok.injEq, Option.some.injEq]
    constructor
    . intro _
      exact .inl rfl
    . intro _ record hrecord
      exact hrecord ▸ authentic_of_cachedPointer hcached
  | none =>
    rw [shadowed_iff]
    cases hscanned : scannedPointer env w owner name with
    | some scanned =>
      have hsigned := signed_of_scannedPointer hscanned
      simp only [resolvePointer_of_scanned hcached hscanned, Except.ok.injEq, Option.some.injEq]
      constructor
      . intro h
        right
        intro ⟨record, hrecord, howner⟩
        exact howner (h record hrecord).owner
      . intro h record hrecord
        subst hrecord
        have howner : scanned.owner = owner := by
          by_contra hforeign
          exact h.elim (by simp) fun hno => hno ⟨scanned, rfl, hforeign⟩
        exact ⟨howner, hsigned.1, hsigned.2⟩
    | none =>
      constructor
      . intro _
        exact .inr (by simp)
      . intro _ record hrecord
        exact resolvePointer_of_dht hcached hscanned hrecord

end Runtime

namespace NodeOp

/--
If the step resolves a pointer, what it returns was signed by the owner for that name.
-/
def ResolvesAuthentic : NodeOp × Env → Runtime → Prop
  | (.resolvePointer owner name, env), w =>
    ∀ record, (exec (Runtime.resolvePointer owner name) env w).1 = .ok (some record) →
      record.Authentic owner name
  | _, _ => True

/--
If the step resolves a pointer, the record cache has it or the newest pointer object labelled with
the owner, if the scan gets that far, carries the owner's record.
-/
def ResolvesUnshadowed : NodeOp × Env → Runtime → Prop
  | (.resolvePointer owner name, env), w =>
    (cachedPointer w owner name).isSome = true ∨ ¬ Shadowed env w owner name
  | _, _ => True

theorem resolvesAuthentic_iff (l : NodeOp × Env) (w : Runtime) :
    ResolvesAuthentic l w ↔ ResolvesUnshadowed l w := by
  obtain ⟨op, env⟩ := l
  cases op with
  | resolvePointer owner name => exact resolvePointer_authentic_iff
  | _ => exact Iff.rfl

/--
The pointers that a node resolves in a run are all authentic exactly when it never resolves one from
its store that is shadowed there.
-/
theorem run_resolvesAuthentic_iff (identity : Identity) (deviceKey : DeviceKey)
    (ls : List (NodeOp × Env)) :
    Run.Along step ResolvesAuthentic (fresh identity deviceKey) ls ↔
      Run.Along step ResolvesUnshadowed (fresh identity deviceKey) ls :=
  Run.along_congr resolvesAuthentic_iff _ ls

end NodeOp

end Canopee

namespace Canopee.NodeOp

open Canopee.Compact
open Canopee.Runtime
open Prog (exec)

/--
Mallory's own signed pointer for a profile.
-/
def malloryPointer : AppPointerRecord :=
  AppPointerRecord.sign mallory 5 RECORD_PROFILE ⟨"00"⟩

/--
An object that Mallory signs and labels with Alice.
-/
def mislabelled (objectType : ObjectType) (data : Bytes) : Object :=
  Object.signed mallory {
    owner := alice.id
    metadata := { createdAt := 5, size := 0, contentType := none }
    objectType := objectType
    data := data }

/--
Mallory pushes her pointer in an object labelled with Alice: Bob's node resolves Alice's profile to
it.
-/
theorem resolvePointer_of_pushed :
    let pushed := mislabelled .appPointer (AppPointerRecord.codec.serialize malloryPointer)
    let w := step (.objectRequest (.store ⟨1, pushed⟩), Env.quiet 0) (fresh bob laptop)
    (exec (Runtime.resolvePointer alice.id RECORD_PROFILE) (Env.quiet 0) w).1 =
        .ok (some malloryPointer) ∧
      malloryPointer.owner ≠ alice.id := by
  decide +kernel

end Canopee.NodeOp
