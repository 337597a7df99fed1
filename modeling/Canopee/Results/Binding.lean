import Canopee.Lib.Run
import Canopee.Runtime.Requests

/-!
This module contains the owner binding of the object store: which objects can claim an owner whose
key did not sign them.
-/

namespace Canopee

open Primitives
open Canopee.Runtime
open Prog (Keeps)

variable [Primitives]

/--
The owner that the object names is the one its public key stands for.
-/
def Object.Bound (object : Object) : Prop :=
  derives object.publicKey object.payload.owner = true

instance (object : Object) : Decidable object.Bound :=
  inferInstanceAs (Decidable (_ = _))

theorem Object.bound_signed (laws : SignatureLaws) {identity : Identity} {payload : ObjectPayload}
    (h : payload.owner = identity.id) : (Object.signed identity payload).Bound := by
  unfold Object.Bound
  rw [Object.signed_payload, h]
  exact derives_publicKeyBytes laws identity

/--
Some file of the store is the binary form of `object`.
-/
def Storage.Holds (storage : Storage) (object : Object) : Prop :=
  ∃ name bytes, storage.files.lookup name = some bytes ∧
    Object.codec.deserialize bytes = some object

omit [Primitives] in
theorem Storage.holds_write {storage : Storage} {stored object : Object}
    (h : (storage.write stored).Holds object) : object = stored ∨ storage.Holds object := by
  obtain ⟨name, bytes, hlookup, hdecode⟩ := h
  by_cases hname : name = stored.id.text
  . subst hname
    simp only [write, AList.lookup_insert, Option.some.injEq] at hlookup
    rw [← hlookup, Codec.deserialize_serialize] at hdecode
    simp only [Option.some.injEq] at hdecode
    exact .inl hdecode.symm
  . simp only [write, AList.lookup_insert_ne hname] at hlookup
    exact .inr ⟨name, bytes, hlookup, hdecode⟩

omit [Primitives] in
theorem Storage.holds_erase {storage : Storage} {gone : ObjectId} {object : Object}
    (h : (storage.erase gone).Holds object) : storage.Holds object := by
  obtain ⟨name, bytes, hlookup, hdecode⟩ := h
  refine ⟨name, bytes, ?_, hdecode⟩
  by_cases hname : name = gone.text
  . subst hname
    simp only [erase, AList.lookup_erase] at hlookup
    contradiction
  . simpa only [erase, AList.lookup_erase_ne hname] using hlookup

namespace Runtime

/--
Every object in the store that verifies is bound to its owner.
-/
def OwnersBound (w : Runtime) : Prop :=
  ∀ object, w.storage.Holds object → object.verify = true → object.Bound

theorem ownersBound_of_files_eq {w w' : Runtime} (h : w'.storage.files = w.storage.files)
    (hw : OwnersBound w) : OwnersBound w' := by
  intro object ⟨name, bytes, hlookup, hdecode⟩
  rw [h] at hlookup
  exact hw object ⟨name, bytes, hlookup, hdecode⟩

theorem ownersBound_storeObject {w : Runtime} {stored : Object} (hstored : stored.Bound)
    (hw : OwnersBound w) : OwnersBound (storeObject stored w) := by
  intro object hobject hverify
  cases Storage.holds_write hobject with
  | inl heq =>
    rw [heq]
    exact hstored
  | inr hold => exact hw object hold hverify

theorem ownersBound_eraseObject {w : Runtime} (id : ObjectId) (hw : OwnersBound w) :
    OwnersBound (eraseObject id w) := by
  intro object hobject
  exact hw object (Storage.holds_erase hobject)

end Runtime

namespace NodeOp

/--
Nobody hands in an object that verifies without being bound to its owner.
-/
def HandsInBound (l : NodeOp × Env) : Prop :=
  ∀ object, HandedIn l object → object.verify = true → object.Bound

theorem HandsInBound.ingress (laws : SignatureLaws) {op : NodeOp} {env : Env}
    (h : HandsInBound (op, env)) : Ingress env OwnersBound Object.Bound :=
  .ofDisk
    (fun _ _ hdisk hw => ownersBound_of_files_eq hdisk.files hw)
    (fun _ _ _ hok hw => ownersBound_storeObject hok hw)
    (fun _ bundle hpush => h bundle.object (.pushed hpush))
    (fun _ bundle hanswer => h bundle.object (.answered hanswer))
    (fun _ _ howner => Object.bound_signed laws howner)
    (fun _ id hw => ownersBound_eraseObject id hw)
    (fun _ _ _ hw => hw)

theorem keeps_ownersBound (laws : SignatureLaws) {op : NodeOp} {env : Env}
    (hin : HandsInBound (op, env)) : Keeps env OwnersBound op.perform := by
  apply keeps_perform (hin.ingress laws) (fun _ w _ hw => ownersBound_of_files_eq (w := w) rfl hw)
    (fun _ => .ofDisk fun _ _ hdisk hw => ownersBound_of_files_eq hdisk.files hw) hin
  . intro _ _ _ _ _ _ _ w _ hw
    exact ownersBound_of_files_eq (w := w) rfl hw
  . intro _ w _ hw
    exact ownersBound_of_files_eq (w := w) rfl hw

theorem ownersBound_step (laws : SignatureLaws) {l : NodeOp × Env} {w : Runtime}
    (hin : HandsInBound l) (hw : OwnersBound w) : OwnersBound (step l w) :=
  (keeps_ownersBound laws hin).state hw

theorem ownersBound_fresh (identity : Identity) (deviceKey : DeviceKey) :
    OwnersBound (fresh identity deviceKey) := by
  intro object ⟨name, bytes, hlookup, _⟩
  simp [fresh, Storage.empty] at hlookup

/--
In every run of a new node in which what others hand in is bound to its owner, every object that the
store ever holds and that verifies is bound to its owner.
-/
theorem run_ownersBound (laws : SignatureLaws) (identity : Identity) (deviceKey : DeviceKey)
    (ls : List (NodeOp × Env))
    (h : Run.Along step (fun l _ => HandsInBound l) (fresh identity deviceKey) ls) :
    Run.Always step OwnersBound (fresh identity deviceKey) ls := by
  apply h.always (ownersBound_fresh identity deviceKey)
  intro l w hin hw
  exact ownersBound_step laws hin hw

end NodeOp

end Canopee

namespace Canopee.NodeOp

open Canopee.Compact
open Canopee.Runtime

/--
A payload that names Alice as its owner.
-/
def aliceNote : ObjectPayload where
  owner := alice.id
  metadata := { createdAt := 0, size := 1, contentType := none }
  objectType := .blob
  data := [7]

theorem handsInBound_import_quiet {bundle : ExportBundle} (time : Int)
    (h : bundle.object.verify = true → bundle.object.Bound) :
    HandsInBound (.importBundle bundle, Env.quiet time) := by
  intro object hin
  cases hin with
  | pushed hpush => simp [Env.quiet] at hpush
  | answered hanswer =>
    obtain ⟨t, peer, hanswer⟩ := hanswer
    simp [Env.quiet] at hanswer
  | imported => exact h

theorem run_ownersBound_import :
    Run.Always step OwnersBound (fresh mallory laptop)
      [(.importBundle ⟨1, Object.signed alice aliceNote⟩, Env.quiet 0)] :=
  run_ownersBound signatureLaws mallory laptop
    [(.importBundle ⟨1, Object.signed alice aliceNote⟩, Env.quiet 0)]
    ⟨handsInBound_import_quiet 0 (by decide +kernel), trivial⟩

/--
Mallory pushes an object that she signed and that names Alice as its owner: Alice's node stores it.
-/
theorem push_stores_unbound :
    let forged := Object.signed mallory aliceNote
    let w := step (.objectRequest (.store ⟨1, forged⟩), Env.quiet 0) (fresh alice laptop)
    w.storage.getVerified forged.id = .ok forged ∧ forged.verify = true ∧ ¬ forged.Bound := by
  decide +kernel

end Canopee.NodeOp
