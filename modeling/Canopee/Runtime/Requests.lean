import Canopee.Runtime.Methods

/-!
This module contains the effect of every request of a node on invariants: which objects others can
hand in while it is carried out, and what is kept when they are admitted.
-/

namespace Canopee

open Canopee.Runtime
open Prog (Keeps)

variable [Primitives]

namespace NodeOp

/--
The objects that others can hand to a node while it carries out a request: pushes, answers to its
own requests, and what comes with the request itself.
-/
inductive HandedIn : NodeOp × Env → Object → Prop where
  | pushed {op env t bundle} (h : .store bundle ∈ env.inbound t) : HandedIn (op, env) bundle.object
  | answered {op env id bundle} (h : Pushes.Answers env id bundle) : HandedIn (op, env) bundle.object
  | imported {bundle env} : HandedIn (.importBundle bundle, env) bundle.object
  | stored {bundle env} : HandedIn (.objectRequest (.store bundle), env) bundle.object
  | transferred {incoming env records record} (h : Ingress.Transfers incoming records)
      (hrecord : record ∈ records) : HandedIn (.acceptPairing incoming, env) record.object

/--
The requests that put objects on the network: they announce or mark one, or save a home index.
-/
def sharing : NodeOp → Bool
  | announce _ | markShared _ | concatObjects .. | saveProfile _ | claimUsername _
  | saveDeviceList _ | addDevice .. | removeDevice _ | reconcileDeviceList | saveHomeIndex _
  | setHomeEntryShared .. | shareObjectFor .. | deleteObject _ | reopen => true
  | _ => false

/--
The requests that can replace the identity key.
-/
def replacing : NodeOp → Bool
  | acceptPairing _ | importIdentity .. => true
  | _ => false

variable {env : Env} {I : Runtime → Prop} {ok : Object → Prop}

theorem keeps_discard {α : Type} {m : RunM α} {Q : α → Prop} (h : Keeps env I m Q) :
    Keeps env I (discard m) := by
  apply Keeps.bind h
  intro _ _
  exact Keeps.pure trivial

/--
A request keeps an invariant that admits what is handed in. A pairing may also track objects in the
cache index, and a restart may change the identity.
-/
theorem keeps_perform (h : Ingress env I ok) {op : NodeOp}
    (hshares : op.sharing = true → Shares I) (hkey : op.replacing = true → ReplacesKey I)
    (hin : ∀ object, HandedIn (op, env) object → object.verify = true → ok object)
    (htrack : ∀ incoming, op = .acceptPairing incoming →
      ∀ records, Ingress.Transfers incoming records →
      ∀ record ∈ records, record.object.verify = true →
        ∀ w time, I w → I (track record.object.id time w))
    (hreopen : op = .reopen → ∀ (w : Runtime) identity, I w →
      I { w with identity := identity, cache := w.sidecar, shared := ∅, pairing := none }) :
    Keeps env I op.perform := by
  cases op with
  | putObjectFor data objectType name recipients =>
    exact keeps_discard (h.keeps_putObjectFor data objectType name recipients)
  | putObjectPublic data objectType name =>
    exact keeps_discard (h.keeps_putObjectPublic data objectType name)
  | concatObjects ids name => exact keeps_discard (h.keeps_concatObjects (hshares rfl) ids name)
  | importBundle bundle =>
    exact (h.keeps_importBundle (hin bundle.object .imported)).weaken fun _ _ => trivial
  | fetchObject id source => exact keeps_discard (h.keeps_fetchObject id source)
  | readObject id => exact keeps_discard (h.keeps_readObject id)
  | objectRequest request =>
    apply keeps_discard
    apply h.keeps_handleObjectRequest
    intro bundle hrequest
    subst hrequest
    exact hin bundle.object .stored
  | announce id => exact h.keeps_announce (hshares rfl) id
  | markShared id => exact (hshares rfl).keeps_insertShared id
  | evict id => exact h.keeps_evict id
  | evictIfOverCap cap => exact h.keeps_evictIfOverCap cap
  | deleteObject id => exact h.keeps_deleteObject (hshares rfl) id
  | publishPointer name target => exact h.keeps_publishPointer name target
  | resolvePointer owner name => exact keeps_discard (h.keeps_resolvePointer owner name)
  | saveProfile profile => exact keeps_discard (h.keeps_saveProfile (hshares rfl) profile)
  | resolveProfile owner => exact keeps_discard (h.keeps_resolveOwnerRecord _ owner _)
  | resolveUsername owner => exact keeps_discard (h.keeps_resolveOwnerRecord _ owner _)
  | saveContactList contacts => exact keeps_discard (h.keeps_saveContactList contacts)
  | claimUsername username => exact h.keeps_claimUsername (hshares rfl) username
  | resolveOwnerFromUsername username =>
    exact keeps_discard (h.keeps_resolveOwnerFromUsername username)
  | loadDeviceList owner => exact keeps_discard (h.keeps_resolveOwnerRecord _ owner _)
  | saveDeviceList list => exact keeps_discard (h.keeps_saveDeviceList (hshares rfl) list)
  | addDevice deviceId deviceName =>
    exact keeps_discard (h.keeps_addDevice (hshares rfl) deviceId deviceName)
  | removeDevice deviceId => exact keeps_discard (h.keeps_removeDevice (hshares rfl) deviceId)
  | reconcileDeviceList => exact keeps_discard (h.keeps_reconcileDeviceList (hshares rfl))
  | resolveDeviceIdentity device => exact keeps_discard (h.keeps_resolveDeviceIdentity device)
  | resolveDevicePeerId owner => exact keeps_discard (h.keeps_resolveDevicePeerId owner)
  | saveHomeIndex index => exact keeps_discard (h.keeps_saveHomeIndex (hshares rfl) index)
  | setHomeEntryShared name shared =>
    exact keeps_discard (h.keeps_setHomeEntryShared (hshares rfl) name shared)
  | shareObjectFor name id app recipients =>
    exact keeps_discard (h.keeps_shareObjectFor (hshares rfl) name id app recipients)
  | grantCapability subject resource permissions expiresAt =>
    exact keeps_discard (h.keeps_grantCapability subject resource permissions expiresAt)
  | revokeCapability id => exact h.keeps_revokeCapability id
  | checkCapability capability => exact keeps_discard (h.keeps_checkCapability capability)
  | checkAccess subject permission resource =>
    exact keeps_discard (h.keeps_checkAccess subject permission resource)
  | syncWithAllDevices => exact keeps_discard h.keeps_syncWithAllDevices
  | initiatePairing => exact keeps_discard h.keeps_initiatePairing
  | acceptPairing incoming =>
    apply keeps_discard
    apply h.keeps_acceptPairing (hkey rfl)
    . intro records htransfer record hrecord
      exact hin record.object (.transferred htransfer hrecord)
    . exact htrack incoming rfl
  | importIdentity bytes transferPassphrase overwrite =>
    exact keeps_discard (h.keeps_importIdentity (hkey rfl) bytes transferPassphrase overwrite)
  | reopen => exact h.keeps_reopen (hshares rfl) (hreopen rfl)

end NodeOp

end Canopee
