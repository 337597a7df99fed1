import Canopee.Runtime.Methods

/-!
This module contains what a caller may rely on when it fetches or reads an object by its id.
-/

namespace Canopee

open Primitives
open Canopee.Runtime
open Prog (Keeps exec)

variable [Primitives]

namespace Runtime

theorem ingress_identity (env : Env) (identity : Identity) :
    Ingress env (fun w => w.identity = identity) (fun _ => True) :=
  .ofDisk
    (fun _ _ hdisk hw => hdisk.identity.trans hw)
    (fun _ _ _ _ hw => hw)
    (fun _ _ _ _ => trivial)
    (fun _ _ _ _ => trivial)
    (fun _ _ _ => trivial)
    (fun _ _ hw => hw)
    (fun _ _ _ hw => hw)

/--
Every bundle that a peer answers to a request for `id` carries `id`.
-/
def AnswersCarry (env : Env) (id : ObjectId) : Prop :=
  ∀ bundle, Pushes.Answers env id bundle → bundle.object.id = id

theorem Fetched.id_eq {env : Env} {id : ObjectId} {object : Object}
    (h : Fetched env id object) (hcarry : AnswersCarry env id) : object.id = id := by
  cases h.2 with
  | inl hid => exact hid
  | inr hanswer =>
    obtain ⟨bundle, hbundle, hobject⟩ := hanswer
    rw [← hobject]
    exact hcarry bundle hbundle

theorem openWith_eq_ok {identity : Identity} {object opened : Object} :
    openWith identity object = .ok opened ↔
      (isEncrypted object = false ∧ opened = object) ∨
        (isEncrypted object = true ∧ ∃ plaintext,
          Envelope.decryptEnvelope identity object.payload.data = .ok plaintext ∧
            opened = { object with payload := { object.payload with data := plaintext } }) := by
  unfold openWith
  cases hencrypted : isEncrypted object with
  | false => simp [eq_comm]
  | true =>
    cases hdecrypt : Envelope.decryptEnvelope identity object.payload.data with
    | error e => simp
    | ok plaintext => simp [eq_comm]

/--
`opened` is `object` as `identity` reads it: the same object, with the plaintext for its data when it
is encrypted.
-/
structure Reads (identity : Identity) (object opened : Object) : Prop where
  id : opened.id = object.id
  owner : opened.payload.owner = object.payload.owner
  objectType : opened.objectType = object.objectType
  publicKey : opened.publicKey = object.publicKey
  signature : opened.signature = object.signature
  plain : isEncrypted object = false → opened = object
  data : isEncrypted object = true →
    Envelope.decryptEnvelope identity object.payload.data = .ok opened.payload.data

theorem reads_of_openWith {identity : Identity} {object opened : Object}
    (h : openWith identity object = .ok opened) : Reads identity object opened := by
  cases openWith_eq_ok.mp h with
  | inl hplain =>
    obtain ⟨hencrypted, hopened⟩ := hplain
    subst hopened
    exact {
      id := rfl, owner := rfl, objectType := rfl, publicKey := rfl, signature := rfl
      plain := fun _ => rfl
      data := by simp [hencrypted]
    }
  | inr hcipher =>
    obtain ⟨hencrypted, plaintext, hdecrypt, hopened⟩ := hcipher
    subst hopened
    exact {
      id := rfl, owner := rfl, objectType := rfl, publicKey := rfl, signature := rfl
      plain := by simp [hencrypted]
      data := fun _ => hdecrypt
    }

theorem fetchObject_fetched {env : Env} {w : Runtime} {id : ObjectId} {source : Option PeerId}
    {object : Object} (h : (exec (fetchObject id source) env w).1 = .ok object) :
    Fetched env id object :=
  ((ingress_identity env w.identity).keeps_fetchObject id source).result rfl h

theorem readObject_reads {env : Env} {w : Runtime} {id : ObjectId} {opened : Object}
    (h : (exec (readObject id) env w).1 = .ok opened) :
    ∃ object, Fetched env id object ∧ Reads w.identity object opened := by
  obtain ⟨object, w', hfetched, hidentity, hopen⟩ :=
    ((ingress_identity env w.identity).keeps_readObject id).result rfl h
  rw [hidentity] at hopen
  exact ⟨object, hfetched, reads_of_openWith hopen⟩

/--
Fetching an object by id yields an object that verifies, and reading one yields such an object as
this node's identity reads it. Both have the id that was asked for when the peers that answer send
what they are asked for.
-/
theorem fetch_and_read {env : Env} {w : Runtime} {id : ObjectId} {source : Option PeerId}
    (hcarry : AnswersCarry env id) :
    (∀ object, (exec (fetchObject id source) env w).1 = .ok object →
      object.id = id ∧ object.verify = true) ∧
    (∀ opened, (exec (readObject id) env w).1 = .ok opened →
      ∃ object, object.id = id ∧ object.verify = true ∧ Reads w.identity object opened) := by
  constructor
  . intro object h
    have hfetched := fetchObject_fetched h
    exact ⟨hfetched.id_eq hcarry, hfetched.1⟩
  . intro opened h
    obtain ⟨object, hfetched, hreads⟩ := readObject_reads h
    exact ⟨object, hfetched.id_eq hcarry, hfetched.1, hreads⟩

end Runtime

end Canopee

namespace Canopee.Runtime

open Canopee.Compact
open Prog (exec)

/--
An environment with one connected peer, which answers every request with `object`.
-/
def answering (object : Object) : Env :=
  { Env.quiet 0 with
    peers := fun _ => .ok [⟨"bb"⟩]
    exchange := fun _ _ _ => .ok (.object ⟨1, object⟩) }

/--
Alice's object, readable by everybody.
-/
def alicePublic : Object := Object.new alice 0 [7] .blob

theorem fetch_and_read_answered :
    (exec (fetchObject alicePublic.id none) (answering alicePublic) (fresh mallory laptop)).1 =
        .ok alicePublic ∧
      alicePublic.id = alicePublic.id ∧ alicePublic.verify = true := by
  have hok : (exec (fetchObject alicePublic.id none) (answering alicePublic)
      (fresh mallory laptop)).1 = .ok alicePublic := by decide +kernel
  have hcarry : AnswersCarry (answering alicePublic) alicePublic.id := by
    intro bundle ⟨t, peer, hanswer⟩
    simp only [answering, Except.ok.injEq, ObjectResponse.object.injEq] at hanswer
    rw [← hanswer]
  exact ⟨hok, (fetch_and_read hcarry).1 alicePublic hok⟩

/--
Alice's node after she stored a byte in the default way.
-/
def afterPut : Except String Object × Runtime :=
  exec (putObjectFor [7] .blob none []) (Env.quiet 0) (fresh alice laptop)

def sealedNote : Object :=
  afterPut.1.toOption.getD alicePublic

def openedNote : Object :=
  (exec (readObject sealedNote.id) (Env.quiet 0) afterPut.2).1.toOption.getD alicePublic

/--
What Alice reads back of an object that she stored does not verify: the signature is over the
ciphertext.
-/
theorem readObject_of_sealed :
    afterPut.1 = .ok sealedNote ∧
      (exec (readObject sealedNote.id) (Env.quiet 0) afterPut.2).1 = .ok openedNote ∧
      openedNote.payload.data = [7] ∧ openedNote.verify = false := by
  decide +kernel

end Canopee.Runtime
