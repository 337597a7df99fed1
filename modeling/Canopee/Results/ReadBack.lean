import Canopee.Results.Fetch
import Canopee.Results.Published
import Canopee.Results.Sealing

/-!
This module contains what a node reads back of what it stored, for every way of storing: the sealed
objects, the public ones and the concatenations.
-/

namespace Canopee

open Primitives
open Canopee.Runtime
open Prog (Keeps Triple exec exec_bind_ok)

variable [Primitives]

namespace Envelope

theorem length_lt_of_decryptEnvelope (laws : CipherLaws) {reader : Identity} {bytes plaintext : Bytes}
    (h : decryptEnvelope reader bytes = .ok plaintext) : plaintext.length < bytes.length := by
  unfold decryptEnvelope at h
  split at h
  . contradiction
  . split at h
    . contradiction
    . dsimp only at h
      split at h
      . contradiction
      . split at h
        . contradiction
        . split at h
          . contradiction
          . split at h
            . next opened hopened =>
              rw [Except.ok.injEq] at h
              have hlength := laws.length _ _ _ _ ((laws.decrypt_iff _ _ _ _).mp hopened)
              rw [List.length_drop] at hlength
              rw [← h]
              omega
            . contradiction

end Envelope

namespace Runtime

section Read

variable {payload : ObjectPayload} {w : Runtime} {data : Bytes}

/--
What `identity` makes of stored bytes: an envelope is opened, everything else is taken as it is.
-/
def readData (identity : Identity) (bytes : Bytes) : Option Bytes :=
  if Envelope.isEnvelope bytes then
    (Envelope.decryptEnvelope identity bytes).toOption
  else
    some bytes

/--
Reading `id` returns an object with this data, whatever the network does.
-/
def Returns (id : ObjectId) (data : Bytes) (w : Runtime) : Prop :=
  ∀ env, ∃ opened, (exec (readObject id) env w).1 = .ok opened ∧ opened.payload.data = data

theorem readObject_of_stored {id : ObjectId} {object : Object}
    (h : w.storage.getVerified id = .ok object) (env : Env) :
    exec (readObject id) env w = (openWith w.identity object, w) := by
  have hget : exec (Prog.attempt (getVerified id)) env w = (.ok (.ok object), w) := by
    rw [Prog.exec_attempt, exec_getVerified, h]
  have hlocal : exec (localOrFetched id) env w = (.ok object, w) := by
    unfold localOrFetched
    rw [exec_bind_ok hget]
    rfl
  unfold readObject openObject
  rw [exec_bind_ok hlocal, exec_bind_ok (Prog.exec_get env w), exec_ofExcept]

theorem openWith_data_iff {identity : Identity} {object : Object} :
    (∃ opened, openWith identity object = .ok opened ∧ opened.payload.data = data) ↔
      readData identity object.payload.data = some data := by
  simp only [openWith_eq_ok, isEncrypted, readData]
  cases hplain : Envelope.isEnvelope object.payload.data with
  | false => simp
  | true =>
    cases Envelope.decryptEnvelope identity object.payload.data with
    | error e => simp [Except.toOption]
    | ok plaintext => simp [Except.toOption]

theorem returns_iff (h : Stores payload w) :
    Returns (ObjectId.fromPayload payload) data w ↔
      readData w.identity payload.data = some data := by
  obtain ⟨object, hstored, rfl⟩ := h
  have hread (env : Env) : (exec (readObject (ObjectId.fromPayload object.payload)) env w).1 =
      openWith w.identity object := by
    rw [readObject_of_stored hstored env]
  have : Nonempty Env := ⟨Env.quiet 0⟩
  simp only [Returns, hread, forall_const]
  exact openWith_data_iff

theorem not_returns_of_fails {id : ObjectId} {env : Env}
    (h : (exec (readObject id) env w).1.toOption.isSome = false) : ¬ Returns id data w := by
  intro hreturns
  obtain ⟨opened, hok, _⟩ := hreturns env
  rw [hok] at h
  contradiction

theorem readData_eq_some_self (laws : CipherLaws) (identity : Identity) :
    readData identity data = some data ↔ Envelope.isEnvelope data = false := by
  unfold readData
  cases Envelope.isEnvelope data with
  | false => simp
  | true =>
    rw [if_pos rfl]
    constructor
    . intro h
      cases hdecrypt : Envelope.decryptEnvelope identity data with
      | error e =>
        rw [hdecrypt] at h
        contradiction
      | ok plaintext =>
        rw [hdecrypt] at h
        have hlt := Envelope.length_lt_of_decryptEnvelope laws hdecrypt
        rw [Option.some_inj.mp h] at hlt
        omega
    . intro h
      contradiction

end Read

section Write

variable {env : Env} {self : Identity} {payload : ObjectPayload}

/--
This identity's node has the payload.
-/
def Holding (self : Identity) (payload : ObjectPayload) (w : Runtime) : Prop :=
  w.identity = self ∧ Stores payload w

theorem pushes_holding (hash : CollisionFree) (env : Env) (self : Identity)
    (payload : ObjectPayload) : Pushes env (Holding self payload) (fun _ => True) :=
  (pushes_identity env self).and (pushes_stores hash env payload)

theorem shares_holding (self : Identity) (payload : ObjectPayload) :
    Shares (Holding self payload) :=
  fun _ _ hw => ⟨hw.1, stores_congr rfl hw.2⟩

theorem putVerified_holding (object : Object) :
    Triple env (fun w => w.identity = self) (putVerified object)
      (fun _ w => object.verify = true ∧ Holding self object.payload w) (fun _ => True) := by
  unfold putVerified
  split
  . exact Triple.throw fun _ _ => trivial
  . next hverify =>
    have hverify : object.verify = true := by simpa using hverify
    have hwrite : Triple env (fun w => w.identity = self) (writeAtomic (storeObject object))
        (fun _ => Holding self object.payload) (fun w => w.identity = self) :=
      triple_writeAtomic (fun _ _ hsame hw => hsame.identity.trans hw)
        (fun w hw => ⟨hw, stores_storeObject_self hverify w⟩)
    apply hwrite.conseq (fun _ hw => hw)
    . intro _ w hw
      exact ⟨hverify, hw⟩
    . intro _ _
      trivial

/--
What the sealed bytes of an object were made from.
-/
def SealedFor (env : Env) (self : Identity) (data : Bytes) (recipients : List Key32)
    (object : Object) : Prop :=
  object.verify = true ∧ ∃ t, Envelope.encryptForRecipients self (env.random t) data recipients =
    .ok object.payload.data

theorem exec_random (env : Env) (w : Runtime) :
    exec random env w = (.ok (env.random w.tick), { w with tick := w.tick + 1 }) := rfl

theorem sealData_triple (data : Bytes) (recipients : List Key32) :
    Triple env (fun w => w.identity = self) (sealData data recipients)
      (fun bytes w => w.identity = self ∧
        ∃ t, Envelope.encryptForRecipients self (env.random t) data recipients = .ok bytes)
      (fun _ => True) := by
  constructor
  intro w hw
  unfold sealData
  rw [exec_bind_ok (Prog.exec_get env w), exec_bind_ok (exec_random env w), hw]
  cases hsealed : Envelope.encryptForRecipients self (env.random w.tick) data recipients with
  | ok bytes => exact ⟨rfl, w.tick, hsealed⟩
  | error e => trivial

theorem putObjectFor_holding (hash : CollisionFree) (data : Bytes) (objectType : ObjectType)
    (name : Option String) (recipients : List Key32) :
    Triple env (fun w => w.identity = self) (putObjectFor data objectType name recipients)
      (fun object w => SealedFor env self data recipients object ∧ Holding self object.payload w)
      (fun _ => True) := by
  unfold putObjectFor
  apply Triple.bind (Q := fun _ w => w.identity = self)
  . apply Triple.get
    intro w hw
    exact hw
  intro v
  apply Triple.bind (Q := fun _ w => w.identity = self)
  . constructor
    intro w hw
    exact hw
  intro time
  apply Triple.bind (sealData_triple data recipients)
  intro sealed
  apply Triple.of_and'
  intro hsealed
  dsimp only
  generalize hobject : resealed v.identity _ = object
  have hdata : object.payload.data = sealed := by
    rw [← hobject]
    rfl
  apply Triple.bind (putVerified_holding object)
  intro _
  apply Triple.of_and
  intro hverify
  have hkept := (pushes_holding hash env self object.payload).keeps_nameObject object.id name
  apply Triple.bind (hkept.conseq (fun _ hw => hw) (fun _ _ hw => hw.1) (fun _ _ => trivial))
  intro _
  apply Triple.pure
  intro w hw
  exact ⟨⟨hverify, hdata ▸ hsealed⟩, hw⟩

theorem newObject_triple (data : Bytes) (objectType : ObjectType) :
    Triple env (fun w => w.identity = self) (newObject data objectType)
      (fun object w => w.identity = self ∧ object.payload.data = data) (fun _ => True) := by
  constructor
  intro w hw
  unfold newObject
  rw [exec_bind_ok (exec_now env w), exec_bind_ok (Prog.exec_get env _)]
  exact ⟨hw, rfl⟩

theorem putObjectPublic_holding (hash : CollisionFree) (data : Bytes) (objectType : ObjectType)
    (name : Option String) :
    Triple env (fun w => w.identity = self) (putObjectPublic data objectType name)
      (fun object w => (object.verify = true ∧ object.payload.data = data) ∧
        Holding self object.payload w)
      (fun _ => True) := by
  unfold putObjectPublic
  apply Triple.bind (newObject_triple data objectType)
  intro object
  apply Triple.of_and'
  intro hdata
  apply Triple.bind (putVerified_holding object)
  intro _
  apply Triple.of_and
  intro hverify
  have hkept := (pushes_holding hash env self object.payload).keeps_nameObject object.id name
  apply Triple.bind (hkept.conseq (fun _ hw => hw) (fun _ _ hw => hw.1) (fun _ _ => trivial))
  intro _
  apply Triple.pure
  intro w hw
  exact ⟨⟨hverify, hdata⟩, hw⟩

end Write

section Writes

/--
The ways to store bytes that are at hand.
-/
inductive Write where
  | put
  | putObject (objectType : ObjectType)
  | putObjectFor (objectType : ObjectType) (recipients : List Key32)
  | putObjectPublic (objectType : ObjectType)

namespace Write

/--
The keys that the bytes are sealed for besides the node's own.
-/
def recipients : Write → List Key32
  | putObjectFor _ recipients => recipients
  | _ => []

/--
The id of the object that the write creates.
-/
def perform (data : Bytes) (name : Option String) : Write → RunM ObjectId
  | put => Runtime.put data name
  | putObject objectType => do
    let object ← Runtime.putObject data objectType name
    pure object.id
  | putObjectFor objectType recipients => do
    let object ← Runtime.putObjectFor data objectType name recipients
    pure object.id
  | putObjectPublic objectType => do
    let object ← Runtime.putObjectPublic data objectType name
    pure object.id

/--
Sealed bytes are for fewer than 65536 keys, and public ones do not look like an envelope.
-/
def Legible (self : Identity) (data : Bytes) : Write → Prop
  | putObjectPublic _ => Envelope.isEnvelope data = false
  | write => (Envelope.recipientPubs self.dhPublicKey write.recipients).length < 65536

instance (self : Identity) (data : Bytes) : (write : Write) → Decidable (write.Legible self data)
  | put => inferInstanceAs (Decidable (_ < 65536))
  | putObject _ => inferInstanceAs (Decidable (_ < 65536))
  | putObjectFor _ _ => inferInstanceAs (Decidable (_ < 65536))
  | putObjectPublic _ => inferInstanceAs (Decidable (_ = false))

end Write

variable {env : Env} {self : Identity} {data : Bytes}

theorem returns_of_sealed (cipher : CipherLaws) (agreement : AgreementLaws) {recipients : List Key32}
    (ideal : ∀ t, Envelope.Ideal (Envelope.derivationsFor self self (env.random t) recipients))
    {object : Object} {w : Runtime} (h : SealedFor env self data recipients object)
    (hholding : Holding self object.payload w) :
    Returns object.id data w ↔
      (Envelope.recipientPubs self.dhPublicKey recipients).length < 65536 := by
  obtain ⟨hverify, t, hsealed⟩ := h
  rw [Object.id_of_verify hverify, returns_iff hholding.2, hholding.1, readData,
    if_pos (Envelope.isEnvelope_encrypted cipher hsealed)]
  constructor
  . intro hdata
    by_contra hlong
    apply Envelope.decryptEnvelope_of_long cipher agreement hsealed (ideal t) (not_lt.mp hlong)
    cases hdecrypt : Envelope.decryptEnvelope self object.payload.data with
    | error e =>
      rw [hdecrypt] at hdata
      contradiction
    | ok plaintext =>
      rw [hdecrypt] at hdata
      rw [Option.some_inj.mp hdata]
  . intro hshort
    rw [Envelope.decryptEnvelope_of_short cipher agreement hsealed (ideal t) hshort,
      if_pos (Envelope.mem_recipientPubs.mpr (.inl rfl))]
    rfl

theorem returns_of_public (cipher : CipherLaws) {object : Object} {w : Runtime}
    (h : object.verify = true ∧ object.payload.data = data)
    (hholding : Holding self object.payload w) :
    Returns object.id data w ↔ Envelope.isEnvelope data = false := by
  rw [Object.id_of_verify h.1, returns_iff hholding.2, h.2, readData_eq_some_self cipher]

theorem Write.returns_triple (cipher : CipherLaws) (agreement : AgreementLaws)
    (hash : CollisionFree) (write : Write) (name : Option String)
    (ideal : ∀ t, Envelope.Ideal
      (Envelope.derivationsFor self self (env.random t) write.recipients)) :
    Triple env (fun w => w.identity = self) (write.perform data name)
      (fun id w => Returns id data w ↔ write.Legible self data) (fun _ => True) := by
  have hsealed (objectType : ObjectType) (recipients : List Key32)
      (ideal : ∀ t, Envelope.Ideal
        (Envelope.derivationsFor self self (env.random t) recipients)) :
      Triple env (fun w => w.identity = self) (do
          let object ← Runtime.putObjectFor data objectType name recipients
          pure object.id)
        (fun id w => Returns id data w ↔
          (Envelope.recipientPubs self.dhPublicKey recipients).length < 65536)
        (fun _ => True) := by
    apply Triple.bind (putObjectFor_holding hash data objectType name recipients)
    intro object
    apply Triple.pure
    intro w ⟨hobject, hholding⟩
    exact returns_of_sealed cipher agreement ideal hobject hholding
  cases write with
  | put => exact hsealed .blob [] ideal
  | putObject objectType => exact hsealed objectType [] ideal
  | putObjectFor objectType recipients => exact hsealed objectType recipients ideal
  | putObjectPublic objectType =>
    apply Triple.bind (putObjectPublic_holding hash data objectType name)
    intro object
    apply Triple.pure
    intro w ⟨hobject, hholding⟩
    exact returns_of_public cipher hobject hholding

end Writes

section Concat

variable {env : Env} {w : Runtime} {ids : List ObjectId} {data : Bytes}

/--
Reading the ids one after the other from `w` returns objects whose data make up `data`.
-/
inductive ReadsInTurn (env : Env) : Runtime → List ObjectId → Bytes → Prop where
  | nil (w : Runtime) : ReadsInTurn env w [] []
  | cons {w v : Runtime} {id : ObjectId} {ids : List ObjectId} {object : Object} {rest : Bytes}
      (hread : exec (readObject id) env w = (.ok object, v)) (hrest : ReadsInTurn env v ids rest) :
      ReadsInTurn env w (id :: ids) (object.payload.data ++ rest)

theorem readsInTurn_of_concatData (h : (exec (concatData ids) env w).1 = .ok data) :
    ReadsInTurn env w ids data := by
  induction ids generalizing w data with
  | nil =>
    cases h
    exact .nil w
  | cons id ids ih =>
    unfold concatData at h
    obtain ⟨object, hread, hrest⟩ := Prog.exec_bind_eq_ok h
    obtain ⟨rest, hmore, hdata⟩ := Prog.exec_bind_eq_ok hrest
    cases hdata
    exact .cons (Prod.ext hread rfl) (ih hmore)

theorem ReadsInTurn.of_stored (h : ReadsInTurn env w ids data)
    (hstored : ∀ id ∈ ids, ∃ object, w.storage.getVerified id = .ok object) :
    ∃ objects : List Object,
      List.Forall₂ (fun id object => ∀ env', exec (readObject id) env' w = (.ok object, w)) ids
        objects ∧
      data = objects.flatMap (·.payload.data) := by
  induction h with
  | nil w => exact ⟨[], .nil, rfl⟩
  | @cons w v id ids object rest hread hrest ih =>
    obtain ⟨stored, hobject⟩ := hstored id List.mem_cons_self
    rw [readObject_of_stored hobject] at hread
    obtain ⟨hopened, rfl⟩ := Prod.mk.inj hread
    obtain ⟨objects, hobjects, hdata⟩ :=
      ih fun other hother => hstored other (List.mem_cons_of_mem id hother)
    refine ⟨object :: objects, .cons ?_ hobjects, by rw [hdata, List.flatMap_cons]⟩
    intro env'
    rw [readObject_of_stored hobject, hopened]

theorem concatObjects_triple (cipher : CipherLaws) (hash : CollisionFree) (name : Option String) :
    Triple env (fun a => a = w) (concatObjects ids name)
      (fun id v => ∃ data, ReadsInTurn env w ids data ∧
        (Returns id data v ↔ Envelope.isEnvelope data = false))
      (fun _ => True) := by
  unfold concatObjects
  split
  . exact Triple.throw fun _ _ => trivial
  apply Triple.bind (Q := fun data v => ReadsInTurn env w ids data ∧ v.identity = w.identity)
  . constructor
    intro a ha
    rw [ha]
    have hidentity := ((ingress_identity env w.identity).keeps_concatData ids).state (s := w) rfl
    have hreads (data : Bytes) : (exec (concatData ids) env w).1 = .ok data →
        ReadsInTurn env w ids data := readsInTurn_of_concatData
    generalize exec (concatData ids) env w = res at hidentity hreads
    rcases res with ⟨_ | data, v⟩
    . trivial
    . exact ⟨hreads data rfl, hidentity⟩
  intro data
  apply Triple.of_and
  intro hreads
  apply Triple.bind (newObject_triple data .blob)
  intro object
  apply Triple.of_and'
  intro hdata
  apply Triple.bind (putVerified_holding object)
  intro _
  apply Triple.of_and
  intro hverify
  have hI := pushes_holding hash env w.identity object.payload
  have hshares := shares_holding w.identity object.payload
  apply Triple.bind ((hI.keeps_nameObject object.id name).conseq (fun _ hv => hv)
    (fun _ _ hv => hv.1) (fun _ _ => trivial))
  intro _
  apply Triple.bind ((hI.keeps_announce hshares object.id).conseq (fun _ hv => hv)
    (fun _ _ hv => hv.1) (fun _ _ => trivial))
  intro _
  apply Triple.bind (((keeps_ofExcept object.export).conseq (fun _ hv => hv)
    (fun _ _ hv => hv.1) (fun _ _ => trivial)))
  intro bundle
  apply Triple.bind ((hI.keeps_replicateObject trivial).attempted)
  intro _
  apply Triple.pure
  intro v hv
  exact ⟨data, hreads, returns_of_public cipher ⟨hverify, hdata⟩ hv⟩

end Concat

/--
What is stored is read back exactly when it is legible: sealed bytes with fewer than 65536 keys,
public bytes and concatenations that do not look like an envelope.
-/
theorem readsBack_iff (cipher : CipherLaws) (agreement : AgreementLaws) (hash : CollisionFree)
    (env : Env) (w : Runtime) :
    (∀ (write : Write) (name : Option String) (data : Bytes) (id : ObjectId),
      (∀ t, Envelope.Ideal
        (Envelope.derivationsFor w.identity w.identity (env.random t) write.recipients)) →
      (exec (write.perform data name) env w).1 = .ok id →
      (Returns id data (exec (write.perform data name) env w).2 ↔
        write.Legible w.identity data)) ∧
    ∀ (ids : List ObjectId) (name : Option String) (id : ObjectId),
      (exec (concatObjects ids name) env w).1 = .ok id →
      ∃ data, ReadsInTurn env w ids data ∧
        (Returns id data (exec (concatObjects ids name) env w).2 ↔
          Envelope.isEnvelope data = false) := by
  constructor
  . intro write name data id ideal hok
    exact (write.returns_triple cipher agreement hash name ideal).ok rfl (Prod.ext hok rfl)
  . intro ids name id hok
    exact (concatObjects_triple cipher hash name).ok rfl (Prod.ext hok rfl)

end Runtime

end Canopee

namespace Canopee.Runtime

open Prog (exec)

section Witness

open Canopee.Transparent

def noteId : ObjectId :=
  (exec (Write.put.perform [7] none) (Env.quiet 0) (fresh alice laptop)).1.toOption.getD ⟨""⟩

theorem noteId_ok :
    (exec (Write.put.perform [7] none) (Env.quiet 0) (fresh alice laptop)).1 = .ok noteId := by
  decide +kernel

theorem readsBack_iff_put : Returns noteId [7]
    (exec (Write.put.perform [7] none) (Env.quiet 0) (fresh alice laptop)).2 := by
  have hputs := (readsBack_iff cipherLaws agreementLaws collisionFree (Env.quiet 0)
    (fresh alice laptop)).1
  refine (hputs .put none [7] noteId ?_ noteId_ok).mpr (by decide)
  intro t
  exact Envelope.ideal_draws (Envelope.eq_of_differEarly (by decide))

end Witness

section Counterexample

open Canopee.Compact

/--
Bytes that begin as an envelope does.
-/
def mimic : Bytes :=
  Envelope.magic ++ List.replicate 40 0

def mimicPublic : Except String Object × Runtime :=
  exec (putObjectPublic mimic .blob none) (Env.quiet 0) (fresh alice laptop)

/--
The same bytes stored sealed, then concatenated with nothing.
-/
def mimicSealed : Except String Object × Runtime :=
  exec (putObject mimic .blob none) (Env.quiet 0) (fresh alice laptop)

def mimicConcat : Except String ObjectId × Runtime :=
  exec (concatObjects (mimicSealed.1.toOption.toList.map (·.id)) none) (Env.quiet 1) mimicSealed.2

theorem mimic_evaluated :
    mimicPublic.1.toOption.map (·.payload.data) = some mimic ∧
      (mimicPublic.1.toOption.bind fun object =>
        (exec (readObject object.id) (Env.quiet 1) mimicPublic.2).1.toOption).isSome = false ∧
      mimicConcat.1.toOption.isSome = true ∧
      (mimicConcat.1.toOption.bind fun id =>
        (exec (readObject id) (Env.quiet 2) mimicConcat.2).1.toOption).isSome = false := by
  decide +kernel

theorem isSome_of_ok {α β : Type} {r : Except String α} {f : α → Option β}
    (h : (r.toOption.bind f).isSome = false) {a : α} (ha : r = .ok a) : (f a).isSome = false := by
  rw [ha] at h
  exact h

/--
The public object and the concatenation are stored and cannot be read.
-/
theorem mimic_not_returned :
    (∀ object, mimicPublic.1 = .ok object → ¬ Returns object.id mimic mimicPublic.2) ∧
      mimicPublic.1.toOption.map (·.payload.data) = some mimic ∧
      (∀ id, mimicConcat.1 = .ok id → ∀ data, ¬ Returns id data mimicConcat.2) ∧
      mimicConcat.1.toOption.isSome = true := by
  obtain ⟨hpublic, hunread, hconcat, hunreadConcat⟩ := mimic_evaluated
  refine ⟨?_, hpublic, ?_, hconcat⟩
  . intro object hobject
    exact not_returns_of_fails (isSome_of_ok hunread hobject)
  . intro id hid data
    exact not_returns_of_fails (isSome_of_ok hunreadConcat hid)

end Counterexample

end Canopee.Runtime
