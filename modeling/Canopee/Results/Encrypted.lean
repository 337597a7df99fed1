import Canopee.Lib.Run
import Canopee.Results.ReadBack
import Canopee.Results.Untracked

/-!
This module contains where the blobs of a node come from: those that it creates are sealed for its
owner and the keys that were asked for, unless they are made public or concatenated.
-/

namespace Canopee

open Primitives
open Canopee.Runtime
open Prog (Keeps Triple exec exec_bind_ok)

variable [Primitives]

/--
The operations that store, hand out and replicate objects.
-/
inductive StoreOp where
  | put (data : Bytes) (name : Option String)
  | putObject (data : Bytes) (objectType : ObjectType) (name : Option String)
  | putObjectFor (data : Bytes) (objectType : ObjectType) (name : Option String)
      (recipients : List Key32)
  | putObjectPublic (data : Bytes) (objectType : ObjectType) (name : Option String)
  | shareObjectFor (name : String) (id : ObjectId) (app : Option String) (recipients : List Key32)
  | concatObjects (ids : List ObjectId) (name : Option String)
  | exportObject (id : ObjectId)
  | objectRequest (request : ObjectRequest)

namespace StoreOp

def perform : StoreOp → RunM Unit
  | put data name => NodeOp.discard (Runtime.put data name)
  | putObject data objectType name => NodeOp.discard (Runtime.putObject data objectType name)
  | putObjectFor data objectType name recipients =>
    NodeOp.discard (Runtime.putObjectFor data objectType name recipients)
  | putObjectPublic data objectType name =>
    NodeOp.discard (Runtime.putObjectPublic data objectType name)
  | shareObjectFor name id app recipients =>
    NodeOp.discard (Runtime.shareObjectFor name id app recipients)
  | concatObjects ids name => NodeOp.discard (Runtime.concatObjects ids name)
  | exportObject id => NodeOp.discard (Runtime.exportObject id)
  | objectRequest request => NodeOp.discard (handleObjectRequest request)

/--
One operation, in the environment `l.2`.
-/
def step (l : StoreOp × Env) (w : Runtime) : Runtime :=
  (exec l.1.perform l.2 w).2

/--
The keys that an operation lists besides the owner's.
-/
def recipients : StoreOp → List Key32
  | putObjectFor _ _ _ recipients => recipients
  | shareObjectFor _ _ _ recipients => recipients
  | _ => []

/--
`data` is an envelope that nobody opens but the owner and those with a listed key.
-/
structure Sealed (own : Identity) (l : StoreOp × Env) (data : Bytes) : Prop where
  envelope : Envelope.isEnvelope data = true
  secret : ∀ reader : Identity,
    (∀ t, Envelope.Ideal (Envelope.derivationsFor own reader (l.2.random t) l.1.recipients)) →
    reader.dhPublicKey ≠ own.dhPublicKey → reader.dhPublicKey ∉ l.1.recipients →
    (Envelope.decryptEnvelope reader data).toOption = none

/--
What an operation may bring into the node: objects of others as they are, objects that were asked to
be public, and sealed ones.
-/
inductive Brings (own : Identity) : StoreOp × Env → Object → Prop where
  | pushed {op env t bundle} (h : .store bundle ∈ env.inbound t) : Brings own (op, env) bundle.object
  | stored {bundle env} : Brings own (.objectRequest (.store bundle), env) bundle.object
  | answered {op env id bundle} (h : Pushes.Answers env id bundle) :
      Brings own (op, env) bundle.object
  | published {data objectType name env object} (h : object.payload.data = data) :
      Brings own (.putObjectPublic data objectType name, env) object
  | enveloped {l object} (h : Sealed own l object.payload.data) : Brings own l object

/--
Every blob of the node, and every blob that it replicated to its peers, satisfies `P` or was there
before.
-/
structure Contained (own : Identity) (P : Object → Prop) (w₀ w : Runtime) : Prop where
  identity : w.identity = own
  stored : ∀ id object, w.storage.getVerified id = .ok object → object.objectType = .blob →
    w₀.storage.getVerified id = .ok object ∨ P object
  replicated : ∀ bundle, .replicated bundle ∈ w.trace → bundle.object.objectType = .blob →
    .replicated bundle ∈ w₀.trace ∨ P bundle.object

/--
The same for what the node hands out.
-/
structure Confidential (own : Identity) (P : Object → Prop) (w₀ w : Runtime) : Prop
    extends Contained own P w₀ w where
  exported : ∀ env id bundle, (exec (Runtime.exportObject id) env w).1 = .ok bundle →
    bundle.object.objectType = .blob →
    w₀.storage.getVerified id = .ok bundle.object ∨ P bundle.object
  served : ∀ env id bundle, (exec (provide id) env w).1 = .ok (some bundle) →
    bundle.object.objectType = .blob →
    w₀.storage.getVerified id = .ok bundle.object ∨ P bundle.object

/--
A concatenation that stores nothing: there is no input, an input cannot be read, or the result
cannot be written.
-/
def StoresNothing : StoreOp × Env → Runtime → Prop
  | (concatObjects ids _, env), w => ids = [] ∨ (exec (concatData ids) env w).1.toBool = false ∨
      env.fault ((exec (concatData ids) env w).2.tick + 1) ≠ none
  | _, _ => True

section Contained

variable {env : Env} {own : Identity} {P : Object → Prop} {w₀ w : Runtime}

theorem Contained.confidential (h : Contained own P w₀ w) : Confidential own P w₀ w where
  toContained := h
  exported := by
    intro env id bundle hexport hblob
    unfold Runtime.exportObject at hexport
    obtain ⟨object, hget, hbundle⟩ := Prog.exec_bind_eq_ok hexport
    rw [exec_getVerified] at hget hbundle
    have hobject := Object.object_of_export_ok (ofExcept_eq_ok.mp hbundle)
    rw [hobject] at hblob ⊢
    exact h.stored id object hget hblob
  served := by
    intro env id bundle hserve hblob
    exact h.stored id bundle.object (provide_eq_some hserve).1 hblob

theorem imports_contained
    (hpushed : ∀ t bundle, .store bundle ∈ env.inbound t → P bundle.object)
    (hanswered : ∀ id bundle, Pushes.Answers env id bundle → P bundle.object) :
    Imports env (Contained own P w₀) (fun object => object.objectType = .blob → P object) where
  frame w w' hsame hw := {
    identity := hsame.identity.trans hw.identity
    stored := by
      intro id object hget
      rw [Storage.getVerified_congr (t := w.storage) (by rw [hsame.files])] at hget
      exact hw.stored id object hget
    replicated := fun bundle hbundle => hw.replicated bundle (hsame.replicated bundle hbundle) }
  put w object hverify hok hw := {
    identity := hw.identity
    stored := by
      intro id found hget hblob
      by_cases hid : id = object.id
      . rw [hid] at hget
        have hfound := hget.symm.trans (Storage.getVerified_write_self w.storage hverify)
        rw [Except.ok.injEq] at hfound
        rw [hfound] at hblob ⊢
        exact .inr (hok hblob)
      . rw [storeObject, Storage.getVerified_write_of_ne w.storage hid] at hget
        exact hw.stored id found hget hblob
    replicated := hw.replicated }
  pushed t bundle hpush _ _ := hpushed t bundle hpush
  track _ _ _ _ _ _ hw := ⟨hw.identity, hw.stored, hw.replicated⟩
  touch _ _ _ _ hw := ⟨hw.identity, hw.stored, hw.replicated⟩
  flush _ hw := ⟨hw.identity, hw.stored, hw.replicated⟩
  replicate w bundle hok hw := {
    identity := hw.identity
    stored := hw.stored
    replicated := by
      intro other hother hblob
      rcases List.mem_append.mp hother with hold | hnew
      . exact hw.replicated other hold hblob
      . cases List.mem_singleton.mp hnew
        exact .inr (hok hblob) }
  answered id bundle hanswer _ _ := hanswered id bundle hanswer

theorem saves_contained
    (h : Pushes env (Contained own P w₀) (fun object => object.objectType = .blob → P object)) :
    Saves env (Contained own P w₀) (fun object => object.objectType = .blob → P object) where
  toPushes := h
  pointer _ _ _ hblob := nomatch hblob
  home _ _ _ hblob := nomatch hblob
  record _ _ _ hw := ⟨hw.identity, hw.stored, hw.replicated⟩
  share _ _ hw := ⟨hw.identity, hw.stored, hw.replicated⟩
  unshare _ _ hw := ⟨hw.identity, hw.stored, hw.replicated⟩
  erase _ _ hw := {
    identity := hw.identity
    stored := fun other object hget => hw.stored other object (Storage.getVerified_erase hget)
    replicated := hw.replicated }
  untrack _ _ hw := ⟨hw.identity, hw.stored, hw.replicated⟩

theorem sealed_of_encrypted (cipher : CipherLaws) (agreement : AgreementLaws) {l : StoreOp × Env}
    {data bytes : Bytes} {t : Nat}
    (h : Envelope.encryptForRecipients own (l.2.random t) data l.1.recipients = .ok bytes) :
    Sealed own l bytes where
  envelope := Envelope.isEnvelope_encrypted cipher h
  secret := by
    intro reader ideal hown hlisted
    apply Envelope.not_decryptEnvelope_of_stranger cipher agreement h (ideal t)
    rw [Envelope.mem_recipientPubs]
    intro hmem
    rcases hmem with heq | hmem
    . exact hown heq
    . exact hlisted hmem

variable {ok : Object → Prop}

theorem keeps_putObjectFor (h : Pushes env (Contained own P w₀) ok) (data : Bytes)
    (objectType : ObjectType) (name : Option String) (recipients : List Key32)
    (hok : ∀ t object, Envelope.encryptForRecipients own (env.random t) data recipients =
      .ok object.payload.data → ok object) :
    Keeps env (Contained own P w₀) (Runtime.putObjectFor data objectType name recipients) := by
  apply Keeps.bind_get
  intro w hw
  apply Keeps.bind h.keeps_now
  intro time _
  apply Keeps.bind (Q := fun bytes =>
    ∃ t, Envelope.encryptForRecipients own (env.random t) data recipients = .ok bytes)
  . have hrandom : Keeps env (Contained own P w₀) random (fun draws => ∃ t, draws = env.random t) := by
      constructor
      intro v hv
      exact ⟨h.frame v _ (.tick v) hv, v.tick, rfl⟩
    apply Keeps.bind_get
    intro v hv
    apply Keeps.bind hrandom
    intro draws ⟨t, hdraws⟩
    rw [hv.identity, hdraws]
    split
    . next hsealed => exact Keeps.pure ⟨t, hsealed⟩
    . exact Keeps.throw
  intro bytes ⟨t, hsealed⟩
  apply Keeps.bind (h.keeps_putVerified fun _ => hok t _ hsealed)
  intro _ _
  apply Keeps.bind (h.keeps_nameObject _ name)
  intro _ _
  exact Keeps.pure trivial

theorem keeps_putObjectPublic (h : Pushes env (Contained own P w₀) ok) (data : Bytes)
    (objectType : ObjectType) (name : Option String)
    (hok : ∀ object : Object, object.payload.data = data → ok object) :
    Keeps env (Contained own P w₀) (Runtime.putObjectPublic data objectType name) := by
  apply Keeps.bind (Q := fun object => object.payload.data = data)
  . apply Keeps.bind h.keeps_now
    intro time _
    apply Keeps.bind_get
    intro w _
    exact Keeps.pure rfl
  intro object hdata
  apply Keeps.bind (h.keeps_putVerified fun _ => hok object hdata)
  intro _ _
  apply Keeps.bind (h.keeps_nameObject _ name)
  intro _ _
  exact Keeps.pure trivial

theorem keeps_shareObjectFor
    (h : Pushes env (Contained own P w₀) (fun object => object.objectType = .blob → P object))
    (name : String) (id : ObjectId) (app : Option String) (recipients : List Key32)
    (hok : ∀ t data object, Envelope.encryptForRecipients own (env.random t) data recipients =
      .ok object.payload.data → P object) :
    Keeps env (Contained own P w₀) (Runtime.shareObjectFor name id app recipients) := by
  have hsaves := saves_contained h
  apply Keeps.bind (Q := fun _ => True)
  . apply Keeps.bind (keeps_getVerified id)
    intro object _
    apply Keeps.bind (Q := fun _ => True)
    . unfold copyFor
      split
      . exact Keeps.pure trivial
      . apply Keeps.bind (keeps_openObject object)
        intro opened _
        apply Keeps.bind
        . apply keeps_putObjectFor h
          intro t sealed hsealed _
          exact hok t _ sealed hsealed
        . intro _ _
          exact Keeps.pure trivial
    . intro sharedId _
      apply Keeps.bind hsaves.keeps_loadHomeIndex
      intro index _
      exact Keeps.pure trivial
  . intro loaded _
    exact hsaves.keeps_shareObjectForPublish name app loaded

theorem triple_putVerified_fault (h : Pushes env (Contained own P w₀) ok) (object : Object) :
    Triple env (fun v => Contained own P w₀ v ∧ env.fault v.tick ≠ none) (putVerified object)
      (fun _ _ => False) (Contained own P w₀) := by
  unfold putVerified
  split
  . exact Triple.throw fun v hv => hv.1
  . constructor
    intro v ⟨hv, hfault⟩
    cases hwrite : env.fault v.tick with
    | none => contradiction
    | some fault =>
      rw [exec_writeAtomic_of_some hwrite]
      exact h.frame v _ (.tick v) hv

/--
A concatenation that does not get to write its result leaves nothing of it.
-/
theorem contained_concatObjects
    (h : Imports env (Contained own P w₀) (fun object => object.objectType = .blob → P object))
    {ids : List ObjectId} {name : Option String}
    (hnothing : StoresNothing (.concatObjects ids name, env) w) (hw : Contained own P w₀ w) :
    Contained own P w₀ (exec (Runtime.concatObjects ids name) env w).2 := by
  have hread := (h.keeps_concatData ids).state hw
  unfold Runtime.concatObjects
  split
  . exact hw
  . next hids =>
    rw [Prog.exec_bind]
    rcases hnothing with hempty | hunread | hfault
    . rw [hempty] at hids
      contradiction
    . generalize exec (concatData ids) env w = res at hread hunread
      rcases res with ⟨_ | data, v⟩
      . exact hread
      . contradiction
    . generalize exec (concatData ids) env w = res at hread hfault
      rcases res with ⟨_ | data, v⟩
      . exact hread
      . apply Triple.state (P := fun a => a = v) _ rfl
        -- one tick passes until the write, for the time of the new object
        apply Triple.bind (Q := fun _ a => Contained own P w₀ a ∧ env.fault a.tick ≠ none)
        . constructor
          intro a ha
          rw [ha]
          exact ⟨h.frame v _ (.tick v) hread, hfault⟩
        intro object
        apply Triple.bind (triple_putVerified_fault h.toPushes object)
        intro _
        exact ⟨fun _ hfalse => hfalse.elim⟩

end Contained

section Steps

variable {own : Identity} {w₀ w : Runtime} {ls : List (StoreOp × Env)}

/--
What one of the operations brings into the node.
-/
def BroughtBy (own : Identity) (ls : List (StoreOp × Env)) (object : Object) : Prop :=
  ∃ l ∈ ls, Brings own l object

theorem step_contained (cipher : CipherLaws) (agreement : AgreementLaws) {l : StoreOp × Env}
    (hl : l ∈ ls) (hnothing : StoresNothing l w) (hw : Contained own (BroughtBy own ls) w₀ w) :
    Contained own (BroughtBy own ls) w₀ (step l w) := by
  have h : Imports l.2 (Contained own (BroughtBy own ls) w₀)
      (fun object => object.objectType = .blob → BroughtBy own ls object) :=
    imports_contained (fun _ _ hpushed => ⟨l, hl, .pushed hpushed⟩)
      fun _ _ hanswer => ⟨l, hl, .answered hanswer⟩
  have hsealed {t : Nat} {data : Bytes} {object : Object} (hencrypted :
      Envelope.encryptForRecipients own (l.2.random t) data l.1.recipients =
        .ok object.payload.data) : BroughtBy own ls object :=
    ⟨l, hl, .enveloped (sealed_of_encrypted cipher agreement hencrypted)⟩
  obtain ⟨op, env⟩ := l
  cases op with
  | put data name =>
    have hkeeps := keeps_putObjectFor h.toPushes data .blob name [] fun _ _ hdata _ => hsealed hdata
    have hput : Keeps env (Contained own (BroughtBy own ls) w₀) (Runtime.put data name) :=
      Keeps.bind hkeeps fun _ _ => Keeps.pure trivial
    exact (NodeOp.keeps_discard hput).state hw
  | putObject data objectType name =>
    exact (NodeOp.keeps_discard (keeps_putObjectFor h.toPushes data objectType name []
      fun _ _ hdata _ => hsealed hdata)).state hw
  | putObjectFor data objectType name recipients =>
    exact (NodeOp.keeps_discard (keeps_putObjectFor h.toPushes data objectType name recipients
      fun _ _ hdata _ => hsealed hdata)).state hw
  | putObjectPublic data objectType name =>
    exact (NodeOp.keeps_discard (keeps_putObjectPublic h.toPushes data objectType name
      fun _ hdata _ => ⟨_, hl, .published hdata⟩)).state hw
  | shareObjectFor name id app recipients =>
    exact (NodeOp.keeps_discard (keeps_shareObjectFor h.toPushes name id app recipients
      fun _ _ _ hdata => hsealed hdata)).state hw
  | concatObjects ids name =>
    rw [step, perform, NodeOp.exec_discard]
    exact contained_concatObjects h hnothing hw
  | exportObject id =>
    have hexport : Keeps env (Contained own (BroughtBy own ls) w₀) (Runtime.exportObject id) := by
      apply Keeps.bind (keeps_getVerified id)
      intro object _
      exact (keeps_ofExcept _).weaken fun _ _ => trivial
    exact (NodeOp.keeps_discard hexport).state hw
  | objectRequest request =>
    have hrequest : Keeps env (Contained own (BroughtBy own ls) w₀) (handleObjectRequest request) :=
      h.keeps_handleObjectRequest fun bundle hstore _ _ => ⟨_, hstore ▸ hl, .stored⟩
    exact (NodeOp.keeps_discard hrequest).state hw

/--
In a run in which no concatenation stores its result, every blob that the node holds, exports, serves
or replicates was there at first, came from somebody else, was asked to be public, or is sealed for
the owner and the listed keys.
-/
theorem run_confidential (cipher : CipherLaws) (agreement : AgreementLaws) (w : Runtime)
    (ls : List (StoreOp × Env)) (hnothing : Run.Along step StoresNothing w ls) :
    Run.Always step (Confidential w.identity (BroughtBy w.identity ls) w) w ls := by
  have hmem : Run.Along step (fun l _ => l ∈ ls) w ls :=
    Run.along_of_forall (fun _ hl _ => hl) w
  have hstart : Contained w.identity (BroughtBy w.identity ls) w w :=
    ⟨rfl, fun _ _ hget _ => .inl hget, fun _ hbundle _ => .inl hbundle⟩
  have hruns := (hmem.and hnothing).always hstart fun l v hl hv =>
    step_contained cipher agreement hl.1 hl.2 hv
  exact hruns.mono fun v hv => hv.confidential

end Steps

end StoreOp

end Canopee

namespace Canopee.StoreOp

open Canopee.Runtime
open Prog (exec)

section Witness

open Canopee.Transparent

/--
A note is stored sealed, and an object that is not there is exported and concatenated.
-/
def sealedRun : List (StoreOp × Env) :=
  [(.put [7] none, Env.quiet 0), (.exportObject ⟨"00"⟩, Env.quiet 1),
    (.concatObjects [⟨"00"⟩] none, Env.quiet 2)]

theorem run_confidential_sealedRun :
    Run.Always step (Confidential alice (BroughtBy alice sealedRun) (fresh alice laptop))
      (fresh alice laptop) sealedRun :=
  run_confidential cipherLaws agreementLaws (fresh alice laptop) sealedRun
    ⟨trivial, trivial, .inr (.inl (by decide +kernel)), trivial⟩

end Witness

section Counterexample

variable [Primitives] {own : Identity} {P : Object → Prop} {w₀ w : Runtime}

def replications (w : Runtime) : List ExportBundle :=
  w.trace.filterMap fun event =>
    match event with
    | .replicated bundle => some bundle
    | _ => none

theorem mem_replications {bundle : ExportBundle} (h : bundle ∈ replications w) :
    .replicated bundle ∈ w.trace := by
  obtain ⟨event, hevent, hsome⟩ := List.mem_filterMap.mp h
  cases event with
  | replicated other =>
    rw [Option.some.injEq] at hsome
    rw [← hsome]
    exact hevent
  | _ => contradiction

theorem not_confidential_of_replications {data : Bytes} (hfirst : w₀.trace = [])
    (hdata : (replications w).map (·.object.payload.data) = [data])
    (htype : (replications w).map (·.object.objectType) = [.blob])
    (hP : ∀ object : Object, object.payload.data = data → ¬ P object) :
    ¬ Confidential own P w₀ w := by
  intro h
  obtain ⟨bundle, hbundle⟩ : ∃ bundle, replications w = [bundle] :=
    List.length_eq_one_iff.mp (by simpa using congrArg List.length hdata)
  rw [hbundle, List.map_singleton, List.singleton_inj] at hdata htype
  have hmem := mem_replications (hbundle ▸ List.mem_singleton_self bundle)
  rcases h.replicated bundle hmem htype with hold | hnew
  . rw [hfirst] at hold
    contradiction
  . exact hP _ hdata hnew

theorem not_brings_of_plain (op : StoreOp) {time : Int} {object : Object}
    (hpublic : ∀ data objectType name, op ≠ .putObjectPublic data objectType name)
    (hrequest : ∀ request, op ≠ .objectRequest request)
    (hplain : Envelope.isEnvelope object.payload.data = false) :
    ¬ Brings own (op, Env.quiet time) object := by
  intro h
  cases h with
  | pushed hpushed => contradiction
  | stored => exact hrequest _ rfl
  | answered hanswer =>
    obtain ⟨_, _, hanswer⟩ := hanswer
    contradiction
  | published => exact hpublic _ _ _ rfl
  | enveloped hsealed =>
    rw [hsealed.envelope] at hplain
    contradiction

/--
A note is stored sealed and concatenated with nothing.
-/
def leakyRun (ids : List ObjectId) : List (StoreOp × Env) :=
  [(.put [7] none, Env.quiet 0), (.concatObjects ids none, Env.quiet 1)]

theorem not_broughtBy_leakyRun {ids : List ObjectId} {object : Object}
    (h : object.payload.data = [7]) : ¬ BroughtBy own (leakyRun ids) object := by
  intro ⟨l, hl, hbrings⟩
  have hplain : Envelope.isEnvelope object.payload.data = false := by
    rw [h]
    rfl
  rcases List.mem_cons.mp hl with hput | hconcat
  . rw [hput] at hbrings
    exact not_brings_of_plain (.put [7] none) nofun nofun hplain hbrings
  . rw [List.mem_singleton.mp hconcat] at hbrings
    exact not_brings_of_plain (.concatObjects ids none) nofun nofun hplain hbrings

end Counterexample

section Counterexample

open Canopee.Compact

def noteIds : List ObjectId :=
  (exec (Runtime.put [7] none) (Env.quiet 0) (fresh alice laptop)).1.toOption.toList

def leaked : Runtime :=
  Run.run step (fresh alice laptop) (leakyRun noteIds)

theorem leaked_evaluated :
    (replications leaked).map (·.object.payload.data) = [[7]] ∧
      (replications leaked).map (·.object.objectType) = [.blob] ∧
      ((replications leaked).map fun bundle =>
        (leaked.storage.getVerified bundle.object.id).toOption.map (·.payload.data)) =
          [some [7]] ∧
      (noteIds.map fun id => (leaked.storage.getVerified id).toOption.map fun object =>
        Envelope.isEnvelope object.payload.data) = [some true] := by
  decide +kernel

/--
The note is sealed; its concatenation is stored and replicated in clear.
-/
theorem leakyRun_not_confidential :
    ((noteIds.map fun id => (leaked.storage.getVerified id).toOption.map fun object =>
        Envelope.isEnvelope object.payload.data) = [some true] ∧
      ((replications leaked).map fun bundle =>
        (leaked.storage.getVerified bundle.object.id).toOption.map (·.payload.data)) =
          [some [7]]) ∧
      ¬ Run.Always step
        (Confidential alice (BroughtBy alice (leakyRun noteIds)) (fresh alice laptop))
        (fresh alice laptop) (leakyRun noteIds) := by
  obtain ⟨hdata, htype, hstored, hnote⟩ := leaked_evaluated
  refine ⟨⟨hnote, hstored⟩, ?_⟩
  intro hconfidential
  exact not_confidential_of_replications rfl hdata htype
    (fun _ hobject => not_broughtBy_leakyRun hobject) hconfidential.last

end Counterexample

end Canopee.StoreOp
