import Canopee.Results.Dangling

/-!
This module contains what an id says about the bytes that are stored under it, and when storing an
object changes what is stored under its id already.
-/

namespace Canopee

open Primitives
open Canopee.Runtime
open Prog (exec exec_bind exec_bind_ok exec_bind_error)

variable [Primitives]

theorem Object.serialize_eq_iff (hash : CollisionFree) {a b : Object} (hid : a.id = b.id)
    (ha : a.verify = true) (hb : b.verify = true) :
    Object.codec.serialize a = Object.codec.serialize b ↔
      a.publicKey = b.publicKey ∧ a.signature = b.signature := by
  have hpayload : a.payload = b.payload := by
    rw [Object.id_of_verify ha, Object.id_of_verify hb, ObjectId.fromPayload_inj hash] at hid
    exact hid
  rw [Codec.serialize_inj]
  constructor
  . intro h
    rw [h]
    exact ⟨rfl, rfl⟩
  . intro ⟨hkey, hsignature⟩
    cases a
    cases b
    simp_all

namespace Runtime

section Files

variable {env : Env} {w : Runtime}

theorem files_putVerified (object : Object) (env : Env) (w : Runtime) :
    (exec (putVerified object) env w).2.storage.files =
      if object.verify = true ∧ env.fault w.tick = none then (w.storage.write object).files
      else w.storage.files := by
  unfold putVerified
  cases hverify : object.verify with
  | false => simp
  | true =>
    simp only [Bool.not_true, Bool.false_eq_true, if_false, true_and]
    cases hfault : env.fault w.tick with
    | none =>
      rw [exec_writeAtomic_of_none hfault]
      rfl
    | some fault =>
      rw [exec_writeAtomic_of_some hfault]
      rfl

theorem files_bind {α β : Type} {m : RunM α} {f : α → RunM β}
    (h : ∀ a u, (exec (f a) env u).2.storage.files = u.storage.files) :
    (exec (m >>= f) env w).2.storage.files = (exec m env w).2.storage.files := by
  rw [exec_bind]
  generalize exec m env w = res
  rcases res with ⟨_ | a, u⟩
  . rfl
  . exact h a u

theorem files_nameObject (id : ObjectId) (name : Option String) (env : Env) (w : Runtime) :
    (exec (nameObject id name) env w).2.storage.files = w.storage.files := by
  cases name with
  | none => rfl
  | some name =>
    unfold nameObject setName writeInPlace
    dsimp only
    rw [exec_bind_ok (exec_nextTick env w), exec_bind_ok (Prog.exec_read env _)]
    rcases env.fault w.tick with _ | _ | n
    . rfl
    . rfl
    . rfl

theorem files_markCached (id : ObjectId) (env : Env) (w : Runtime) :
    (exec (markCached id) env w).2.storage.files = w.storage.files := by
  unfold markCached
  rw [exec_bind_ok (exec_now env w), exec_bind_ok (Prog.exec_modify _ env _)]
  obtain ⟨r, t, hpersist, hdisk, _⟩ := exec_persist env { w with
    tick := w.tick + 1, cache := w.cache.insert id.text (asU64 (env.clock w.tick)) }
  rw [exec_bind_ok hpersist]
  exact hdisk.files

theorem files_acceptPush (object : Object) (env : Env) (w : Runtime) :
    (exec (acceptPush object) env w).2.storage.files =
      (exec (putVerified object) env w).2.storage.files := by
  unfold acceptPush
  apply files_bind
  intro _ u
  rw [exec_bind_ok (exec_isOwned object env u)]
  split
  . rfl
  . exact files_markCached object.id env u

end Files

end Runtime

namespace NodeOp

section Writes

variable {l : NodeOp × Env} {w : Runtime}

/--
The puts, imports and pushes, and the deletion of an object.
-/
def Writes : NodeOp → Prop
  | putObjectFor _ _ _ _ => True
  | putObjectPublic _ _ _ => True
  | importBundle _ => True
  | objectRequest (.store _) => True
  | evict _ => True
  | _ => False

/--
The object that a request puts into the store if it is valid, and the tick at which it is written.
-/
def putting : NodeOp × Env → Runtime → Option (Nat × Object)
  | (putObjectFor data objectType _ recipients, env), w =>
    match Envelope.encryptForRecipients w.identity (env.random (w.tick + 1)) data recipients with
    | .ok sealed =>
      let object := Object.new w.identity (env.clock w.tick) data objectType
      some (w.tick + 2,
        resealed w.identity { object with payload := { object.payload with data := sealed } })
    | .error _ => none
  | (putObjectPublic data objectType _, env), w =>
    some (w.tick + 1, Object.new w.identity (env.clock w.tick) data objectType)
  | (importBundle bundle, _), w =>
    if w.storage.existsObject bundle.object.id then none else some (w.tick, bundle.object)
  | (objectRequest (.store bundle), _), w => some (w.tick, bundle.object)
  | _, _ => none

/--
A valid object whose file is as `put_verified` leaves it.
-/
def StoredAs (object : Object) (w : Runtime) : Prop :=
  w.storage.files.lookup object.id.text = some (Object.codec.serialize object) ∧
    object.verify = true

/--
The files after a request that puts an object.
-/
def filesAfter (l : NodeOp × Env) (w : Runtime) : Files :=
  match putting l w with
  | some (t, object) =>
    if object.verify = true ∧ l.2.fault t = none then (w.storage.write object).files
    else w.storage.files
  | none => w.storage.files

/--
A request that writes hands one object to `put_verified` at most.
-/
theorem files_step (hwrites : Writes l.1) (hevict : ∀ id, l.1 ≠ .evict id) :
    (step l w).storage.files = filesAfter l w := by
  obtain ⟨op, env⟩ := l
  have hnamed (object : Object) (name : Option String) (u : Runtime) :
      (exec (do
        putVerified object
        nameObject object.id name
        pure object) env u).2.storage.files = (exec (putVerified object) env u).2.storage.files := by
    apply files_bind
    intro _ v
    rw [files_bind fun _ _ => rfl]
    exact files_nameObject object.id name env v
  cases op with
  | putObjectFor data objectType name recipients =>
    simp only [step, perform, exec_discard, filesAfter, putting]
    unfold Runtime.putObjectFor sealData
    rw [exec_bind_ok (Prog.exec_get env w), exec_bind_ok (exec_now env w), Prog.bind_assoc,
      exec_bind_ok (Prog.exec_get env _), Prog.bind_assoc]
    unfold random
    rw [Prog.bind_assoc, exec_bind_ok (exec_nextTick env _), Prog.bind_assoc,
      exec_bind_ok (Prog.exec_read env _), exec_bind_ok (Prog.exec_pure _ env _)]
    dsimp only
    cases Envelope.encryptForRecipients w.identity (env.random (w.tick + 1)) data recipients with
    | error e =>
      rw [exec_bind_error (Prog.exec_throw _ env _)]
    | ok sealed =>
      rw [exec_bind_ok (Prog.exec_pure _ env _), hnamed, files_putVerified]
  | putObjectPublic data objectType name =>
    simp only [step, perform, exec_discard, filesAfter, putting]
    unfold Runtime.putObjectPublic newObject
    rw [Prog.bind_assoc, exec_bind_ok (exec_now env w), Prog.bind_assoc,
      exec_bind_ok (Prog.exec_get env _), exec_bind_ok (Prog.exec_pure _ env _)]
    rw [hnamed, files_putVerified]
  | importBundle bundle =>
    simp only [step, perform, filesAfter, putting]
    unfold Runtime.importBundle
    rw [exec_bind_ok (Prog.exec_get env w)]
    cases hexists : w.storage.existsObject bundle.object.id with
    | true => simp
    | false =>
      simp only [Bool.false_eq_true, if_false]
      rw [exec_bind_ok (exec_isOwned _ env w), files_bind, files_putVerified]
      intro _ u
      split
      . rfl
      . exact files_markCached _ env u
  | objectRequest request =>
    cases request with
    | getObject id => exact hwrites.elim
    | store bundle =>
      simp only [step, perform, exec_discard, filesAfter, putting]
      unfold handleObjectRequest
      dsimp only
      rw [files_bind]
      . rw [Prog.exec_attempt, files_acceptPush, files_putVerified]
      . intro r u
        split
        . rfl
        . rfl
  | evict id => exact absurd rfl (hevict id)
  | _ => exact hwrites.elim

/--
What is stored under an id stays as it is, or it is deleted.
-/
def Immutable (l : NodeOp × Env) (w : Runtime) : Prop :=
  ∀ object, StoredAs object w → StoredAs object (step l w) ∨
    (l.1 = .evict object.id ∧ (step l w).storage.files.lookup object.id.text = none)

/--
What is put into the store under an id that an object is stored under has its key and its signature.
-/
def Faithful (l : NodeOp × Env) (w : Runtime) : Prop :=
  ∀ t object, putting l w = some (t, object) → object.verify = true → l.2.fault t = none →
    ∀ stored, StoredAs stored w → stored.id = object.id →
      stored.publicKey = object.publicKey ∧ stored.signature = object.signature

theorem immutable_iff_faithful (hash : CollisionFree) (hwrites : Writes l.1) :
    Immutable l w ↔ Faithful l w := by
  by_cases hevict : ∃ id, l.1 = .evict id
  . obtain ⟨id, hop⟩ := hevict
    obtain ⟨op, env⟩ := l
    dsimp only at hop
    subst hop
    -- a deletion puts nothing, and it takes away no more than its own object
    apply iff_of_true
    . intro object hstored
      simp only [step, perform]
      rcases exec_evict id env w with ⟨_, hexec⟩ | ⟨t, hexec, hevicted⟩
      . rw [hexec]
        exact .inl hstored
      . rw [hexec]
        unfold StoredAs
        rw [hevicted.files]
        by_cases hid : object.id = id
        . right
          rw [hid]
          exact ⟨rfl, AList.lookup_erase _ _⟩
        . left
          refine ⟨?_, hstored.2⟩
          rw [← hstored.1]
          apply AList.lookup_erase_ne
          rwa [ne_eq, ObjectId.text_inj]
    . intro t object hputting
      cases hputting
  . rw [not_exists] at hevict
    unfold Immutable StoredAs
    rw [files_step hwrites hevict]
    unfold filesAfter
    constructor
    . intro h t object hputting hverify hfault stored hstored hid
      rcases h stored hstored with ⟨hlookup, _⟩ | ⟨hop, _⟩
      . rw [hputting] at hlookup
        simp only [hverify, hfault, and_self, if_true, Storage.write] at hlookup
        rw [hid, AList.lookup_insert, Option.some.injEq] at hlookup
        exact (Object.serialize_eq_iff hash hid hstored.2 hverify).mp hlookup.symm
      . exact absurd hop (hevict _)
    . intro h stored hstored
      left
      refine ⟨?_, hstored.2⟩
      cases hputting : putting l w with
      | none => exact hstored.1
      | some put =>
        obtain ⟨t, object⟩ := put
        dsimp only
        split
        . next hwritten =>
          dsimp only [Storage.write]
          by_cases hid : stored.id = object.id
          . have hsame := h t object hputting hwritten.1 hwritten.2 stored hstored hid
            rw [hid, AList.lookup_insert,
              (Object.serialize_eq_iff hash hid hstored.2 hwritten.1).mpr hsame]
          . rw [AList.lookup_insert_ne]
            . exact hstored.1
            . rwa [ne_eq, ObjectId.text_inj]
        . exact hstored.1

/--
The bytes under an id are those of one signer: two valid objects with one id have the same bytes just
if their keys and signatures are the same, and requests that write leave what is stored as it is just
if they put nothing else under its id.
-/
theorem id_determines_bytes_iff (hash : CollisionFree) :
    (∀ a b : Object, a.id = b.id → a.verify = true → b.verify = true →
      (Object.codec.serialize a = Object.codec.serialize b ↔
        a.publicKey = b.publicKey ∧ a.signature = b.signature)) ∧
    ∀ w ls, (∀ l ∈ ls, Writes l.1) →
      (Run.Along step Immutable w ls ↔ Run.Along step Faithful w ls) := by
  constructor
  . intro a b hid ha hb
    exact Object.serialize_eq_iff hash hid ha hb
  . intro w ls hwrites
    apply Run.along_iff (A := fun l _ => Writes l.1) (I := fun _ => True) _ trivial
    . intro l t hl _
      exact immutable_iff_faithful hash hl
    . intro _ _ _ _ _
      trivial
    . exact Run.along_of_forall (fun l hl _ => hwrites l hl) w

end Writes

end NodeOp

end Canopee

namespace Canopee.NodeOp

open Canopee.Transparent
open Canopee.Runtime (fresh)

section Pushes

/--
An object of Alice's, as she signed it and as Bob signed it again.
-/
def asSigned : Object :=
  Object.new alice 0 [7] .blob

def reSigned : Object :=
  .signed bob asSigned.payload

def pushing (object : Object) : NodeOp × Env :=
  (.objectRequest (.store ⟨1, object⟩), Env.quiet 0)

theorem verify_asSigned : asSigned.verify = true :=
  Object.verify_new signatureLaws alice 0 [7] .blob

theorem verify_reSigned : reSigned.verify = true :=
  Object.verify_signed signatureLaws bob asSigned.payload

theorem putting_pushing (object : Object) (w : Runtime) :
    putting (pushing object) w = some (w.tick, object) := rfl

theorem lookup_pushing {object : Object} (hverify : object.verify = true) (w : Runtime) :
    (step (pushing object) w).storage.files.lookup object.id.text =
      some (Object.codec.serialize object) := by
  have hwrites : Writes (pushing object).1 := trivial
  rw [files_step hwrites (by intro id hop; cases hop)]
  simp [filesAfter, putting, pushing, hverify, Env.quiet, Storage.write]

theorem eq_of_pushing {object stored : Object} (hverify : object.verify = true) {w : Runtime}
    (hstored : StoredAs stored (step (pushing object) w)) (hid : stored.id = object.id) :
    stored = object := by
  have hlookup := hstored.1
  rw [hid, lookup_pushing hverify, Option.some.injEq, Codec.serialize_inj] at hlookup
  exact hlookup.symm

/--
Pushing an object twice leaves it as it is.
-/
theorem id_determines_bytes_iff_twice :
    Run.Along step Immutable (fresh bob laptop) [pushing asSigned, pushing asSigned] := by
  apply ((id_determines_bytes_iff collisionFree).2 (fresh bob laptop) _ _).mpr
  . refine ⟨?_, ?_, trivial⟩
    . intro t object _ _ _ stored hstored
      exact absurd hstored.1 (by simp [fresh, Storage.empty])
    . intro t object hputting _ _ stored hstored hid
      rw [putting_pushing, Option.some.injEq, Prod.mk.injEq] at hputting
      rw [← hputting.2] at hid ⊢
      rw [eq_of_pushing verify_asSigned hstored hid]
      exact ⟨rfl, rfl⟩
  . intro l hl
    simp only [List.mem_cons, List.not_mem_nil, or_false, or_self] at hl
    rw [hl]
    trivial

/--
Both versions are valid under one id, and the second replaces the first.
-/
theorem not_id_determines_bytes :
    (asSigned.id = reSigned.id ∧ asSigned.verify = true ∧ reSigned.verify = true ∧
      Object.codec.serialize asSigned ≠ Object.codec.serialize reSigned) ∧
      ¬ Run.Along step Immutable (fresh bob laptop) [pushing asSigned, pushing reSigned] := by
  have hid : asSigned.id = reSigned.id :=
    (Object.id_of_verify verify_asSigned).trans (Object.signed_id bob asSigned.payload).symm
  have hkey : asSigned.publicKey ≠ reSigned.publicKey := by decide
  have hbytes : Object.codec.serialize asSigned ≠ Object.codec.serialize reSigned := by
    rw [ne_eq, Codec.serialize_inj]
    exact fun heq => hkey (congrArg Object.publicKey heq)
  refine ⟨⟨hid, verify_asSigned, verify_reSigned, hbytes⟩, ?_⟩
  intro ⟨_, himmutable, _⟩
  rcases himmutable asSigned ⟨lookup_pushing verify_asSigned _, verify_asSigned⟩ with
    hstored | ⟨hop, _⟩
  . have hlookup := hstored.1
    rw [hid, lookup_pushing verify_reSigned, Option.some.injEq] at hlookup
    exact hbytes hlookup.symm
  . cases hop

end Pushes

end Canopee.NodeOp
