import Canopee.Runtime.Records

/-!
This module contains what a node puts into the DHT: only publishing a pointer puts a record there.
-/

namespace Canopee

open Prog (Keeps Triple exec exec_bind_ok)

variable [Primitives]

namespace Runtime

/--
The records that the node has put into the DHT, oldest first.
-/
def puts (w : Runtime) : List (Bytes × Bytes) :=
  w.trace.filterMap fun
    | .putRecord key value => some (key, value)
    | _ => none

/--
The node has this identity and has put these records.
-/
structure HasPut (own : Identity) (records : List (Bytes × Bytes)) (w : Runtime) : Prop where
  identity : w.identity = own
  puts : puts w = records

variable {env : Env} {own : Identity} {records : List (Bytes × Bytes)}

section Keeps

theorem hasPut_modify {f : Runtime → Runtime}
    (hf : ∀ w, (f w).identity = w.identity ∧ (f w).trace = w.trace) :
    Keeps env (HasPut own records) (modify f : RunM PUnit) := by
  apply Keeps.modify
  intro w hw
  refine ⟨(hf w).1.trans hw.identity, ?_⟩
  rw [Runtime.puts, (hf w).2]
  exact hw.puts

theorem hasPut_log {event : NetEvent} (h : ∀ key value, event ≠ .putRecord key value) :
    Keeps env (HasPut own records) (modify (log event) : RunM PUnit) := by
  apply Keeps.modify
  intro w hw
  refine ⟨hw.identity, ?_⟩
  rw [← hw.puts, puts, log, List.filterMap_append]
  cases event with
  | putRecord key value => exact absurd rfl (h key value)
  | _ => exact List.append_nil _

theorem hasPut_nextTick : Keeps env (HasPut own records) nextTick := by
  constructor
  intro w hw
  exact ⟨⟨hw.identity, hw.puts⟩, trivial⟩

theorem hasPut_now : Keeps env (HasPut own records) now := by
  apply Keeps.bind hasPut_nextTick
  intro t _
  apply Keeps.bind_read
  exact Keeps.pure trivial

theorem hasPut_ofExcept {α : Type} (r : Except String α) :
    Keeps env (HasPut own records) (ofExcept r) := by
  cases r with
  | ok a => exact Keeps.pure trivial
  | error e => exact Keeps.throw

theorem hasPut_writeAtomic {write : Runtime → Runtime}
    (h : ∀ w, (write w).identity = w.identity ∧ (write w).trace = w.trace) :
    Keeps env (HasPut own records) (writeAtomic write) := by
  apply Keeps.bind hasPut_nextTick
  intro t _
  apply Keeps.bind_read
  split
  . exact hasPut_modify h
  . exact Keeps.throw

theorem hasPut_putVerified (object : Object) : Keeps env (HasPut own records) (putVerified object) := by
  unfold putVerified
  split
  . exact Keeps.throw
  . exact hasPut_writeAtomic fun _ => ⟨rfl, rfl⟩

theorem hasPut_newObject (bytes : Bytes) (objectType : ObjectType) :
    Keeps env (HasPut own records) (newObject bytes objectType) := by
  apply Keeps.bind hasPut_now
  intro time _
  apply Keeps.bind_get
  intro w _
  exact Keeps.pure trivial

theorem hasPut_nameObject (id : ObjectId) (name : Option String) :
    Keeps env (HasPut own records) (nameObject id name) := by
  cases name with
  | none => exact Keeps.pure trivial
  | some name =>
    apply Keeps.bind hasPut_nextTick
    intro t _
    apply Keeps.bind_read
    split
    . exact hasPut_modify fun _ => ⟨rfl, rfl⟩
    . exact Keeps.throw
    . apply Keeps.bind (Q := fun _ => True)
      . exact hasPut_modify fun _ => ⟨rfl, rfl⟩
      . intro _ _
        exact Keeps.throw

theorem hasPut_putObjectPublic (data : Bytes) (objectType : ObjectType) (name : Option String) :
    Keeps env (HasPut own records) (putObjectPublic data objectType name) := by
  apply Keeps.bind (hasPut_newObject data objectType)
  intro object _
  apply Keeps.bind (hasPut_putVerified object)
  intro _ _
  apply Keeps.bind (hasPut_nameObject object.id name)
  intro _ _
  exact Keeps.pure trivial

end Keeps

section Requests

theorem hasPut_provide (id : ObjectId) : Keeps env (HasPut own records) (provide id) := by
  apply Keeps.bind (Q := fun _ => True)
  . apply Keeps.attempt _ fun _ => trivial
    apply Keeps.bind_get
    intro w _
    exact hasPut_ofExcept _
  . intro r _
    cases r with
    | error e => exact Keeps.pure trivial
    | ok object =>
      apply Keeps.bind (Q := fun _ => True)
      . apply Keeps.bind_get
        intro w _
        exact Keeps.pure trivial
      intro cached _
      split
      . apply Keeps.bind (Q := fun _ => True)
        . apply Keeps.bind hasPut_now
          intro time _
          apply hasPut_modify
          intro w
          split
          . exact ⟨rfl, rfl⟩
          . exact ⟨rfl, rfl⟩
        . intro _ _
          exact Keeps.pure trivial
      . apply Keeps.bind_get
        intro w _
        split
        . exact Keeps.pure trivial
        . exact Keeps.pure trivial

theorem hasPut_acceptPush (object : Object) :
    Keeps env (HasPut own records) (acceptPush object) := by
  apply Keeps.bind (hasPut_putVerified object)
  intro _ _
  apply Keeps.bind (Q := fun _ => True)
  . apply Keeps.bind_get
    intro w _
    exact Keeps.pure trivial
  . intro owned _
    split
    . exact Keeps.pure trivial
    . apply Keeps.bind hasPut_now
      intro time _
      apply Keeps.bind (Q := fun _ => True)
      . exact hasPut_modify fun _ => ⟨rfl, rfl⟩
      intro _ _
      apply Keeps.bind (Q := fun _ => True)
      . apply Keeps.attempt _ fun _ => trivial
        exact hasPut_writeAtomic fun _ => ⟨rfl, rfl⟩
      . intro _ _
        exact Keeps.pure trivial

theorem hasPut_handleAll (requests : List ObjectRequest) :
    Keeps env (HasPut own records) (handleAll requests) := by
  induction requests with
  | nil => exact Keeps.pure trivial
  | cons request requests ih =>
    apply Keeps.bind (Q := fun _ => True)
    . cases request with
      | getObject id =>
        apply Keeps.bind (hasPut_provide id)
        intro served _
        split
        . exact Keeps.pure trivial
        . exact Keeps.pure trivial
      | store bundle =>
        apply Keeps.bind (Q := fun _ => True)
        . apply Keeps.attempt _ fun _ => trivial
          exact hasPut_acceptPush bundle.object
        . intro r _
          split
          . exact Keeps.pure trivial
          . exact Keeps.pure trivial
    . intro _ _
      exact ih

theorem hasPut_settle : Keeps env (HasPut own records) settle := by
  apply Keeps.bind hasPut_nextTick
  intro t _
  apply Keeps.bind_read
  apply Keeps.bind (hasPut_handleAll _)
  intro _ _
  exact Keeps.pure trivial

theorem hasPut_announce (id : ObjectId) : Keeps env (HasPut own records) (announce id) := by
  apply Keeps.bind (Q := fun _ => True)
  . exact hasPut_modify fun _ => ⟨rfl, rfl⟩
  intro _ _
  apply Keeps.bind hasPut_nextTick
  intro t _
  apply Keeps.bind_read
  split
  . exact hasPut_log nofun
  . exact Keeps.throw

theorem hasPut_pushPointerRecord (bytes : Bytes) :
    Keeps env (HasPut own records) (pushPointerRecord bytes) := by
  apply Keeps.bind (hasPut_newObject bytes .appPointer)
  intro object _
  apply Keeps.bind (hasPut_putVerified object)
  intro _ _
  apply Keeps.bind (hasPut_ofExcept _)
  intro bundle _
  apply Keeps.bind hasPut_settle
  intro t _
  apply Keeps.bind_read
  apply Keeps.bind (hasPut_ofExcept _)
  intro targets _
  apply Keeps.bind (hasPut_log (by simp))
  intro _ _
  exact hasPut_ofExcept _

theorem hasPut_cacheRecord (key value : Bytes) :
    Keeps env (HasPut own records) (cacheRecord key value) :=
  hasPut_writeAtomic fun _ => ⟨rfl, rfl⟩

theorem publishPointer_puts (name : String) (target : ObjectId) :
    Triple env (HasPut own records) (publishPointer name target)
      (fun _ w => ∃ time, HasPut own (records ++ [(AppPointerRecord.key own.id name,
        AppPointerRecord.codec.serialize (.sign own time name target))]) w)
      (HasPut own records) := by
  apply Triple.bind hasPut_now.triple
  intro time
  constructor
  intro w hw
  rw [exec_bind_ok (Prog.exec_get env w)]
  dsimp only
  rw [hw.identity, AppPointerRecord.sign_owner]
  apply Triple.spec _ w hw
  apply Triple.bind (hasPut_cacheRecord _ _).triple
  intro _
  apply Triple.bind (Keeps.attempted (hasPut_pushPointerRecord _))
  intro _
  apply Triple.modify
  intro w hw
  refine ⟨time, hw.identity, ?_⟩
  rw [← hw.puts, puts, log, List.filterMap_append]
  rfl

end Requests

end Runtime

end Canopee
