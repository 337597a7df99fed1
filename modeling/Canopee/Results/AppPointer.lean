import Canopee.Sdk.Client
import Canopee.Results.Resolution

/-!
This module contains when the client resolves an app pointer as the runtime does: when the DHT's
answer, if it is a record that verifies at all, is the one that was asked for.
-/

namespace Canopee

open Primitives
open Prog (exec exec_bind_ok exec_bind_error)
open Canopee.Runtime (getRecord dhtPointer acceptRecord)

variable [Primitives]

namespace CanopeeClient

/--
The DHT yields `record`, and `record` verifies.
-/
def Answered (env : Env) (w : Runtime) (owner : IdentityId) (name : String)
    (record : AppPointerRecord) : Prop :=
  ∃ bytes, (exec (getRecord (AppPointerRecord.key owner name)) env w).1 = .ok (some bytes) ∧
    AppPointerRecord.codec.deserialize bytes = some record ∧ record.verify = true

theorem resolveAppPointer_eq_some_iff {env : Env} {w : Runtime} {owner : IdentityId} {name : String}
    {manifest : ObjectId} :
    (exec (resolveAppPointer owner name) env w).1 = .ok (some manifest) ↔
      ∃ record, Answered env w owner name record ∧ record.manifest = manifest := by
  unfold resolveAppPointer Node.resolveAppPointer Answered
  rw [Prog.exec_bind, exec_bind_ok (Prog.exec_attempt _ env w)]
  generalize hanswer : (exec (getRecord (AppPointerRecord.key owner name)) env w).1 = answer
  cases answer with
  | error e => simp
  | ok answer =>
    cases answer with
    | none => simp
    | some bytes =>
      cases hrecord : AppPointerRecord.codec.deserialize bytes with
      | none => simp [hrecord]
      | some record =>
        by_cases hverify : record.verify = true
        . simp [hrecord, hverify]
        . simp [hrecord, hverify]

/--
The runtime gets the record only if it is the owner's own under this name.
-/
theorem dhtPointer_eq_some_iff {env : Env} {w : Runtime} {owner : IdentityId} {name : String}
    {record : AppPointerRecord} :
    (exec (dhtPointer owner name) env w).1 = .ok (some record) ↔
      Answered env w owner name record ∧ record.owner = owner ∧ record.name = name := by
  unfold dhtPointer Answered
  rw [exec_bind_ok (Prog.exec_attempt _ env w)]
  generalize hanswer : (exec (getRecord (AppPointerRecord.key owner name)) env w).1 = answer
  cases answer with
  | error e => simp
  | ok answer =>
    cases answer with
    | none => simp
    | some bytes =>
      cases hrecord : AppPointerRecord.codec.deserialize bytes with
      | none => simp [acceptRecord, hrecord]
      | some found =>
        simp only [Prog.exec_pure, Option.bind_some, acceptRecord, hrecord]
        split
        . next h =>
          constructor
          . intro heq
            cases heq
            exact ⟨⟨bytes, rfl, hrecord, h.2.2⟩, h.1, h.2.1⟩
          . intro ⟨⟨bytes', hbytes, hdecode, hverify⟩, _⟩
            cases hbytes
            rw [hrecord] at hdecode
            cases hdecode
            rfl
        . next h =>
          constructor
          . intro heq
            cases heq
          . intro ⟨⟨bytes', hbytes, hdecode, hverify⟩, howner, hname⟩
            cases hbytes
            rw [hrecord] at hdecode
            cases hdecode
            exact absurd ⟨howner, hname, hverify⟩ h

/--
Whatever the client resolves is the manifest of an authentic record in the DHT's answer, one that
the runtime accepts as well.
-/
def Agrees (env : Env) (w : Runtime) (owner : IdentityId) (name : String) : Prop :=
  ∀ manifest, (exec (resolveAppPointer owner name) env w).1 = .ok (some manifest) →
    ∃ bytes record,
      (exec (getRecord (AppPointerRecord.key owner name)) env w).1 = .ok (some bytes) ∧
        AppPointerRecord.codec.deserialize bytes = some record ∧ record.Authentic owner name ∧
        record.manifest = manifest ∧
        (exec (dhtPointer owner name) env w).1 = .ok (some record)

theorem agrees_iff (env : Env) (w : Runtime) (owner : IdentityId) (name : String) :
    Agrees env w owner name ↔
      ∀ record, Answered env w owner name record → record.owner = owner ∧ record.name = name := by
  constructor
  . intro h record hanswered
    obtain ⟨bytes, found, hbytes, hfound, hauthentic, _⟩ :=
      h record.manifest (resolveAppPointer_eq_some_iff.mpr ⟨record, hanswered, rfl⟩)
    obtain ⟨bytes', hbytes', hrecord, _⟩ := hanswered
    -- there is one answer, so the two records are the same
    rw [hbytes] at hbytes'
    cases hbytes'
    rw [hfound] at hrecord
    cases hrecord
    exact ⟨hauthentic.owner, hauthentic.name⟩
  . intro h manifest hmanifest
    obtain ⟨record, hanswered, hrecord⟩ := resolveAppPointer_eq_some_iff.mp hmanifest
    obtain ⟨howner, hname⟩ := h record hanswered
    have hruntime := dhtPointer_eq_some_iff.mpr ⟨hanswered, howner, hname⟩
    obtain ⟨bytes, hbytes, hdecode, hverify⟩ := hanswered
    exact ⟨bytes, record, hbytes, hdecode, ⟨howner, hname, hverify⟩, hrecord, hruntime⟩

end CanopeeClient

end Canopee

namespace Canopee.CanopeeClient

open Canopee.Compact
open Canopee.Runtime (fresh dhtPointer)
open Prog (exec)

section Counterexample

def malloryApp : AppPointerRecord :=
  .sign mallory 0 "notes" ⟨"00"⟩

/--
A DHT in which somebody has put Mallory's pointer under every key.
-/
def poisoned : Env :=
  { Env.quiet 0 with record := fun _ _ => .ok (some (AppPointerRecord.codec.serialize malloryApp)) }

/--
Asked for Alice's app the client opens Mallory's, which the runtime turns down.
-/
theorem resolves_mallorys_app :
    (exec (resolveAppPointer alice.id "notes") poisoned (fresh bob laptop)).1 = .ok (some ⟨"00"⟩) ∧
      (exec (dhtPointer alice.id "notes") poisoned (fresh bob laptop)).1 = .ok none ∧
      ¬ Agrees poisoned (fresh bob laptop) alice.id "notes" := by
  have hclient : (exec (resolveAppPointer alice.id "notes") poisoned (fresh bob laptop)).1 =
      .ok (some ⟨"00"⟩) := by decide +kernel
  have hruntime : (exec (dhtPointer alice.id "notes") poisoned (fresh bob laptop)).1 =
      .ok none := by decide +kernel
  refine ⟨hclient, hruntime, ?_⟩
  intro h
  have ⟨bytes, record, _, _, _, _, hrecord⟩ := h ⟨"00"⟩ hclient
  rw [hruntime] at hrecord
  cases hrecord

end Counterexample

end Canopee.CanopeeClient
