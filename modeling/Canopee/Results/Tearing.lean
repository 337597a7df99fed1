import Canopee.Storage.Writers
import Canopee.Lib.Run

/-!
This module contains what concurrent writers of one object leave in the store.
-/

namespace Canopee

open Primitives

variable [Primitives]

/--
Valid objects with one id, one for each call.
-/
structure Copies (ι : Type) (id : ObjectId) where
  object : ι → Object
  verified : ∀ i, (object i).verify = true
  identified : ∀ i, (object i).id = id

namespace Writers

variable {ι : Type} [DecidableEq ι] {id : ObjectId} {copies : Copies ι id} {s : Writers ι}
variable {l : ι × Nat}

/--
No call fails, and as soon as one has renamed its file, the file under the id is a whole object.
-/
structure Whole (copies : Copies ι id) (s : Writers ι) : Prop where
  succeeds : ∀ i e, s.calls i ≠ .error e
  whole : (∃ i, s.calls i = .ok) → ∃ i,
    s.disk.read id.text = some (Object.codec.serialize (copies.object i)) ∧
      s.storage.getVerified id = .ok (copies.object i)

/--
A call opens the temporary file only while no other call is between opening and renaming it.
-/
def Alone (l : ι × Nat) (s : Writers ι) : Prop :=
  s.calls l.1 = .start → ∀ j, (s.calls j).underWay = false

/--
No call is under way.
-/
def Settled (s : Writers ι) : Prop :=
  ∀ i, (s.calls i).underWay = false

omit [DecidableEq ι] in
theorem getVerified_of_read {i : ι}
    (h : s.disk.read id.text = some (Object.codec.serialize (copies.object i))) :
    s.storage.getVerified id = .ok (copies.object i) := by
  rw [Storage.getVerified_eq_ok]
  exact ⟨_, Disk.lookup_listing.trans h, Codec.deserialize_serialize _ _, copies.identified i,
    copies.verified i⟩

section Orderly

/--
One call at most is under way. The temporary file is its own and has what it has written so far.
-/
structure Orderly (copies : Copies ι id) (s : Writers ι) : Prop where
  single : ∀ i j, (s.calls i).underWay = true → (s.calls j).underWay = true → i = j
  writes : ∀ i file written, s.calls i = .writing file written →
    s.disk.names.lookup id.tmp = some file ∧
      written ≤ (Object.codec.serialize (copies.object i)).length ∧
      s.disk.contents file = (Object.codec.serialize (copies.object i)).take written
  whole : Whole copies s

omit [DecidableEq ι] in
theorem Orderly.begin (disk : Disk) : Orderly copies (begin disk) where
  single := by
    intro i j h
    cases h
  writes := by
    intro i file written h
    cases h
  whole := {
    succeeds := by
      intro i e h
      cases h
    whole := by
      intro ⟨i, h⟩
      cases h
  }

theorem Whole.moved (h : Whole copies s) {i : ι} {file written : Nat} {disk : Disk}
    (hread : disk.read id.text = s.disk.read id.text) :
    Whole copies (s.moved i (.writing file written) disk) := by
  constructor
  . intro j e hj
    rcases calls_moved_eq hj with ⟨_, hj⟩ | ⟨_, hj⟩
    . contradiction
    . exact h.succeeds j e hj
  . intro ⟨j, hj⟩
    rcases calls_moved_eq hj with ⟨_, hj⟩ | ⟨_, hj⟩
    . contradiction
    . obtain ⟨k, hk, _⟩ := h.whole ⟨j, hj⟩
      have hkept := hread.trans hk
      exact ⟨k, hkept, getVerified_of_read (s := s.moved i (.writing file written) disk) hkept⟩

theorem Orderly.opened (h : Orderly copies s) (hnone : ∀ j, (s.calls j).underWay = false) (i : ι) :
    Orderly copies (s.moved i (.writing (s.disk.openTruncate id.tmp).1 0)
      (s.disk.openTruncate id.tmp).2) := by
  have honly {j : ι} (hj : ((s.moved i (.writing (s.disk.openTruncate id.tmp).1 0)
      (s.disk.openTruncate id.tmp).2).calls j).underWay = true) : j = i := by
    rcases underWay_moved hj with ⟨hj, _⟩ | ⟨_, hj⟩
    . exact hj
    . rw [hnone j] at hj
      contradiction
  constructor
  . intro j k hj hk
    rw [honly hj, honly hk]
  . intro j file written hj
    rw [honly (underWay_of_writing hj), calls_moved_self] at hj
    cases hj
    exact ⟨Disk.lookup_openTruncate, Nat.zero_le _, Disk.contents_openTruncate⟩
  . exact h.whole.moved (Disk.read_openTruncate_of_ne id.tmp_ne.symm)

theorem Orderly.written (h : Orderly copies s) {i : ι} {file written : Nat} (n : Nat)
    (hcall : s.calls i = .writing file written) :
    let piece := ((Object.codec.serialize (copies.object i)).drop written).take n
    Orderly copies (s.moved i (.writing file (written + piece.length))
      (s.disk.writeAt file written piece)) := by
  intro piece
  obtain ⟨hlookup, hle, hcontents⟩ := h.writes i file written hcall
  obtain ⟨hmore, happended⟩ := Disk.contents_writeAt_take n hlookup hle hcontents
  have honly {j : ι} (hj : ((s.moved i (.writing file (written + piece.length))
      (s.disk.writeAt file written piece)).calls j).underWay = true) : j = i := by
    rcases underWay_moved hj with ⟨hj, _⟩ | ⟨_, hj⟩
    . exact hj
    . exact h.single j i hj (underWay_of_writing hcall)
  constructor
  . intro j k hj hk
    rw [honly hj, honly hk]
  . intro j file' written' hj
    have hji := honly (underWay_of_writing hj)
    subst hji
    rw [calls_moved_self] at hj
    cases hj
    exact ⟨hlookup, hmore, happended⟩
  . exact h.whole.moved (Disk.read_writeAt_of_ne _ _ hlookup id.tmp_ne.symm)

theorem Orderly.renamed (h : Orderly copies s) {i : ι} {file written : Nat} {disk : Disk}
    (hcall : s.calls i = .writing file written)
    (hend : (Object.codec.serialize (copies.object i)).length ≤ written)
    (hrename : s.disk.rename id.tmp id.text = some disk) : Orderly copies (s.moved i .ok disk) := by
  obtain ⟨hlookup, _, hcontents⟩ := h.writes i file written hcall
  have hnone {j : ι} (hj : ((s.moved i .ok disk).calls j).underWay = true) : False := by
    rcases underWay_moved hj with ⟨_, hj⟩ | ⟨hne, hj⟩
    . contradiction
    . exact hne (h.single j i hj (underWay_of_writing hcall))
  have hread : disk.read id.text = some (Object.codec.serialize (copies.object i)) := by
    rw [(Disk.rename_eq_some hrename id.tmp_ne).2, Disk.read_of_lookup hlookup, hcontents,
      List.take_of_length_le hend]
  constructor
  . intro j k hj
    exact (hnone hj).elim
  . intro j file' written' hj
    exact (hnone (underWay_of_writing hj)).elim
  . constructor
    . intro j e hj
      rcases calls_moved_eq hj with ⟨_, hj⟩ | ⟨_, hj⟩
      . contradiction
      . exact h.whole.succeeds j e hj
    . intro _
      exact ⟨i, hread, getVerified_of_read (s := s.moved i .ok disk) hread⟩

theorem Orderly.step (h : Orderly copies s) (halone : Alone l s) :
    Orderly copies (putVerified copies.object l s) := by
  unfold putVerified
  dsimp only
  cases hcall : s.calls l.1 with
  | start =>
    dsimp only
    rw [copies.verified, copies.identified, if_neg (by simp)]
    exact h.opened (halone hcall) l.1
  | writing file written =>
    dsimp only
    split
    . exact h.written (l.2 + 1) hcall
    . next hend =>
      rw [copies.identified]
      cases hrename : s.disk.rename id.tmp id.text with
      | some disk => exact h.renamed hcall (Nat.le_of_not_lt hend) hrename
      | none =>
        rw [Disk.rename_eq_none_iff, (h.writes l.1 file written hcall).1] at hrename
        contradiction
  | ok => exact h
  | error e => exact h

end Orderly

section Doubled

/--
More calls are under way than there are temporary files for them to rename.
-/
def Doubled (id : ObjectId) (s : Writers ι) : Prop :=
  (∃ i j, i ≠ j ∧ (s.calls i).underWay = true ∧ (s.calls j).underWay = true) ∨
    s.disk.names.lookup id.tmp = none ∧ ∃ i, (s.calls i).underWay = true

omit [Primitives] [DecidableEq ι] in
theorem Doubled.exists_underWay (h : Doubled id s) : ∃ i, (s.calls i).underWay = true := by
  rcases h with ⟨i, _, _, hi, _⟩ | ⟨_, hi⟩
  . exact ⟨i, hi⟩
  . exact hi

theorem doubled_of_opened {i j : ι} (hcall : s.calls i = .start)
    (hj : (s.calls j).underWay = true) (n : Nat) :
    Doubled id (putVerified copies.object (i, n) s) := by
  have hne : j ≠ i := by
    intro heq
    rw [heq, hcall] at hj
    contradiction
  unfold putVerified
  dsimp only
  rw [hcall]
  dsimp only
  rw [copies.verified, copies.identified, if_neg (by simp)]
  refine .inl ⟨i, j, hne.symm, ?_, underWay_moved_of_ne hne hj⟩
  rw [calls_moved_self]
  rfl

theorem error_step {i : ι} {e : String} (h : s.calls i = .error e) :
    (putVerified copies.object l s).calls i = .error e := by
  by_cases hi : i = l.1
  . subst hi
    unfold putVerified
    dsimp only
    rw [h]
    exact h
  . have hmoved (p : Put) (disk : Disk) : (s.moved l.1 p disk).calls i = .error e :=
      (calls_moved_of_ne hi).trans h
    unfold putVerified
    dsimp only
    split
    . split
      . exact hmoved _ _
      . exact hmoved _ _
    . split
      . exact hmoved _ _
      . split
        . exact hmoved _ _
        . exact hmoved _ _
    . exact h
    . exact h

omit [Primitives] in
theorem Doubled.written (h : Doubled id s) (i : ι) (file written : Nat) {disk : Disk}
    (hnames : disk.names = s.disk.names) : Doubled id (s.moved i (.writing file written) disk) := by
  have hkept {j : ι} (hj : (s.calls j).underWay = true) :
      ((s.moved i (.writing file written) disk).calls j).underWay = true := by
    by_cases hne : j = i
    . rw [hne, calls_moved_self]
      rfl
    . exact underWay_moved_of_ne hne hj
  rcases h with ⟨j, k, hne, hj, hk⟩ | ⟨hnone, j, hj⟩
  . exact .inl ⟨j, k, hne, hkept hj, hkept hk⟩
  . exact .inr ⟨hnames ▸ hnone, j, hkept hj⟩

omit [Primitives] in
theorem Doubled.renamed (h : Doubled id s) (i : ι) {disk : Disk}
    (hrename : s.disk.rename id.tmp id.text = some disk) : Doubled id (s.moved i .ok disk) := by
  refine .inr ⟨(Disk.rename_eq_some hrename id.tmp_ne).1, ?_⟩
  rcases h with ⟨j, k, hne, hj, hk⟩ | ⟨hnone, _⟩
  -- one of the two is left, and its temporary file is gone
  . by_cases hji : j = i
    . exact ⟨k, underWay_moved_of_ne (fun hki => hne (hji.trans hki.symm)) hk⟩
    . exact ⟨j, underWay_moved_of_ne hji hj⟩
  . rw [Disk.rename_eq_none_iff.mpr hnone] at hrename
    contradiction

theorem Doubled.step (h : Doubled id s) (l : ι × Nat) :
    (∃ i e, (putVerified copies.object l s).calls i = .error e) ∨
      Doubled id (putVerified copies.object l s) := by
  cases hcall : s.calls l.1 with
  | start =>
    obtain ⟨j, hj⟩ := h.exists_underWay
    exact .inr (doubled_of_opened hcall hj l.2)
  | writing file written =>
    -- a rename leaves one call fewer and takes the file away, so the second one of two fails
    unfold putVerified
    dsimp only
    rw [hcall]
    dsimp only
    split
    . exact .inr (h.written l.1 _ _ rfl)
    . rw [copies.identified]
      cases hrename : s.disk.rename id.tmp id.text with
      | some disk => exact .inr (h.renamed l.1 hrename)
      | none => exact .inl ⟨l.1, _, calls_moved_self⟩
  | ok =>
    unfold putVerified
    dsimp only
    rw [hcall]
    exact .inr h
  | error e =>
    exact .inl ⟨l.1, e, error_step hcall⟩

theorem Doubled.run (h : Doubled id s) (copies : Copies ι id) (ls : List (ι × Nat))
    (hsettled : Settled (Run.run (putVerified copies.object) s ls)) :
    ∃ i e, (Run.run (putVerified copies.object) s ls).calls i = .error e := by
  induction ls generalizing s with
  | nil =>
    obtain ⟨i, hi⟩ := h.exists_underWay
    rw [Run.run_nil] at hsettled
    rw [hsettled i] at hi
    contradiction
  | cons l ls ih =>
    rcases h.step l with ⟨i, e, hfailed⟩ | hdoubled
    . refine ⟨i, e, ?_⟩
      have hall : Run.Along (putVerified copies.object) (fun _ _ => True)
          (putVerified copies.object l s) ls := Run.along_of_forall (fun _ _ _ => trivial) _
      exact hall.invariant (I := fun t => t.calls i = .error e) hfailed fun _ _ _ h => error_step h
    . exact ih hdoubled hsettled

end Doubled

theorem along_of_always (ls : List (ι × Nat))
    (hwhole : Run.Always (putVerified copies.object) (Whole copies) s ls)
    (hsettled : Settled (Run.run (putVerified copies.object) s ls)) :
    Run.Along (putVerified copies.object) Alone s ls := by
  induction ls generalizing s with
  | nil => trivial
  | cons l ls ih =>
    refine ⟨?_, ih hwhole.2 hsettled⟩
    intro hcall j
    rw [Bool.eq_false_iff]
    intro hj
    obtain ⟨i, e, hfailed⟩ := (doubled_of_opened hcall hj l.2).run copies ls hsettled
    exact hwhole.2.last.succeeds i e hfailed

theorem putVerified_whole_iff (copies : Copies ι id) (disk : Disk) (ls : List (ι × Nat)) :
    (Run.Along (putVerified copies.object) Alone (begin disk) ls →
      Run.Always (putVerified copies.object) (Whole copies) (begin disk) ls) ∧
    (Settled (Run.run (putVerified copies.object) (begin disk) ls) →
      (Run.Always (putVerified copies.object) (Whole copies) (begin disk) ls ↔
        Run.Along (putVerified copies.object) Alone (begin disk) ls)) := by
  have hwhole (h : Run.Along (putVerified copies.object) Alone (begin disk) ls) :
      Run.Always (putVerified copies.object) (Whole copies) (begin disk) ls := by
    apply (h.always (Orderly.begin disk) ?_).mono
    . intro s h
      exact h.whole
    . intro l s halone h
      exact h.step halone
  refine ⟨hwhole, ?_⟩
  intro hsettled
  exact ⟨fun h => along_of_always ls h hsettled, hwhole⟩

end Writers

end Canopee

namespace Canopee.Writers

open Canopee.Compact

/--
Alice's object, as two programs of hers store it.
-/
def sharedNote : Object := Object.new alice 0 [7] .blob

def twoCopies : Copies Bool sharedNote.id where
  object _ := sharedNote
  verified := by
    intro _
    decide +kernel
  identified _ := rfl

/--
The second program opens the temporary file when the first has written ten bytes of it. The first
one then writes the rest behind a gap and renames the file, and the second has none to rename.
-/
def overlap : List (Bool × Nat) :=
  [(true, 0), (true, 9), (false, 0), (true, 999), (true, 0), (false, 999), (false, 0)]

theorem not_whole_overlap :
    ¬ Run.Always (putVerified twoCopies.object) (Whole twoCopies) (begin .empty) overlap := by
  have hrun : (Run.run (putVerified twoCopies.object) (begin .empty) overlap).calls false =
      .error "No such file or directory" := by decide +kernel
  intro halways
  exact halways.last.succeeds false _ hrun

end Canopee.Writers
