import Canopee.Lib.Disk
import Canopee.Storage.Store
import Mathlib.Logic.Function.Basic

/-!
This module contains concurrent calls of `put_verified` on one directory. Each call opens its
temporary file, writes it in any number of pieces and renames it.
-/

namespace Canopee

/--
How far a call has come.
-/
inductive Put where
  | start
  -- it has opened a file and has written this many bytes of it
  | writing (file written : Nat)
  | ok
  | error (e : String)
  deriving DecidableEq

/--
The call is between opening the temporary file and renaming it.
-/
def Put.underWay : Put → Bool
  | .writing _ _ => true
  | _ => false

/--
The directory and the calls.
-/
structure Writers (ι : Type) where
  disk : Disk
  calls : ι → Put

/--
The name of the temporary file of `put_verified`.
-/
def ObjectId.tmp (id : ObjectId) : String :=
  "." ++ id.text ++ ".canopee-tmp"

theorem ObjectId.tmp_ne (id : ObjectId) : id.tmp ≠ id.text := by
  intro h
  have hlength := congrArg String.length h
  simp only [tmp, String.length_append] at hlength
  have hdot : ".".length = 1 := rfl
  omega

namespace Writers

variable {ι : Type}

def begin (disk : Disk) : Writers ι where
  disk := disk
  calls _ := .start

/--
The object store that a reader finds.
-/
def storage (s : Writers ι) : Storage where
  files := s.disk.listing
  names := ∅

theorem underWay_of_writing {s : Writers ι} {i : ι} {file written : Nat}
    (h : s.calls i = .writing file written) : (s.calls i).underWay = true := by
  rw [h]
  rfl

variable [DecidableEq ι]

/--
The call `i` has come to `p`, and has left the directory like this.
-/
def moved (s : Writers ι) (i : ι) (p : Put) (disk : Disk) : Writers ι where
  disk := disk
  calls := Function.update s.calls i p

section Moved

variable {s : Writers ι} {i j : ι} {p : Put} {disk : Disk}

@[simp]
theorem calls_moved_self : (s.moved i p disk).calls i = p := by
  simp [moved]

theorem calls_moved_of_ne (h : j ≠ i) : (s.moved i p disk).calls j = s.calls j := by
  simp [moved, h]

theorem calls_moved_eq {q : Put} (h : (s.moved i p disk).calls j = q) :
    j = i ∧ p = q ∨ j ≠ i ∧ s.calls j = q := by
  by_cases hj : j = i
  . rw [hj, calls_moved_self] at h
    exact .inl ⟨hj, h⟩
  . rw [calls_moved_of_ne hj] at h
    exact .inr ⟨hj, h⟩

theorem underWay_moved (h : ((s.moved i p disk).calls j).underWay = true) :
    j = i ∧ p.underWay = true ∨ j ≠ i ∧ (s.calls j).underWay = true := by
  by_cases hj : j = i
  . rw [hj, calls_moved_self] at h
    exact .inl ⟨hj, h⟩
  . rw [calls_moved_of_ne hj] at h
    exact .inr ⟨hj, h⟩

theorem underWay_moved_of_ne (hne : j ≠ i) (h : (s.calls j).underWay = true) :
    ((s.moved i p disk).calls j).underWay = true := by
  rw [calls_moved_of_ne hne]
  exact h

end Moved

variable [Primitives]

/--
The next step of one of the calls of `put_verified` with `objects`; a piece that it writes has at most
one byte more than the second component of the label.
-/
def putVerified (objects : ι → Object) (l : ι × Nat) (s : Writers ι) : Writers ι :=
  let object := objects l.1
  let bytes := Object.codec.serialize object
  match s.calls l.1 with
  | .start =>
    if !object.verify then
      s.moved l.1 (.error ("Invalid signature for object " ++ object.id.text)) s.disk
    else
      let (file, disk) := s.disk.openTruncate object.id.tmp
      s.moved l.1 (.writing file 0) disk
  | .writing file written =>
    if written < bytes.length then
      let piece := (bytes.drop written).take (l.2 + 1)
      s.moved l.1 (.writing file (written + piece.length)) (s.disk.writeAt file written piece)
    else
      match s.disk.rename object.id.tmp object.id.text with
      | some disk => s.moved l.1 .ok disk
      | none => s.moved l.1 (.error "No such file or directory") s.disk
  | .ok => s
  | .error _ => s

end Writers

end Canopee
