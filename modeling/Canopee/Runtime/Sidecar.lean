import Canopee.Runtime.Basic

/-!
This module contains the sidecar file of the cache index: what is written to it, and the index that is
loaded from it.
-/

namespace Canopee

namespace CacheIndex

def codec : Codec (List (String × UInt64)) :=
  .list (.pair .text .u64)

/--
The hash map of these entries, of which the last one under an id counts.
-/
def ofEntries (entries : List (String × UInt64)) : CacheIndex :=
  entries.foldl (fun index entry => index.insert entry.1 entry.2) ∅

/--
`bincode::serialize` in `CacheIndex::save`, for an index that yields its ids in this order.
-/
def serialize (index : CacheIndex) (ids : List String) : Bytes :=
  codec.serialize (ids.filterMap fun id => (index.lookup id).map fun time => (id, time))

/--
`CacheIndex::load`, from the bytes of a file.
-/
def load (bytes : Bytes) : CacheIndex :=
  match codec.deserialize bytes with
  | some entries => ofEntries entries
  | none => ∅

theorem lookup_insertAll (index base : CacheIndex) (ids : List String) (id : String) :
    ((ids.filterMap fun id => (index.lookup id).map fun time => (id, time)).foldl
        (fun index entry => index.insert entry.1 entry.2) base).lookup id =
      if id ∈ ids then (index.lookup id).or (base.lookup id) else base.lookup id := by
  induction ids generalizing base with
  | nil => rfl
  | cons first ids ih =>
    cases hfirst : index.lookup first with
    | none =>
      rw [List.filterMap_cons_none (by rw [hfirst]; rfl), ih]
      by_cases heq : id = first
      . subst heq
        simp [hfirst]
      . simp [heq]
    | some time =>
      rw [List.filterMap_cons_some (by rw [hfirst]; rfl), List.foldl_cons, ih]
      by_cases heq : id = first
      . subst heq
        simp [hfirst]
      . simp [heq, AList.lookup_insert_ne heq]

theorem lookup_load_serialize {index : CacheIndex} {ids : List String} (h : ids.Perm index.keys)
    (id : String) : (load (index.serialize ids)).lookup id = index.lookup id := by
  unfold load serialize
  rw [Codec.deserialize_serialize]
  dsimp only [ofEntries]
  rw [lookup_insertAll, AList.lookup_empty, Option.or_none]
  split
  . rfl
  . next hmem =>
    rw [h.mem_iff, ← AList.mem_keys] at hmem
    exact (AList.lookup_eq_none.mpr hmem).symm

end CacheIndex

variable [Primitives]

namespace Runtime

/--
`Cache::new` of the index that is loaded from the sidecar, whatever order that was written in.
-/
def reloadCache : RunM Unit := do
  let t ← nextTick
  let env ← read
  modify fun w =>
    { w with cache := .load (w.sidecar.serialize (env.iteration t w.sidecar.keys)) }

end Runtime

end Canopee
