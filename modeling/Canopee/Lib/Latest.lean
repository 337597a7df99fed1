import Mathlib.Data.List.AList

/-!
This module contains maps that are made by inserting the entries of a list one after the other: the
last entry for a key is the one that counts.
-/

namespace Latest

variable {κ α : Type} [DecidableEq κ]

/--
The value of the last entry for `key`.
-/
def latest (key : κ) : List (κ × α) → Option α
  | [] => none
  | entry :: entries => (latest key entries).or (if entry.1 = key then some entry.2 else none)

def insertAll (map : AList fun _ : κ => α) (entries : List (κ × α)) : AList fun _ : κ => α :=
  entries.foldl (fun map entry => map.insert entry.1 entry.2) map

variable {key : κ} {a : α} {entries : List (κ × α)}

theorem lookup_insertAll (map : AList fun _ : κ => α) (entries : List (κ × α)) (key : κ) :
    (insertAll map entries).lookup key = (latest key entries).or (map.lookup key) := by
  induction entries generalizing map with
  | nil => rfl
  | cons entry entries ih =>
    rw [latest, Option.or_assoc]
    refine (ih (map.insert entry.1 entry.2)).trans ?_
    congr 1
    by_cases hkey : entry.1 = key
    . subst hkey
      rw [AList.lookup_insert, if_pos rfl, Option.some_or]
    . rw [AList.lookup_insert_ne (Ne.symm hkey), if_neg hkey, Option.none_or]

theorem lookup_insertAll_empty (entries : List (κ × α)) (key : κ) :
    (insertAll ∅ entries).lookup key = latest key entries := by
  rw [lookup_insertAll, AList.lookup_empty, Option.or_none]

theorem latest_append (key : κ) (front back : List (κ × α)) :
    latest key (front ++ back) = (latest key back).or (latest key front) := by
  induction front with
  | nil => rw [List.nil_append, latest, Option.or_none]
  | cons entry front ih => rw [List.cons_append, latest, ih, latest, Option.or_assoc]

theorem mem_of_latest (h : latest key entries = some a) : (key, a) ∈ entries := by
  induction entries with
  | nil => cases h
  | cons entry entries ih =>
    rw [latest, Option.or_eq_some_iff] at h
    rcases h with hlater | ⟨_, hentry⟩
    . exact List.mem_cons_of_mem entry (ih hlater)
    . split at hentry
      . next hkey =>
        cases hentry
        rw [← hkey]
        exact List.mem_cons_self
      . cases hentry

theorem latest_eq_none_iff : latest key entries = none ↔ key ∉ entries.map Prod.fst := by
  induction entries with
  | nil => simp [latest]
  | cons entry entries ih =>
    rw [latest, Option.or_eq_none_iff, ih, List.map_cons, List.mem_cons, not_or]
    by_cases hkey : entry.1 = key
    . simp [hkey]
    . simp [hkey, Ne.symm hkey]

/--
With one entry for each key it does not matter where that entry stands.
-/
theorem latest_eq_some_iff (h : (entries.map Prod.fst).Nodup) :
    latest key entries = some a ↔ (key, a) ∈ entries := by
  constructor
  . exact mem_of_latest
  . intro hmem
    cases hlatest : latest key entries with
    | none =>
      rw [latest_eq_none_iff] at hlatest
      exact absurd (List.mem_map_of_mem (f := Prod.fst) hmem) hlatest
    | some b =>
      have hpair := List.inj_on_of_nodup_map h (mem_of_latest hlatest) hmem rfl
      rw [(Prod.mk.inj hpair).2]

/--
Entries that agree on their keys and are related in their values.
-/
theorem latest_rel {β : Type} {r : α → β → Prop} {others : List (κ × β)}
    (h : List.Forall₂ (fun entry other => entry.1 = other.1 ∧ r entry.2 other.2) entries others)
    (key : κ) : Option.Rel r (latest key entries) (latest key others) := by
  induction h with
  | nil => exact .none
  | @cons entry other entries others hhead _ ih =>
    rw [latest, latest]
    generalize latest key entries = found at ih
    generalize latest key others = found' at ih
    cases ih with
    | some hrel => exact .some hrel
    | none =>
      rw [Option.none_or, Option.none_or, hhead.1]
      split
      . exact .some hhead.2
      . exact .none

section Entries

variable (map : AList fun _ : κ => α) {keys : List κ}

/--
The entries of a map, in the order of these keys.
-/
def entriesAt (keys : List κ) : List (κ × α) :=
  keys.filterMap fun key => (map.lookup key).map fun a => (key, a)

theorem mem_entriesAt (h : keys.Perm map.keys) : (key, a) ∈ entriesAt map keys ↔
    map.lookup key = some a := by
  rw [entriesAt, List.mem_filterMap]
  constructor
  . rintro ⟨other, _, hother⟩
    rw [Option.map_eq_some_iff] at hother
    obtain ⟨b, hlookup, hpair⟩ := hother
    cases hpair
    exact hlookup
  . intro hlookup
    have hmem : key ∈ map := by
      rw [← AList.lookup_isSome, hlookup]
      rfl
    refine ⟨key, h.mem_iff.mpr hmem, ?_⟩
    rw [hlookup]
    rfl

theorem nodup_entriesAt (h : keys.Perm map.keys) : ((entriesAt map keys).map Prod.fst).Nodup := by
  have hfst : (entriesAt map keys).map Prod.fst =
      keys.filter fun key => (map.lookup key).isSome := by
    rw [entriesAt, List.map_filterMap, ← List.filterMap_eq_filter]
    apply List.filterMap_congr
    intro key _
    cases hlookup : map.lookup key with
    | none => simp [Option.guard, hlookup]
    | some a => simp [Option.guard, hlookup]
  rw [hfst]
  exact (h.nodup_iff.mpr map.nodupKeys).filter _

theorem latest_entriesAt (h : keys.Perm map.keys) (key : κ) :
    latest key (entriesAt map keys) = map.lookup key := by
  apply Option.ext
  intro a
  rw [latest_eq_some_iff (nodup_entriesAt map h), mem_entriesAt map h]

end Entries

end Latest
