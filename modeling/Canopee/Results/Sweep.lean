import Canopee.Results.Dangling
import Mathlib.Algebra.Ring.Nat

/-!
This module contains the sweep that keeps the cached objects of others under a cap: what it evicts,
and how much is left of what it does not count.
-/

namespace Canopee

open Primitives
open Canopee.Runtime
open Prog (exec exec_bind exec_bind_ok exec_bind_error)

variable [Primitives]

namespace Runtime

section Shed

variable {α : Type} {fits : List α → Bool}

/--
What remains of a list once elements are taken off its front until the rest fits.
-/
def shed (fits : List α → Bool) : List α → List α
  | [] => []
  | a :: as => if fits (a :: as) then a :: as else shed fits as

omit [Primitives] in
theorem shed_of_fits {as : List α} (h : fits as = true) : shed fits as = as := by
  cases as with
  | nil => rfl
  | cons a as =>
    unfold shed
    rw [if_pos h]

omit [Primitives] in
theorem shed_cons_of_not_fits {a : α} {as : List α} (h : ¬ fits (a :: as) = true) :
    shed fits (a :: as) = shed fits as := by
  conv_lhs => unfold shed
  rw [if_neg h]

end Shed

section Cached

variable {w t : Runtime}

/--
The objects that the cache index tracks, as far as the store yields them.
-/
def cachedObjects (w : Runtime) : List Object :=
  w.cache.keys.filterMap fun id => (w.storage.getVerified ⟨id⟩).toOption

/--
What the objects say they hold, added up as the sweep adds it up.
-/
def declared : List Object → UInt64
  | [] => 0
  | object :: objects => object.payload.metadata.size + declared objects

/--
What the objects do hold.
-/
def dataBytes (objects : List Object) : Nat :=
  (objects.map fun object => object.payload.data.length).sum

/--
Both are tracked, and `a` was not served after `b`.
-/
def ServedBefore (w : Runtime) (a b : Object) : Prop :=
  ∃ s t, w.cache.lookup a.id.text = some s ∧ w.cache.lookup b.id.text = some t ∧ s ≤ t

omit [Primitives] in
theorem declared_perm {objects others : List Object} (h : objects.Perm others) :
    declared objects = declared others := by
  induction h with
  | nil => rfl
  | cons object _ ih =>
    unfold declared
    rw [ih]
  | swap first second objects =>
    simp only [declared]
    rw [← UInt64.add_assoc, ← UInt64.add_assoc, UInt64.add_comm second.payload.metadata.size]
  | trans _ _ ih ih' => exact ih.trans ih'

omit [Primitives] in
theorem dataBytes_perm {objects others : List Object} (h : objects.Perm others) :
    dataBytes objects = dataBytes others :=
  (h.map _).sum_nat

theorem cachedBytes_eq (w : Runtime) : cachedBytes w = declared (cachedObjects w) := by
  unfold cachedBytes cachedObjects
  induction w.cache.keys with
  | nil => rfl
  | cons id ids ih =>
    unfold totalCachedBytes
    cases hread : w.storage.getVerified ⟨id⟩ with
    | ok object =>
      rw [List.filterMap_cons_some (by rw [hread]; rfl)]
      dsimp only [declared]
      rw [ih]
    | error e =>
      rw [List.filterMap_cons_none (by rw [hread]; rfl)]
      exact ih

omit [Primitives] in
theorem toOption_eq_some {α : Type} {r : Except String α} {a : α} :
    r.toOption = some a ↔ r = .ok a := by
  cases r <;> simp [Except.toOption]

theorem mem_cachedObjects {object : Object} :
    object ∈ cachedObjects w ↔
      object.id.text ∈ w.cache.keys ∧ w.storage.getVerified object.id = .ok object := by
  unfold cachedObjects
  simp only [List.mem_filterMap, toOption_eq_some]
  constructor
  . intro ⟨id, hid, hobject⟩
    rw [Storage.id_of_getVerified hobject]
    exact ⟨hid, hobject⟩
  . intro ⟨hid, hobject⟩
    exact ⟨object.id.text, hid, hobject⟩

theorem Evicted.cachedObjects {object : Object} (h : Evicted object.id w t)
    (hcached : object ∈ cachedObjects w) :
    (object :: Runtime.cachedObjects t).Perm (Runtime.cachedObjects w) := by
  obtain ⟨hmem, hread⟩ := mem_cachedObjects.mp hcached
  unfold Runtime.cachedObjects
  have hrest : (w.cache.keys.erase object.id.text).filterMap
        (fun id => (t.storage.getVerified ⟨id⟩).toOption) =
      (w.cache.keys.erase object.id.text).filterMap
        (fun id => (w.storage.getVerified ⟨id⟩).toOption) := by
    apply List.filterMap_congr
    intro id hid
    have hne : id ≠ object.id.text := by
      intro heq
      rw [heq] at hid
      exact List.Nodup.not_mem_erase w.cache.nodupKeys hid
    have hsame : t.storage.getVerified ⟨id⟩ = w.storage.getVerified ⟨id⟩ := by
      have herased : (w.storage.erase object.id).getVerified ⟨id⟩ = w.storage.getVerified ⟨id⟩ :=
        Storage.getVerified_erase_of_ne w.storage fun heq => hne (congrArg ObjectId.text heq)
      rw [← herased]
      apply Storage.getVerified_congr
      rw [h.files]
      rfl
    rw [hsame]
  rw [h.cache, AList.keys_erase, hrest]
  apply List.Perm.symm
  apply ((List.perm_cons_erase hmem).filterMap _).trans
  rw [List.filterMap_cons_some (b := object)]
  rw [hread]
  rfl

section Order

variable {ids : List String}

/--
What the index knows about an id.
-/
def cacheEntry (w : Runtime) (id : String) : Option (String × UInt64) :=
  (w.cache.lookup id).map fun time => (id, time)

theorem lruCachedObjects_eq (w : Runtime) (ids : List String) :
    lruCachedObjects w ids =
      ((ids.filterMap (cacheEntry w)).insertionSort fun a b => a.2 ≤ b.2).filterMap fun entry =>
        (w.storage.getVerified ⟨entry.1⟩).toOption := rfl

theorem filterMap_cacheEntry (h : ∀ id ∈ ids, id ∈ w.cache) :
    (ids.filterMap (cacheEntry w)).filterMap
        (fun entry => (w.storage.getVerified ⟨entry.1⟩).toOption) =
      ids.filterMap fun id => (w.storage.getVerified ⟨id⟩).toOption := by
  rw [List.filterMap_filterMap]
  apply List.filterMap_congr
  intro id hid
  obtain ⟨time, htime⟩ := Option.isSome_iff_exists.mp (AList.lookup_isSome.mpr (h id hid))
  unfold cacheEntry
  rw [htime]
  rfl

theorem lruCachedObjects_perm (h : ids.Perm w.cache.keys) :
    (lruCachedObjects w ids).Perm (cachedObjects w) := by
  rw [lruCachedObjects_eq]
  apply ((List.perm_insertionSort _ _).filterMap _).trans
  rw [filterMap_cacheEntry fun id hid => AList.mem_keys.mpr (h.mem_iff.mp hid)]
  exact h.filterMap _

theorem lruCachedObjects_pairwise (w : Runtime) (ids : List String) :
    (lruCachedObjects w ids).Pairwise (ServedBefore w) := by
  rw [lruCachedObjects_eq, List.pairwise_filterMap]
  have hsorted := List.pairwise_insertionSort (fun a b : String × UInt64 => a.2 ≤ b.2)
    (ids.filterMap (cacheEntry w))
  apply hsorted.imp_of_mem
  intro a b ha hb hle first hfirst second hsecond
  have hentry {entry : String × UInt64} {object : Object}
      (hmem : entry ∈ (ids.filterMap (cacheEntry w)).insertionSort fun a b => a.2 ≤ b.2)
      (hobject : (w.storage.getVerified ⟨entry.1⟩).toOption = some object) :
      w.cache.lookup object.id.text = some entry.2 := by
    rw [List.mem_insertionSort, List.mem_filterMap] at hmem
    obtain ⟨id, _, hid⟩ := hmem
    obtain ⟨time, htime, heq⟩ := Option.map_eq_some_iff.mp hid
    rw [Storage.id_of_getVerified (toOption_eq_some.mp hobject), ← heq]
    exact htime
  exact ⟨a.2, b.2, hentry ha hfirst, hentry hb hsecond, hle⟩

/--
An index that yields the ids in the order of `order` has the objects evicted in that order.
-/
theorem lruCachedObjects_eq_of_sublist {order : List Object} (hids : ids.Perm w.cache.keys)
    (horder : order.Perm (cachedObjects w)) (hsorted : order.Pairwise (ServedBefore w))
    (hsub : (order.map fun object => object.id.text).Sublist ids) :
    lruCachedObjects w ids = order := by
  have hmem {object : Object} (hobject : object ∈ order) :=
    mem_cachedObjects.mp (horder.mem_iff.mp hobject)
  let entries := (order.map fun object => object.id.text).filterMap (cacheEntry w)
  have hread :
      entries.filterMap (fun entry => (w.storage.getVerified ⟨entry.1⟩).toOption) = order := by
    dsimp only [entries]
    rw [filterMap_cacheEntry, List.filterMap_map]
    . apply (List.filterMap_congr (g := some) _).trans List.filterMap_some
      intro object hobject
      rw [Function.comp_apply, (hmem hobject).2]
      rfl
    . intro id hid
      obtain ⟨object, hobject, rfl⟩ := List.mem_map.mp hid
      exact AList.mem_keys.mpr (hmem hobject).1
  have hpairwise : entries.Pairwise fun a b => a.2 ≤ b.2 := by
    dsimp only [entries]
    rw [List.filterMap_map, List.pairwise_filterMap]
    apply hsorted.imp
    intro a b ⟨s, t, hs, ht, hle⟩ first hfirst second hsecond
    obtain ⟨_, hs', heq⟩ := Option.map_eq_some_iff.mp hfirst
    obtain ⟨_, ht', heq'⟩ := Option.map_eq_some_iff.mp hsecond
    rw [hs, Option.some.injEq] at hs'
    rw [ht, Option.some.injEq] at ht'
    rw [← heq, ← heq', ← hs', ← ht']
    exact hle
  have hsublist := (List.sublist_insertionSort hpairwise (hsub.filterMap (cacheEntry w))).filterMap
    fun entry => (w.storage.getVerified ⟨entry.1⟩).toOption
  rw [hread, ← lruCachedObjects_eq] at hsublist
  apply (hsublist.eq_of_length _).symm
  exact (horder.trans (lruCachedObjects_perm hids).symm).length_eq

end Order

end Cached

section Sweeps

/--
One pass of the loop of `evict_if_over_cap` from `w` to `t`: what it evicts in turn, and whether it
stops at an eviction that fails.
-/
inductive Sweeps (env : Env) (cap : UInt64) : Runtime → List Object → Bool → Runtime → Prop where
  | within {w : Runtime} (hcap : cachedBytes w ≤ cap) : Sweeps env cap w [] false w
  | nothing {w t : Runtime} (hcap : ¬ cachedBytes w ≤ cap)
    (hlru : exec lruCached env w = (.ok [], t)) : Sweeps env cap w [] false t
  | fails {w t u : Runtime} {object : Object} {objects : List Object} (hcap : ¬ cachedBytes w ≤ cap)
    (hlru : exec lruCached env w = (.ok (object :: objects), t)) {e : String}
    (hevict : exec (evict object.id) env t = (.error e, u)) : Sweeps env cap w [] true u
  | evicts {w t u v : Runtime} {object : Object} {objects victims : List Object} {failed : Bool}
    (hcap : ¬ cachedBytes w ≤ cap) (hlru : exec lruCached env w = (.ok (object :: objects), t))
    (hevict : exec (evict object.id) env t = (.ok (), u)) (hrest : Sweeps env cap u victims failed v) :
    Sweeps env cap w (object :: victims) failed v

variable {env : Env} {cap : UInt64} {w t u v : Runtime} {object : Object}
variable {victims objects : List Object} {failed : Bool}

theorem exec_lruCached (env : Env) (w : Runtime) :
    exec lruCached env w =
      (.ok (lruCachedObjects w (env.iteration w.tick w.cache.keys)), { w with tick := w.tick + 1 }) :=
  rfl

/--
The loop ends: every round but the last takes an id out of the index.
-/
theorem exists_sweeps (env : Env) (cap : UInt64) {rounds : Nat}
    (hrounds : w.cache.keys.length < rounds) :
    ∃ victims failed t, exec (evictWhileOver cap rounds) env w = (.ok (), t) ∧
      Sweeps env cap w victims failed t := by
  induction rounds generalizing w with
  | zero => omega
  | succ rounds ih =>
    unfold evictWhileOver
    rw [exec_bind_ok (Prog.exec_get env w)]
    by_cases hcap : cachedBytes w ≤ cap
    . rw [if_pos hcap]
      exact ⟨[], false, w, rfl, .within hcap⟩
    . have hlru := exec_lruCached env w
      have hperm := lruCachedObjects_perm (env.iteration_perm w.tick w.cache.keys)
      revert hlru hperm
      generalize lruCachedObjects w (env.iteration w.tick w.cache.keys) = found
      intro hlru hperm
      rw [if_neg hcap, exec_bind_ok hlru]
      cases found with
      | nil => exact ⟨[], false, _, rfl, .nothing hcap hlru⟩
      | cons object objects =>
        dsimp only
        rw [exec_bind_ok (Prog.exec_attempt _ env _)]
        rcases exec_evict object.id env { w with tick := w.tick + 1 } with
          ⟨_, hevict⟩ | ⟨u, hevict, hevicted⟩
        . rw [hevict]
          exact ⟨[], true, _, rfl, .fails hcap hlru hevict⟩
        . rw [hevict]
          have hmem : object.id.text ∈ w.cache.keys :=
            (mem_cachedObjects.mp (hperm.mem_iff.mp List.mem_cons_self)).1
          have hkeys : u.cache.keys.length < rounds := by
            rw [hevicted.cache, AList.keys_erase, List.length_erase_of_mem hmem]
            have := List.length_pos_of_mem hmem
            omega
          obtain ⟨victims, failed, v, hexec, hsweeps⟩ := ih hkeys
          exact ⟨object :: victims, failed, v, hexec, .evicts hcap hlru hevict hsweeps⟩

theorem evicted_of_lruCached (hlru : exec lruCached env w = (.ok (object :: objects), t))
    (hevict : exec (evict object.id) env t = (.ok (), u)) :
    Evicted object.id w u ∧ (object :: cachedObjects u).Perm (cachedObjects w) ∧
      (∀ other ∈ cachedObjects u, ServedBefore w object other) := by
  rw [exec_lruCached, Prod.mk.injEq, Except.ok.injEq] at hlru
  obtain ⟨hobjects, rfl⟩ := hlru
  have hperm := lruCachedObjects_perm (env.iteration_perm w.tick w.cache.keys)
  have hsorted := lruCachedObjects_pairwise w (env.iteration w.tick w.cache.keys)
  rw [hobjects] at hperm hsorted
  have hevicted := evicted_of_exec_evict hevict
  have hw : Evicted object.id w u := ⟨⟨hevicted.identity, hevicted.files, hevicted.records⟩,
    hevicted.cache, hevicted.shared⟩
  have hrest := hw.cachedObjects (hperm.mem_iff.mp List.mem_cons_self)
  refine ⟨hw, hrest, ?_⟩
  intro other hother
  apply List.rel_of_pairwise_cons hsorted
  exact ((List.perm_cons object).mp (hperm.trans hrest.symm)).mem_iff.mpr hother

theorem ServedBefore.of_evicted {a b : Object} {gone : ObjectId} (hevicted : Evicted gone w u)
    (h : ServedBefore u a b) : ServedBefore w a b := by
  have hlookup {id : ObjectId} {time : UInt64} (hid : u.cache.lookup id.text = some time) :
      w.cache.lookup id.text = some time := by
    rw [hevicted.cache] at hid
    by_cases hne : id.text = gone.text
    . rw [hne, AList.lookup_erase] at hid
      cases hid
    . rwa [AList.lookup_erase_ne hne] at hid
  obtain ⟨s, t, hs, ht, hle⟩ := h
  exact ⟨s, t, hlookup hs, hlookup ht, hle⟩

theorem ServedBefore.evicted {a b : Object} {gone : ObjectId} (h : ServedBefore w a b)
    (hevicted : Evicted gone w u) (ha : a ∈ cachedObjects u) (hb : b ∈ cachedObjects u) :
    ServedBefore u a b := by
  have hlookup {object : Object} (hobject : object ∈ cachedObjects u) :
      u.cache.lookup object.id.text = w.cache.lookup object.id.text := by
    have hmem := (mem_cachedObjects.mp hobject).1
    rw [hevicted.cache, AList.keys_erase] at hmem
    rw [hevicted.cache]
    apply AList.lookup_erase_ne
    intro heq
    rw [heq] at hmem
    exact List.Nodup.not_mem_erase w.cache.nodupKeys hmem
  obtain ⟨s, t, hs, ht, hle⟩ := h
  exact ⟨s, t, (hlookup ha).trans hs, (hlookup hb).trans ht, hle⟩

/--
What a sweep evicts, followed by what it keeps, is all that was cached, in the order in which it was
served; no other file changes, and what is kept is what remains once the declared sizes fit.
-/
theorem Sweeps.order (h : Sweeps env cap w victims failed t) :
    ∃ kept, (victims ++ kept).Perm (cachedObjects w) ∧ (victims ++ kept).Pairwise (ServedBefore w) ∧
      kept.Perm (cachedObjects t) ∧
      (failed = false →
        kept = shed (fun objects => decide (declared objects ≤ cap)) (victims ++ kept)) := by
  have hsome (w : Runtime) : ∃ order : List Object, order.Perm (cachedObjects w) ∧
      order.Pairwise (ServedBefore w) :=
    ⟨lruCachedObjects w w.cache.keys, lruCachedObjects_perm (List.Perm.refl _),
      lruCachedObjects_pairwise w _⟩
  induction h with
  | @within w hcap =>
    -- nothing is evicted, so any order in which the objects were served will do
    obtain ⟨order, hperm, hsorted⟩ := hsome w
    refine ⟨order, hperm, hsorted, hperm, ?_⟩
    intro _
    rw [List.nil_append, shed_of_fits]
    rw [decide_eq_true_eq, declared_perm hperm, ← cachedBytes_eq]
    exact hcap
  | @nothing w t hcap hlru =>
    rw [exec_lruCached, Prod.mk.injEq, Except.ok.injEq] at hlru
    obtain ⟨hnil, rfl⟩ := hlru
    have hperm := lruCachedObjects_perm (env.iteration_perm w.tick w.cache.keys)
    rw [hnil] at hperm
    exact ⟨[], hperm, List.Pairwise.nil, hperm, fun _ => rfl⟩
  | @fails w t u object objects hcap hlru e hevict =>
    obtain ⟨order, hperm, hsorted⟩ := hsome w
    rw [exec_lruCached, Prod.mk.injEq] at hlru
    obtain ⟨_, rfl⟩ := hlru
    rw [(fault_of_exec_evict hevict).2]
    exact ⟨order, hperm, hsorted, hperm, by simp⟩
  | @evicts w t u v object objects victims failed hcap hlru hevict hrest ih =>
    obtain ⟨kept, hperm, hsorted, hkept, hshed⟩ := ih
    obtain ⟨hevicted, hcached, hfirst⟩ := evicted_of_lruCached hlru hevict
    -- the other objects keep their times, so the order of the rest is still one before the eviction
    have hall : (object :: (victims ++ kept)).Perm (cachedObjects w) :=
      (hperm.cons object).trans hcached
    refine ⟨kept, hall, ?_, hkept, ?_⟩
    . rw [List.cons_append, List.pairwise_cons]
      refine ⟨?_, hsorted.imp (ServedBefore.of_evicted hevicted)⟩
      intro other hother
      exact hfirst other (hperm.mem_iff.mp hother)
    . intro hfailed
      rw [List.cons_append, shed_cons_of_not_fits]
      . exact hshed hfailed
      . rw [decide_eq_true_eq, declared_perm hall, ← cachedBytes_eq]
        exact hcap

theorem Sweeps.files (h : Sweeps env cap w victims failed t) {id : ObjectId}
    (hid : ∀ object ∈ victims, object.id ≠ id) :
    t.storage.files.lookup id.text = w.storage.files.lookup id.text := by
  induction h with
  | within hcap => rfl
  | @nothing w t hcap hlru =>
    rw [exec_lruCached, Prod.mk.injEq] at hlru
    rw [← hlru.2]
  | @fails w t u object objects hcap hlru e hevict =>
    rw [exec_lruCached, Prod.mk.injEq] at hlru
    rw [(fault_of_exec_evict hevict).2, ← hlru.2]
  | @evicts w t u v object objects victims failed hcap hlru hevict hrest ih =>
    rw [List.forall_mem_cons] at hid
    obtain ⟨hevicted, _, _⟩ := evicted_of_lruCached hlru hevict
    rw [ih hid.2, hevicted.files]
    apply AList.lookup_erase_ne
    rw [ne_eq, ObjectId.text_inj]
    exact fun heq => hid.1 heq.symm

end Sweeps

section Bound

variable {cap : UInt64} {w : Runtime}

/--
`evict_if_over_cap` ends; it evicts `victims`, which are cached objects, in the order in which they
were served, and nothing else; and unless an eviction fails the cached objects that are left hold at
most `cap` bytes.
-/
def KeepsCap (env : Env) (cap : UInt64) (w : Runtime) : Prop :=
  ∃ victims failed t, exec (evictIfOverCap cap) env w = (.ok (), t) ∧
    Sweeps env cap w victims failed t ∧
    (∃ kept, (victims ++ kept).Perm (cachedObjects w) ∧ (victims ++ kept).Pairwise (ServedBefore w)) ∧
    (∀ id, (∀ object ∈ victims, object.id ≠ id) →
      t.storage.files.lookup id.text = w.storage.files.lookup id.text) ∧
    (failed = false → dataBytes (cachedObjects t) ≤ cap.toNat)

/--
What an eviction in this order keeps.
-/
def keptOf (cap : UInt64) (order : List Object) : List Object :=
  shed (fun objects => decide (declared objects ≤ cap)) order

/--
However the objects that were served at the same time are ordered: the objects that are left once the
declared sizes fit hold no more than the cap.
-/
def HonestSizes (cap : UInt64) (w : Runtime) : Prop :=
  ∀ order : List Object, order.Perm (cachedObjects w) → order.Pairwise (ServedBefore w) →
    dataBytes (keptOf cap order) ≤ cap.toNat

theorem keepsCap_of_honestSizes (h : HonestSizes cap w) (env : Env) : KeepsCap env cap w := by
  obtain ⟨victims, failed, t, hexec, hsweeps⟩ :=
    exists_sweeps env cap (Nat.lt_succ_self w.cache.keys.length)
  obtain ⟨kept, hperm, hsorted, hkept, hshed⟩ := hsweeps.order
  refine ⟨victims, failed, t, ?_, hsweeps, ⟨kept, hperm, hsorted⟩, fun id => hsweeps.files, ?_⟩
  . unfold evictIfOverCap
    rw [exec_bind_ok (Prog.exec_get env w)]
    exact hexec
  . intro hfailed
    rw [← dataBytes_perm hkept, hshed hfailed]
    exact h _ hperm hsorted

/--
A hash map that yields the keys in `ids` first.
-/
def idsFirst (ids keys : List String) : List String :=
  let listed := ids.filter (· ∈ keys) ++ keys.filter (· ∉ ids)
  if listed.Perm keys then listed else keys

omit [Primitives] in
theorem idsFirst_perm (ids keys : List String) : (idsFirst ids keys).Perm keys := by
  unfold idsFirst
  dsimp only
  split
  . next hperm => exact hperm
  . exact List.Perm.refl keys

omit [Primitives] in
theorem sublist_idsFirst {ids keys order : List String} (hids : ids.Nodup) (hkeys : keys.Nodup)
    (horder : order.Sublist ids) (hmem : ∀ id ∈ order, id ∈ keys) :
    order.Sublist (idsFirst ids keys) := by
  have hperm : (ids.filter (· ∈ keys) ++ keys.filter (· ∉ ids)).Perm keys := by
    have hboth : (ids.filter (· ∈ keys)).Perm (keys.filter (· ∈ ids)) := by
      rw [List.perm_ext_iff_of_nodup (hids.filter _) (hkeys.filter _)]
      simp [and_comm]
    apply (hboth.append_right _).trans
    have := List.filter_append_perm (fun id => decide (id ∈ ids)) keys
    simpa using this
  unfold idsFirst
  dsimp only
  rw [if_pos hperm]
  have hfilter : order.filter (· ∈ keys) = order := by
    rw [List.filter_eq_self]
    simpa using hmem
  have := horder.filter (· ∈ keys)
  rw [hfilter] at this
  exact this.trans (List.sublist_append_left _ _)

/--
An environment in which writes succeed and hash maps yield the ids of `order` first.
-/
def inOrder (order : List Object) : Env :=
  { Env.quiet 0 with
    iteration := fun _ keys => idsFirst (order.map fun object => object.id.text) keys
    iteration_perm := fun _ keys => idsFirst_perm _ keys }

theorem nodup_cachedObjects (w : Runtime) :
    ((cachedObjects w).map fun object => object.id.text).Nodup := by
  unfold cachedObjects
  rw [List.map_filterMap]
  apply List.Nodup.filterMap _ w.cache.nodupKeys
  intro id id' text htext htext'
  obtain ⟨object, hobject, heq⟩ := Option.map_eq_some_iff.mp htext
  obtain ⟨object', hobject', heq'⟩ := Option.map_eq_some_iff.mp htext'
  rw [Storage.id_of_getVerified (toOption_eq_some.mp hobject)] at heq
  rw [Storage.id_of_getVerified (toOption_eq_some.mp hobject')] at heq'
  exact heq.trans heq'.symm

theorem exec_lruCached_inOrder {order rest : List Object}
    (hids : (order.map fun object => object.id.text).Nodup) (hsuffix : rest <:+ order)
    (hperm : rest.Perm (cachedObjects w)) (hsorted : rest.Pairwise (ServedBefore w)) :
    exec lruCached (inOrder order) w = (.ok rest, { w with tick := w.tick + 1 }) := by
  rw [exec_lruCached, lruCachedObjects_eq_of_sublist _ hperm hsorted]
  . apply sublist_idsFirst hids w.cache.nodupKeys (hsuffix.sublist.map _)
    intro id hid
    obtain ⟨object, hobject, rfl⟩ := List.mem_map.mp hid
    exact (mem_cachedObjects.mp (hperm.mem_iff.mp hobject)).1
  . exact idsFirst_perm _ _

/--
There the objects are evicted in this order.
-/
theorem sweeps_inOrder {order rest victims : List Object} {failed : Bool} {t : Runtime}
    (hids : (order.map fun object => object.id.text).Nodup)
    (h : Sweeps (inOrder order) cap w victims failed t) (hsuffix : rest <:+ order)
    (hperm : rest.Perm (cachedObjects w)) (hsorted : rest.Pairwise (ServedBefore w)) :
    failed = false ∧ (cachedObjects t).Perm (keptOf cap rest) := by
  induction h generalizing rest with
  | @within w hcap =>
    refine ⟨rfl, ?_⟩
    rw [cachedBytes_eq, ← declared_perm hperm] at hcap
    unfold keptOf
    rw [shed_of_fits (decide_eq_true hcap)]
    exact hperm.symm
  | @nothing w t hcap hlru =>
    rw [exec_lruCached_inOrder hids hsuffix hperm hsorted, Prod.mk.injEq, Except.ok.injEq] at hlru
    obtain ⟨rfl, rfl⟩ := hlru
    exact ⟨rfl, hperm.symm⟩
  | @fails w t u object objects hcap hlru e hevict =>
    exact absurd rfl (fault_of_exec_evict hevict).1
  | @evicts w t u v object objects victims failed hcap hlru hevict hrest ih =>
    obtain ⟨hevicted, hcached, _⟩ := evicted_of_lruCached hlru hevict
    rw [exec_lruCached_inOrder hids hsuffix hperm hsorted, Prod.mk.injEq, Except.ok.injEq] at hlru
    obtain ⟨rfl, rfl⟩ := hlru
    have hperm' : objects.Perm (cachedObjects u) :=
      (List.perm_cons object).mp (hperm.trans hcached.symm)
    -- each round orders the ids anew, and this one finds the rest of `order` again
    have hsorted' : objects.Pairwise (ServedBefore u) := by
      apply (List.pairwise_cons.mp hsorted).2.imp_of_mem
      intro a b ha hb hab
      exact hab.evicted hevicted (hperm'.mem_iff.mp ha) (hperm'.mem_iff.mp hb)
    obtain ⟨hfailed, hkept⟩ := ih ((List.suffix_cons object objects).trans hsuffix) hperm' hsorted'
    refine ⟨hfailed, ?_⟩
    unfold keptOf
    rw [shed_cons_of_not_fits]
    . exact hkept
    . rw [decide_eq_true_eq, declared_perm hperm, ← cachedBytes_eq]
      exact hcap

/--
A sweep keeps to its cap just if the declared sizes of what it keeps are honest enough.
-/
theorem keepsCap_iff : (∀ env, KeepsCap env cap w) ↔ HonestSizes cap w := by
  constructor
  . intro h order hperm hsorted
    obtain ⟨victims, failed, t, _, hsweeps, _, _, hbound⟩ := h (inOrder order)
    have hids : (order.map fun object => object.id.text).Nodup :=
      (hperm.map _).nodup_iff.mpr (nodup_cachedObjects w)
    obtain ⟨hfailed, hkept⟩ := sweeps_inOrder hids hsweeps (List.suffix_refl order) hperm hsorted
    rw [← dataBytes_perm hkept]
    exact hbound hfailed
  . intro h env
    exact keepsCap_of_honestSizes h env

end Bound

end Runtime

end Canopee

namespace Canopee.Runtime

open Canopee.Compact
open Prog (exec)

section Counterexample

/--
An object of Mallory's that says it is empty.
-/
def underDeclared : Object :=
  .signed mallory { (Object.new mallory 0 [7, 7, 7] .blob).payload with
    metadata := { (Object.new mallory 0 [7, 7, 7] .blob).payload.metadata with size := 0 } }

def holdsUnderDeclared : Runtime :=
  NodeOp.step (.objectRequest (.store ⟨1, underDeclared⟩), Env.quiet 0) (fresh alice laptop)

theorem evictIfOverCap_underDeclared :
    (exec (evictIfOverCap 1) (Env.quiet 0) holdsUnderDeclared).1 = .ok () ∧
      dataBytes (cachedObjects (exec (evictIfOverCap 1) (Env.quiet 0) holdsUnderDeclared).2) = 3 ∧
      cachedBytes holdsUnderDeclared = 0 := by
  decide +kernel

/--
Its bytes do not count towards the cap.
-/
theorem not_keepsCap_underDeclared : ¬ KeepsCap (Env.quiet 0) 1 holdsUnderDeclared := by
  obtain ⟨hok, hbytes, hdeclared⟩ := evictIfOverCap_underDeclared
  revert hok hbytes hdeclared
  generalize holdsUnderDeclared = w
  intro hok hbytes hdeclared ⟨victims, failed, t, hexec, hsweeps, _, _, hbound⟩
  rw [hexec] at hbytes
  have hfailed : failed = false := by
    cases hsweeps with
    | within _ => rfl
    | nothing hcap _ => rfl
    | fails hcap _ _ => exact absurd (by rw [hdeclared]; decide) hcap
    | evicts hcap _ _ _ => exact absurd (by rw [hdeclared]; decide) hcap
  have hle := hbound hfailed
  rw [hbytes] at hle
  exact absurd hle (by decide)

end Counterexample

end Canopee.Runtime
