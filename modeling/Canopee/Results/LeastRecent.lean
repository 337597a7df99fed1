import Canopee.Lib.Recency
import Canopee.Results.Adoption
import Canopee.Results.Sweep
import Canopee.Runtime.Sidecar

/-!
This module contains what the cache index remembers of the uses of cached objects: which ids it tracks,
the order in which it lists their objects, and when an id comes back that was removed from it.
-/

namespace Canopee

open Primitives
open Canopee.Runtime
open Prog (exec exec_bind_ok)
open Recency (Event Tracked Dropped Holds lastTime recalled times holds_nil mem_times_of_lastTime)

variable [Primitives]

/--
What is done with the cache index, and what happens to the store meanwhile.
-/
inductive CacheOp where
  | markCached (id : ObjectId)
  | touchServed (id : ObjectId)
  | remove (id : ObjectId)
  | reload
  | disk (storage : Storage)

namespace CacheOp

def perform : CacheOp → RunM Unit
  | markCached id => Runtime.markCached id
  | touchServed id => Runtime.touchServed id
  | remove id => uncache id
  | reload => reloadCache
  | disk storage => modify fun w => { w with storage := storage }

/--
What an operation from `w` does to the index, and whether the sidecar is written with it.
-/
def event (env : Env) (w : Runtime) : CacheOp → List (Event String Int)
  | markCached id => [.use (.mark id.text (env.clock w.tick)) (env.fault (w.tick + 1)).isNone]
  | touchServed id => [.use (.serve id.text (env.clock w.tick)) false]
  | remove id => [.use (.drop id.text) (env.fault w.tick).isNone]
  | reload => [.reload]
  | disk _ => []

end CacheOp

/--
A node and what was done with its cache index, the latest first.
-/
structure Watched where
  node : Runtime
  events : List (Event String Int)

namespace Watched

def step : CacheOp × Env → Watched → Watched
  | (op, env), s => {
    node := (exec op.perform env s.node).2
    events := op.event env s.node ++ s.events
  }

/--
The node with a new cache index.
-/
def start (node : Runtime) : Watched where
  node := { node with cache := ∅, sidecar := ∅ }
  events := []

variable {s : Watched} {env : Env} {w : Runtime}

section Specification

/--
The object is tracked, as far as the index knows, and the store yields it.
-/
structure Present (s : Watched) (object : Object) : Prop where
  tracked : Tracked object.id.text (recalled s.events).1
  stored : s.node.storage.getVerified object.id = .ok object

/--
These are the objects that are present, each once, by the time of their last mark or serve since the
index was loaded, or the persisted one.
-/
structure Lists (s : Watched) (objects : List Object) : Prop where
  once : (objects.map Object.id).Nodup
  exact : ∀ object, object ∈ objects ↔ Present s object
  order : objects.Pairwise fun a b => ∀ t u, lastTime a.id.text (recalled s.events).1 = some t →
    lastTime b.id.text (recalled s.events).1 = some u → t ≤ u

def Listed (s : Watched) : Prop :=
  ∀ env, ∃ objects, (exec lruCached env s.node).1 = .ok objects ∧ Lists s objects

/--
What was removed and not marked since is not tracked.
-/
def Gone (s : Watched) : Prop :=
  ∀ id, Dropped id s.events → id ∉ s.node.cache

def StartsNothing : CacheOp × Env → Watched → Prop
  | (.touchServed id, env), s =>
    ∀ other, other ∈ (step (.touchServed id, env) s).node.cache → other ∈ s.node.cache
  | _, _ => True

/--
The cache index is a faithful record of the least recently used objects.
-/
structure FaithfulLru (node : Runtime) (ls : List (CacheOp × Env)) : Prop where
  listed : Run.Always step Listed (start node) ls
  serves : Run.Along step StartsNothing (start node) ls
  gone : Run.Always step Gone (start node) ls

/--
All that is present was last used before 1970, or nothing was.
-/
def Dated (s : Watched) : Prop :=
  ∀ a b, Present s a → Present s b → ∀ t u, lastTime a.id.text (recalled s.events).1 = some t →
    lastTime b.id.text (recalled s.events).1 = some u → t < 0 → u < 0

/--
Nothing is loaded from the sidecar that the index no longer tracks.
-/
def Flushed : CacheOp × Env → Watched → Prop
  | (.reload, _), s => ∀ id, id ∈ s.node.sidecar → id ∈ s.node.cache
  | _, _ => True

end Specification

section Times

variable {t u : Int}

/--
`unix_timestamp` is an `i64`.
-/
def InI64 (t : Int) : Prop :=
  -2 ^ 63 ≤ t ∧ t < 2 ^ 63

omit [Primitives] in
theorem toNat_asU64 (t : Int) : ((asU64 t).toNat : Int) = t % 2 ^ 64 := by
  unfold asU64 UInt64.ofInt
  rw [UInt64.toNat_ofNat']
  omega

omit [Primitives] in
theorem le_of_asU64_le (ht : InI64 t) (hu : InI64 u) (hsign : u < 0 → t < 0)
    (h : asU64 t ≤ asU64 u) : t ≤ u := by
  have hle : ((asU64 t).toNat : Int) ≤ (asU64 u).toNat := by
    exact_mod_cast UInt64.le_iff_toNat_le.mp h
  rw [toNat_asU64, toNat_asU64] at hle
  unfold InI64 at ht hu
  omega

omit [Primitives] in
theorem not_asU64_le (ht : InI64 t) (hu : InI64 u) (hneg : t < 0) (hnonneg : 0 ≤ u) :
    ¬ asU64 t ≤ asU64 u := by
  intro h
  have hle : ((asU64 t).toNat : Int) ≤ (asU64 u).toNat := by
    exact_mod_cast UInt64.le_iff_toNat_le.mp h
  rw [toNat_asU64, toNat_asU64] at hle
  unfold InI64 at ht hu
  omega

end Times

section Operations

theorem cache_markCached (id : ObjectId) :
    (exec (Runtime.markCached id) env w).2.cache =
      w.cache.insert id.text (asU64 (env.clock w.tick)) := by
  rw [exec_markCached]
  dsimp only
  split
  . rfl
  . rfl

theorem sidecar_markCached (id : ObjectId) :
    (exec (Runtime.markCached id) env w).2.sidecar =
      if (env.fault (w.tick + 1)).isNone then
        (exec (Runtime.markCached id) env w).2.cache
      else
        w.sidecar := by
  rw [cache_markCached, exec_markCached]
  cases env.fault (w.tick + 1) with
  | none => rfl
  | some fault => rfl

theorem exec_uncache (id : ObjectId) (env : Env) (w : Runtime) :
    exec (uncache id) env w =
      (.ok (), { if env.fault w.tick = none then flush (untrack id w) else untrack id w with
        tick := w.tick + 1 }) := by
  unfold uncache persist
  rw [exec_bind_ok (Prog.exec_modify _ env w), exec_bind_ok (Prog.exec_attempt _ env _)]
  generalize hv : ({ w with cache := w.cache.erase id.text } : Runtime) = v
  have htick : v.tick = w.tick := by rw [← hv]
  cases hfault : env.fault w.tick with
  | none =>
    rw [exec_writeAtomic_of_none (htick ▸ hfault), ← hv]
    rfl
  | some fault =>
    rw [exec_writeAtomic_of_some (htick ▸ hfault), ← hv]
    rfl

theorem cache_uncache (id : ObjectId) :
    (exec (uncache id) env w).2.cache = w.cache.erase id.text := by
  rw [exec_uncache]
  dsimp only
  split
  . rfl
  . rfl

theorem sidecar_uncache (id : ObjectId) :
    (exec (uncache id) env w).2.sidecar =
      if (env.fault w.tick).isNone then (exec (uncache id) env w).2.cache else w.sidecar := by
  rw [cache_uncache, exec_uncache]
  cases env.fault w.tick with
  | none => rfl
  | some fault => rfl

theorem sidecar_touchServed (id : ObjectId) :
    (exec (Runtime.touchServed id) env w).2.sidecar = w.sidecar := by
  unfold Runtime.touchServed
  rw [exec_bind_ok (exec_now env w), Prog.exec_modify]
  dsimp only
  split
  . rfl
  . rfl

theorem cache_touchServed (id : ObjectId) :
    (exec (Runtime.touchServed id) env w).2.cache =
      match w.cache.lookup id.text with
      | some _ => w.cache.insert id.text (asU64 (env.clock w.tick))
      | none => w.cache := by
  unfold Runtime.touchServed
  rw [exec_bind_ok (exec_now env w), Prog.exec_modify]
  dsimp only
  cases w.cache.lookup id.text with
  | some time => rfl
  | none => rfl

theorem lookup_touchServed (id : ObjectId) :
    (exec (Runtime.touchServed id) env w).2.cache.lookup id.text =
      (w.cache.lookup id.text).map fun _ => asU64 (env.clock w.tick) := by
  rw [cache_touchServed]
  cases hlookup : w.cache.lookup id.text with
  | some time => exact AList.lookup_insert _
  | none => exact hlookup

theorem lookup_touchServed_of_ne {id : ObjectId} {other : String} (hne : other ≠ id.text) :
    (exec (Runtime.touchServed id) env w).2.cache.lookup other = w.cache.lookup other := by
  rw [cache_touchServed]
  cases w.cache.lookup id.text with
  | some time => exact AList.lookup_insert_ne hne
  | none => rfl

theorem sidecar_reloadCache : (exec reloadCache env w).2.sidecar = w.sidecar := rfl

theorem lookup_reloadCache (id : String) :
    (exec reloadCache env w).2.cache.lookup id = w.sidecar.lookup id :=
  CacheIndex.lookup_load_serialize (env.iteration_perm w.tick w.sidecar.keys) id

end Operations

section Invariant

/--
The invariant: the index and its sidecar hold what they know of the uses, and the times come from a
clock.
-/
structure Follows (s : Watched) : Prop where
  cache : Holds asU64 (fun id => s.node.cache.lookup id) (recalled s.events).1
  sidecar : Holds asU64 (fun id => s.node.sidecar.lookup id) (recalled s.events).2
  known : ∀ t ∈ times (recalled s.events).1, InI64 t
  saved : ∀ t ∈ times (recalled s.events).2, InI64 t

theorem follows_start (node : Runtime) : Follows (start node) where
  cache := holds_nil fun id => AList.lookup_empty id
  sidecar := holds_nil fun id => AList.lookup_empty id
  known _ ht := by cases ht
  saved _ ht := by cases ht

theorem follows_use {use : Recency.Use String Int} {saved : Bool} {v : Runtime} (h : Follows s)
    (hcache : Holds asU64 (fun id => v.cache.lookup id) (use :: (recalled s.events).1))
    (hsidecar : v.sidecar = if saved then v.cache else s.node.sidecar)
    (htimes : ∀ t ∈ times (use :: (recalled s.events).1), InI64 t) :
    Follows ⟨v, .use use saved :: s.events⟩ := by
  cases saved with
  | true =>
    rw [if_pos rfl] at hsidecar
    refine ⟨hcache, ?_, htimes, htimes⟩
    rw [hsidecar]
    exact hcache
  | false =>
    rw [if_neg Bool.false_ne_true] at hsidecar
    refine ⟨hcache, ?_, htimes, h.saved⟩
    rw [hsidecar]
    exact h.sidecar

theorem follows_step {l : CacheOp × Env} (hclock : ∀ t, InI64 (l.2.clock t)) (h : Follows s) :
    Follows (step l s) := by
  obtain ⟨op, env⟩ := l
  have htimes {t : Int} (ht : InI64 t) :
      ∀ u ∈ t :: times (recalled s.events).1, InI64 u :=
    List.forall_mem_cons.mpr ⟨ht, h.known⟩
  cases op with
  | markCached id =>
    apply follows_use h
    . apply h.cache.mark
      . change (exec (Runtime.markCached id) env s.node).2.cache.lookup id.text = _
        rw [cache_markCached]
        exact AList.lookup_insert _
      . intro other hne
        change (exec (Runtime.markCached id) env s.node).2.cache.lookup other = _
        rw [cache_markCached]
        exact AList.lookup_insert_ne hne
    . exact sidecar_markCached id
    . exact htimes (hclock _)
  | touchServed id =>
    apply follows_use h
    . exact h.cache.serve (lookup_touchServed id) fun other hne => lookup_touchServed_of_ne hne
    . exact sidecar_touchServed id
    . exact htimes (hclock _)
  | remove id =>
    apply follows_use h
    . apply h.cache.drop
      . change (exec (uncache id) env s.node).2.cache.lookup id.text = _
        rw [cache_uncache]
        exact AList.lookup_erase _ _
      . intro other hne
        change (exec (uncache id) env s.node).2.cache.lookup other = _
        rw [cache_uncache]
        exact AList.lookup_erase_ne hne
    . exact sidecar_uncache id
    . exact h.known
  | reload =>
    exact ⟨h.sidecar.congr fun id => lookup_reloadCache id, h.sidecar, h.saved, h.saved⟩
  | disk storage => exact ⟨h.cache, h.sidecar, h.known, h.saved⟩

theorem Follows.mem_iff (h : Follows s) {id : String} :
    id ∈ s.node.cache ↔ Tracked id (recalled s.events).1 := by
  rw [← AList.lookup_isSome]
  exact h.cache.tracked id

end Invariant

section Order

theorem Follows.mem_cachedObjects (h : Follows s) {object : Object} :
    object ∈ cachedObjects s.node ↔ Present s object := by
  rw [Runtime.mem_cachedObjects, ← AList.mem_keys, h.mem_iff]
  exact ⟨fun ⟨htracked, hstored⟩ => ⟨htracked, hstored⟩, fun hpresent =>
    ⟨hpresent.tracked, hpresent.stored⟩⟩

theorem nodup_cachedObjects (w : Runtime) : ((cachedObjects w).map Object.id).Nodup := by
  unfold cachedObjects List.Nodup
  rw [List.pairwise_map, List.pairwise_filterMap]
  apply (AList.keys_nodup w.cache).imp
  intro id other hne a ha b hb heq
  rw [Storage.id_of_getVerified (toOption_eq_some.mp ha),
    Storage.id_of_getVerified (toOption_eq_some.mp hb), ObjectId.mk.injEq] at heq
  exact hne heq

omit [Primitives] in
theorem rel_or_rel {α : Type} {R : α → α → Prop} {as : List α} {a b : α} (h : as.Pairwise R)
    (ha : a ∈ as) (hb : b ∈ as) (hne : a ≠ b) : R a b ∨ R b a := by
  have hsymm : Std.Symm fun a b => R a b ∨ R b a := ⟨fun _ _ => Or.symm⟩
  have hor : as.Pairwise fun a b => R a b ∨ R b a := h.imp Or.inl
  exact hor.forall ha hb hne

theorem Follows.servedBefore (h : Follows s) {a b : Object} {t u : Int}
    (hserved : ServedBefore s.node a b) (ha : lastTime a.id.text (recalled s.events).1 = some t)
    (hb : lastTime b.id.text (recalled s.events).1 = some u) : asU64 t ≤ asU64 u := by
  obtain ⟨first, second, hfirst, hsecond, hle⟩ := hserved
  obtain ⟨t', ht', rfl⟩ := h.cache.time _ _ hfirst
  obtain ⟨u', hu', rfl⟩ := h.cache.time _ _ hsecond
  rw [ha, Option.some.injEq] at ht'
  rw [hb, Option.some.injEq] at hu'
  rw [ht', hu']
  exact hle

theorem dated_of_nonneg (h : ∀ t ∈ times (recalled s.events).1, 0 ≤ t) : Dated s := by
  intro a b _ _ t u ht _ hneg
  have := h t (mem_times_of_lastTime ht)
  omega

/--
The listing is in the order of the last uses just when these do not straddle 1970.
-/
theorem Follows.listed_iff (h : Follows s) : Listed s ↔ Dated s := by
  constructor
  . intro hlisted a b ha hb t u ht hu hneg
    by_contra hnonneg
    rw [not_lt] at hnonneg
    obtain ⟨objects, hobjects, hlists⟩ := hlisted (Env.quiet 0)
    have hserved := lruCachedObjects_pairwise s.node
      ((Env.quiet 0).iteration s.node.tick s.node.cache.keys)
    rw [exec_lruCached, Except.ok.injEq] at hobjects
    rw [hobjects] at hserved
    have hne : a ≠ b := by
      rintro rfl
      rw [ht, Option.some.injEq] at hu
      omega
    -- one of the two is listed first, in both orders
    rcases rel_or_rel (hlists.order.and hserved) ((hlists.exact a).mpr ha) ((hlists.exact b).mpr hb) hne
      with ⟨_, hserved⟩ | ⟨horder, _⟩
    . exact not_asU64_le (h.known t (mem_times_of_lastTime ht)) (h.known u (mem_times_of_lastTime hu))
        hneg hnonneg (h.servedBefore hserved ht hu)
    . have := horder u t hu ht
      omega
  . intro hdated env
    have hperm := lruCachedObjects_perm (env.iteration_perm s.node.tick s.node.cache.keys)
    have hserved := lruCachedObjects_pairwise s.node (env.iteration s.node.tick s.node.cache.keys)
    refine ⟨_, rfl, ?_⟩
    have hexact (object : Object) :
        object ∈ lruCachedObjects s.node (env.iteration s.node.tick s.node.cache.keys) ↔
          Present s object := by
      rw [hperm.mem_iff, h.mem_cachedObjects]
    refine ⟨(hperm.map Object.id).nodup_iff.mpr (nodup_cachedObjects s.node), hexact, ?_⟩
    apply hserved.imp_of_mem
    intro a b ha hb hbefore t u ht hu
    exact le_of_asU64_le (h.known t (mem_times_of_lastTime ht)) (h.known u (mem_times_of_lastTime hu))
      (hdated b a ((hexact b).mp hb) ((hexact a).mp ha) u t hu ht) (h.servedBefore hbefore ht hu)

end Order

section Removal

/--
What the sidecar has and the index no longer tracks was removed.
-/
def Unsaved (s : Watched) : Prop :=
  ∀ id, id ∈ s.node.sidecar → id ∉ s.node.cache → Dropped id s.events

theorem mem_reloadCache {id : String} :
    id ∈ (exec reloadCache env w).2.cache ↔ id ∈ w.sidecar := by
  rw [← AList.lookup_isSome, lookup_reloadCache, AList.lookup_isSome]

theorem mem_touchServed (id : ObjectId) {other : String} :
    other ∈ (exec (Runtime.touchServed id) env w).2.cache ↔ other ∈ w.cache := by
  rw [← AList.lookup_isSome, ← AList.lookup_isSome]
  by_cases hne : other = id.text
  . rw [hne, lookup_touchServed, Option.isSome_map]
  . rw [lookup_touchServed_of_ne hne]

theorem startsNothing (l : CacheOp × Env) (s : Watched) : StartsNothing l s := by
  obtain ⟨op, env⟩ := l
  cases op with
  | touchServed id => exact fun other hother => (mem_touchServed id).mp hother
  | markCached id => trivial
  | remove id => trivial
  | reload => trivial
  | disk storage => trivial

theorem gone_step_iff (l : CacheOp × Env) (hgone : Gone s) (hunsaved : Unsaved s) :
    Gone (step l s) ↔ Flushed l s := by
  obtain ⟨op, env⟩ := l
  cases op with
  | markCached id =>
    refine iff_of_true ?_ trivial
    rintro other ⟨hne, hdropped⟩
    change other ∉ (exec (Runtime.markCached id) env s.node).2.cache
    rw [cache_markCached, AList.mem_insert, not_or]
    exact ⟨Ne.symm hne, hgone other hdropped⟩
  | touchServed id =>
    refine iff_of_true ?_ trivial
    intro other hdropped hother
    exact hgone other hdropped ((mem_touchServed id).mp hother)
  | remove id =>
    refine iff_of_true ?_ trivial
    intro other hdropped
    change other ∉ (exec (uncache id) env s.node).2.cache
    rw [cache_uncache, AList.mem_erase, not_and]
    intro hne
    exact hgone other (hdropped.resolve_left (Ne.symm hne))
  | reload =>
    constructor
    . intro hstays id hid
      by_contra hnot
      exact hstays id (hunsaved id hid hnot) (mem_reloadCache.mpr hid)
    . intro hflushed id hdropped hid
      exact hgone id hdropped (hflushed id (mem_reloadCache.mp hid))
  | disk storage => exact iff_of_true hgone trivial

theorem unsaved_step (l : CacheOp × Env) (hunsaved : Unsaved s) : Unsaved (step l s) := by
  obtain ⟨op, env⟩ := l
  cases op with
  | markCached id =>
    intro other hother hnot
    change other ∈ (exec (Runtime.markCached id) env s.node).2.sidecar at hother
    change other ∉ (exec (Runtime.markCached id) env s.node).2.cache at hnot
    rw [sidecar_markCached] at hother
    split at hother
    . exact absurd hother hnot
    . rw [cache_markCached, AList.mem_insert, not_or] at hnot
      exact ⟨Ne.symm hnot.1, hunsaved other hother hnot.2⟩
  | touchServed id =>
    intro other hother hnot
    change other ∈ (exec (Runtime.touchServed id) env s.node).2.sidecar at hother
    rw [sidecar_touchServed] at hother
    exact hunsaved other hother fun hmem => hnot ((mem_touchServed id).mpr hmem)
  | remove id =>
    intro other hother hnot
    change other ∈ (exec (uncache id) env s.node).2.sidecar at hother
    change other ∉ (exec (uncache id) env s.node).2.cache at hnot
    rw [sidecar_uncache] at hother
    split at hother
    . exact absurd hother hnot
    . by_cases hne : other = id.text
      . exact .inl hne.symm
      . right
        apply hunsaved other hother
        intro hmem
        rw [cache_uncache, AList.mem_erase] at hnot
        exact hnot ⟨hne, hmem⟩
  | reload =>
    intro other hother hnot
    change other ∈ (exec reloadCache env s.node).2.sidecar at hother
    change other ∉ (exec reloadCache env s.node).2.cache at hnot
    rw [sidecar_reloadCache] at hother
    exact absurd (mem_reloadCache.mpr hother) hnot
  | disk storage => exact hunsaved

theorem run_gone_iff (node : Runtime) (ls : List (CacheOp × Env)) :
    Run.Always step Gone (start node) ls ↔ Run.Along step Flushed (start node) ls := by
  have hgone : Gone (start node) := fun _ hdropped => hdropped.elim
  have hunsaved : Unsaved (start node) := fun id hid => absurd hid (AList.notMem_empty id)
  rw [Run.always_iff, and_iff_right hgone]
  apply Run.along_iff (A := fun _ _ => True) (I := fun s => Gone s ∧ Unsaved s) _ ⟨hgone, hunsaved⟩
  . intro l s _ h
    exact gone_step_iff l h.1 h.2
  . intro l s _ h hflushed
    exact ⟨(gone_step_iff l h.1 h.2).mpr hflushed, unsaved_step l h.2⟩
  . exact Run.along_of_forall (fun _ _ _ => trivial) _

end Removal

/--
The cache index is a faithful record just when what is cached was used on one side of 1970 only, and no
sidecar is loaded that has something in it which was removed.
-/
theorem faithfulLru_iff (node : Runtime) (ls : List (CacheOp × Env))
    (hclock : ∀ l ∈ ls, ∀ t, InI64 (l.2.clock t)) :
    FaithfulLru node ls ↔
      Run.Always step Dated (start node) ls ∧ Run.Along step Flushed (start node) ls := by
  have hfollows : Run.Always step Follows (start node) ls := by
    have halong : Run.Along step (fun l _ => ∀ t, InI64 (l.2.clock t)) (start node) ls :=
      Run.along_of_forall (fun l hl _ => hclock l hl) _
    exact halong.always (follows_start node) fun _ _ hstep h => follows_step hstep h
  have hlisted : Run.Always step Listed (start node) ls ↔ Run.Always step Dated (start node) ls :=
    hfollows.congr fun _ h => h.listed_iff
  constructor
  . intro h
    exact ⟨hlisted.mp h.listed, (run_gone_iff node ls).mp h.gone⟩
  . intro h
    have hserves : Run.Along step StartsNothing (start node) ls :=
      Run.along_of_forall (fun l _ s => startsNothing l s) _
    exact ⟨hlisted.mpr h.1, hserves, (run_gone_iff node ls).mpr h.2⟩

end Watched

end Canopee

namespace Canopee.Watched

open Canopee.Runtime
open Prog (exec)

section Witness

open Canopee.Transparent

/--
An object is fetched, served and found in the sidecar again.
-/
def servedAndReloaded : List (CacheOp × Env) :=
  [(.markCached ⟨"ab"⟩, Env.quiet 5), (.touchServed ⟨"ab"⟩, Env.quiet 6), (.reload, Env.quiet 7)]

theorem faithfulLru_servedAndReloaded : FaithfulLru (fresh alice laptop) servedAndReloaded := by
  have hclock : ∀ l ∈ servedAndReloaded, ∀ t, InI64 (l.2.clock t) := by
    simp [servedAndReloaded, InI64, Env.quiet]
  apply (faithfulLru_iff (fresh alice laptop) servedAndReloaded hclock).mpr
  constructor
  . exact ⟨dated_of_nonneg (by decide), dated_of_nonneg (by decide), dated_of_nonneg (by decide),
      dated_of_nonneg (by decide)⟩
  . refine ⟨trivial, trivial, ?_, trivial⟩
    intro id hid
    -- the sidecar is as it was written when the object was fetched
    have hmarked : id ∈ (step (.markCached ⟨"ab"⟩, Env.quiet 5)
        (start (fresh alice laptop))).node.cache := hid
    change id ∈ (exec (Runtime.touchServed ⟨"ab"⟩) (Env.quiet 6)
      (step (.markCached ⟨"ab"⟩, Env.quiet 5) (start (fresh alice laptop))).node).2.cache
    exact (mem_touchServed ⟨"ab"⟩).mpr hmarked

end Witness

section Counterexample

open Canopee.Compact

/--
An object is fetched and evicted; the disk refuses the new sidecar, and the node starts again.
-/
def removedOnFullDisk : List (CacheOp × Env) :=
  [(.markCached ⟨"ab"⟩, Env.quiet 5),
    (.remove ⟨"ab"⟩, { Env.quiet 6 with fault := fun _ => some .refused }), (.reload, Env.quiet 7)]

theorem not_faithfulLru_removedOnFullDisk :
    ¬ FaithfulLru (fresh alice laptop) removedOnFullDisk := by
  intro h
  have hgone : Gone (Run.run step (start (fresh alice laptop)) removedOnFullDisk) := h.gone.last
  have hcached : ((Run.run step (start (fresh alice laptop)) removedOnFullDisk).node.cache.lookup
      "ab").isSome = true := by
    decide +kernel
  exact hgone "ab" (.inl rfl) (AList.lookup_isSome.mp hcached)

end Counterexample

end Canopee.Watched
