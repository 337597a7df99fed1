import Canopee.Results.RecordSync

/-!
This module contains the selection of the newest pointer: when it depends on nothing but the valid
pointers that a device holds, and when the cached pointer only gets newer.
-/

namespace Canopee

open Primitives
open Canopee.Runtime
open Prog (Keeps Triple exec exec_bind_ok exec_bind_error)
open Selection (Selects)

variable [Primitives]

namespace Runtime

section Scan

variable {env : Env} {owner : IdentityId} {name : String} {w : Runtime}

/--
The store lists a pointer object that is labelled with `owner` and has the signed record for `name`,
whoever signed it.
-/
def StoredPointer (w : Runtime) (owner : IdentityId) (name : String) (record : AppPointerRecord) :
    Prop :=
  ∃ text ∈ w.storage.files.keys, isHidden text = false ∧
    w.storage.pointerFor owner name ⟨text⟩ = some record

theorem StoredPointer.congr {w' : Runtime} {record : AppPointerRecord}
    (h : StoredPointer w owner name record) (hfiles : w'.storage.files = w.storage.files) :
    StoredPointer w' owner name record := by
  obtain ⟨text, hmem, hhidden, hvalue⟩ := h
  have hget : w'.storage.getVerified ⟨text⟩ = w.storage.getVerified ⟨text⟩ :=
    Storage.getVerified_congr (by rw [hfiles])
  refine ⟨text, hfiles ▸ hmem, hhidden, ?_⟩
  rw [← hvalue]
  simp only [Storage.pointerFor, Storage.labelledPointer, hget]

def ValidPointer (w : Runtime) (owner : IdentityId) (name : String) (record : AppPointerRecord) :
    Prop :=
  StoredPointer w owner name record ∧ record.owner = owner

/--
`record` is in `P`, and everything else in `P` is older.
-/
def Newest (P : AppPointerRecord → Prop) (record : AppPointerRecord) : Prop :=
  P record ∧ ∀ other, P other → other ≠ record → other.publishedAt < record.publishedAt

omit [Primitives] in
theorem Newest.unique {P : AppPointerRecord → Prop} {a b : AppPointerRecord} (ha : Newest P a)
    (hb : Newest P b) : a = b := by
  by_contra hne
  have hab := hb.2 a ha.1 hne
  have hba := ha.2 b hb.1 fun heq => hne heq.symm
  exact absurd (UInt64.lt_trans hab hba) (UInt64.lt_irrefl _)

/--
A scan for `owner` gets past every file of the store.
-/
def Clear (w : Runtime) (owner : IdentityId) : Prop :=
  ∀ text ∈ w.storage.files.keys, isHidden text = false → w.storage.Legible owner ⟨text⟩

def Lists (env : Env) (w : Runtime) : Prop :=
  (listed env w).isSome = true

theorem mem_listed {ids : List ObjectId} (h : listed env w = some ids) {id : ObjectId} :
    id ∈ ids ↔ id.text ∈ w.storage.files.keys ∧ isHidden id.text = false := by
  obtain ⟨names, hnames, hids⟩ := Option.map_eq_some_iff.mp h
  have hperm := env.listing_perm w.tick w.storage.files.keys names hnames
  rw [← hids]
  simp only [List.mem_map, List.mem_filter, Bool.not_eq_true', ← hperm.mem_iff]
  constructor
  . intro ⟨text, htext, hid⟩
    rw [← hid]
    exact htext
  . intro htext
    exact ⟨id.text, htext, rfl⟩

theorem storedPointer_iff {ids : List ObjectId} (h : listed env w = some ids)
    {record : AppPointerRecord} : StoredPointer w owner name record ↔
      ∃ id ∈ ids, w.storage.pointerFor owner name id = some record := by
  simp only [StoredPointer, mem_listed h]
  constructor
  . intro ⟨text, htext, hhidden, hrecord⟩
    exact ⟨⟨text⟩, ⟨htext, hhidden⟩, hrecord⟩
  . intro ⟨id, ⟨htext, hhidden⟩, hrecord⟩
    exact ⟨id.text, htext, hhidden, hrecord⟩

theorem clear_iff {ids : List ObjectId} (h : listed env w = some ids) :
    Clear w owner ↔ ∀ id ∈ ids, w.storage.Legible owner id := by
  simp only [mem_listed h]
  constructor
  . intro hclear id ⟨htext, hhidden⟩
    exact hclear id.text htext hhidden
  . intro hlegible text htext hhidden
    exact hlegible ⟨text⟩ ⟨htext, hhidden⟩

theorem stored_of_scannedPointer {record : AppPointerRecord}
    (h : scannedPointer env w owner name = some record) :
    StoredPointer w owner name record ∧ Clear w owner ∧
      ∀ other, StoredPointer w owner name other → other.publishedAt ≤ record.publishedAt := by
  obtain ⟨ids, hids, hscan⟩ := Option.bind_eq_some_iff.mp h
  obtain ⟨hlegible, id, before, after, happend, hvalue, hbefore, hafter⟩ :=
    scanPointers_eq_some_iff.mp hscan
  refine ⟨(storedPointer_iff hids).mpr ⟨id, by simp [happend], hvalue⟩,
    (clear_iff hids).mpr hlegible, ?_⟩
  intro other hother
  obtain ⟨j, hj, hvalue'⟩ := (storedPointer_iff hids).mp hother
  rw [UInt64.le_iff_toNat_le]
  rw [happend, List.mem_append, List.mem_cons] at hj
  rcases hj with hj | rfl | hj
  . exact Nat.le_of_lt (hbefore j hj other hvalue')
  . rw [hvalue, Option.some.injEq] at hvalue'
    rw [hvalue']
  . exact hafter j hj other hvalue'

theorem scannedPointer_ne_none (hlists : Lists env w) (hclear : Clear w owner)
    {record : AppPointerRecord} (h : StoredPointer w owner name record) :
    scannedPointer env w owner name ≠ none := by
  obtain ⟨ids, hids⟩ := Option.isSome_iff_exists.mp hlists
  obtain ⟨id, hid, hvalue⟩ := (storedPointer_iff hids).mp h
  intro hnone
  rw [scannedPointer, hids, Option.bind_some,
    scanPointers_of_legible none ((clear_iff hids).mp hclear), Option.toList_none, List.nil_append,
    List.argmax_eq_none] at hnone
  have hmem : record ∈ ids.filterMap (w.storage.pointerFor owner name) :=
    List.mem_filterMap.mpr ⟨id, hid, hvalue⟩
  rw [hnone] at hmem
  cases hmem

theorem scannedPointer_of_newest (hlists : Lists env w) (hclear : Clear w owner)
    {record : AppPointerRecord} (h : Newest (StoredPointer w owner name) record) :
    scannedPointer env w owner name = some record := by
  cases hscan : scannedPointer env w owner name with
  | none => exact absurd hscan (scannedPointer_ne_none hlists hclear h.1)
  | some found =>
    obtain ⟨hstored, _, hmax⟩ := stored_of_scannedPointer hscan
    by_contra hne
    have hlt := h.2 found hstored fun heq => hne (congrArg some heq)
    exact absurd hlt (UInt64.not_lt.mpr (hmax record h.1))

theorem scannedPointer_eq_none
    (h : Clear w owner → ∀ other, ¬ StoredPointer w owner name other) :
    scannedPointer env w owner name = none := by
  cases hscan : scannedPointer env w owner name with
  | none => rfl
  | some record =>
    obtain ⟨hrecord, hclear, _⟩ := stored_of_scannedPointer hscan
    exact absurd hrecord (h hclear record)

/--
An environment whose directories yield `text` first.
-/
def listingFirst (text : String) : Env :=
  { Env.quiet 0 with
    listing := fun _ names => some (if text ∈ names then text :: names.erase text else names)
    listing_perm := by
      intro _ names listed h
      rw [Option.some.injEq] at h
      rw [← h]
      split
      . next hmem => exact (List.perm_cons_erase hmem).symm
      . exact .refl names }

theorem listed_listingFirst {text : String} (hmem : text ∈ w.storage.files.keys)
    (hhidden : isHidden text = false) :
    listed (listingFirst text) w =
      some (⟨text⟩ :: ((w.storage.files.keys.erase text).filter fun name => !isHidden name).map
        ObjectId.mk) := by
  simp [listed, listingFirst, hmem, hhidden]

/--
Whatever the order of the listing, a scan selects the same newest valid pointer.
-/
def SelectsNewest (w : Runtime) (owner : IdentityId) (name : String) : Prop :=
  ∃ selected : Option AppPointerRecord,
    (∀ env, Lists env w → (exec (latestPointerRecord owner name) env w).1 = .ok selected) ∧
    match selected with
    | some record => ValidPointer w owner name record ∧
        ∀ other, ValidPointer w owner name other → other.publishedAt ≤ record.publishedAt
    | none => ∀ other, ¬ ValidPointer w owner name other

/--
Nothing stops a scan and one of the signed pointers that are labelled with `owner` is newer than all
others and the owner's own; or there is no valid pointer, and none that a scan would take for one.
-/
def Decided (w : Runtime) (owner : IdentityId) (name : String) : Prop :=
  (Clear w owner ∧ ∃ record, Newest (StoredPointer w owner name) record ∧ record.owner = owner) ∨
    ((∀ other, ¬ ValidPointer w owner name other) ∧
      (Clear w owner → ∀ other, ¬ StoredPointer w owner name other))

theorem latestPointerRecord_fst (env : Env) (w : Runtime) (owner : IdentityId) (name : String) :
    (exec (latestPointerRecord owner name) env w).1 = .ok (scannedPointer env w owner name) := by
  rw [exec_latestPointerRecord]

theorem selectsNewest_iff : SelectsNewest w owner name ↔ Decided w owner name := by
  simp only [SelectsNewest, latestPointerRecord_fst, Except.ok.injEq]
  constructor
  . intro ⟨selected, hselected, hspec⟩
    have hquiet := hselected (Env.quiet 0) rfl
    cases selected with
    | none =>
      refine .inr ⟨hspec, ?_⟩
      intro hclear other hother
      have hlists : Lists (Env.quiet 0) w := rfl
      exact scannedPointer_ne_none hlists hclear hother hquiet
    | some record =>
      obtain ⟨hstored, hclear, hmax⟩ := stored_of_scannedPointer hquiet
      refine .inl ⟨hclear, record, ⟨hstored, ?_⟩, hspec.1.2⟩
      intro other hother hne
      -- list the other one first
      obtain ⟨text, hmem, hhidden, hvalue⟩ := hother
      have hlisted := listed_listingFirst hmem hhidden
      have hfirst := hselected (listingFirst text) (by rw [Lists, hlisted]; rfl)
      rw [scannedPointer, hlisted, Option.bind_some, scanPointers_eq_some_iff] at hfirst
      obtain ⟨_, id, before, after, happend, hrecord, hbefore, _⟩ := hfirst
      rw [UInt64.lt_iff_toNat_lt]
      cases before with
      | nil =>
        simp only [List.nil_append, List.cons.injEq] at happend
        rw [← happend.1, hvalue, Option.some.injEq] at hrecord
        exact absurd hrecord hne
      | cons j before =>
        simp only [List.cons_append, List.cons.injEq] at happend
        apply hbefore j List.mem_cons_self
        rw [← happend.1]
        exact hvalue
  . intro h
    rcases h with ⟨hclear, record, hnewest, howner⟩ | ⟨hvalid, hstored⟩
    . refine ⟨some record, fun env hlists => scannedPointer_of_newest hlists hclear hnewest,
        ⟨hnewest.1, howner⟩, ?_⟩
      intro other hother
      by_cases heq : other = record
      . rw [heq]
        exact UInt64.le_refl _
      . exact UInt64.le_of_lt (hnewest.2 other hother.1 heq)
    . exact ⟨none, fun env _ => scannedPointer_eq_none hstored, hvalid⟩

/--
Two devices select the same pointer, each in whatever order its directory yields the files, and no
valid pointer is newer.
-/
def SelectAlike (u v : Runtime) (owner : IdentityId) (name : String) : Prop :=
  ∃ selected : Option AppPointerRecord,
    (∀ env, Lists env u → (exec (latestPointerRecord owner name) env u).1 = .ok selected) ∧
    (∀ env, Lists env v → (exec (latestPointerRecord owner name) env v).1 = .ok selected) ∧
    match selected with
    | some record => ValidPointer u owner name record ∧
        ∀ other, ValidPointer u owner name other → other.publishedAt ≤ record.publishedAt
    | none => ∀ other, ¬ ValidPointer u owner name other

theorem Decided.selects_alike {u v : Runtime} (hu : Decided u owner name)
    (hv : Decided v owner name)
    (hsame : ∀ record, ValidPointer u owner name record ↔ ValidPointer v owner name record)
    {env' : Env} (hlists : Lists env u) (hlists' : Lists env' v) :
    (exec (latestPointerRecord owner name) env u).1 =
      (exec (latestPointerRecord owner name) env' v).1 := by
  rw [latestPointerRecord_fst, latestPointerRecord_fst, Except.ok.injEq]
  rcases hu with ⟨hclear, r, hr, hrowner⟩ | ⟨hvalid, hstored⟩
  . rcases hv with ⟨hclear', s, hs, hsowner⟩ | ⟨hvalid, _⟩
    . rw [scannedPointer_of_newest hlists hclear hr, scannedPointer_of_newest hlists' hclear' hs]
      have hinu : StoredPointer u owner name s := ((hsame s).mpr ⟨hs.1, hsowner⟩).1
      have hinv : StoredPointer v owner name r := ((hsame r).mp ⟨hr.1, hrowner⟩).1
      by_contra hne
      have hsr := hr.2 s hinu fun heq => hne (congrArg some heq.symm)
      have hrs := hs.2 r hinv fun heq => hne (congrArg some heq)
      exact absurd (UInt64.lt_trans hsr hrs) (UInt64.lt_irrefl _)
    . exact absurd ((hsame r).mp ⟨hr.1, hrowner⟩) (hvalid r)
  . rcases hv with ⟨_, s, hs, hsowner⟩ | ⟨hvalid', hstored'⟩
    . exact absurd ((hsame s).mpr ⟨hs.1, hsowner⟩) (hvalid s)
    . rw [scannedPointer_eq_none hstored, scannedPointer_eq_none hstored']

theorem selectAlike_iff {u v : Runtime}
    (hsame : ∀ record, ValidPointer u owner name record ↔ ValidPointer v owner name record) :
    SelectAlike u v owner name ↔ Decided u owner name ∧ Decided v owner name := by
  rw [← selectsNewest_iff, ← selectsNewest_iff]
  constructor
  . intro ⟨selected, hu, hv, hspec⟩
    refine ⟨⟨selected, hu, hspec⟩, selected, hv, ?_⟩
    simp only [← hsame]
    exact hspec
  . intro ⟨⟨selected, hu, hspec⟩, hv⟩
    refine ⟨selected, hu, ?_, hspec⟩
    intro env hlists
    have hdecided := selectsNewest_iff.mp ⟨selected, hu, hspec⟩
    rw [← hu (Env.quiet 0) rfl]
    have hquiet : Lists (Env.quiet 0) u := rfl
    exact (hdecided.selects_alike (selectsNewest_iff.mp hv) hsame hquiet hlists).symm

end Scan

section Passes

variable {env : Env} {name : String} {S : AppPointerRecord → Prop} {top : AppPointerRecord}
variable {w : Runtime}

/--
The pointers that the device holds for its own `name` are those in `S`, and nothing stops a scan.
-/
structure Holds (S : AppPointerRecord → Prop) (name : String) (w : Runtime) : Prop where
  valid : ∀ record, S record → record.owner = w.identity.id
  clear : Clear w w.identity.id
  stored : ∀ record, StoredPointer w w.identity.id name record ↔ S record
  cached : ∀ record, cachedPointer w w.identity.id name = some record → S record

/--
What the DHT has for `(owner, name)` is in `S`.
-/
def Offers (env : Env) (S : AppPointerRecord → Prop) (owner : IdentityId) (name : String) : Prop :=
  ∀ t bytes record, env.record t (AppPointerRecord.key owner name) = .ok (some bytes) →
    acceptRecord owner name bytes = some record → S record

theorem getRecord_result (env : Env) (key : Bytes) :
    Keeps env (fun _ => True) (getRecord key) (fun r => ∃ t, env.record t key = .ok r) := by
  apply Keeps.bind (Q := fun _ => True)
  . exact Triple.of_forall (fun _ _ => ⟨trivial, trivial⟩) (fun _ => trivial)
  . intro t _
    apply Keeps.bind_read
    apply (keeps_ofExcept _).weaken
    intro r hr
    exact ⟨t, hr⟩

theorem Offers.keeps_dhtPointer {owner : IdentityId} (h : Offers env S owner name) :
    Keeps env (fun _ => True) (dhtPointer owner name)
      (fun r => ∀ record, r = some record → S record) := by
  apply Keeps.bind (Q := fun r => ∀ bytes, r = .ok bytes →
    ∃ t, env.record t (AppPointerRecord.key owner name) = .ok bytes)
  . apply Keeps.attempt
    . apply (getRecord_result env _).weaken
      intro r hr bytes hbytes
      cases hbytes
      exact hr
    . intro e bytes hbytes
      cases hbytes
  . intro r hr
    split
    . apply Keeps.pure
      intro record hrecord
      cases hrecord
    . next bytes =>
      apply Keeps.pure
      intro record hrecord
      obtain ⟨found, hfound, haccept⟩ := Option.bind_eq_some_iff.mp hrecord
      obtain ⟨t, ht⟩ := hr bytes rfl
      rw [hfound] at ht
      exact h t found record ht haccept

/--
With the set `S` at hand, a search goes for the newest pointer in it, unless that is cached already.
-/
theorem newerPointer_of_holds (h : Holds S name w) (hoffers : Offers env S w.identity.id name)
    (hlists : Lists env w) (htop : Newest S top) :
    ∃ r a, exec (newerPointer name) env w = (.ok r, a) ∧
      (r = some top ∨ (r = none ∧ cachedPointer w w.identity.id name = some top)) := by
  have hle {record : AppPointerRecord} (hrecord : S record) :
      record.publishedAt ≤ top.publishedAt := by
    by_cases heq : record = top
    . rw [heq]
      exact UInt64.le_refl _
    . exact UInt64.le_of_lt (htop.2 record hrecord heq)
  have hscanned : scannedPointer env w w.identity.id name = some top := by
    apply scannedPointer_of_newest hlists h.clear
    refine ⟨(h.stored top).mpr htop.1, ?_⟩
    intro other hother
    exact htop.2 other ((h.stored other).mp hother)
  unfold newerPointer
  rw [exec_bind_ok (Prog.exec_get env w)]
  dsimp only
  rw [exec_bind_ok (exec_latestPointerRecord env w w.identity.id name), hscanned]
  dsimp only
  split
  . exact ⟨_, _, rfl, .inl rfl⟩
  . next hnewer =>
    -- the cached pointer is in the set and no older than the newest
    have hcached : cachedPointer w w.identity.id name = some top := by
      cases hcached : cachedPointer w w.identity.id name with
      | none => simp [isNewer, hcached] at hnewer
      | some record =>
        by_contra hne
        apply hnewer
        rw [hcached, isNewer, decide_eq_true_eq]
        exact htop.2 record (h.cached record hcached) fun heq => hne (congrArg some heq)
    generalize hv : { w with tick := w.tick + 1 } = v
    obtain ⟨r, a, hr, _⟩ := exec_dhtPointer env v v.identity.id name
    have hself : v.identity = w.identity := by rw [← hv]
    have hinS : ∀ record, r = some record → S record :=
      (hself ▸ hoffers.keeps_dhtPointer).result (s := v) trivial (by rw [hr])
    refine ⟨none, a, ?_, .inr ⟨rfl, hcached⟩⟩
    unfold newerDhtPointer
    rw [exec_bind_ok (Prog.exec_get env v), exec_bind_ok hr, hcached]
    cases r with
    | none => rfl
    | some record =>
      have hold : isNewer (some top) record = false := by
        rw [isNewer, decide_eq_false_iff_not, UInt64.not_lt]
        exact hle (hinS record rfl)
      simp only [hold]
      rfl

theorem Holds.authentic (h : Holds S name w) {record : AppPointerRecord} (hrecord : S record) :
    record.Authentic w.identity.id name := by
  obtain ⟨text, _, _, hvalue⟩ := (h.stored record).mpr hrecord
  simp only [Storage.pointerFor, Option.filter_eq_some_iff, decide_eq_true_eq] at hvalue
  exact ⟨h.valid record hrecord, hvalue.2.1, hvalue.2.2⟩

/--
One pass of `sync_record`.
-/
def pass (name : String) (env : Env) (w : Runtime) : Runtime :=
  (exec (syncRecord name) env w).2

/--
A pass starts from the set `S` and the DHT offers nothing else.
-/
def Fair (S : AppPointerRecord → Prop) (name : String) (env : Env) (w : Runtime) : Prop :=
  Holds S name w ∧ Offers env S w.identity.id name ∧ Lists env w

theorem Fair.settles (h : Fair S name env w) (htop : Newest S top)
    (hgo : ¬ Fails env name w ∨ Caches w.identity name (some top) w) :
    Caches w.identity name (some top) (pass name env w) := by
  obtain ⟨hholds, hoffers, hlists⟩ := h
  obtain ⟨r, a, hnewer, hr⟩ := newerPointer_of_holds hholds hoffers hlists htop
  have hcaches := fetches_caches env w.identity name (cachedPointer w w.identity.id name)
  rcases syncRecord_cases name hcaches ⟨rfl, rfl⟩ with
    ⟨hnone, hafter⟩ | ⟨record, b, ⟨a', object, hfound, _⟩, _, hself, hexec⟩
  . rcases hgo with hgo | hgo
    . rcases hr with rfl | ⟨rfl, hcached⟩
      . -- what does not fail is adopted
        exfalso
        apply hgo
        refine ⟨top, a, hnewer, ?_⟩
        intro object b hfetch hfault
        exact hnone top b ⟨a, object, hnewer, hfetch, hfault⟩
      . rw [hcached] at hafter
        exact hafter
    . rw [hgo.2] at hafter
      exact hafter
  . rw [hnewer] at hfound
    rcases hr with rfl | ⟨rfl, _⟩
    . cases hfound
      rw [pass, hexec]
      exact ⟨hself, cachedPointer_adopted w.identity (hholds.authentic htop.1) _⟩
    . cases hfound

theorem identity_pass (name : String) (env : Env) (w : Runtime) :
    (pass name env w).identity = w.identity :=
  identity_syncRecord env name w

theorem passes_settle {envs : List Env} (h : Run.Along (pass name) (Fair S name) w envs)
    (htop : Newest S top) (hgo : ¬ Run.Along (pass name) (fun env w => Fails env name w) w envs) :
    cachedPointer (Run.run (pass name) w envs) w.identity.id name = some top := by
  induction envs generalizing w with
  | nil => exact absurd trivial hgo
  | cons env envs ih =>
    have hself := identity_pass name env w
    by_cases hfails : Fails env name w
    . have hrest := ih h.2 fun hall => hgo ⟨hfails, hall⟩
      rw [hself] at hrest
      exact hrest
    . have hfirst := h.1.settles htop (.inl hfails)
      have hlast := h.2.invariant (I := Caches w.identity name (some top)) hfirst (by
        intro env' w' hfair hw'
        have hkept := hfair.settles htop (.inr ⟨rfl, by rw [hw'.1]; exact hw'.2⟩)
        rw [hw'.1] at hkept
        exact hkept)
      exact hlast.2

end Passes

end Runtime

end Canopee
