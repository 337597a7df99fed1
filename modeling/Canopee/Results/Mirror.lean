import Canopee.Results.Anchored
import Canopee.Results.Convergence
import Canopee.Results.Deletion

/-!
This module contains the serving set as a mirror of the home index: when every stored object that a
shared entry refers to is served, and which steps keep it so.
-/

namespace Canopee

open Primitives
open Canopee.Runtime
open Prog (Keeps Triple exec exec_bind_ok exec_bind_error exec_bind_eq_ok)

variable [Primitives]

namespace Runtime

section Mirror

variable {env : Env} {self : Identity} {E F : ObjectId → Prop} {w : Runtime} {index : HomeIndex}

/--
The object with this id, wherever it is, is the home index `index`.
-/
def Names (manifest : ObjectId) (index : HomeIndex) : Prop :=
  ∃ payload, ObjectId.fromPayload payload = manifest ∧
    HomeIndex.codec.deserialize payload.data = some index

/--
The cached home pointer of this identity names `index`.
-/
def HomeIs (index : HomeIndex) (w : Runtime) : Prop :=
  ∃ record, cachedPointer w w.identity.id RECORD_HOME = some record ∧ Names record.manifest index

theorem HomeIs.unique (hash : CollisionFree) {index' : HomeIndex} (h : HomeIs index w)
    (h' : HomeIs index' w) : index = index' := by
  obtain ⟨record, hcached, payload, hmanifest, hdecode⟩ := h
  obtain ⟨record', hcached', payload', hmanifest', hdecode'⟩ := h'
  rw [hcached, Option.some.injEq] at hcached'
  rw [← hcached', ← hmanifest, ObjectId.fromPayload_inj hash] at hmanifest'
  rw [hmanifest', hdecode, Option.some.injEq] at hdecode'
  exact hdecode'

theorem Has.homeIs {record : AppPointerRecord} (h : Has HomeIndex.codec RECORD_HOME record index w) :
    HomeIs index w := by
  obtain ⟨object, hobject, hdecode⟩ := h.stored
  refine ⟨record, h.cached, object.payload, ?_, hdecode⟩
  rw [← Storage.id_of_getVerified hobject]
  exact (Object.id_of_verify (Storage.verify_of_getVerified hobject)).symm

theorem HomeIs.congr {w' : Runtime} (hidentity : w'.identity = w.identity)
    (hrecords : w'.records = w.records) (h : HomeIs index w') : HomeIs index w := by
  obtain ⟨record, hcached, hnames⟩ := h
  rw [hidentity, cachedPointer_congr hrecords] at hcached
  exact ⟨record, hcached, hnames⟩

/--
A shared entry of the home index refers to `id`, which is not in the serving set.
-/
def Unserved (w : Runtime) (id : ObjectId) : Prop :=
  ∃ index, HomeIs index w ∧ id ∈ sharedIds (some index) ∧ id.text ∉ w.shared

/--
Every stored object that a shared entry of the home index refers to is in the serving set and is
served.
-/
def Mirrors (w : Runtime) : Prop :=
  ∀ index, HomeIs index w → ∀ entry ∈ index.entries, entry.shared = true →
    ∀ object, w.storage.getVerified entry.object = .ok object →
    entry.object.text ∈ w.shared ∧ ∀ env, ∃ bundle,
      (exec (provide entry.object) env w).1 = .ok (some bundle) ∧ bundle.object = object

theorem mirrors_iff : Mirrors w ↔ ∀ id, Unserved w id → ¬ Readable id w := by
  constructor
  . intro h id ⟨index, hhome, hid, hshared⟩ ⟨object, hobject⟩
    obtain ⟨entry, hentry, hflag, heq⟩ := mem_sharedIds.mp hid
    rw [← heq] at hobject hshared
    exact hshared (h index hhome entry hentry hflag object hobject).1
  . intro h index hhome entry hentry hflag object hobject
    have hshared : entry.object.text ∈ w.shared := by
      by_contra hno
      exact h entry.object ⟨index, hhome, mem_sharedIds.mpr ⟨entry, hentry, hflag, rfl⟩, hno⟩
        ⟨object, hobject⟩
    refine ⟨hshared, ?_⟩
    intro env
    obtain ⟨bundle, hbundle, hstored⟩ := provide_of_shared ⟨object, hobject⟩ hshared env
    rw [hobject, Except.ok.injEq] at hstored
    exact ⟨bundle, hbundle, hstored.symm⟩

/--
Only ids in `E` are unserved.
-/
def Within (self : Identity) (E : ObjectId → Prop) (w : Runtime) : Prop :=
  w.identity = self ∧ ∀ id, Unserved w id → E id

/--
Nothing in `E` is stored.
-/
def Gone (E : ObjectId → Prop) (w : Runtime) : Prop :=
  ∀ id, E id → ¬ Readable id w

theorem mirrors_of_within (hwithin : Within self E w) (hgone : Gone E w) : Mirrors w :=
  mirrors_iff.mpr fun id hid => hgone id (hwithin.2 id hid)

theorem Within.mono (h : Within self E w) (hEF : ∀ id, E id → F id) : Within self F w :=
  ⟨h.1, fun id hid => hEF id (h.2 id hid)⟩

theorem Within.congr {w' : Runtime} (h : Within self E w) (hidentity : w'.identity = w.identity)
    (hrecords : w'.records = w.records) (hshared : w.shared ⊆ w'.shared) : Within self E w' := by
  refine ⟨hidentity.trans h.1, ?_⟩
  intro id ⟨index, hhome, hid, hnot⟩
  exact h.2 id ⟨index, hhome.congr hidentity hrecords, hid, fun hmem => hnot (hshared hmem)⟩

theorem within_of_uncached (hself : w.identity = self)
    (hnone : cachedPointer w self.id RECORD_HOME = none) : Within self E w := by
  refine ⟨hself, ?_⟩
  intro id ⟨index, ⟨record, hcached, _⟩, _⟩
  rw [hself, hnone] at hcached
  cases hcached

theorem fetches_within (env : Env) (self : Identity) (E : ObjectId → Prop) :
    Fetches env (Within self E) (fun _ => True) where
  frame _ _ hsame hw := hw.congr hsame.identity hsame.records (by rw [hsame.shared])
  put _ _ _ _ hw := hw.congr rfl rfl (Finset.Subset.refl _)
  pushed _ _ _ _ := trivial
  track _ _ _ _ _ _ hw := hw.congr rfl rfl (Finset.Subset.refl _)
  touch _ _ _ _ hw := hw.congr rfl rfl (Finset.Subset.refl _)
  flush _ hw := hw.congr rfl rfl (Finset.Subset.refl _)
  replicate _ _ _ hw := hw.congr rfl rfl (Finset.Subset.refl _)
  answered _ _ _ _ := trivial
  own _ _ _ := trivial

theorem shares_within (self : Identity) (E : ObjectId → Prop) : Shares (Within self E) :=
  fun w id hw => hw.congr rfl rfl (Finset.subset_insert id.text w.shared)

theorem Within.storeRecord {key bytes : Bytes} (h : Within self E w)
    (hne : key ≠ AppPointerRecord.key self.id RECORD_HOME) :
    Within self E (storeRecord (recordFile key) bytes w) := by
  refine ⟨h.1, ?_⟩
  intro id ⟨index, ⟨record, hcached, hnames⟩, hid, hnot⟩
  apply h.2 id
  refine ⟨index, ⟨record, ?_, hnames⟩, hid, hnot⟩
  rw [← hcached]
  have hself : (Runtime.storeRecord (recordFile key) bytes w).identity = self := h.1
  rw [hself, h.1]
  exact (cachedPointer_storeRecord_of_ne hne bytes w).symm

theorem pushes_gone (env : Env)
    (hpushed : ∀ t bundle, .store bundle ∈ env.inbound t → bundle.object.verify = true →
      ¬ E bundle.object.id) : Pushes env (Gone E) (fun object => ¬ E object.id) := by
  apply Pushes.ofDisk
  . intro w w' hdisk hw id hid hreadable
    exact hw id hid (readable_congr hdisk.files.symm hreadable)
  . intro w object _ hok hw id hid ⟨stored, hstored⟩
    have hne : id ≠ object.id := by
      intro heq
      rw [heq] at hid
      exact hok hid
    apply hw id hid
    refine ⟨stored, ?_⟩
    rw [← hstored]
    exact (Storage.getVerified_write_of_ne w.storage hne).symm
  . exact hpushed

theorem saves_gone (env : Env)
    (hpushed : ∀ t bundle, .store bundle ∈ env.inbound t → bundle.object.verify = true →
      ¬ E bundle.object.id)
    (hown : ∀ payload : ObjectPayload,
      payload.objectType = .homeIndex ∨ payload.objectType = .appPointer →
      ¬ E (ObjectId.fromPayload payload)) : Saves env (Gone E) (fun object => ¬ E object.id) where
  toPushes := pushes_gone env hpushed
  pointer identity time bytes := hown _ (.inr rfl)
  home index identity time := hown _ (.inl rfl)
  record w name bytes hw id hid hreadable := hw id hid (readable_congr rfl hreadable)
  share w other hw id hid hreadable := hw id hid (readable_congr rfl hreadable)
  unshare w other hw id hid hreadable := hw id hid (readable_congr rfl hreadable)
  erase w other hw id hid := by
    intro ⟨stored, hstored⟩
    by_cases heq : id = other
    . rw [heq] at hstored
      exact Storage.getVerified_erase_self w.storage other stored hstored
    . apply hw id hid
      refine ⟨stored, ?_⟩
      rw [← hstored]
      exact (Storage.getVerified_erase_of_ne w.storage heq).symm
  untrack w other hw id hid hreadable := hw id hid (readable_congr rfl hreadable)

end Mirror

section Load

variable {env : Env} {self : Identity} {E : ObjectId → Prop} {w : Runtime} {index : HomeIndex}

/--
An object that a scan takes for a pointer of `owner` for `name`.
-/
def PointerObject (owner : IdentityId) (name : String) (object : Object) : Prop :=
  (object.payload.owner = owner ∧ object.objectType = .appPointer) ∧
    ∃ record, object.decode AppPointerRecord.codec = some record ∧ record.name = name ∧
      record.verify = true

theorem storedPointer_storeObject {owner : IdentityId} {name : String} {object : Object}
    {record : AppPointerRecord} {w : Runtime} (hverify : object.verify = true)
    (h : StoredPointer (storeObject object w) owner name record) :
    StoredPointer w owner name record ∨
      PointerObject owner name object ∧ object.decode AppPointerRecord.codec = some record := by
  obtain ⟨text, hmem, hhidden, hvalue⟩ := h
  by_cases htext : (⟨text⟩ : ObjectId) = object.id
  . right
    have hget : (storeObject object w).storage.getVerified object.id = .ok object :=
      Storage.getVerified_write_self w.storage hverify
    simp only [htext, Storage.pointerFor, Storage.labelledPointer, hget, Option.filter_eq_some_iff,
      decide_eq_true_eq] at hvalue
    obtain ⟨hvalue, hname, hsigned⟩ := hvalue
    split at hvalue
    . cases hvalue
    . next hlabel =>
      rw [not_or, not_not, not_not] at hlabel
      exact ⟨⟨hlabel, record, hvalue, hname, hsigned⟩, hvalue⟩
  . left
    refine ⟨text, ?_, hhidden, ?_⟩
    . have hne : text ≠ object.id.text := by
        intro heq
        exact htext (congrArg ObjectId.mk heq)
      simpa [storeObject, Storage.write, hne] using hmem
    . rw [← hvalue]
      simp only [Storage.pointerFor, Storage.labelledPointer]
      rw [show (storeObject object w).storage.getVerified ⟨text⟩ = w.storage.getVerified ⟨text⟩ from
        Storage.getVerified_write_of_ne w.storage htext]

/--
No home pointer of `self` comes from elsewhere: peers push none and the DHT has none.
-/
structure Silent (env : Env) (own : Identity) : Prop where
  pushed : ∀ t bundle, .store bundle ∈ env.inbound t → bundle.object.verify = true →
    ¬ PointerObject own.id RECORD_HOME bundle.object
  offered : Offers env (fun _ => False) own.id RECORD_HOME

/--
This identity has no home pointer, and none comes from elsewhere.
-/
structure Bare (env : Env) (own : Identity) (w : Runtime) : Prop where
  identity : w.identity = own
  uncached : cachedPointer w own.id RECORD_HOME = none
  unstored : ∀ record, ¬ StoredPointer w own.id RECORD_HOME record
  silent : Silent env own

theorem Bare.within (h : Bare env self w) : Within self E w :=
  within_of_uncached h.identity h.uncached

theorem pushes_bare (silent : Silent env self) :
    Pushes env (Bare env self) (fun object => ¬ PointerObject self.id RECORD_HOME object) := by
  apply Pushes.ofDisk
  . intro w w' hdisk hw
    refine ⟨hdisk.identity.trans hw.identity, (cachedPointer_congr hdisk.records _ _).trans
      hw.uncached, ?_, silent⟩
    intro record hrecord
    exact hw.unstored record (hrecord.congr hdisk.files.symm)
  . intro w object hverify hok hw
    refine ⟨hw.identity, hw.uncached, ?_, silent⟩
    intro record hrecord
    cases storedPointer_storeObject hverify hrecord with
    | inl hbefore => exact hw.unstored record hbefore
    | inr hobject => exact hok hobject.1
  . exact silent.pushed

/--
What a load of the home index found: the index that the node has, or nothing at all.
-/
def Loaded (env : Env) (self : Identity) (E : ObjectId → Prop) : Option HomeIndex → Runtime → Prop
  | some old, w => Within self E w ∧ ∃ record, Has HomeIndex.codec RECORD_HOME record old w
  | none, w => Bare env self w

/--
A home pointer is cached, or there is none.
-/
def Settled (env : Env) (self : Identity) (E : ObjectId → Prop) (w : Runtime) : Prop :=
  Within self E w ∧ ((cachedPointer w self.id RECORD_HOME).isSome = true ∨ Bare env self w)

theorem Loaded.settled {previous : Option HomeIndex} (h : Loaded env self E previous w) :
    Settled env self E w := by
  cases previous with
  | none => exact ⟨Bare.within h, .inr h⟩
  | some old =>
    obtain ⟨hwithin, record, hhas⟩ := h
    refine ⟨hwithin, .inl ?_⟩
    rw [← hwithin.1, hhas.cached]
    rfl

theorem loadHomeIndex_of_cached (env : Env) {record : AppPointerRecord}
    (hcached : cachedPointer w w.identity.id RECORD_HOME = some record) :
    (∃ old, exec loadHomeIndex env w = (.ok (some old), w) ∧
      Has HomeIndex.codec RECORD_HOME record old w) ∨
    ∃ e, exec loadHomeIndex env w = (.error e, w) := by
  unfold loadHomeIndex loadOwnRecord
  rw [exec_bind_ok (Prog.exec_get env w), exec_bind_ok (resolvePointer_of_cached hcached)]
  dsimp only
  cases hget : w.storage.getVerified record.manifest with
  | error e =>
    have hexec : exec (getVerified record.manifest) env w = (.error e, w) := by
      rw [exec_getVerified, hget]
    rw [exec_bind_error hexec]
    exact .inr ⟨e, rfl⟩
  | ok object =>
    have hexec : exec (getVerified record.manifest) env w = (.ok object, w) := by
      rw [exec_getVerified, hget]
    rw [exec_bind_ok hexec, Prog.exec_bind]
    cases hdecode : object.decode HomeIndex.codec with
    | none =>
      right
      simp [decodeObject, hdecode, ofOption]
    | some old =>
      left
      refine ⟨old, ?_, hcached, object, hget, hdecode⟩
      simp [decodeObject, hdecode, ofOption]

theorem lookupPointer_bare (silent : Silent env self) :
    Triple env (Bare env self) (lookupPointer self.id RECORD_HOME)
      (fun r w => r = none ∧ Bare env self w) (Bare env self) := by
  have hbare := pushes_bare silent
  unfold lookupPointer
  apply Triple.bind (Q := fun r w => r = none ∧ Bare env self w)
  . constructor
    intro w hw
    rw [exec_latestPointerRecord, scannedPointer_eq_none fun _ => hw.unstored]
    exact ⟨rfl, hbare.frame w _ (.tick w) hw⟩
  . intro r
    apply Triple.of_and
    intro hr
    rw [hr]
    apply ((hbare.keeps_dhtPointer self.id RECORD_HOME).and
      silent.offered.keeps_dhtPointer).conseq
    . intro w hw
      exact ⟨hw, trivial⟩
    . intro r w hw
      refine ⟨?_, hw.1.1⟩
      cases r with
      | none => rfl
      | some record => exact (hw.2.2 record rfl).elim
    . intro w hw
      exact hw.1

theorem resolveHome_settled :
    Triple env (Settled env self E) (resolvePointer self.id RECORD_HOME)
      (fun _ => Settled env self E) (Within self E) := by
  constructor
  intro w ⟨hwithin, hsettled⟩
  cases hcached : cachedPointer w self.id RECORD_HOME with
  | some record =>
    rw [resolvePointer_of_cached hcached]
    exact ⟨hwithin, hsettled⟩
  | none =>
    have hbare : Bare env self w := by
      rw [hcached] at hsettled
      exact hsettled.resolve_left (by simp)
    have hlookup := (lookupPointer_bare hbare.silent).spec w hbare
    rw [exec_resolvePointer_uncached env hcached, Prog.exec_bind]
    obtain ⟨r, v, hr⟩ := exec_lookupPointer env w self.id RECORD_HOME
    rw [hr] at hlookup ⊢
    obtain ⟨hr, hv⟩ := hlookup
    rw [hr]
    exact ⟨hv.within, .inr hv⟩

theorem loadHomeIndex_bare (h : Bare env self w) :
    ∃ v, exec loadHomeIndex env w = (.ok none, v) ∧ Bare env self v := by
  have hlookup := (lookupPointer_bare h.silent).spec w h
  obtain ⟨r, v, hr⟩ := exec_lookupPointer env w self.id RECORD_HOME
  rw [hr] at hlookup
  obtain ⟨hnone, hv⟩ := hlookup
  rw [hnone] at hr
  have hresolve : exec (resolvePointer w.identity.id RECORD_HOME) env w = (.ok none, v) := by
    rw [h.identity, exec_resolvePointer_uncached env h.uncached, exec_bind_ok hr]
    rfl
  refine ⟨v, ?_, hv⟩
  unfold loadHomeIndex loadOwnRecord
  rw [exec_bind_ok (Prog.exec_get env w), exec_bind_ok hresolve]
  rfl

theorem loadHomeIndex_settled :
    Triple env (Settled env self E) loadHomeIndex (Loaded env self E) (Within self E) := by
  constructor
  intro w ⟨hwithin, hsettled⟩
  cases hcached : cachedPointer w self.id RECORD_HOME with
  | some record =>
    have hown : cachedPointer w w.identity.id RECORD_HOME = some record := by
      rw [hwithin.1]
      exact hcached
    rcases loadHomeIndex_of_cached env hown with ⟨old, hload, hhas⟩ | ⟨e, hload⟩
    . rw [hload]
      exact ⟨hwithin, record, hhas⟩
    . rw [hload]
      exact hwithin
  | none =>
    have hbare : Bare env self w := by
      rw [hcached] at hsettled
      exact hsettled.resolve_left (by simp)
    obtain ⟨v, hload, hv⟩ := loadHomeIndex_bare hbare
    rw [hload]
    exact hv

end Load

section Save

variable {env : Env} {self : Identity} {E : ObjectId → Prop} {index : HomeIndex}

/--
The index as it is published after `previous`.
-/
def renewed (previous : Option HomeIndex) (index : HomeIndex) : HomeIndex :=
  { index with version := nextVersion (previous.map HomeIndex.version) }

theorem publishHome_reconciled (laws : SignatureLaws) (hash : CollisionFree) {I : Runtime → Prop}
    (hI : Pushes env I (fun _ => True)) (previous : Option HomeIndex) (index : HomeIndex)
    (S : Finset String) :
    Triple env (fun w => w.identity = self ∧ I w ∧ w.shared = S) (publishHome previous index)
      (fun _ w => (w.identity = self ∧ SavedHome (renewed previous index) w) ∧
        w.shared = reconciled previous (some (renewed previous index)) S)
      (fun w => w.identity = self ∧ I w ∧ w.shared = S) := by
  apply publishHome_triple laws hash hI
  . exact { pushes_shared env S with record := fun _ _ hw => hw }
  . have hkept : Pushes env (fun w => w.identity = self ∧ SavedHome (renewed previous index) w)
        (fun _ => True) := (pushes_identity env self).and (pushes_savedHome hash env _)
    apply (reconcileShared_triple hkept _ _ previous (some (renewed previous index)) S).conseq
    . intro w hw
      exact ⟨⟨hw.1, hw.2.2⟩, hw.2.1⟩
    . intro _ _ hw
      exact hw
    . intro _ hw
      exact hw
    . intro w id hw
      exact ⟨hw.1, hw.2.congr ⟨rfl, rfl, rfl⟩⟩
    . intro w id hw
      exact ⟨hw.1, hw.2.congr ⟨rfl, rfl, rfl⟩⟩

/--
Publishing a home index leaves no more unserved than there was.
-/
theorem publishHome_within (laws : SignatureLaws) (hash : CollisionFree)
    (previous : Option HomeIndex) (index : HomeIndex) :
    Triple env (Loaded env self E previous) (publishHome previous index)
      (fun _ w => Within self E w ∧ SavedHome (renewed previous index) w) (Within self E) := by
  -- what the new index leaves unserved was unserved before
  have hwithin {S : Finset String} {w : Runtime}
      (hE : ∀ id ∈ sharedIds previous, id.text ∉ S → E id)
      (hself : w.identity = self) (hsaved : SavedHome (renewed previous index) w)
      (hshared : w.shared = reconciled previous (some (renewed previous index)) S) :
      Within self E w := by
    refine ⟨hself, ?_⟩
    intro id ⟨index', hhome, hid, hnot⟩
    obtain ⟨record, hhas⟩ := hsaved.has
    rw [hhome.unique hash hhas.homeIs] at hid
    rw [hshared, mem_reconciled, not_or, not_and_not_right] at hnot
    have hbefore : id ∈ sharedIds previous := hnot.1 hid
    apply hE id hbefore
    intro hmem
    exact hnot.2 ⟨hmem, fun _ => hid⟩
  constructor
  intro w hw
  cases previous with
  | none =>
    have hI : Pushes env (fun w => cachedPointer w self.id RECORD_HOME = none) (fun _ => True) :=
      .ofDisk (fun _ _ hdisk hw => (cachedPointer_congr hdisk.records _ _).trans hw)
        (fun _ _ _ _ hw => hw) (fun _ _ _ _ => trivial)
    have hspec := (publishHome_reconciled laws hash hI none index w.shared).spec w
      ⟨hw.identity, hw.uncached, rfl⟩
    generalize exec (publishHome none index) env w = res at hspec
    rcases res with ⟨_ | id, t⟩
    . exact within_of_uncached hspec.1 hspec.2.1
    . refine ⟨hwithin ?_ hspec.1.1 hspec.1.2 hspec.2, hspec.1.2⟩
      intro id hid
      cases hid
  | some old =>
    obtain ⟨⟨hself, hwithin'⟩, record, hhas⟩ := hw
    have hE : ∀ id ∈ sharedIds (some old), id.text ∉ w.shared → E id := by
      intro id hid hnot
      exact hwithin' id ⟨old, hhas.homeIs, hid, hnot⟩
    have hspec := (publishHome_reconciled laws hash
      (pushes_has hash env HomeIndex.codec RECORD_HOME record old) (some old) index w.shared).spec w
      ⟨hself, hhas, rfl⟩
    generalize exec (publishHome (some old) index) env w = res at hspec
    rcases res with ⟨_ | id, t⟩
    . refine ⟨hspec.1, ?_⟩
      intro id ⟨index', hhome, hid, hnot⟩
      rw [hhome.unique hash hspec.2.1.homeIs] at hid
      rw [hspec.2.2] at hnot
      exact hE id hid hnot
    . exact ⟨hwithin hE hspec.1.1 hspec.1.2 hspec.2, hspec.1.2⟩

theorem saveHomeIndex_within (laws : SignatureLaws) (hash : CollisionFree) (index : HomeIndex) :
    Triple env (Settled env self E) (saveHomeIndex index)
      (fun _ w => Within self E w ∧ ∃ previous, SavedHome (renewed previous index) w)
      (Within self E) := by
  rw [saveHomeIndex_eq]
  apply Triple.bind loadHomeIndex_settled
  intro previous
  apply (publishHome_within laws hash previous index).conseq (fun _ hw => hw)
  . intro _ w hw
    exact ⟨hw.1, previous, hw.2⟩
  . intro w hw
    exact hw

omit [Primitives] in
theorem setShared_find {name : String} {shared : Bool} {entries entries' : List HomeEntry}
    {object : ObjectId} (h : setShared name shared entries = some (entries', object)) :
    ∃ entry, entries'.find? (fun entry => entry.name = name) = some entry ∧
      entry.shared = shared ∧ entry.object = object := by
  induction entries generalizing entries' with
  | nil => cases h
  | cons entry entries ih =>
    unfold setShared at h
    split at h
    . next hname =>
      cases h
      exact ⟨_, List.find?_cons_of_pos (by simpa using hname), rfl, rfl⟩
    . next hname =>
      obtain ⟨⟨rest, object'⟩, hrest, heq⟩ := Option.map_eq_some_iff.mp h
      cases heq
      obtain ⟨found, hfind, hfound⟩ := ih hrest
      refine ⟨found, ?_, hfound⟩
      rw [List.find?_cons_of_neg (by simpa using hname)]
      exact hfind

omit [Primitives] in
theorem setShared_spec {name : String} {shared : Bool} {entries entries' : List HomeEntry}
    {object : ObjectId} (h : setShared name shared entries = some (entries', object)) :
    ∃ entry ∈ entries', entry.name = name ∧ entry.shared = shared ∧ entry.object = object := by
  obtain ⟨entry, hfind, hentry⟩ := setShared_find h
  have hname : entry.name = name := by simpa using List.find?_some hfind
  exact ⟨entry, List.mem_of_find?_eq_some hfind, hname, hentry⟩

omit [Primitives] in
theorem entry_ne_home (name : String) : "entry:" ++ name ≠ RECORD_HOME := by
  intro h
  have hlist := congrArg String.toList h
  simp [RECORD_HOME] at hlist

/--
The home index is `index`, and only ids in `E` are unserved.
-/
def Publicly (self : Identity) (E : ObjectId → Prop) (index : HomeIndex) (w : Runtime) : Prop :=
  Within self E w ∧ HomeIs index w

theorem publicly_pushes (env : Env) (self : Identity) (E : ObjectId → Prop) (index : HomeIndex) :
    Pushes env (Publicly self E index) (fun _ => True) := by
  have hhome : Pushes env (HomeIs index) (fun _ => True) := by
    apply Pushes.ofDisk
    . intro w w' hdisk hw
      exact hw.congr hdisk.identity.symm hdisk.records.symm
    . intro w object _ _ hw
      exact hw
    . intro _ _ _ _
      trivial
  exact (fetches_within env self E).toPushes.and hhome

theorem publishEntryPointer_publicly (env : Env) (hash : CollisionFree) (name : String)
    (id : ObjectId) :
    Keeps env (Publicly self E index) (publishEntryPointer name id) := by
  apply Keeps.bind (keeps_attempt ((publicly_pushes env self E index).points.keeps_publishPointer
    _ id))
  . intro _ _
    exact Keeps.pure trivial
  . intro w hw a bytes ha
    have hne : AppPointerRecord.key w.identity.id ("entry:" ++ name) ≠
        AppPointerRecord.key self.id RECORD_HOME := by
      rw [hw.1.1, ne_eq, AppPointerRecord.key_inj hash]
      exact entry_ne_home name
    refine ⟨ha.1.storeRecord hne, ?_⟩
    obtain ⟨record, hcached, hnames⟩ := ha.2
    refine ⟨record, ?_, hnames⟩
    rw [← ha.1.1] at hne
    rw [← hcached]
    exact cachedPointer_storeRecord_of_ne hne bytes a

/--
Setting the flag of an entry leaves no more unserved than there was, and the entry has the flag.
-/
theorem setHomeEntryShared_within (laws : SignatureLaws) (hash : CollisionFree) (name : String)
    (shared : Bool) :
    Triple env (Settled env self E) (setHomeEntryShared name shared)
      (fun _ w => Within self E w ∧ ∃ index, HomeIs index w ∧
        ∃ entry ∈ index.entries, entry.name = name ∧ entry.shared = shared)
      (Within self E) := by
  apply Triple.bind (Q := fun old w => Loaded env self E (some old) w)
  . apply Triple.bind loadHomeIndex_settled
    intro previous
    apply (triple_ofOption _ previous fun w hw => (Loaded.settled hw).1).conseq (fun _ hw => hw)
    . intro old w hw
      rw [← hw.1]
      exact hw.2
    . intro w hw
      exact hw
  . intro old
    apply Triple.bind (triple_ofOption _ _ fun w hw => (Loaded.settled hw).1)
    intro (entries, object)
    apply Triple.of_and
    intro hentries
    obtain ⟨entry, hmem, hname, hflag, _⟩ := setShared_spec hentries
    have hdone {a : Runtime} {previous : Option HomeIndex}
        (ha : Publicly self E (renewed previous { old with entries := entries }) a) :
        Within self E a ∧ ∃ index, HomeIs index a ∧
          ∃ entry ∈ index.entries, entry.name = name ∧ entry.shared = shared :=
      ⟨ha.1, _, ha.2, entry, hmem, hname, hflag⟩
    apply Triple.bind (Q := fun _ w => ∃ previous,
      Publicly self E (renewed previous { old with entries := entries }) w)
    . apply (saveHomeIndex_within laws hash _).conseq
      . intro w hw
        exact Loaded.settled hw
      . intro _ w ⟨hwithin, previous, hsaved⟩
        obtain ⟨record, hhas⟩ := hsaved.has
        exact ⟨previous, hwithin, hhas.homeIs⟩
      . intro w hw
        exact hw
    . intro id
      split
      . apply Triple.bind (Q := fun _ w => ∃ previous,
          Publicly self E (renewed previous { old with entries := entries }) w)
        . constructor
          intro w ⟨previous, hw⟩
          have hspec := (publishEntryPointer_publicly env hash name object).spec w hw
          generalize exec (publishEntryPointer name object) env w = res at hspec
          rcases res with ⟨_ | _, t⟩
          . exact hspec.1
          . exact ⟨previous, hspec.1⟩
        . intro _
          apply Triple.pure
          intro w ⟨_, hw⟩
          exact hdone hw
      . apply Triple.pure
        intro w ⟨_, hw⟩
        exact hdone hw

theorem shareObjectForPublish_within (laws : SignatureLaws) (hash : CollisionFree) (name : String)
    (app : Option String) (sharedId : ObjectId) (objectType : ObjectType)
    (previous : Option HomeIndex) :
    Triple env (Loaded env self E previous)
      (shareObjectForPublish name app (sharedId, objectType, previous.getD HomeIndex.empty))
      (fun _ => Within self E) (Within self E) := by
  apply Triple.bind (Q := fun _ w => ∃ index, Publicly self E index w)
  . apply (saveHomeIndex_within laws hash _).conseq
    . intro w hw
      exact Loaded.settled hw
    . intro _ w ⟨hwithin, previous, hsaved⟩
      obtain ⟨record, hhas⟩ := hsaved.has
      exact ⟨_, hwithin, hhas.homeIs⟩
    . intro w hw
      exact hw
  . intro id
    apply Triple.bind (Q := fun _ => Within self E)
    . constructor
      intro w ⟨index, hw⟩
      have hspec := (publishEntryPointer_publicly env hash name sharedId).spec w hw
      generalize exec (publishEntryPointer name sharedId) env w = res at hspec
      rcases res with ⟨_ | _, t⟩
      . exact hspec.1
      . exact hspec.1.1
    . intro _
      exact Triple.pure fun w hw => hw

theorem removeFromHome_within (laws : SignatureLaws) (hash : CollisionFree) (id : ObjectId)
    (previous : Option HomeIndex) :
    Triple env (Loaded env self E previous) (removeFromHome id previous)
      (fun _ => Within self E) (Within self E) := by
  have hwithin (w : Runtime) (hw : Loaded env self E previous w) : Within self E w :=
    (Loaded.settled hw).1
  cases previous with
  | none => exact Triple.pure hwithin
  | some old =>
    simp only [removeFromHome]
    split
    . exact Triple.throw hwithin
    . split
      . exact Triple.pure hwithin
      . apply Triple.bind (Q := fun _ => Within self E)
        . apply (saveHomeIndex_within laws hash _).conseq
          . intro w hw
            exact Loaded.settled hw
          . intro _ w hw
            exact hw.1
          . intro w hw
            exact hw
        . intro _
          exact Triple.pure fun w hw => hw

end Save

section Steps

variable {env : Env} {self : Identity} {E : ObjectId → Prop}

/--
Only ids in `E` are unserved, and nothing in `E` is stored.
-/
def Safe (self : Identity) (E : ObjectId → Prop) (w : Runtime) : Prop :=
  Within self E w ∧ Gone E w

theorem Safe.mirrors {w : Runtime} (h : Safe self E w) : Mirrors w :=
  mirrors_of_within h.1 h.2

theorem Gone.congr {w w' : Runtime} (h : Gone E w) (hfiles : w'.storage.files = w.storage.files) :
    Gone E w' :=
  fun id hid hreadable => h id hid (readable_congr hfiles.symm hreadable)

theorem Gone.eraseObject {w : Runtime} (h : Gone E w) (gone : ObjectId) :
    Gone (fun id => E id ∨ id = gone) (eraseObject gone w) := by
  intro id hid ⟨stored, hstored⟩
  by_cases heq : id = gone
  . rw [heq] at hstored
    exact Storage.getVerified_erase_self w.storage gone stored hstored
  . apply h id (hid.resolve_right heq)
    refine ⟨stored, ?_⟩
    rw [← hstored]
    exact (Storage.getVerified_erase_of_ne w.storage heq).symm

theorem evict_safe (env : Env) (id : ObjectId) :
    Triple env (Safe self E) (evict id) (fun _ => Safe self fun other => E other ∨ other = id)
      (Safe self E) := by
  have hgone : Triple env (Gone E) (evict id) (fun _ => Gone fun other => E other ∨ other = id)
      (Gone E) := by
    apply triple_evict
    . intro a t ha hat
      exact (ha.eraseObject id).congr hat.files
    . intro a t ha hat _
      exact ha.congr hat.files
  have hwithin : Triple env (Within self E) (evict id)
      (fun _ => Within self fun other => E other ∨ other = id) (Within self E) := by
    apply triple_evicted
    . intro a t ha hevicted
      refine ⟨hevicted.identity.trans ha.1, ?_⟩
      intro other ⟨index, hhome, hid, hnot⟩
      by_cases heq : other = id
      . exact .inr heq
      . left
        apply ha.2 other
        refine ⟨index, hhome.congr hevicted.identity hevicted.records, hid, ?_⟩
        intro hmem
        apply hnot
        have htext : other.text ≠ id.text := by
          rw [ne_eq, ObjectId.text_inj]
          exact heq
        rw [hevicted.shared]
        exact Finset.mem_erase.mpr ⟨htext, hmem⟩
    . intro a ha _
      exact ha.congr rfl rfl (Finset.Subset.refl _)
  exact hwithin.and hgone

theorem evictOldHome_safe (id : ObjectId) (old : Option AppPointerRecord) :
    Triple env (Safe self E) (evictOldHome id old) (fun _ => Mirrors) Mirrors := by
  cases old with
  | none => exact Triple.pure fun w hw => hw.mirrors
  | some record =>
    simp only [evictOldHome]
    split
    . exact Triple.pure fun w hw => hw.mirrors
    . apply Triple.bind (Q := fun _ => Mirrors)
      . apply Triple.attempt
        apply (evict_safe env record.manifest).conseq (fun _ hw => hw)
        . intro _ w hw
          exact hw.mirrors
        . intro w hw _
          exact hw.mirrors
      . intro _
        exact Triple.pure fun w hw => hw

/--
While the network is waited for nobody pushes an object that is unserved or a home pointer where
there is none, and nothing that this node publishes itself is unserved.
-/
structure Calm (env : Env) (w : Runtime) : Prop where
  pushed : ∀ t bundle, .store bundle ∈ env.inbound t → bundle.object.verify = true →
    ¬ Unserved w bundle.object.id
  own : ∀ payload : ObjectPayload,
    payload.objectType = .homeIndex ∨ payload.objectType = .appPointer →
    ¬ Unserved w (ObjectId.fromPayload payload)
  home : (cachedPointer w w.identity.id RECORD_HOME).isSome = true ∨ Bare env w.identity w

section Calm

variable {w : Runtime}

theorem Calm.saves (h : Calm env w) :
    Saves env (Gone (Unserved w)) (fun object => ¬ Unserved w object.id) :=
  saves_gone env h.pushed h.own

theorem Calm.settled (h : Calm env w) : Settled env w.identity (Unserved w) w :=
  ⟨⟨rfl, fun _ hid => hid⟩, h.home⟩

theorem saveHomeIndex_mirrors (laws : SignatureLaws) (hash : CollisionFree) (h : Calm env w)
    (hw : Mirrors w) (index : HomeIndex) :
    Triple env (fun a => a = w) (saveHomeIndex index) (fun _ => Mirrors) Mirrors := by
  apply ((saveHomeIndex_within laws hash index).and (h.saves.keeps_saveHomeIndex index)).conseq
  . intro a ha
    rw [ha]
    exact ⟨h.settled, mirrors_iff.mp hw⟩
  . intro _ a ha
    exact mirrors_of_within ha.1.1 ha.2.1
  . intro a ha
    exact mirrors_of_within ha.1 ha.2

theorem setHomeEntryShared_mirrors (laws : SignatureLaws) (hash : CollisionFree) (h : Calm env w)
    (hw : Mirrors w) (name : String) (shared : Bool) :
    Triple env (fun a => a = w) (setHomeEntryShared name shared)
      (fun _ a => Mirrors a ∧ ∃ index, HomeIs index a ∧
        ∃ entry ∈ index.entries, entry.name = name ∧ entry.shared = shared) Mirrors := by
  apply ((setHomeEntryShared_within laws hash name shared).and
    (h.saves.keeps_setHomeEntryShared name shared)).conseq
  . intro a ha
    rw [ha]
    exact ⟨h.settled, mirrors_iff.mp hw⟩
  . intro _ a ha
    exact ⟨mirrors_of_within ha.1.1 ha.2.1, ha.1.2⟩
  . intro a ha
    exact mirrors_of_within ha.1 ha.2

theorem deleteObject_mirrors (laws : SignatureLaws) (hash : CollisionFree) (h : Calm env w)
    (hw : Mirrors w) (id : ObjectId) :
    Triple env (fun a => a = w) (deleteObject id) (fun _ => Mirrors) Mirrors := by
  have hsafe {a : Runtime} (hwithin : Within w.identity (Unserved w) a)
      (hgone : Gone (Unserved w) a) : Mirrors a := mirrors_of_within hwithin hgone
  unfold deleteObject
  apply Triple.bind (Q := fun _ a => a = w)
  . constructor
    intro a ha
    rw [exec_getVerified, ha]
    cases w.storage.getVerified id with
    | ok object => rfl
    | error e => exact hw
  . intro object
    apply Triple.bind (Q := fun _ a => a = w)
    . constructor
      intro a ha
      exact ha
    . intro owned
      have hmirrors (a : Runtime) (ha : a = w) : Mirrors a := by
        rw [ha]
        exact hw
      split
      . exact Triple.throw hmirrors
      . split
        . exact Triple.throw hmirrors
        . apply Triple.bind (Q := fun b a => b.identity = w.identity ∧
            Settled env w.identity (Unserved w) a ∧ Gone (Unserved w) a)
          . apply Triple.get
            intro a ha
            rw [ha]
            exact ⟨rfl, h.settled, mirrors_iff.mp hw⟩
          . intro b
            apply Triple.of_and
            intro hself
            rw [hself]
            apply Triple.bind (Q := fun _ a =>
              Settled env w.identity (Unserved w) a ∧ Gone (Unserved w) a)
            . apply (resolveHome_settled.and
                (h.saves.keeps_resolvePointer (h.saves.spares _).remembers)).conseq
              . intro a ha
                exact ha
              . intro _ a ha
                exact ⟨ha.1, ha.2.1⟩
              . intro a ha
                exact hsafe ha.1 ha.2
            . intro old
              apply Triple.bind (Q := fun home a =>
                Loaded env w.identity (Unserved w) home a ∧ Gone (Unserved w) a)
              . apply (loadHomeIndex_settled.and h.saves.keeps_loadHomeIndex).conseq
                . intro a ha
                  exact ha
                . intro _ a ha
                  exact ⟨ha.1, ha.2.1⟩
                . intro a ha
                  exact hsafe ha.1 ha.2
              . intro home
                apply Triple.bind (Q := fun _ => Safe w.identity (Unserved w))
                . apply ((removeFromHome_within laws hash id home).and
                    (h.saves.keeps_removeFromHome id home)).conseq
                  . intro a ha
                    exact ha
                  . intro _ a ha
                    exact ⟨ha.1, ha.2.1⟩
                  . intro a ha
                    exact hsafe ha.1 ha.2
                . intro _
                  apply Triple.bind (Q := fun _ =>
                    Safe w.identity fun other => Unserved w other ∨ other = id)
                  . apply (evict_safe env id).conseq (fun _ ha => ha) (fun _ _ ha => ha)
                    intro a ha
                    exact ha.mirrors
                  . intro _
                    exact evictOldHome_safe id old

end Calm

section Copy

variable {w : Runtime}

theorem SameNode.storeObject {a b : Runtime} (h : SameNode a b) (object : Object) :
    SameNode (storeObject object a) (storeObject object b) :=
  ⟨⟨h.identity, by simp [Runtime.storeObject, Storage.write, h.files], h.records⟩, h.deviceKey,
    h.keyFile, h.backups, h.cache, h.sidecar, h.shared, h.replicated⟩

theorem putObjectFor_spec (data : Bytes) (objectType : ObjectType) (recipients : List Key32) :
    Triple env (fun a => a = w) (putObjectFor data objectType none recipients)
      (fun copy a => copy.verify = true ∧ copy.objectType = objectType ∧
        SameNode (storeObject copy w) a)
      (SameNode w) := by
  unfold putObjectFor
  apply Triple.bind (Q := fun _ => SameNode w)
  . apply Triple.get
    intro a ha
    rw [ha]
    exact .refl w
  . intro b
    apply Triple.bind (Q := fun _ => SameNode w)
    . constructor
      intro a ha
      exact ha.trans (.tick a)
    . intro time
      apply Triple.bind (Q := fun _ => SameNode w)
      . unfold sealData
        apply Triple.bind (Q := fun _ => SameNode w) (Triple.get fun a ha => ha)
        intro c
        apply Triple.bind (Q := fun _ => SameNode w)
        . constructor
          intro a ha
          exact ha.trans (.tick a)
        . intro draws
          split
          . exact Triple.pure fun a ha => ha
          . exact Triple.throw fun a ha => ha
      . intro sealed
        dsimp only
        generalize hcopy : resealed b.identity _ = copy
        have htype : copy.objectType = objectType := by
          rw [← hcopy]
          rfl
        apply Triple.bind (Q := fun _ a => copy.verify = true ∧ SameNode (storeObject copy w) a)
        . unfold putVerified
          split
          . exact Triple.throw fun a ha => ha
          . next hverify =>
            apply triple_writeAtomic fun a a' haa' ha => ha.trans haa'
            intro a ha
            exact ⟨by simpa using hverify, ha.storeObject copy⟩
        . intro _
          apply Triple.bind (Q := fun _ a => copy.verify = true ∧ SameNode (storeObject copy w) a)
          . exact Triple.pure fun a ha => ha
          . intro _
            exact Triple.pure fun a ha => ⟨ha.1, htype, ha.2⟩

theorem copyFor_spec (object : Object) (recipients : List Key32) :
    Triple env (fun a => a = w) (copyFor object recipients)
      (fun sealed a => SameNode w a ∨ ∃ copy : Object, copy.id = sealed ∧ copy.verify = true ∧
        copy.objectType = object.objectType ∧ recipients ≠ [] ∧ SameNode (storeObject copy w) a)
      (SameNode w) := by
  unfold copyFor
  split
  . apply Triple.pure
    intro a ha
    rw [ha]
    exact .inl (.refl w)
  . next hrecipients =>
    apply Triple.bind (Q := fun _ a => a = w)
    . constructor
      intro a ha
      rw [openObject, exec_bind_ok (Prog.exec_get env a), exec_ofExcept, ha]
      cases openWith w.identity object with
      | ok opened => rfl
      | error e => exact .refl w
    . intro opened
      apply Triple.bind (putObjectFor_spec _ object.objectType recipients)
      intro copy
      apply Triple.pure
      intro a ⟨hverify, htype, hsame⟩
      exact .inr ⟨copy, rfl, hverify, htype, by simpa using hrecipients, hsame⟩

/--
The copy that is made for the recipients is not the object of an unserved entry, and no pointer object
where there is no home pointer.
-/
def Fresh (env : Env) (id : ObjectId) (recipients : List Key32) (w : Runtime) : Prop :=
  ∀ object, w.storage.getVerified id = .ok object → recipients ≠ [] →
    (∀ sealed, (exec (copyFor object recipients) env w).1 = .ok sealed → ¬ Unserved w sealed) ∧
    (cachedPointer w w.identity.id RECORD_HOME = none → object.objectType ≠ .appPointer)

theorem shareObjectFor_mirrors (laws : SignatureLaws) (hash : CollisionFree) (h : Calm env w)
    (hw : Mirrors w) (name : String) {id : ObjectId} (app : Option String) {recipients : List Key32}
    (hfresh : Fresh env id recipients w) :
    Triple env (fun a => a = w) (shareObjectFor name id app recipients) (fun _ => Mirrors)
      Mirrors := by
  have hgone := mirrors_iff.mp hw
  have hsame {b a : Runtime} (hb : Settled env w.identity (Unserved w) b ∧ Gone (Unserved w) b)
      (hba : SameNode b a) : Settled env w.identity (Unserved w) a ∧ Gone (Unserved w) a := by
    refine ⟨⟨hb.1.1.congr hba.identity hba.records (by rw [hba.shared]), ?_⟩,
      hb.2.congr hba.files⟩
    rw [cachedPointer_congr hba.records]
    cases hb.1.2 with
    | inl hcached => exact .inl hcached
    | inr hbare => exact .inr ((pushes_bare hbare.silent).frame b a hba hbare)
  apply Triple.bind (Q := fun loaded a => ∃ previous, loaded.2.2 = previous.getD HomeIndex.empty ∧
    Loaded env w.identity (Unserved w) previous a ∧ Gone (Unserved w) a)
  . apply Triple.bind (Q := fun object a => w.storage.getVerified id = .ok object ∧ a = w)
    . constructor
      intro a ha
      rw [exec_getVerified, ha]
      cases w.storage.getVerified id with
      | ok object => exact ⟨rfl, rfl⟩
      | error e => exact hw
    . intro object
      apply Triple.of_and
      intro hobject
      apply Triple.bind (Q := fun _ a =>
        Settled env w.identity (Unserved w) a ∧ Gone (Unserved w) a)
      . apply ((copyFor_spec object recipients).traced w).conseq
        . intro a ha
          exact ⟨ha, ha⟩
        . intro sealed a ⟨hsealed, hspec⟩
          rcases hspec with ha | ⟨copy, hid, hverify, htype, hrecipients, ha⟩
          . exact hsame ⟨h.settled, hgone⟩ ha
          . obtain ⟨hunserved, hpointer⟩ := hfresh object hobject hrecipients
            have hnot : ¬ Unserved w copy.id := by
              rw [hid]
              exact hunserved sealed hsealed
            refine hsame ⟨⟨?_, ?_⟩, h.saves.put w copy hverify hnot hgone⟩ ha
            . exact h.settled.1.congr rfl rfl (Finset.Subset.refl _)
            . cases h.home with
              | inl hcached => exact .inl hcached
              | inr hbare =>
                apply Or.inr
                apply (pushes_bare hbare.silent).put w copy hverify _ hbare
                intro ⟨hlabel, _⟩
                apply hpointer hbare.uncached
                rw [← htype]
                exact hlabel.2
        . intro a ha
          have hafter := hsame ⟨h.settled, hgone⟩ ha
          exact mirrors_of_within hafter.1.1 hafter.2
      . intro sealed
        apply Triple.bind (Q := fun previous a =>
          Loaded env w.identity (Unserved w) previous a ∧ Gone (Unserved w) a)
        . apply (loadHomeIndex_settled.and h.saves.keeps_loadHomeIndex).conseq
          . intro a ha
            exact ha
          . intro _ a ha
            exact ⟨ha.1, ha.2.1⟩
          . intro a ha
            exact mirrors_of_within ha.1 ha.2
        . intro previous
          apply Triple.pure
          intro a ha
          exact ⟨previous, rfl, ha⟩
  . intro (sealed, objectType, index)
    constructor
    intro a ⟨previous, hindex, hloaded, hgone⟩
    have hindex : index = previous.getD HomeIndex.empty := hindex
    rw [hindex]
    have hspec := ((shareObjectForPublish_within laws hash name app sealed objectType previous).and
      (h.saves.keeps_shareObjectForPublish name app
        (sealed, objectType, previous.getD HomeIndex.empty))).spec a ⟨hloaded, hgone⟩
    generalize exec (shareObjectForPublish name app
      (sealed, objectType, previous.getD HomeIndex.empty)) env a = res at hspec
    rcases res with ⟨_ | _, t⟩
    . exact mirrors_of_within hspec.1 hspec.2
    . exact mirrors_of_within hspec.1 hspec.2.1

end Copy

section Reopen

variable {w : Runtime}

/--
The node as a restart finds it with the identity of its key file.
-/
def restarted (identity : Identity) (w : Runtime) : Runtime :=
  { w with identity := identity, cache := w.sidecar, shared := ∅, pairing := none }

/--
The identity that a restart takes over has its home index in the store, or no home pointer at all.
-/
def Rehomes (env : Env) (w : Runtime) : Prop :=
  ∀ bytes identity, w.keyFile = some bytes →
    Identity.loadAtRest bytes env.passphrase = some identity →
    (∃ record index, Has HomeIndex.codec RECORD_HOME record index (restarted identity w)) ∨
      Bare env identity (restarted identity w)

/--
The home index of `self` is read.
-/
def HomeRead (self : Identity) : Option HomeIndex → Runtime → Prop
  | some index, w => w.identity = self ∧ ∃ record, Has HomeIndex.codec RECORD_HOME record index w
  | none, w => w.identity = self ∧ cachedPointer w self.id RECORD_HOME = none

theorem reconcileHome_within (hash : CollisionFree) (previous : Option HomeIndex) :
    Triple env (HomeRead self previous) (reconcileShared none previous) (fun _ => Within self E)
      (fun _ => False) := by
  constructor
  intro a ha
  cases previous with
  | none => exact within_of_uncached ha.1 ha.2
  | some index =>
    obtain ⟨hself, record, hhas⟩ := ha
    have hkept := (pushes_identity env self).and
      (pushes_has hash env HomeIndex.codec RECORD_HOME record index)
    have hspec := (reconcileShared_triple (E := fun _ => False) hkept
      (fun b id hb => ⟨hb.1, hb.2.congr ⟨rfl, rfl, rfl⟩⟩)
      (fun b id hb => ⟨hb.1, hb.2.congr ⟨rfl, rfl, rfl⟩⟩) none (some index) a.shared).spec a
      ⟨⟨hself, hhas⟩, rfl⟩
    generalize exec (reconcileShared none (some index)) env a = res at hspec
    rcases res with ⟨_ | _, t⟩
    . exact hspec
    . obtain ⟨⟨hself, hhas⟩, hshared⟩ := hspec
      refine ⟨hself, ?_⟩
      intro id ⟨index', hhome, hid, hnot⟩
      exfalso
      rw [hhome.unique hash hhas.homeIs] at hid
      rw [hshared, mem_reconciled] at hnot
      exact hnot (.inl ⟨hid, List.not_mem_nil⟩)

theorem reopen_mirrors (laws : DeviceLaws) (hash : CollisionFree) (hw : Mirrors w)
    (h : Rehomes env w) : Mirrors (exec reopen env w).2 := by
  cases hkey : w.keyFile with
  | none =>
    have hexec : (exec reopen env w).2 = w := by
      unfold reopen
      rw [exec_bind_ok (Prog.exec_get env w), exec_bind_ok (Prog.exec_read env w), hkey]
      rfl
    rw [hexec]
    exact hw
  | some bytes =>
    cases hload : Identity.loadAtRest bytes env.passphrase with
    | none =>
      have hexec : (exec reopen env w).2 = w := by
        unfold reopen
        rw [exec_bind_ok (Prog.exec_get env w), exec_bind_ok (Prog.exec_read env w), hkey]
        dsimp only [ofOption]
        rw [Prog.pure_bind, hload]
        rfl
      rw [hexec]
      exact hw
    | some identity =>
      have hwithin := fetches_within env identity fun _ => False
      have hrest : Keeps env (Within identity fun _ => False) (do
          reshareRecord RECORD_PROFILE
          reshareRecord RECORD_USERNAME
          reshareRecord RECORD_DEVICES
          registerDevice) := by
        apply Keeps.bind (hwithin.keeps_reshareRecord (shares_within identity _) _)
        intro _ _
        apply Keeps.bind (hwithin.keeps_reshareRecord (shares_within identity _) _)
        intro _ _
        apply Keeps.bind (hwithin.keeps_reshareRecord (shares_within identity _) _)
        intro _ _
        apply hwithin.keeps_registerDevice (shares_within identity _)
        . intro a ha b bytes hb
          apply hb.storeRecord
          rw [ha.1, ne_eq, AppPointerRecord.key_inj hash]
          decide
        . intro device b bytes hb
          exact hb.storeRecord (laws.registry_ne device _ _)
      obtain ⟨previous, v, hloaded, hv⟩ : ∃ previous v,
          exec loadHomeIndex env (restarted identity w) = (.ok previous, v) ∧
          HomeRead identity previous v := by
        rcases h bytes identity hkey hload with ⟨record, index, hhas⟩ | hbare
        . exact ⟨some index, _, hhas.exec_loadHomeIndex env, rfl, record, hhas⟩
        . obtain ⟨v, hloaded, hv⟩ := loadHomeIndex_bare hbare
          exact ⟨none, v, hloaded, hv.identity, hv.uncached⟩
      have hattempt : exec (Prog.attempt loadHomeIndex) env (restarted identity w) =
          (.ok (.ok previous), v) := by
        rw [Prog.exec_attempt, hloaded]
      have hexec : exec reopen env w = exec (do
          reconcileShared none previous
          reshareRecord RECORD_PROFILE
          reshareRecord RECORD_USERNAME
          reshareRecord RECORD_DEVICES
          registerDevice) env v := by
        unfold reopen
        rw [exec_bind_ok (Prog.exec_get env w), exec_bind_ok (Prog.exec_read env w), hkey]
        dsimp only [ofOption]
        rw [Prog.pure_bind, hload]
        dsimp only
        rw [Prog.pure_bind, exec_bind_ok (Prog.exec_modify _ env w)]
        exact exec_bind_ok hattempt
      have hall : Triple env (HomeRead identity previous) (do
          reconcileShared none previous
          reshareRecord RECORD_PROFILE
          reshareRecord RECORD_USERNAME
          reshareRecord RECORD_DEVICES
          registerDevice) (fun _ => Mirrors) Mirrors := by
        apply Triple.bind (Q := fun _ => Within identity fun _ => False)
        . exact (reconcileHome_within hash previous).conseq (fun _ ha => ha) (fun _ _ ha => ha)
            fun _ ha => ha.elim
        . intro _
          apply hrest.conseq (fun _ ha => ha)
          . intro _ a ha
            exact mirrors_of_within ha.1 fun _ hid => hid.elim
          . intro a ha
            exact mirrors_of_within ha fun _ hid => hid.elim
      have hspec := hall.spec v hv
      rw [hexec]
      generalize exec _ env v = res at hspec
      rcases res with ⟨_ | _, t⟩
      . exact hspec
      . exact hspec

end Reopen

section Import

variable {w : Runtime}

theorem markCached_gone (id : ObjectId) :
    Triple env (Gone E) (markCached id) (fun _ => Gone E) (Gone E) := by
  have hpersist : Triple env (Gone E) persist (fun _ => Gone E) (Gone E) :=
    triple_writeAtomic (fun _ _ hsame ha => ha.congr hsame.files) fun _ ha => ha.congr rfl
  apply Triple.bind (Q := fun _ => Gone E)
  . constructor
    intro a ha
    exact ha.congr rfl
  . intro time
    apply Triple.bind (Q := fun _ => Gone E)
    . exact Triple.modify fun a ha => ha.congr rfl
    . intro _
      apply Triple.bind (Q := fun _ => Gone E)
      . apply Triple.attempt
        exact hpersist.conseq (fun _ ha => ha) (fun _ _ ha => ha) fun _ ha _ => ha
      . intro _
        exact Triple.pure fun a ha => ha

theorem importBundle_gone {bundle : ExportBundle}
    (h : bundle.object.verify = true → ¬ E bundle.object.id) :
    Triple env (Gone E) (importBundle bundle) (fun _ => Gone E) (Gone E) := by
  apply Triple.bind (Q := fun _ => Gone E) (Triple.get fun _ ha => ha)
  intro a
  split
  . exact Triple.throw fun _ ha => ha
  . apply Triple.bind (Q := fun _ => Gone E)
    . constructor
      intro b hb
      exact hb
    . intro owned
      apply Triple.bind (Q := fun _ => Gone E)
      . unfold putVerified
        split
        . exact Triple.throw fun _ ha => ha
        . next hverify =>
          apply triple_writeAtomic fun _ _ hsame ha => ha.congr hsame.files
          intro b hb id hid
          have hne : id ≠ bundle.object.id := by
            intro heq
            rw [heq] at hid
            exact h (by simpa using hverify) hid
          intro ⟨stored, hstored⟩
          exact hb id hid ⟨stored, (Storage.getVerified_write_of_ne b.storage hne).symm.trans hstored⟩
      . intro _
        split
        . exact Triple.pure fun _ ha => ha
        . exact markCached_gone bundle.object.id

theorem importBundle_mirrors (hw : Mirrors w) {bundle : ExportBundle}
    (h : bundle.object.verify = true → ¬ Unserved w bundle.object.id) :
    Mirrors (exec (importBundle bundle) env w).2 := by
  have hwithin := (fetches_within env w.identity (Unserved w)).keeps_importBundle
    fun (_ : bundle.object.verify = true) => trivial
  have hspec := (hwithin.and (importBundle_gone h)).spec w
    ⟨⟨rfl, fun _ hid => hid⟩, mirrors_iff.mp hw⟩
  generalize exec (importBundle bundle) env w = res at hspec
  rcases res with ⟨_ | _, t⟩
  . exact mirrors_of_within hspec.1 hspec.2
  . exact mirrors_of_within hspec.1.1 hspec.2

end Import

end Steps

end Runtime

/--
The requests that change the home index, the store or the serving set, and restarts.
-/
inductive SharingOp where
  | saveHomeIndex (index : HomeIndex)
  | setHomeEntryShared (name : String) (shared : Bool)
  | shareObjectFor (name : String) (id : ObjectId) (app : Option String) (recipients : List Key32)
  | evict (id : ObjectId)
  | deleteObject (id : ObjectId)
  | importBundle (bundle : ExportBundle)
  | restart

namespace SharingOp

def request : SharingOp → NodeOp
  | saveHomeIndex index => .saveHomeIndex index
  | setHomeEntryShared name shared => .setHomeEntryShared name shared
  | shareObjectFor name id app recipients => .shareObjectFor name id app recipients
  | evict id => .evict id
  | deleteObject id => .deleteObject id
  | importBundle bundle => .importBundle bundle
  | restart => .reopen

def step (l : SharingOp × Env) (w : Runtime) : Runtime :=
  NodeOp.step (l.1.request, l.2) w

/--
No object comes into the store that an unserved entry refers to, and a restart has the home index at
hand.
-/
def Undisturbed : SharingOp × Env → Runtime → Prop
  | (evict _, _), _ => True
  | (importBundle bundle, _), w => bundle.object.verify = true → ¬ Unserved w bundle.object.id
  | (restart, env), w => Rehomes env w
  | (shareObjectFor _ id _ recipients, env), w => Calm env w ∧ Fresh env id recipients w
  | (_, env), w => Calm env w

/--
After an entry was set to shared it is in the home index, and its object is served if it is stored.
-/
def Serves : SharingOp × Env → Runtime → Prop
  | (setHomeEntryShared name true, env), w =>
      (exec (Runtime.setHomeEntryShared name true) env w).1.toBool = true →
      ∃ index, HomeIs index (step (setHomeEntryShared name true, env) w) ∧
        ∃ entry ∈ index.entries, entry.name = name ∧ entry.shared = true ∧ ∀ object,
          (step (setHomeEntryShared name true, env) w).storage.getVerified entry.object = .ok object →
          ∀ env', ∃ bundle, (exec (provide entry.object) env'
            (step (setHomeEntryShared name true, env) w)).1 = .ok (some bundle) ∧
            bundle.object = object
  | _, _ => True

theorem mirrors_of_triple {α : Type} {m : RunM α} {env : Env} {w : Runtime}
    (h : Triple env (fun a => a = w) m (fun _ => Mirrors) Mirrors) :
    Mirrors (exec (NodeOp.discard m) env w).2 := by
  rw [NodeOp.exec_discard]
  have hspec := h.spec w rfl
  generalize exec m env w = res at hspec
  rcases res with ⟨_ | _, t⟩
  . exact hspec
  . exact hspec

theorem mirrors_step (laws : SignatureLaws) (device : DeviceLaws) (hash : CollisionFree)
    {l : SharingOp × Env} {w : Runtime} (h : Undisturbed l w) (hw : Mirrors w) :
    Mirrors (step l w) := by
  obtain ⟨op, env⟩ := l
  cases op with
  | saveHomeIndex index => exact mirrors_of_triple (saveHomeIndex_mirrors laws hash h hw index)
  | setHomeEntryShared name shared =>
    apply mirrors_of_triple
    apply (setHomeEntryShared_mirrors laws hash h hw name shared).conseq (fun _ ha => ha)
    . intro _ a ha
      exact ha.1
    . intro a ha
      exact ha
  | shareObjectFor name id app recipients =>
    exact mirrors_of_triple (shareObjectFor_mirrors laws hash h.1 hw name app h.2)
  | evict id =>
    have hevict := (evict_safe env id).spec w ⟨⟨rfl, fun _ hid => hid⟩, mirrors_iff.mp hw⟩
    have hspec : Mirrors (exec (Runtime.evict id) env w).2 := by
      generalize exec (Runtime.evict id) env w = res at hevict
      rcases res with ⟨_ | _, t⟩
      . exact hevict.mirrors
      . exact hevict.mirrors
    exact hspec
  | deleteObject id =>
    have hspec := mirrors_of_triple (deleteObject_mirrors laws hash h hw id)
    rw [NodeOp.exec_discard] at hspec
    exact hspec
  | importBundle bundle => exact importBundle_mirrors hw h
  | restart => exact reopen_mirrors device hash hw h

theorem serves_step (laws : SignatureLaws) (hash : CollisionFree) {l : SharingOp × Env} {w : Runtime}
    (h : Undisturbed l w) (hw : Mirrors w) : Serves l w := by
  obtain ⟨op, env⟩ := l
  cases op with
  | setHomeEntryShared name shared =>
    cases shared with
    | false => trivial
    | true =>
      intro hok
      have hspec := (setHomeEntryShared_mirrors laws hash h hw name true).spec w rfl
      have hstep : step (setHomeEntryShared name true, env) w =
          (exec (Runtime.setHomeEntryShared name true) env w).2 := NodeOp.exec_discard _ env w
      rw [hstep]
      generalize exec (Runtime.setHomeEntryShared name true) env w = res at hspec hok
      rcases res with ⟨_ | _, t⟩
      . cases hok
      . obtain ⟨hmirrors, index, hhome, entry, hentry, hname, hflag⟩ := hspec
        refine ⟨index, hhome, entry, hentry, hname, hflag, ?_⟩
        intro object hobject
        exact (hmirrors index hhome entry hentry hflag object hobject).2
  | _ => trivial

end SharingOp

end Canopee

namespace Canopee.SharingOp

open Canopee.Runtime
open Prog (exec)

section Witness

open Canopee.Transparent

/--
A first home index, then an eviction.
-/
def saveThenEvict : List (SharingOp × Env) :=
  [(saveHomeIndex HomeIndex.empty, Env.quiet 0), (evict ⟨"ff"⟩, Env.quiet 1)]

theorem calm_fresh : Calm (Env.quiet 0) (fresh alice laptop) where
  pushed := by
    intro t bundle hbundle
    cases hbundle
  own := by
    intro payload _ ⟨index, ⟨record, hcached, _⟩, _⟩
    cases hcached
  home := by
    refine .inr ⟨rfl, rfl, ?_, ?_⟩
    . intro record ⟨text, hmem, _⟩
      cases hmem
    . refine ⟨?_, ?_⟩
      . intro t bundle hbundle
        cases hbundle
      . intro t bytes record hrecord
        cases hrecord

end Witness

section Counterexample

open Canopee.Compact

def sharedNote : Object :=
  Object.new alice 0 [7] .blob

def sharedIndex : HomeIndex :=
  { HomeIndex.empty with entries := [⟨"note", sharedNote.id, .blob, true, none⟩] }

/--
A shared note is evicted and imported again.
-/
def reimport : List (SharingOp × Env) :=
  [(importBundle ⟨1, sharedNote⟩, Env.quiet 0), (saveHomeIndex sharedIndex, Env.quiet 1),
    (evict sharedNote.id, Env.quiet 2), (importBundle ⟨1, sharedNote⟩, Env.quiet 3)]

def reimported : Runtime :=
  Run.run step (fresh alice laptop) reimport

/--
The note is set to shared once more.
-/
def reshared : Runtime :=
  step (setHomeEntryShared "note" true, Env.quiet 4) reimported

theorem not_mirrors {w : Runtime} {record : AppPointerRecord} {home note : Object} {index : HomeIndex}
    {entry : HomeEntry} (hcached : cachedPointer w w.identity.id RECORD_HOME = some record)
    (hhome : home.id = record.manifest) (hverify : home.verify = true)
    (hdecode : HomeIndex.codec.deserialize home.payload.data = some index)
    (hentry : entry ∈ index.entries) (hflag : entry.shared = true)
    (hnote : (w.storage.getVerified entry.object).toOption = some note)
    (hshared : entry.object.text ∉ w.shared) : ¬ Mirrors w := by
  intro h
  have hstored : ∃ object, w.storage.getVerified entry.object = .ok object := by
    cases hget : w.storage.getVerified entry.object with
    | ok object => exact ⟨object, rfl⟩
    | error e => rw [hget] at hnote; cases hnote
  obtain ⟨object, hobject⟩ := hstored
  have hnames : Names record.manifest index :=
    ⟨home.payload, by rw [← hhome, Object.id_of_verify hverify], hdecode⟩
  exact hshared (h index ⟨record, hcached, hnames⟩ entry hentry hflag object hobject).1

/--
The home index that the runtime saved.
-/
def savedIndex : HomeIndex :=
  { sharedIndex with version := 1 }

def savedHome : Object :=
  savedIndex.toObject alice 1

theorem reimported_evaluated :
    (cachedPointer reimported reimported.identity.id RECORD_HOME).map (·.manifest) =
        some savedHome.id ∧
      savedHome.verify = true ∧
      (reimported.storage.getVerified sharedNote.id).toOption = some sharedNote ∧
      sharedNote.id.text ∉ reimported.shared ∧
      (exec (Runtime.setHomeEntryShared "note" true) (Env.quiet 4) reimported).1.toBool = true ∧
      (reshared.storage.getVerified sharedNote.id).toOption = some sharedNote ∧
      (exec (provide sharedNote.id) (Env.quiet 5) reshared).1 = .ok none := by
  decide +kernel

end Counterexample

end Canopee.SharingOp
