import Canopee.Results.Ledger
import Canopee.Results.Unsharing

/-!
This module contains requests that change the capability index or the home index, handled side by
side: each reads an index in one step and publishes the changed one in a later step. Nothing
acknowledged is lost while every request publishes over the index that it read.
-/

namespace Canopee

open Primitives
open Canopee.Runtime
open Prog (Keeps Triple exec exec_bind_ok exec_bind_eq_iff)

section Entries

section ChangeFirst

variable {α κ : Type} [DecidableEq κ] {key : α → κ} {k : κ} {change : α → α}

/--
`entries` with the first one under `k` changed, if there is one.
-/
def changeFirst (key : α → κ) (k : κ) (change : α → α) : List α → Option (List α)
  | [] => none
  | entry :: entries =>
    if key entry = k then
      some (change entry :: entries)
    else
      (changeFirst key k change entries).map (entry :: ·)

theorem map_find_of_ne {other : κ} (hne : other ≠ k) (change : α → α) (entries : List α) :
    (entries.find? (key · == other)).map (fun entry => if key entry = k then change entry else entry) =
      entries.find? (key · == other) := by
  cases hfind : entries.find? (key · == other) with
  | none => rfl
  | some found =>
    have hfound : key found = other := by simpa using List.find?_some hfind
    have hother : key found ≠ k := hfound ▸ hne
    simp [hother]

theorem find_changeFirst {entries entries' : List α}
    (h : changeFirst key k change entries = some entries')
    (hkey : ∀ entry, key (change entry) = key entry) (other : κ) :
    entries'.find? (key · == other) = (entries.find? (key · == other)).map fun entry =>
      if key entry = k then change entry else entry := by
  induction entries generalizing entries' with
  | nil => cases h
  | cons entry entries ih =>
    unfold changeFirst at h
    split at h
    . next hk =>
      cases h
      by_cases hother : key entry = other
      . simp [hother, hkey, hother ▸ hk]
      . simp only [List.find?_cons, hkey, beq_eq_false_iff_ne.mpr hother]
        exact (map_find_of_ne (hk ▸ Ne.symm hother) change entries).symm
    . next hk =>
      obtain ⟨rest, hrest, heq⟩ := Option.map_eq_some_iff.mp h
      cases heq
      by_cases hother : key entry = other
      . simp [hother, hother ▸ hk]
      . simp only [List.find?_cons, beq_eq_false_iff_ne.mpr hother]
        exact ih hrest

end ChangeFirst

theorem revokeFirst_eq (id : CapabilityId) (entries : List CapabilityEntry) :
    CapabilityIndex.revokeFirst id entries =
      changeFirst (·.capability.id) id (fun entry => { entry with revoked := true }) entries := by
  induction entries with
  | nil => rfl
  | cons entry entries ih => rw [CapabilityIndex.revokeFirst, changeFirst, ih]

theorem setShared_eq (name : String) (shared : Bool) (entries : List HomeEntry) :
    (setShared name shared entries).map (·.1) =
      changeFirst HomeEntry.name name (fun entry => { entry with shared := shared }) entries := by
  induction entries with
  | nil => rfl
  | cons entry entries ih =>
    rw [setShared, changeFirst, ← ih]
    split
    . rfl
    . simp [Function.comp_def]

theorem find_upsertShared_self (name : String) (id : ObjectId) (objectType : ObjectType)
    (app : Option String) (entries : List HomeEntry) :
    ∃ entry, (upsertShared name id objectType app entries).find? (·.name == name) = some entry ∧
      entry.object = id ∧ entry.shared = true := by
  induction entries with
  | nil => exact ⟨_, List.find?_cons_of_pos (by simp), rfl, rfl⟩
  | cons entry entries ih =>
    unfold upsertShared
    split
    . next hname => exact ⟨_, List.find?_cons_of_pos (by simpa using hname), rfl, rfl⟩
    . next hname =>
      rw [List.find?_cons_of_neg (by simpa using hname)]
      exact ih

theorem find_upsertShared_of_ne {name other : String} (hne : other ≠ name) (id : ObjectId)
    (objectType : ObjectType) (app : Option String) (entries : List HomeEntry) :
    (upsertShared name id objectType app entries).find? (·.name == other) =
      entries.find? (·.name == other) := by
  induction entries with
  | nil => simp [upsertShared, Ne.symm hne]
  | cons entry entries ih =>
    unfold upsertShared
    split
    . next hname => simp [hname, Ne.symm hne]
    . next hname =>
      simp only [List.find?_cons]
      rw [ih]

end Entries

inductive IndexRequest where
  | grant (subject : IdentityId) (resource : Resource) (permissions : List Permission)
      (expiresAt : Option UInt64)
  | revoke (id : CapabilityId)
  | share (name : String) (id : ObjectId) (app : Option String) (recipients : List Key32)
  | setShared (name : String) (shared : Bool)

/--
A request that has read its index and has not published it yet.
-/
inductive LoadedRequest where
  | grant (capability : Capability) (index : CapabilityIndex)
  | revoke (id : CapabilityId) (index : CapabilityIndex)
  | share (name : String) (app : Option String) (id : ObjectId) (objectType : ObjectType)
      (index : HomeIndex)
  | setShared (name : String) (shared : Bool) (index : HomeIndex)

/--
What requests that returned have promised, the latest first: for a name, the object that was last
shared under it, and the flag that it was last given.
-/
structure Acknowledged where
  granted : List Capability
  revoked : List CapabilityId
  objects : List (String × ObjectId)
  flags : List (String × Bool)

namespace Acknowledged

def nothing : Acknowledged where
  granted := []
  revoked := []
  objects := []
  flags := []

def add (a : Acknowledged) : LoadedRequest → Acknowledged
  | .grant capability _ => { a with granted := capability :: a.granted }
  | .revoke id _ => { a with revoked := id :: a.revoked }
  | .share name _ id _ _ =>
    { a with objects := (name, id) :: a.objects, flags := (name, true) :: a.flags }
  | .setShared name shared _ => { a with flags := (name, shared) :: a.flags }

/--
The entries have every acknowledged grant, and what is found for an acknowledged revocation is
revoked.
-/
structure InCapabilities (a : Acknowledged) (entries : List CapabilityEntry) : Prop where
  granted : ∀ capability ∈ a.granted, ∃ entry ∈ entries, entry.capability = capability
  revoked : ∀ id ∈ a.revoked, ∃ entry, entries.find? (·.capability.id == id) = some entry ∧
    entry.revoked = true

/--
What is found under a name is the object that was last shared under it, with the flag that it was
last given.
-/
structure InHome (a : Acknowledged) (entries : List HomeEntry) : Prop where
  objects : ∀ name object, a.objects.lookup name = some object →
    ∃ entry, entries.find? (·.name == name) = some entry ∧ entry.object = object
  flags : ∀ name shared, a.flags.lookup name = some shared →
    ∃ entry, entries.find? (·.name == name) = some entry ∧ entry.shared = shared

variable {a : Acknowledged}

theorem InCapabilities.of_nil (h : a.InCapabilities []) (entries : List CapabilityEntry) :
    a.InCapabilities entries where
  granted capability hcapability := by
    obtain ⟨entry, hentry, _⟩ := h.granted capability hcapability
    cases hentry
  revoked id hid := by
    obtain ⟨entry, hentry, _⟩ := h.revoked id hid
    cases hentry

theorem InHome.of_nil (h : a.InHome []) (entries : List HomeEntry) : a.InHome entries where
  objects name object hobject := by
    obtain ⟨entry, hentry, _⟩ := h.objects name object hobject
    cases hentry
  flags name shared hshared := by
    obtain ⟨entry, hentry, _⟩ := h.flags name shared hshared
    cases hentry

theorem InCapabilities.grant {entries : List CapabilityEntry} (h : a.InCapabilities entries)
    (capability : Capability) (index : CapabilityIndex) :
    (a.add (.grant capability index)).InCapabilities (entries ++ [⟨capability, false⟩]) where
  granted other hother := by
    rcases List.mem_cons.mp hother with rfl | hmem
    . exact ⟨_, List.mem_append_right _ List.mem_cons_self, rfl⟩
    . obtain ⟨entry, hentry, hcapability⟩ := h.granted other hmem
      exact ⟨entry, List.mem_append_left _ hentry, hcapability⟩
  revoked id hid := by
    obtain ⟨entry, hfind, hrevoked⟩ := h.revoked id hid
    refine ⟨entry, ?_, hrevoked⟩
    rw [List.find?_append, hfind]
    rfl

theorem InCapabilities.revoke {entries entries' : List CapabilityEntry} {id : CapabilityId}
    (h : a.InCapabilities entries)
    (hrevoke : CapabilityIndex.revokeFirst id entries = some entries') (index : CapabilityIndex) :
    (a.add (.revoke id index)).InCapabilities entries' where
  granted capability hcapability := by
    obtain ⟨entry, hentry, heq⟩ := h.granted capability hcapability
    obtain ⟨later, hlater, hsame⟩ := (CapabilityIndex.mem_revokeFirst hrevoke).2.1 entry hentry
    exact ⟨later, hlater, hsame.trans heq⟩
  revoked other hother := by
    have hfind := find_changeFirst ((revokeFirst_eq id entries).symm.trans hrevoke) fun _ => rfl
    rcases List.mem_cons.mp hother with rfl | hmem
    . obtain ⟨found, hfound, hid⟩ := (CapabilityIndex.mem_revokeFirst hrevoke).1
      have hsome : (entries'.find? (·.capability.id == other)).isSome = true := by
        rw [List.find?_isSome]
        exact ⟨found, hfound, by simp [hid]⟩
      obtain ⟨entry, hentry⟩ := Option.isSome_iff_exists.mp hsome
      refine ⟨entry, hentry, ?_⟩
      rw [hfind other, Option.map_eq_some_iff] at hentry
      obtain ⟨before, hbefore, heq⟩ := hentry
      have hkey : before.capability.id = other := by simpa using List.find?_some hbefore
      rw [← heq, if_pos hkey]
    . obtain ⟨entry, hentry, hrevoked⟩ := h.revoked other hmem
      refine ⟨_, (hfind other).trans (congrArg _ hentry), ?_⟩
      dsimp only
      split
      . rfl
      . exact hrevoked

theorem InHome.share {entries : List HomeEntry} (h : a.InHome entries) (name : String)
    (app : Option String) (id : ObjectId) (objectType : ObjectType) (index : HomeIndex) :
    (a.add (.share name app id objectType index)).InHome
      (upsertShared name id objectType app entries) := by
  obtain ⟨entry, hfind, hobject, hshared⟩ := find_upsertShared_self name id objectType app entries
  constructor
  . intro other object hlookup
    by_cases hother : other = name
    . subst hother
      simp only [add, List.lookup_cons_self, Option.some.injEq] at hlookup
      exact ⟨entry, hfind, hobject.trans hlookup⟩
    . simp only [add, List.lookup_cons, beq_eq_false_iff_ne.mpr hother] at hlookup
      rw [find_upsertShared_of_ne hother]
      exact h.objects other object hlookup
  . intro other shared hlookup
    by_cases hother : other = name
    . subst hother
      simp only [add, List.lookup_cons_self, Option.some.injEq] at hlookup
      exact ⟨entry, hfind, hshared.trans hlookup⟩
    . simp only [add, List.lookup_cons, beq_eq_false_iff_ne.mpr hother] at hlookup
      rw [find_upsertShared_of_ne hother]
      exact h.flags other shared hlookup

theorem InHome.setShared {entries entries' : List HomeEntry} {name : String} {shared : Bool}
    {object : ObjectId} (h : a.InHome entries)
    (hset : Runtime.setShared name shared entries = some (entries', object)) (index : HomeIndex) :
    (a.add (.setShared name shared index)).InHome entries' := by
  have hchange : changeFirst HomeEntry.name name (fun entry => { entry with shared := shared })
      entries = some entries' := by
    rw [← setShared_eq, hset]
    rfl
  have hfind := find_changeFirst hchange fun _ => rfl
  constructor
  . intro other target hlookup
    obtain ⟨entry, hentry, hobject⟩ := h.objects other target hlookup
    refine ⟨_, (hfind other).trans (congrArg _ hentry), ?_⟩
    dsimp only
    split
    . exact hobject
    . exact hobject
  . intro other flag hlookup
    by_cases hother : other = name
    . subst hother
      simp only [add, List.lookup_cons_self, Option.some.injEq] at hlookup
      obtain ⟨entry, hentry, hshared, _⟩ := setShared_find hset
      refine ⟨entry, ?_, hshared.trans hlookup⟩
      rw [← hentry]
      congr 1
    . simp only [add, List.lookup_cons, beq_eq_false_iff_ne.mpr hother] at hlookup
      obtain ⟨entry, hentry, hflag⟩ := h.flags other flag hlookup
      have hname : entry.name = other := by simpa using List.find?_some hentry
      refine ⟨_, (hfind other).trans (congrArg _ hentry), ?_⟩
      dsimp only
      rw [if_neg (hname ▸ hother)]
      exact hflag

end Acknowledged

variable [Primitives]

def IndexRequest.load : IndexRequest → RunM LoadedRequest
  | .grant subject resource permissions expiresAt => do
    let loaded ← grantCapabilityLoad subject resource permissions expiresAt
    pure (.grant loaded.1 loaded.2)
  | .revoke id => do
    let index ← revokeCapabilityLoad
    pure (.revoke id index)
  | .share name id app recipients => do
    let loaded ← shareObjectForLoad id recipients
    pure (.share name app loaded.1 loaded.2.1 loaded.2.2)
  | .setShared name shared => do
    let index ← setHomeEntrySharedLoad
    pure (.setShared name shared index)

def LoadedRequest.publish : LoadedRequest → RunM Unit
  | .grant capability index => do
    let _ ← grantCapabilityPublish (capability, index)
    pure ()
  | .revoke id index => revokeCapabilityPublish id index
  | .share name app id objectType index => do
    let _ ← shareObjectForPublish name app (id, objectType, index)
    pure ()
  | .setShared name shared index => do
    let _ ← setHomeEntrySharedPublish name shared index
    pure ()

namespace Runtime

variable {env : Env} {self : Identity}

section OwnRecord

variable {α : Type} {c : Codec α} {name : String} {old : Option α}

/--
`old` is what this node has published as its record `name`, if it says that there is something.
-/
def OwnRecord (self : Identity) (c : Codec α) (name : String) (old : Option α) (w : Runtime) : Prop :=
  w.identity = self ∧ ∀ a, old = some a → Records c name a w

theorem pushes_ownRecord (hash : CollisionFree) (env : Env) (self : Identity) (c : Codec α)
    (name : String) (old : Option α) : Pushes env (OwnRecord self c name old) (fun _ => True) := by
  apply Pushes.ofDisk
  . intro _ _ hdisk hw
    exact ⟨hdisk.identity.trans hw.1, fun a ha => (hw.2 a ha).congr hdisk⟩
  . intro w object hverify hok hw
    exact ⟨hw.1, fun a ha => (pushes_records hash env c name a).put w object hverify hok (hw.2 a ha)⟩
  . intro _ _ _ _
    trivial

theorem fetches_ownRecord (hash : CollisionFree) (env : Env) (self : Identity) (c : Codec α)
    (name : String) (old : Option α) : Fetches env (OwnRecord self c name old) (fun _ => True) where
  toPushes := pushes_ownRecord hash env self c name old
  answered _ _ _ _ := trivial
  own _ _ _ := trivial

theorem OwnRecord.congr {w w' : Runtime} (h : OwnRecord self c name old w) (hdisk : SameDisk w w') :
    OwnRecord self c name old w' :=
  ⟨hdisk.identity.trans h.1, fun a ha => (h.2 a ha).congr hdisk⟩

theorem ownRecord_spares (hash : CollisionFree) {other : String} (hne : other ≠ name) (w : Runtime)
    (hw : OwnRecord self c name old w) :
    Spares (OwnRecord self c name old) (AppPointerRecord.key w.identity.id other) := by
  intro v bytes hv
  refine ⟨hv.1, ?_⟩
  intro a ha
  obtain ⟨payload, hpublishes, hdecode⟩ := hv.2 a ha
  obtain ⟨record, hcached, hmanifest⟩ := hpublishes.cached
  have hkey : AppPointerRecord.key w.identity.id other ≠ AppPointerRecord.key v.identity.id name := by
    rw [hw.1, hv.1, ne_eq, AppPointerRecord.key_inj hash]
    exact hne
  refine ⟨payload, ⟨⟨record, ?_, hmanifest⟩, stores_congr rfl hpublishes.stores, hpublishes.owner⟩,
    hdecode⟩
  rw [← hcached]
  exact cachedPointer_storeRecord_of_ne hkey bytes v

theorem ownRecord_remembers (hash : CollisionFree) (other : String) (w : Runtime)
    (hw : OwnRecord self c name old w) :
    Remembers (OwnRecord self c name old) w.identity.id other := by
  by_cases hother : other = name
  . intro v bytes hv hnone
    refine ⟨hv.1, ?_⟩
    intro a ha
    obtain ⟨payload, hpublishes, _⟩ := hv.2 a ha
    obtain ⟨record, hcached, _⟩ := hpublishes.cached
    rw [hother, hw.1, ← hv.1, hcached] at hnone
    cases hnone
  . exact (ownRecord_spares hash hother w hw).remembers

theorem keeps_loadCapabilityIndex_ownRecord (hash : CollisionFree) (env : Env) (self : Identity)
    (c : Codec α) (name : String) (old : Option α) :
    Keeps env (OwnRecord self c name old) loadCapabilityIndex := by
  apply Keeps.bind_get
  intro w hw
  exact (fetches_ownRecord hash env self c name old).keeps_resolveOwnerRecord _
    (ownRecord_remembers hash _ w hw)

theorem keeps_loadHomeIndex_ownRecord (hash : CollisionFree) (env : Env) (self : Identity)
    (c : Codec α) (name : String) (old : Option α) :
    Keeps env (OwnRecord self c name old) loadHomeIndex :=
  (pushes_ownRecord hash env self c name old).keeps_loadOwnRecord _
    (ownRecord_remembers hash RECORD_HOME)

/--
Loading changes no published record.
-/
theorem keeps_load (hash : CollisionFree) (request : IndexRequest) (env : Env) (self : Identity)
    (c : Codec α) (name : String) (old : Option α) :
    Keeps env (OwnRecord self c name old) request.load := by
  have hfetches := fetches_ownRecord hash env self c name old
  have hcapabilities := keeps_loadCapabilityIndex_ownRecord hash env self c name old
  have hhome := keeps_loadHomeIndex_ownRecord hash env self c name old
  cases request with
  | grant subject resource permissions expiresAt =>
    apply Keeps.bind (Q := fun _ => True)
    . apply Keeps.bind hfetches.keeps_now
      intro time _
      apply Keeps.bind_get
      intro w _
      apply Keeps.bind hfetches.keeps_now
      intro stamp _
      apply Keeps.bind (hfetches.keeps_putVerified fun _ => trivial)
      intro _ _
      apply Keeps.bind hcapabilities
      intro index _
      exact Keeps.pure trivial
    . intro _ _
      exact Keeps.pure trivial
  | revoke id =>
    apply Keeps.bind (Q := fun _ => True)
    . apply Keeps.bind hcapabilities
      intro index _
      exact (keeps_ofOption _ _).weaken fun _ _ => trivial
    . intro _ _
      exact Keeps.pure trivial
  | share name id app recipients =>
    apply Keeps.bind (Q := fun _ => True)
    . apply Keeps.bind (keeps_getVerified id)
      intro object _
      apply Keeps.bind (hfetches.keeps_copyFor object recipients)
      intro copied _
      apply Keeps.bind hhome
      intro index _
      exact Keeps.pure trivial
    . intro _ _
      exact Keeps.pure trivial
  | setShared name shared =>
    apply Keeps.bind (Q := fun _ => True)
    . apply Keeps.bind hhome
      intro index _
      exact (keeps_ofOption _ _).weaken fun _ _ => trivial
    . intro _ _
      exact Keeps.pure trivial

theorem publishEntryPointer_ownRecord (hash : CollisionFree) {entry : String}
    (hne : "entry:" ++ entry ≠ name) (id : ObjectId) {E : Runtime → Prop} :
    Triple env (OwnRecord self c name old) (publishEntryPointer entry id)
      (fun _ => OwnRecord self c name old) E := by
  have hpoints := (pushes_ownRecord hash env self c name old).points
  apply Triple.bind (hpoints.keeps_publishPointer (ownRecord_spares hash hne) id).attempted
  intro _
  exact Triple.pure fun v hv => hv

theorem keeps_saveCapabilityIndex_ownRecord (hash : CollisionFree)
    (hne : RECORD_CAPABILITIES ≠ name) (index : CapabilityIndex) :
    Keeps env (OwnRecord self c name old) (saveCapabilityIndex index) := by
  have hpoints := (pushes_ownRecord hash env self c name old).points
  apply Keeps.bind hpoints.keeps_now
  intro time _
  apply Keeps.bind_get
  intro w _
  exact hpoints.keeps_publishObject (ownRecord_spares hash hne) trivial

theorem keeps_saveHomeIndex_ownRecord (hash : CollisionFree) (hne : RECORD_HOME ≠ name)
    (index : HomeIndex) : Keeps env (OwnRecord self c name old) (saveHomeIndex index) := by
  apply (pushes_ownRecord hash env self c name old).keeps_saveHomeIndex (ownRecord_spares hash hne)
  . intro _ _ hw
    exact hw.congr ⟨rfl, rfl, rfl⟩
  . intro _ _ hw
    exact hw.congr ⟨rfl, rfl, rfl⟩
  . intro _ _ _
    trivial
  . intro target
    exact (pushes_ownRecord hash env self c name old).points.admits RECORD_HOME target

theorem keeps_grantCapabilityPublish_ownRecord (hash : CollisionFree)
    (hne : RECORD_CAPABILITIES ≠ name) (loaded : Capability × CapabilityIndex) :
    Keeps env (OwnRecord self c name old) (grantCapabilityPublish loaded) := by
  apply Keeps.bind (keeps_saveCapabilityIndex_ownRecord hash hne _)
  intro _ _
  exact Keeps.pure trivial

theorem keeps_revokeCapabilityPublish_ownRecord (hash : CollisionFree)
    (hne : RECORD_CAPABILITIES ≠ name) (id : CapabilityId) (index : CapabilityIndex) :
    Keeps env (OwnRecord self c name old) (revokeCapabilityPublish id index) := by
  apply Keeps.bind (keeps_ofOption _ _)
  intro entries _
  apply Keeps.bind (keeps_saveCapabilityIndex_ownRecord hash hne _)
  intro _ _
  exact Keeps.pure trivial

theorem keeps_shareObjectForPublish_ownRecord (hash : CollisionFree) (hne : RECORD_HOME ≠ name)
    {entry : String} (hentry : "entry:" ++ entry ≠ name) (app : Option String)
    (loaded : ObjectId × ObjectType × HomeIndex) :
    Keeps env (OwnRecord self c name old) (shareObjectForPublish entry app loaded) := by
  apply Keeps.bind (keeps_saveHomeIndex_ownRecord hash hne _)
  intro _ _
  apply Triple.bind (publishEntryPointer_ownRecord hash hentry _)
  intro _
  exact Triple.pure fun v hv => ⟨hv, trivial⟩

theorem keeps_setHomeEntrySharedPublish_ownRecord (hash : CollisionFree)
    (hne : RECORD_HOME ≠ name) {entry : String} (hentry : "entry:" ++ entry ≠ name) (shared : Bool)
    (index : HomeIndex) :
    Keeps env (OwnRecord self c name old) (setHomeEntrySharedPublish entry shared index) := by
  apply Keeps.bind (keeps_ofOption _ _)
  intro found _
  apply Keeps.bind (keeps_saveHomeIndex_ownRecord hash hne _)
  intro _ _
  split
  . apply Triple.bind (publishEntryPointer_ownRecord hash hentry _)
    intro _
    exact Triple.pure fun v hv => ⟨hv, trivial⟩
  . exact Keeps.pure trivial

end OwnRecord

theorem saveHomeIndex_ownRecord (laws : SignatureLaws) (hash : CollisionFree)
    (old : Option HomeIndex) (index : HomeIndex) :
    Triple env (OwnRecord self HomeIndex.codec RECORD_HOME old) (saveHomeIndex index)
      (fun _ w => ∃ saved, saved.entries = index.entries ∧
        OwnRecord self HomeIndex.codec RECORD_HOME (some saved) w)
      (OwnRecord self HomeIndex.codec RECORD_HOME old) := by
  have hpushes := pushes_ownRecord hash env self HomeIndex.codec RECORD_HOME old
  rw [saveHomeIndex_eq]
  apply Triple.bind (keeps_loadHomeIndex_ownRecord hash env self _ _ old).triple
  intro previous
  constructor
  intro w hw
  have hspec := (publishHome_reconciled laws hash hpushes previous index w.shared).spec w
    ⟨hw.1, hw, rfl⟩
  generalize exec (publishHome previous index) env w = res at hspec
  rcases res with ⟨_ | id, v⟩
  . exact hspec.2.1
  . obtain ⟨⟨hself, payload, hpublishes, _, hdecode⟩, _⟩ := hspec
    refine ⟨renewed previous index, rfl, hself, ?_⟩
    intro saved hsaved
    cases hsaved
    exact ⟨payload, hpublishes, hdecode⟩

omit [Primitives] in
theorem entry_ne_capabilities (name : String) : "entry:" ++ name ≠ RECORD_CAPABILITIES := by
  intro h
  have hlist := congrArg String.toList h
  simp [RECORD_CAPABILITIES] at hlist

/--
The entries of the index, none if there is no index.
-/
def capabilityEntries (index : Option CapabilityIndex) : List CapabilityEntry :=
  (index.map CapabilityIndex.entries).getD []

def homeEntries (index : Option HomeIndex) : List HomeEntry :=
  (index.map HomeIndex.entries).getD []

/--
The published capability index has what was acknowledged.
-/
def HoldsCapabilities (self : Identity) (a : Acknowledged) (w : Runtime) : Prop :=
  ∃ old, OwnRecord self CapabilityIndex.codec RECORD_CAPABILITIES old w ∧
    a.InCapabilities (capabilityEntries old)

/--
The published home index has what was acknowledged.
-/
def HoldsHome (self : Identity) (a : Acknowledged) (w : Runtime) : Prop :=
  ∃ old, OwnRecord self HomeIndex.codec RECORD_HOME old w ∧ a.InHome (homeEntries old)

/--
Nothing has been published since that changed the entries of the index that the request has read.
-/
def Current : LoadedRequest → Runtime → Prop
  | .grant _ index, w | .revoke _ index, w =>
    ∀ published, Records CapabilityIndex.codec RECORD_CAPABILITIES published w →
      index.entries = published.entries
  | .share _ _ _ _ index, w | .setShared _ _ index, w =>
    ∀ published, Records HomeIndex.codec RECORD_HOME published w →
      index.entries = published.entries

theorem Records.exec_loadHomeIndex {index : HomeIndex} {w : Runtime}
    (h : Records HomeIndex.codec RECORD_HOME index w) (env : Env) :
    exec loadHomeIndex env w = (.ok (some index), w) :=
  h.exec_loadOwnRecord env

theorem Records.unique {α : Type} {c : Codec α} {name : String} {a b : α} {w : Runtime}
    (ha : Records c name a w) (hb : Records c name b w) : a = b := by
  have hload := ha.exec_loadOwnRecord (Env.quiet 0)
  rw [hb.exec_loadOwnRecord] at hload
  cases hload
  rfl

/--
The index that the request is about has been published.
-/
def Established : IndexRequest → Runtime → Prop
  | .grant _ _ _ _, w | .revoke _, w =>
    ∃ index, Records CapabilityIndex.codec RECORD_CAPABILITIES index w
  | .share _ _ _ _, w | .setShared _ _, w => ∃ index, Records HomeIndex.codec RECORD_HOME index w

theorem Records.ownRecord {α : Type} {c : Codec α} {name : String} {a : α} {w : Runtime}
    (h : Records c name a w) : OwnRecord w.identity c name (some a) w := by
  refine ⟨rfl, ?_⟩
  intro b hb
  cases hb
  exact h

/--
A request reads the published index, and is current until the next one is published.
-/
theorem current_of_load (hash : CollisionFree) {request : IndexRequest} {loaded : LoadedRequest}
    {w v : Runtime} (hestablished : Established request w)
    (h : exec request.load env w = (.ok loaded, v)) : Current loaded v := by
  have hlater {α : Type} {c : Codec α} {name : String} {a : α} (ha : Records c name a w) :
      Records c name a v :=
    ((keeps_load hash request env w.identity c name (some a)).triple.ok ha.ownRecord h).2 a rfl
  cases request with
  | grant subject resource permissions expiresAt =>
    obtain ⟨index, hindex⟩ := hestablished
    obtain ⟨read, u, hread, hpure⟩ := exec_bind_eq_iff.mp h
    cases hpure
    intro published hpublished
    rw [((grantCapabilityLoad_triple hash (some index) subject resource permissions expiresAt).ok
      hindex.ownRecord hread).2 index rfl]
    rw [hpublished.unique (hlater hindex)]
  | revoke id =>
    obtain ⟨index, hindex⟩ := hestablished
    obtain ⟨read, u, hread, hpure⟩ := exec_bind_eq_iff.mp h
    cases hpure
    obtain ⟨found, t, hfound, hsome⟩ := exec_bind_eq_iff.mp hread
    rw [hindex.exec_loadCapabilityIndex env] at hfound
    cases hfound
    cases hsome
    intro published hpublished
    rw [hpublished.unique (hlater hindex)]
  | share name id app recipients =>
    obtain ⟨index, hindex⟩ := hestablished
    obtain ⟨read, u, hread, hpure⟩ := exec_bind_eq_iff.mp h
    cases hpure
    obtain ⟨object, t, hobject, hread⟩ := exec_bind_eq_iff.mp hread
    obtain ⟨copied, r, hcopy, hread⟩ := exec_bind_eq_iff.mp hread
    obtain ⟨found, q, hfound, hsome⟩ := exec_bind_eq_iff.mp hread
    -- the copy is stored before the index is read
    have ht := (keeps_getVerified id).triple.ok hindex.ownRecord hobject
    have hr := ((fetches_ownRecord hash env _ _ _ _).keeps_copyFor object recipients).triple.ok ht hcopy
    rw [(hr.2 index rfl).exec_loadHomeIndex env] at hfound
    cases hfound
    cases hsome
    intro published hpublished
    rw [hpublished.unique (hlater hindex)]
    rfl
  | setShared name shared =>
    obtain ⟨index, hindex⟩ := hestablished
    obtain ⟨read, u, hread, hpure⟩ := exec_bind_eq_iff.mp h
    cases hpure
    obtain ⟨found, t, hfound, hsome⟩ := exec_bind_eq_iff.mp hread
    rw [hindex.exec_loadHomeIndex env] at hfound
    cases hfound
    cases hsome
    intro published hpublished
    rw [hpublished.unique (hlater hindex)]

theorem inCapabilities_of_current {a : Acknowledged} {old : Option CapabilityIndex}
    {index : CapabilityIndex} {w : Runtime}
    (hold : OwnRecord self CapabilityIndex.codec RECORD_CAPABILITIES old w)
    (hin : a.InCapabilities (capabilityEntries old))
    (hcurrent : ∀ published, Records CapabilityIndex.codec RECORD_CAPABILITIES published w →
      index.entries = published.entries) : a.InCapabilities index.entries := by
  cases old with
  | none => exact hin.of_nil _
  | some published =>
    rw [hcurrent published (hold.2 published rfl)]
    exact hin

theorem inHome_of_current {a : Acknowledged} {old : Option HomeIndex} {index : HomeIndex}
    {w : Runtime} (hold : OwnRecord self HomeIndex.codec RECORD_HOME old w)
    (hin : a.InHome (homeEntries old))
    (hcurrent : ∀ published, Records HomeIndex.codec RECORD_HOME published w →
      index.entries = published.entries) : a.InHome index.entries := by
  cases old with
  | none => exact hin.of_nil _
  | some published =>
    rw [hcurrent published (hold.2 published rfl)]
    exact hin

/--
A request that publishes over the current index adds what it acknowledges, and one that fails changes
nothing.
-/
theorem publish_holdsCapabilities (laws : SignatureLaws) (hash : CollisionFree) (a : Acknowledged)
    (loaded : LoadedRequest) :
    Triple env (fun w => HoldsCapabilities self a w ∧ Current loaded w) loaded.publish
      (fun _ => HoldsCapabilities self (a.add loaded)) (HoldsCapabilities self a) := by
  constructor
  intro w ⟨⟨old, hold, hin⟩, hcurrent⟩
  have hfailed (v : Runtime)
      (hv : OwnRecord self CapabilityIndex.codec RECORD_CAPABILITIES old v) :
      HoldsCapabilities self a v := ⟨old, hv, hin⟩
  have hne : RECORD_HOME ≠ RECORD_CAPABILITIES := by decide
  apply Triple.spec _ w hold
  cases loaded with
  | grant capability index =>
    have hread := inCapabilities_of_current hold hin hcurrent
    apply Triple.bind (Q := fun _ => HoldsCapabilities self (a.add (.grant capability index)))
    . apply (grantCapabilityPublish_triple laws hash old (capability, index)).conseq
      . intro v hv
        exact hv
      . intro _ v hv
        exact ⟨_, hv.2, hread.grant capability index⟩
      . exact hfailed
    . intro _
      exact Triple.pure fun v hv => hv
  | revoke id index =>
    have hread := inCapabilities_of_current hold hin hcurrent
    apply (revokeCapabilityPublish_triple laws hash old id index).conseq
    . intro v hv
      exact hv
    . intro _ v ⟨hself, entries, hrevoke, hv⟩
      exact ⟨_, ⟨hself, hv⟩, hread.revoke hrevoke index⟩
    . exact hfailed
  | share name app id objectType index =>
    apply Triple.bind (Q := fun _ => HoldsCapabilities self a)
    . exact (keeps_shareObjectForPublish_ownRecord hash hne (entry_ne_capabilities name) app
        _).triple.conseq (fun _ hv => hv) (fun _ => hfailed) hfailed
    . intro _
      exact Triple.pure fun v ⟨current, hv, hin⟩ => ⟨current, hv, hin.granted, hin.revoked⟩
  | setShared name shared index =>
    apply Triple.bind (Q := fun _ => HoldsCapabilities self a)
    . exact (keeps_setHomeEntrySharedPublish_ownRecord hash hne (entry_ne_capabilities name) shared
        index).triple.conseq (fun _ hv => hv) (fun _ => hfailed) hfailed
    . intro _
      exact Triple.pure fun v ⟨current, hv, hin⟩ => ⟨current, hv, hin.granted, hin.revoked⟩

theorem publishEntryPointer_holdsHome (hash : CollisionFree) (a : Acknowledged) (name : String)
    (id : ObjectId) {E : Runtime → Prop} :
    Triple env (HoldsHome self a) (publishEntryPointer name id) (fun _ => HoldsHome self a) E := by
  constructor
  intro w ⟨old, hold, hin⟩
  have htriple : Triple env (OwnRecord self HomeIndex.codec RECORD_HOME old) _ _ E :=
    publishEntryPointer_ownRecord hash (entry_ne_home name) id
  have hspec := htriple.spec w hold
  generalize exec (publishEntryPointer name id) env w = res at hspec
  rcases res with ⟨_ | _, v⟩
  . exact hspec
  . exact ⟨old, hspec, hin⟩

theorem saveHomeIndex_holdsHome (laws : SignatureLaws) (hash : CollisionFree) {a b : Acknowledged}
    {old : Option HomeIndex} (hin : a.InHome (homeEntries old)) {index : HomeIndex}
    (hread : b.InHome index.entries) :
    Triple env (OwnRecord self HomeIndex.codec RECORD_HOME old) (saveHomeIndex index)
      (fun _ => HoldsHome self b) (HoldsHome self a) := by
  apply (saveHomeIndex_ownRecord laws hash old index).conseq
  . intro v hv
    exact hv
  . intro _ v ⟨saved, hentries, hv⟩
    refine ⟨some saved, hv, ?_⟩
    change b.InHome saved.entries
    rw [hentries]
    exact hread
  . intro v hv
    exact ⟨old, hv, hin⟩

theorem publish_holdsHome (laws : SignatureLaws) (hash : CollisionFree) (a : Acknowledged)
    (loaded : LoadedRequest) :
    Triple env (fun w => HoldsHome self a w ∧ Current loaded w) loaded.publish
      (fun _ => HoldsHome self (a.add loaded)) (HoldsHome self a) := by
  constructor
  intro w ⟨⟨old, hold, hin⟩, hcurrent⟩
  have hfailed (v : Runtime) (hv : OwnRecord self HomeIndex.codec RECORD_HOME old v) :
      HoldsHome self a v := ⟨old, hv, hin⟩
  have hne : RECORD_CAPABILITIES ≠ RECORD_HOME := by decide
  apply Triple.spec _ w hold
  cases loaded with
  | grant capability index =>
    apply Triple.bind (Q := fun _ => HoldsHome self a)
    . exact (keeps_grantCapabilityPublish_ownRecord hash hne _).triple.conseq (fun _ hv => hv)
        (fun _ => hfailed) hfailed
    . intro _
      exact Triple.pure fun v ⟨current, hv, hin⟩ => ⟨current, hv, hin.objects, hin.flags⟩
  | revoke id index =>
    apply (keeps_revokeCapabilityPublish_ownRecord hash hne id index).triple.conseq
    . intro v hv
      exact hv
    . intro _ v hv
      exact ⟨old, hv, hin.objects, hin.flags⟩
    . exact hfailed
  | share name app id objectType index =>
    have hread := (inHome_of_current hold hin hcurrent).share name app id objectType index
    have hdone (v : Runtime) (hv : HoldsHome self (a.add (.share name app id objectType index)) v) :
        HoldsHome self (a.add (.share name app id objectType index)) v := hv
    apply Triple.bind (Q := fun _ => HoldsHome self (a.add (.share name app id objectType index)))
    . apply Triple.bind (saveHomeIndex_holdsHome laws hash hin hread)
      intro _
      apply Triple.bind (publishEntryPointer_holdsHome hash _ name id)
      intro _
      exact Triple.pure hdone
    . intro _
      exact Triple.pure hdone
  | setShared name shared index =>
    have hread := inHome_of_current hold hin hcurrent
    apply Triple.bind (Q := fun _ => HoldsHome self (a.add (.setShared name shared index)))
    . apply Triple.bind (triple_ofOption _ _ hfailed)
      intro (entries, object)
      apply Triple.of_and
      intro hset
      apply Triple.bind (saveHomeIndex_holdsHome laws hash hin (hread.setShared hset index))
      intro id
      split
      . apply Triple.bind (publishEntryPointer_holdsHome hash _ name object)
        intro _
        exact Triple.pure fun v hv => hv
      . exact Triple.pure fun v hv => hv
    . intro _
      exact Triple.pure fun v hv => hv

end Runtime

/--
A node, the requests that have read their index and not published it, and what was acknowledged.
-/
structure Tasks where
  node : Runtime
  waiting : List LoadedRequest
  acknowledged : Acknowledged

/--
A request comes in and reads its index, or the `n`th of the waiting ones goes on.
-/
inductive TaskStep where
  | load (request : IndexRequest)
  | publish (n : Nat)

namespace Tasks

def start (node : Runtime) : Tasks where
  node := node
  waiting := []
  acknowledged := .nothing

def step : TaskStep × Env → Tasks → Tasks
  | (.load request, env), t =>
    match exec request.load env t.node with
    | (.ok loaded, w) => { t with node := w, waiting := t.waiting ++ [loaded] }
    | (.error _, w) => { t with node := w }
  | (.publish n, env), t =>
    match t.waiting[n]? with
    | none => t
    | some loaded =>
      match exec loaded.publish env t.node with
      | (.ok _, w) =>
        { node := w, waiting := t.waiting.eraseIdx n, acknowledged := t.acknowledged.add loaded }
      | (.error _, w) => { t with node := w, waiting := t.waiting.eraseIdx n }

/--
The entries of the capability index that the node loads, none if it does not load one.
-/
def loadedCapabilities (env : Env) (w : Runtime) : List CapabilityEntry :=
  capabilityEntries (exec loadCapabilityIndex env w).1.toOption.join

def loadedHome (env : Env) (w : Runtime) : List HomeEntry :=
  homeEntries (exec loadHomeIndex env w).1.toOption.join

/--
The indexes that the node loads have everything that was acknowledged.
-/
structure Retains (t : Tasks) : Prop where
  capabilities : ∀ env, t.acknowledged.InCapabilities (loadedCapabilities env t.node)
  home : ∀ env, t.acknowledged.InHome (loadedHome env t.node)

/--
A request publishes only while the index that it read is current.
-/
def Fresh : TaskStep × Env → Tasks → Prop
  | (.load _, _), _ => True
  | (.publish n, _), t => ∀ loaded, t.waiting[n]? = some loaded → Current loaded t.node

/--
The invariant: the published indexes have everything that was acknowledged.
-/
structure Holds (own : Identity) (t : Tasks) : Prop where
  capabilities : HoldsCapabilities own t.acknowledged t.node
  home : HoldsHome own t.acknowledged t.node

variable {own : Identity}

theorem Holds.start (node : Runtime) : Holds node.identity (start node) where
  capabilities := ⟨none, ⟨rfl, nofun⟩, nofun, nofun⟩
  home := ⟨none, ⟨rfl, nofun⟩, nofun, nofun⟩

theorem Holds.retains {t : Tasks} (h : Holds own t) : Retains t where
  capabilities env := by
    obtain ⟨old, hold, hin⟩ := h.capabilities
    cases old with
    | none => exact hin.of_nil _
    | some index =>
      have hload := (hold.2 index rfl).exec_loadCapabilityIndex env
      rw [loadedCapabilities, hload]
      exact hin
  home env := by
    obtain ⟨old, hold, hin⟩ := h.home
    cases old with
    | none => exact hin.of_nil _
    | some index =>
      have hload := (hold.2 index rfl).exec_loadHomeIndex env
      rw [loadedHome, hload]
      exact hin

theorem holds_load (hash : CollisionFree) (request : IndexRequest) (env : Env) {t : Tasks}
    (h : Holds own t) : Holds own (step (.load request, env) t) := by
  obtain ⟨caps, hcaps, hincaps⟩ := h.capabilities
  obtain ⟨home, hhome, hinhome⟩ := h.home
  have hcaps := (keeps_load hash request env own _ _ _).state hcaps
  have hhome := (keeps_load hash request env own _ _ _).state hhome
  simp only [step]
  generalize exec request.load env t.node = res at hcaps hhome
  rcases res with ⟨_ | loaded, w⟩
  . exact ⟨⟨caps, hcaps, hincaps⟩, ⟨home, hhome, hinhome⟩⟩
  . exact ⟨⟨caps, hcaps, hincaps⟩, ⟨home, hhome, hinhome⟩⟩

theorem holds_publish (laws : SignatureLaws) (hash : CollisionFree) {n : Nat} {env : Env} {t : Tasks}
    (hfresh : Fresh (.publish n, env) t) (h : Holds own t) :
    Holds own (step (.publish n, env) t) := by
  simp only [step]
  cases hwaiting : t.waiting[n]? with
  | none => exact h
  | some loaded =>
    have hcurrent := hfresh loaded hwaiting
    have hcaps : Triple env (fun w => HoldsCapabilities own t.acknowledged w ∧ Current loaded w)
        loaded.publish _ _ := publish_holdsCapabilities laws hash t.acknowledged loaded
    have hhome : Triple env (fun w => HoldsHome own t.acknowledged w ∧ Current loaded w)
        loaded.publish _ _ := publish_holdsHome laws hash t.acknowledged loaded
    have hspec := (hcaps.and hhome).spec t.node
      ⟨⟨h.capabilities, hcurrent⟩, ⟨h.home, hcurrent⟩⟩
    dsimp only
    generalize exec loaded.publish env t.node = res at hspec
    rcases res with ⟨_ | _, w⟩
    . exact ⟨hspec.1, hspec.2⟩
    . exact ⟨hspec.1, hspec.2⟩

theorem holds_step (laws : SignatureLaws) (hash : CollisionFree) {l : TaskStep × Env} {t : Tasks}
    (hfresh : Fresh l t) (h : Holds own t) : Holds own (step l t) := by
  obtain ⟨op, env⟩ := l
  cases op with
  | load request => exact holds_load hash request env h
  | publish n => exact holds_publish laws hash hfresh h

theorem fresh_of_serial (hash : CollisionFree) {request : IndexRequest} {w : Runtime}
    (hestablished : Established request w) (env env' : Env) :
    Run.Along step Fresh (start w) [(.load request, env), (.publish 0, env')] := by
  refine ⟨trivial, ?_, trivial⟩
  simp only [step, start]
  cases hload : exec request.load env w with
  | mk r v =>
    intro loaded hwaiting
    cases r with
    | error e => cases hwaiting
    | ok found =>
      cases hwaiting
      exact current_of_load hash hestablished hload

/--
In every interleaving in which each request publishes while the index that it read is current, no
acknowledged update is ever lost.
-/
theorem run_retains (laws : SignatureLaws) (hash : CollisionFree) (node : Runtime)
    (ls : List (TaskStep × Env)) (h : Run.Along step Fresh (start node) ls) :
    Run.Always step Retains (start node) ls := by
  have hholds : Run.Always step (Holds node.identity) (start node) ls := by
    apply h.always (Holds.start node)
    intro l t hfresh ht
    exact holds_step laws hash hfresh ht
  exact hholds.mono fun _ ht => ht.retains

end Tasks

end Canopee

namespace Canopee.Tasks

open Canopee.Runtime
open Prog (exec)

section Witness

open Canopee.Transparent

/--
Alice's node has an index with a revoked entry, and another capability is granted.
-/
theorem run_retains_gate :
    Run.Always step Retains (start (nodeWith alice laptop 0 (revokedIndex (aliceGrant "door"))))
      [(.load (.grant bob.id (.channel "gate") [.read] none), Env.quiet 0),
        (.publish 0, Env.quiet 0)] := by
  have hestablished : Established (.grant bob.id (.channel "gate") [.read] none)
      (nodeWith alice laptop 0 (revokedIndex (aliceGrant "door"))) :=
    ⟨_, records_nodeWith signatureLaws alice laptop 0 (revokedIndex (aliceGrant "door"))⟩
  have hfresh : Run.Along step Fresh
      (start (nodeWith alice laptop 0 (revokedIndex (aliceGrant "door"))))
      [(.load (.grant bob.id (.channel "gate") [.read] none), Env.quiet 0),
        (.publish 0, Env.quiet 0)] :=
    fresh_of_serial collisionFree hestablished (Env.quiet 0) (Env.quiet 0)
  exact run_retains signatureLaws collisionFree _ _ hfresh

end Witness

section Counterexample

open Canopee.Compact

def doorGrant : Capability :=
  .issue alice 0 bob.id (.channel "door") [.read] none

/--
The door is granted. Then it is revoked while the gate is granted: both requests read the index before
either publishes it.
-/
def revokedMeanwhile : List (TaskStep × Env) :=
  [(.load (.grant bob.id (.channel "door") [.read] none), Env.quiet 0), (.publish 0, Env.quiet 0),
    (.load (.grant bob.id (.channel "gate") [.read] none), Env.quiet 0),
    (.load (.revoke doorGrant.id), Env.quiet 0),
    (.publish 1, Env.quiet 0), (.publish 0, Env.quiet 0)]

def afterBoth : Tasks :=
  Run.run step (start (fresh alice laptop)) revokedMeanwhile

theorem afterBoth_evaluated :
    afterBoth.acknowledged.revoked = [doorGrant.id] ∧
      ((loadedCapabilities (Env.quiet 0) afterBoth.node).find?
        (·.capability.id == doorGrant.id)).map (·.revoked) = some false ∧
      (exec (checkCapability doorGrant) (Env.quiet 0) afterBoth.node).1 =
        .ok (true, "grant verified") := by
  decide +kernel

/--
The revocation of the door was acknowledged, but the grant of the gate has published the index that it
had read before: the door is not revoked, and a check of its capability succeeds.
-/
theorem revocation_lost :
    doorGrant.id ∈ afterBoth.acknowledged.revoked ∧
      (exec (checkCapability doorGrant) (Env.quiet 0) afterBoth.node).1 =
        .ok (true, "grant verified") ∧
      ¬ Run.Always step Retains (start (fresh alice laptop)) revokedMeanwhile := by
  obtain ⟨hrevoked, hfind, hcheck⟩ := afterBoth_evaluated
  have hmem : doorGrant.id ∈ afterBoth.acknowledged.revoked := by
    rw [hrevoked]
    exact List.mem_cons_self
  refine ⟨hmem, hcheck, ?_⟩
  intro halways
  have hretains : Retains afterBoth := halways.last
  have hcapabilities := hretains.capabilities (Env.quiet 0)
  obtain ⟨entry, hentry, hflag⟩ := hcapabilities.revoked doorGrant.id hmem
  rw [hentry, Option.map_some, hflag, Option.some.injEq] at hfind
  exact Bool.noConfusion hfind

end Counterexample

end Canopee.Tasks
