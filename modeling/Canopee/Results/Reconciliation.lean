import Canopee.Results.Removal

/-!
This module contains two reconciliations of the device list in a row, on a network that does not
change: what the first one leaves, and what the second one still publishes.
-/

namespace Canopee

open Primitives
open Canopee.Runtime
open Prog (Yields exec exec_bind_ok exec_bind_eq_ok)

variable [Primitives]

/--
Nothing about the network changes, and no peer pushes an object.
-/
structure Unchanging (env : Env) : Prop where
  peers : ∀ t, env.peers t = env.peers 0
  exchange : ∀ t, env.exchange t = env.exchange 0
  providers : ∀ t, env.providers t = env.providers 0
  record : ∀ t, env.record t = env.record 0
  inbound : ∀ t, ∀ request ∈ env.inbound t, ∃ id, request = .getObject id

/--
Peers serve valid objects, under the ids they are asked for.
-/
def HonestPeers (env : Env) : Prop :=
  ∀ t peer id bundle, env.exchange t peer (.getObject id) = .ok (.object bundle) →
    bundle.object.id = id ∧ bundle.object.verify = true

namespace Runtime

/--
The node has published and stored nothing: its requests to peers aside.
-/
structure Quiet (w w' : Runtime) : Prop where
  identity : w'.identity = w.identity
  deviceKey : w'.deviceKey = w.deviceKey
  storage : w'.storage = w.storage
  records : w'.records = w.records
  shared : w'.shared = w.shared
  trace : ∃ events, w'.trace = w.trace ++ events ∧
    ∀ event ∈ events, ∃ peer id answer, event = .asked peer id answer

theorem Quiet.refl (w : Runtime) : Quiet w w :=
  ⟨rfl, rfl, rfl, rfl, rfl, [], by simp, by simp⟩

theorem Quiet.trans {a b c : Runtime} (hab : Quiet a b) (hbc : Quiet b c) : Quiet a c := by
  obtain ⟨events, htrace, hevents⟩ := hab.trace
  obtain ⟨later, hlater, hasked⟩ := hbc.trace
  refine ⟨hbc.identity.trans hab.identity, hbc.deviceKey.trans hab.deviceKey,
    hbc.storage.trans hab.storage, hbc.records.trans hab.records,
    hbc.shared.trans hab.shared, events ++ later, ?_, ?_⟩
  . rw [hlater, htrace, List.append_assoc]
  . intro event hevent
    cases List.mem_append.mp hevent with
    | inl h => exact hevents event h
    | inr h => exact hasked event h

theorem Quiet.sameDisk {w w' : Runtime} (h : Quiet w w') : SameDisk w w' :=
  ⟨h.identity, congrArg Storage.files h.storage, h.records⟩

instance : Trans Quiet Quiet Quiet := ⟨Quiet.trans⟩

section Network

variable {env : Env} {w : Runtime}

theorem yields_ofExcept {α : Type} (r : Except String α) (w : Runtime) :
    Yields env Quiet (ofExcept r) w r := by
  cases r with
  | ok a => exact Yields.pure (.refl w)
  | error e => exact Yields.throw (.refl w)

theorem yields_nextTick (env : Env) (w : Runtime) : Yields env Quiet nextTick w (.ok w.tick) :=
  ⟨_, rfl, rfl, rfl, rfl, rfl, rfl, [], by simp, by simp⟩

theorem yields_now (env : Env) (w : Runtime) :
    Yields env Quiet now w (.ok (env.clock w.tick)) := by
  apply Yields.bind (yields_nextTick env w)
  intro w' _
  apply Yields.bind_read
  exact Yields.pure (.refl w')

theorem yields_touchServed (env : Env) (id : ObjectId) (w : Runtime) :
    Yields env Quiet (touchServed id) w (.ok ()) := by
  apply Yields.bind (yields_now env w)
  intro a _
  apply Yields.modify
  split
  . exact ⟨rfl, rfl, rfl, rfl, rfl, [], by simp, by simp⟩
  . exact .refl a

theorem yields_provide (env : Env) (id : ObjectId) (w : Runtime) :
    ∃ served, Yields env Quiet (provide id) w (.ok served) := by
  have hget : Yields env Quiet (getVerified id) w (w.storage.getVerified id) := by
    apply Yields.bind_get
    exact yields_ofExcept _ w
  apply Yields.exists_bind ⟨_, hget.attempt⟩
  intro r a _
  split
  . exact ⟨_, Yields.pure (.refl a)⟩
  . have hcached : Yields env Quiet (isCached id) a (.ok (a.cache.lookup id.text).isSome) := by
      apply Yields.bind_get
      exact Yields.pure (.refl a)
    apply Yields.exists_bind ⟨_, hcached⟩
    intro cached b _
    split
    . apply Yields.exists_bind ⟨_, yields_touchServed env id b⟩
      intro _ c _
      exact ⟨_, Yields.pure (.refl c)⟩
    . apply Yields.exists_bind ⟨b, Yields.bind_get (Yields.pure (.refl b))⟩
      intro c d _
      split
      . exact ⟨_, Yields.pure (.refl d)⟩
      . exact ⟨_, Yields.pure (.refl d)⟩

theorem yields_handleAll (env : Env) {requests : List ObjectRequest}
    (h : ∀ request ∈ requests, ∃ id, request = .getObject id) (w : Runtime) :
    Yields env Quiet (handleAll requests) w (.ok ()) := by
  induction requests generalizing w with
  | nil => exact Yields.pure (.refl w)
  | cons request requests ih =>
    obtain ⟨id, rfl⟩ := h request List.mem_cons_self
    obtain ⟨response, hresponse⟩ :
        ∃ response, Yields env Quiet (handleObjectRequest (.getObject id)) w (.ok response) := by
      apply Yields.exists_bind (yields_provide env id w)
      intro served a _
      split
      . exact ⟨_, Yields.pure (.refl a)⟩
      . exact ⟨_, Yields.pure (.refl a)⟩
    apply Yields.bind hresponse
    intro a _
    exact ih (fun request hrequest => h request (List.mem_cons_of_mem _ hrequest)) a

theorem yields_settle (h : Unchanging env) (w : Runtime) :
    Yields env Quiet settle w (.ok w.tick) := by
  apply Yields.bind (yields_nextTick env w)
  intro a _
  apply Yields.bind_read
  apply Yields.bind (yields_handleAll env (h.inbound _) a)
  intro b _
  exact Yields.pure (.refl b)

theorem yields_connectedPeers (h : Unchanging env) (w : Runtime) :
    Yields env Quiet connectedPeers w (env.peers 0) := by
  apply Yields.bind (yields_settle h w)
  intro a _
  apply Yields.bind_read
  rw [h.peers]
  exact yields_ofExcept _ a

theorem yields_findProviders (h : Unchanging env) (id : ObjectId) (w : Runtime) :
    Yields env Quiet (findProviders id) w (env.providers 0 id) := by
  apply Yields.bind (yields_settle h w)
  intro a _
  apply Yields.bind_read
  rw [h.providers]
  exact yields_ofExcept _ a

theorem yields_getRecord (h : Unchanging env) (key : Bytes) (w : Runtime) :
    Yields env Quiet (getRecord key) w (env.record 0 key) := by
  apply Yields.bind (yields_settle h w)
  intro a _
  apply Yields.bind_read
  rw [h.record]
  exact yields_ofExcept _ a

theorem yields_getObject (h : Unchanging env) (peer : PeerId) (id : ObjectId) (w : Runtime) :
    Yields env Quiet (getObject peer id) w
      (objectOutcome (env.exchange 0 peer (.getObject id))) := by
  apply Yields.bind (yields_settle h w)
  intro a _
  apply Yields.bind_read
  dsimp only
  rw [h.exchange]
  apply Yields.bind
  . apply Yields.modify
    exact ⟨rfl, rfl, rfl, rfl, rfl, [_], rfl, by simp⟩
  . intro b _
    exact yields_ofExcept _ b

/--
The pointer that the DHT has, if it is the owner's.
-/
def dhtRecord (env : Env) (owner : IdentityId) (name : String) : Option AppPointerRecord :=
  (env.record 0 (AppPointerRecord.key owner name)).toOption.join.bind (acceptRecord owner name)

theorem yields_dhtPointer (h : Unchanging env) (owner : IdentityId) (name : String) (w : Runtime) :
    Yields env Quiet (dhtPointer owner name) w (.ok (dhtRecord env owner name)) := by
  unfold dhtRecord
  apply Yields.bind (yields_getRecord h _ w).attempt
  intro a _
  cases env.record 0 (AppPointerRecord.key owner name) with
  | error e => exact Yields.pure (.refl a)
  | ok bytes => exact Yields.pure (.refl a)

theorem yields_latestPointerRecord (env : Env) (owner : IdentityId) (name : String) (w : Runtime) :
    Yields env Quiet (latestPointerRecord owner name) w (.ok (scannedPointer env w owner name)) :=
  ⟨_, exec_latestPointerRecord env w owner name, rfl, rfl, rfl, rfl, rfl, [], by simp, by simp⟩

end Network

section Requests

variable {env : Env} {w : Runtime}

/--
The manifests that a node with a cached pointer knows of.
-/
def manifestsAt (env : Env) (w : Runtime) : List ObjectId :=
  ((cachedPointer w w.identity.id RECORD_DEVICES).toList ++
    (scannedPointer env w w.identity.id RECORD_DEVICES).toList ++
    (dhtRecord env w.identity.id RECORD_DEVICES).toList).map (·.manifest)

def providersAt (env : Env) (manifests : List ObjectId) : List PeerId :=
  manifests.flatMap fun manifest => (env.providers 0 manifest).toOption.getD []

def requestsAt (env : Env) (w : Runtime) : List (ObjectId × PeerId) :=
  let manifests := sortManifests (manifestsAt env w)
  let peers := sortPeers w.deviceKey.peerId
    ((env.peers 0).toOption.getD [] ++ providersAt env manifests)
  manifests.flatMap fun manifest => peers.map fun peer => (manifest, peer)

/--
The bundles that peers serve for `requests`, each with the id that is asked for.
-/
def servedFor (env : Env) (requests : List (ObjectId × PeerId)) : List (ObjectId × ExportBundle) :=
  requests.filterMap fun request =>
    (objectOutcome (env.exchange 0 request.2 (.getObject request.1))).toOption.map (request.1, ·)

theorem yields_providersOf (h : Unchanging env) (manifests : List ObjectId) (w : Runtime) :
    Yields env Quiet (providersOf manifests) w (.ok (providersAt env manifests)) := by
  induction manifests generalizing w with
  | nil => exact Yields.pure (.refl w)
  | cons manifest manifests ih =>
    apply Yields.bind (yields_findProviders h manifest w).attempt
    intro a _
    apply Yields.bind (ih a)
    intro b _
    have hcons : providersAt env (manifest :: manifests) =
        (env.providers 0 manifest).toOption.getD [] ++ providersAt env manifests :=
      List.flatMap_cons
    rw [hcons]
    cases env.providers 0 manifest with
    | error e => exact Yields.pure (.refl b)
    | ok providers => exact Yields.pure (.refl b)

theorem yields_listRequests (h : Unchanging env) {record : AppPointerRecord}
    (hcached : cachedPointer w w.identity.id RECORD_DEVICES = some record) :
    Yields env Quiet (listRequests w.identity.id) w (.ok (requestsAt env w)) := by
  have hresolved : exec (Prog.attempt (resolvePointer w.identity.id RECORD_DEVICES)) env w =
      (.ok (.ok (some record)), w) := by
    rw [Prog.exec_attempt, resolvePointer_of_cached hcached]
  have hknown : Yields env Quiet (knownManifests w.identity.id) w (.ok (manifestsAt env w)) := by
    apply Yields.bind_still hresolved
    apply Yields.bind (yields_latestPointerRecord env _ _ w)
    intro a _
    apply Yields.bind (yields_dhtPointer h _ _ a)
    intro b _
    rw [manifestsAt, hcached]
    exact Yields.pure (.refl b)
  apply Yields.bind hknown
  intro a ha
  dsimp only
  apply Yields.bind (yields_connectedPeers h a).attempt
  intro b hb
  apply Yields.bind (yields_providersOf h _ b)
  intro c hc
  apply Yields.bind_get
  rw [hc.deviceKey, hb.deviceKey, ha.deviceKey]
  exact Yields.pure (.refl c)

theorem received_eq (h : Unchanging env) (requests : List (ObjectId × PeerId)) (w : Runtime) :
    received env requests w = servedFor env requests := by
  induction requests generalizing w with
  | nil => rfl
  | cons request requests ih =>
    obtain ⟨manifest, peer⟩ := request
    obtain ⟨a, hget, _⟩ := yields_getObject h peer manifest w
    rw [received, hget, servedFor, List.filterMap_cons]
    cases objectOutcome (env.exchange 0 peer (.getObject manifest)) with
    | error e => exact ih a
    | ok bundle =>
      simp only [Except.toOption, Option.map_some]
      rw [ih a]
      rfl

theorem yields_askForLists (h : Unchanging env) (owner : IdentityId)
    (requests : List (ObjectId × PeerId)) (best : Option DeviceList) (w : Runtime) :
    ∃ r, Yields env Quiet (askForLists owner requests best) w (.ok r) := by
  induction requests generalizing best w with
  | nil => exact ⟨best, Yields.pure (.refl w)⟩
  | cons request requests ih =>
    obtain ⟨manifest, peer⟩ := request
    apply Yields.exists_bind ⟨_, (yields_getObject h peer manifest w).attempt⟩
    intro answer a _
    exact ih _ a

variable {self : Identity} {list : DeviceList}

theorem exists_cached (hw : Registered self list w) : ∃ record,
    cachedPointer w w.identity.id RECORD_DEVICES = some record ∧
      listAt w record.manifest = some list :=
  Option.bind_eq_some_iff.mp (localDevices_eq_some.mpr hw.2)

theorem listAnswers_eq (h : Unchanging env) (hw : Registered self list w) :
    listAnswers env w = servedFor env (requestsAt env w) := by
  obtain ⟨record, hcached, _⟩ := exists_cached hw
  obtain ⟨a, hrequests, _⟩ := yields_listRequests h hcached
  rw [listAnswers, exec_loadDeviceList hw env, hrequests]
  exact received_eq h _ a

theorem yields_fetchFreshestDeviceList (h : Unchanging env) (hw : Registered self list w) :
    ∃ best, Yields env Quiet fetchFreshestDeviceList w (.ok best) ∧
      ∀ remote, best = some remote ↔ ∃ answer, Freshest env w answer remote := by
  obtain ⟨record, hcached, _⟩ := exists_cached hw
  have hfetch : ∃ best, Yields env Quiet fetchFreshestDeviceList w (.ok best) := by
    obtain ⟨a, hrequests, ha⟩ := yields_listRequests h hcached
    obtain ⟨best, b, hask, hb⟩ := yields_askForLists h w.identity.id (requestsAt env w) none a
    refine ⟨best, b, ?_, ha.trans hb⟩
    unfold fetchFreshestDeviceList
    rw [exec_bind_ok (Prog.exec_get env w), exec_bind_ok hrequests]
    exact hask
  obtain ⟨best, hbest⟩ := hfetch
  refine ⟨best, hbest, ?_⟩
  intro remote
  obtain ⟨a, hexec, _⟩ := hbest
  rw [← fetchFreshestDeviceList_eq_some_iff, exec_loadDeviceList hw env, hexec]
  exact Iff.rfl

end Requests

section Merge

variable {list : DeviceList}

theorem mergeEntries_of_known {devices remote : List DeviceEntry}
    (h : ∀ entry ∈ remote, devices.any (·.deviceId == entry.deviceId) = true) :
    mergeEntries devices remote = devices := by
  induction remote with
  | nil => rfl
  | cons entry remote ih =>
    rw [mergeEntries, if_pos (h entry List.mem_cons_self)]
    exact ih fun other hother => h other (List.mem_cons_of_mem _ hother)

theorem sameIds_iff {a b : DeviceList} : sameIds a b = true ↔ a.ids.Perm b.ids := by
  unfold sameIds sortedIds
  rw [beq_iff_eq]
  have ha := List.perm_insertionSort (· ≤ ·) a.ids
  have hb := List.perm_insertionSort (· ≤ ·) b.ids
  constructor
  . intro h
    have h : a.ids.insertionSort (· ≤ ·) = b.ids.insertionSort (· ≤ ·) := h
    rw [h] at ha
    exact ha.symm.trans hb
  . intro h
    exact (ha.trans (h.trans hb.symm)).eq_of_pairwise' (List.pairwise_insertionSort _ _)
      (List.pairwise_insertionSort _ _)

theorem hasDevice_iff {deviceId : String} : list.hasDevice deviceId = true ↔ deviceId ∈ list.ids := by
  rw [mem_ids, DeviceList.hasDevice, List.any_eq_true]
  simp

theorem mem_ids_withSelf (merged : DeviceList) (device : DeviceKey) (time : OffsetDateTime) :
    device.peerId.base58 ∈ (withSelf merged device time).ids := by
  unfold withSelf
  split
  . next hknown => exact hasDevice_iff.mp hknown
  . simp [DeviceList.ids]

theorem sameIds_mergeLists_iff {remote : Option DeviceList} :
    sameIds (mergeLists list remote) list = true ↔
      ∀ r, remote = some r → r.ids ⊆ list.ids := by
  rw [sameIds_iff]
  cases remote with
  | none =>
    constructor
    . intro _ r hr
      cases hr
    . intro _
      exact List.Perm.refl _
  | some remote =>
    constructor
    . intro hperm r hr id hid
      cases hr
      exact hperm.subset (mem_ids_mergeLists.mpr (.inr ⟨remote, rfl, hid⟩))
    . intro h
      have hknown : ∀ entry ∈ remote.devices,
          list.devices.any (·.deviceId == entry.deviceId) = true := by
        intro entry hentry
        exact hasDevice_iff.mpr (h remote rfl (List.mem_map_of_mem hentry))
      rw [DeviceList.ids, mergeLists, mergeEntries_of_known hknown]
      exact List.Perm.refl _

end Merge

section Second

variable {env : Env} {self : Identity} {list : DeviceList} {w : Runtime}

/--
A reconciliation from here succeeds and publishes nothing.
-/
def Settles (env : Env) (w : Runtime) : Prop :=
  Yields env Quiet reconcileDeviceList w (.ok none)

theorem Registered.quiet {w' : Runtime} (hw : Registered self list w) (h : Quiet w w') :
    Registered self list w' :=
  ⟨h.identity.trans hw.1, hw.2.congr h.sameDisk⟩

theorem exec_reconcileDeviceList (h : Unchanging env) (hw : Registered self list w) :
    ∃ best time a, (∀ remote, best = some remote ↔ ∃ answer, Freshest env w answer remote) ∧
      Quiet w a ∧ exec reconcileDeviceList env w =
        exec (if sameIds (withSelf (mergeLists list best) w.deviceKey time) list then
          pure none
        else do
          let _ ← saveDeviceList (withSelf (mergeLists list best) w.deviceKey time)
          pure (some (withSelf (mergeLists list best) w.deviceKey time)) : RunM _) env a := by
  obtain ⟨best, ⟨a, hfetch, ha⟩, hbest⟩ := yields_fetchFreshestDeviceList h hw
  have hattempt : exec (Prog.attempt fetchFreshestDeviceList) env w = (.ok (.ok best), a) := by
    rw [Prog.exec_attempt, hfetch]
  have hmerged : exec loadDeviceListMerged env w = (.ok (mergeLists list best), a) := by
    unfold loadDeviceListMerged
    rw [exec_bind_ok (Prog.exec_get env w), exec_bind_ok (exec_loadDeviceList hw env),
      exec_bind_ok hattempt]
    rfl
  have hload := exec_loadDeviceList (hw.quiet ha) env
  rw [ha.identity] at hload
  obtain ⟨b, hnow, hb⟩ := yields_now env a
  refine ⟨best, dateTimeAt (env.clock a.tick), b, hbest, ha.trans hb, ?_⟩
  unfold reconcileDeviceList
  rw [exec_bind_ok (Prog.exec_get env w), exec_bind_ok hmerged, exec_bind_ok hload,
    exec_bind_ok hnow]
  rfl

theorem withSelf_of_mem {merged : DeviceList} {device : DeviceKey} (time : OffsetDateTime)
    (h : device.peerId.base58 ∈ merged.ids) : withSelf merged device time = merged := by
  rw [withSelf, if_pos (hasDevice_iff.mpr h)]

/--
A node on its own list publishes nothing exactly when the freshest list that is served names no
other device.
-/
theorem settles_iff (h : Unchanging env) (hw : Registered self list w)
    (hself : w.deviceKey.peerId.base58 ∈ list.ids) :
    Settles env w ↔ ∀ answer remote, Freshest env w answer remote → remote.ids ⊆ list.ids := by
  obtain ⟨best, time, a, hbest, ha, hexec⟩ := exec_reconcileDeviceList h hw
  rw [withSelf_of_mem time (ids_mergeLists list best hself)] at hexec
  have hsame : sameIds (mergeLists list best) list = true ↔
      ∀ answer remote, Freshest env w answer remote → remote.ids ⊆ list.ids := by
    rw [sameIds_mergeLists_iff]
    constructor
    . intro hknown answer remote hanswer
      exact hknown remote ((hbest remote).mpr ⟨answer, hanswer⟩)
    . intro hknown remote hremote
      obtain ⟨answer, hanswer⟩ := (hbest remote).mp hremote
      exact hknown answer remote hanswer
  rw [← hsame, Settles, Yields, hexec]
  split
  . next hids => exact iff_of_true ⟨a, rfl, ha⟩ hids
  . next hids =>
    refine iff_of_false ?_ hids
    intro ⟨t, hsaved, _⟩
    obtain ⟨_, _, hreturned⟩ := exec_bind_eq_ok (congrArg Prod.fst hsaved)
    cases hreturned

omit [Primitives] in
theorem mem_dedupAdjacent {α : Type} [DecidableEq α] {a : α} {l : List α}
    (h : a ∈ dedupAdjacent l) : a ∈ l := by
  induction l using dedupAdjacent.induct with
  | case1 => exact h
  | case2 b => exact h
  | case3 b rest ih =>
    rw [dedupAdjacent, if_pos rfl] at h
    exact List.mem_cons_of_mem _ (ih h)
  | case4 b c rest hne ih =>
    rw [dedupAdjacent, if_neg hne] at h
    cases List.mem_cons.mp h with
    | inl hfirst => exact List.mem_cons.mpr (.inl hfirst)
    | inr hrest => exact List.mem_cons_of_mem _ (ih hrest)

/--
A pointer to a device list that the node knows of apart from the one in its record cache.
-/
def KnownElsewhere (env : Env) (w : Runtime) (record : AppPointerRecord) : Prop :=
  scannedPointer env w w.identity.id RECORD_DEVICES = some record ∨
    dhtRecord env w.identity.id RECORD_DEVICES = some record

theorem source_of_freshest (hash : CollisionFree) (h : Unchanging env) (hhonest : HonestPeers env)
    (hw : Registered self list w) {answer : ObjectId × ExportBundle} {remote : DeviceList}
    (hanswer : Freshest env w answer remote) :
    remote = list ∨ ∃ record, KnownElsewhere env w record ∧ answer.1 = record.manifest := by
  have hmem := hanswer.mem
  have hvalue := hanswer.value_eq
  rw [listAnswers_eq h hw] at hmem
  obtain ⟨request, hrequest, hbundle⟩ := List.mem_filterMap.mp hmem
  obtain ⟨bundle, houtcome, rfl⟩ := Option.map_eq_some_iff.mp hbundle
  obtain ⟨manifest, hmanifest, hpeer⟩ := List.mem_flatMap.mp hrequest
  obtain ⟨peer, _, rfl⟩ := List.mem_map.mp hpeer
  have hknown := mem_dedupAdjacent hmanifest
  rw [List.mem_insertionSort] at hknown
  obtain ⟨record, hrecord, rfl⟩ := List.mem_map.mp hknown
  simp only [List.mem_append, Option.mem_toList] at hrecord
  rcases hrecord with (hcached | hscanned) | hdht
  . -- a peer serves the list that this node has published itself
    left
    obtain ⟨own, hown, hlist⟩ := exists_cached hw
    rw [hcached, Option.some.injEq] at hown
    subst hown
    obtain ⟨object, hstored, howner, hdecode⟩ := listAt_eq_some.mp hlist
    have hexchange := eq_ok_of_toOption houtcome
    obtain ⟨t, answering, hserved⟩ := Pushes.answers_of_objectOutcome hexchange
    obtain ⟨hid, hverify⟩ := hhonest t answering record.manifest bundle hserved
    have hpayload : bundle.object.payload = object.payload := by
      rw [← Storage.id_of_getVerified hstored, Object.id_of_verify hverify,
        Object.id_of_verify (Storage.verify_of_getVerified hstored),
        ObjectId.fromPayload_inj hash] at hid
      exact hid
    simp only [listIn, hpayload, howner, ne_eq, not_true_eq_false, if_false, Object.decode]
      at hvalue
    rw [Object.decode] at hdecode
    rw [hdecode, Option.some.injEq] at hvalue
    exact hvalue.symm
  . exact .inr ⟨record, .inl hscanned, rfl⟩
  . exact .inr ⟨record, .inr hdht, rfl⟩

theorem freshest_quiet (h : Unchanging env)
    (hlisting : ∀ t names, env.listing t names = env.listing 0 names) {w' : Runtime}
    (hw : Registered self list w) (hquiet : Quiet w w') {answer : ObjectId × ExportBundle}
    {remote : DeviceList} :
    Freshest env w' answer remote ↔ Freshest env w answer remote := by
  have hcached : cachedPointer w' w'.identity.id RECORD_DEVICES =
      cachedPointer w w.identity.id RECORD_DEVICES := by
    rw [hquiet.identity, cachedPointer_congr hquiet.records]
  have hscanned : scannedPointer env w' w'.identity.id RECORD_DEVICES =
      scannedPointer env w w.identity.id RECORD_DEVICES := by
    rw [scannedPointer, scannedPointer, listed, listed, hlisting, hlisting w.tick, hquiet.storage,
      hquiet.identity]
  have hanswers : listAnswers env w' = listAnswers env w := by
    rw [listAnswers_eq h (hw.quiet hquiet), listAnswers_eq h hw, requestsAt, requestsAt,
      manifestsAt, manifestsAt, hcached, hscanned, hquiet.identity, hquiet.deviceKey]
  rw [Freshest, Freshest, hanswers, hquiet.identity]

/--
What a successful reconciliation from `w` leaves in `w'`, and whether the next one publishes
anything. `r` is the list that it has published, if any.
-/
structure Reconciled (env : Env) (w w' : Runtime) (r : Option DeviceList) (list : DeviceList) :
    Prop where
  current : localDevices w' = some list
  self : w.deviceKey.peerId.base58 ∈ list.ids
  previous : (localList env w).devices ⊆ list.devices
  merged : ∀ answer remote, Freshest env w answer remote → remote.ids ⊆ list.ids
  settles : Settles env w' ↔ ∀ answer remote, Freshest env w' answer remote → remote.ids ⊆ list.ids
  source : ∀ answer remote, Freshest env w' answer remote → ¬ remote.ids ⊆ list.ids →
    ∃ record, KnownElsewhere env w' record ∧ answer.1 = record.manifest
  idle : (∀ t names, env.listing t names = env.listing 0 names) → r = none → Settles env w'

theorem Reconciled.of_registered (hash : CollisionFree) (h : Unchanging env) (hhonest : HonestPeers env)
    {w' : Runtime} {r : Option DeviceList} (hw : Registered self list w')
    (hdevice : w'.deviceKey = w.deviceKey) (hself : w.deviceKey.peerId.base58 ∈ list.ids)
    (hprevious : (localList env w).devices ⊆ list.devices)
    (hmerged : ∀ answer remote, Freshest env w answer remote → remote.ids ⊆ list.ids)
    (hidle : (∀ t names, env.listing t names = env.listing 0 names) → r = none → Settles env w') :
    Reconciled env w w' r list where
  current := localDevices_eq_some.mpr hw.2
  self := hself
  previous := hprevious
  merged := hmerged
  settles := by
    rw [← hdevice] at hself
    exact settles_iff h hw hself
  source answer remote hanswer hnew := by
    cases source_of_freshest hash h hhonest hw hanswer with
    | inl hlist =>
      rw [hlist] at hnew
      exact absurd (List.Subset.refl _) hnew
    | inr hsource => exact hsource
  idle := hidle

end Second

end Runtime

end Canopee

namespace Canopee.Runtime

open Prog (exec)

section Witness

open Canopee.Transparent

theorem unchanging_quiet (time : Int) : Unchanging (Env.quiet time) :=
  ⟨fun _ => rfl, fun _ => rfl, fun _ => rfl, fun _ => rfl, fun _ => by simp [Env.quiet]⟩

theorem honest_quiet (time : Int) : HonestPeers (Env.quiet time) := by
  intro t peer id bundle hbundle
  cases hbundle

end Witness

section Counterexample

open Canopee.Compact

/--
The list of the phone, which has not heard of the other devices.
-/
def phoneObject : Object :=
  DeviceList.toObject ⟨[⟨"cc", "phone", none⟩], 3⟩ alice 3

/--
The pointer of the desktop to its list, as it pushes it.
-/
def desktopPush : Object :=
  Object.new alice 3 (AppPointerRecord.codec.serialize
    (.sign alice 3 RECORD_DEVICES DeviceOp.siblingObject.id)) .appPointer

/--
The laptop, after the desktop has pushed its pointer.
-/
def informed : Runtime :=
  NodeOp.step (.objectRequest (.store ⟨1, desktopPush⟩), Env.quiet 3) DeviceOp.registered

def servesObjects (objects : List Object) : ObjectRequest → Except String ObjectResponse
  | .getObject id =>
    match objects.find? fun object => object.id = id with
    | some object => .ok (.object ⟨1, object⟩)
    | none => .ok .notFound
  | .store _ => .ok .stored

theorem honest_of_serves {env : Env} {objects : List Object}
    (h : ∀ t peer, env.exchange t peer = servesObjects objects)
    (hverify : ∀ object ∈ objects, object.verify = true) : HonestPeers env := by
  intro t peer id bundle hbundle
  rw [h, servesObjects] at hbundle
  split at hbundle
  . next object hfind =>
    cases hbundle
    exact ⟨by simpa using List.find?_some hfind, hverify object (List.mem_of_find?_eq_some hfind)⟩
  . cases hbundle

/--
A peer serves the lists of the desktop and of the phone, and the DHT has the phone's pointer.
-/
def diverged : Env :=
  { Env.quiet 4 with
    peers := fun _ => .ok [⟨"bb"⟩]
    exchange := fun _ _ => servesObjects [DeviceOp.siblingObject, phoneObject]
    record := fun _ _ =>
      .ok (some (AppPointerRecord.codec.serialize (.sign alice 3 RECORD_DEVICES phoneObject.id))) }

theorem unchanging_diverged : Unchanging diverged :=
  ⟨fun _ => rfl, fun _ => rfl, fun _ => rfl, fun _ => rfl, fun _ => by simp [diverged, Env.quiet]⟩

theorem verify_served : ∀ object ∈ [DeviceOp.siblingObject, phoneObject], object.verify = true := by
  decide +kernel

theorem honest_diverged : HonestPeers diverged := by
  apply honest_of_serves _ verify_served
  intro _ _
  rfl

/--
The laptop after one reconciliation.
-/
def reconciledOnce : Runtime :=
  (exec reconcileDeviceList diverged informed).2

theorem diverged_evaluated :
    (exec reconcileDeviceList diverged informed).1.toOption.join.map DeviceList.ids =
        some ["aa", "bb"] := by
  decide +kernel

theorem reconciledOnce_evaluated :
    (exec reconcileDeviceList diverged reconciledOnce).1.toOption.join.map DeviceList.ids =
        some ["aa", "bb", "cc"] := by
  decide +kernel

end Counterexample

end Canopee.Runtime
