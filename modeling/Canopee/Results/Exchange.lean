import Canopee.Cli.Sharing
import Canopee.Results.Advance
import Canopee.Results.OpenByName
import Canopee.Results.Recipients
import Canopee.Results.Serving
import Canopee.Results.Visibility

/-!
This module contains what gets across when one user shares an object for others under a name and
another one fetches that name: the recipients read what was shared, and nobody else reads anything.
-/

namespace Canopee

open Primitives
open Canopee.Runtime
open Prog (Keeps Triple exec exec_bind_ok exec_bind_eq_iff)

variable [Primitives]

namespace Runtime

section Sharer

variable {env : Env} {w w' : Runtime} {object : Object} {plaintext : Bytes}
variable {recipients : List Key32}

theorem copyFor_shareable (hash : CollisionFree) {sharedId : ObjectId}
    (hverify : object.verify = true) (hopens : Opens w.identity object plaintext)
    (h : exec (copyFor object recipients) env w = (.ok sharedId, w')) :
    ∃ payload, Shareable env w.identity object plaintext recipients payload ∧
      ObjectId.fromPayload payload = sharedId ∧ w'.identity = w.identity := by
  rcases copyFor_cases h with ⟨hempty, hshared, hw⟩ | ⟨hrecipients, opened, copy, hopen, hput, hcopy⟩
  . refine ⟨object.payload, .inl ⟨hempty, rfl⟩, ?_, by rw [hw]⟩
    rw [hshared, Object.id_of_verify hverify]
  . have hdata : opened.payload.data = plaintext := by
      obtain ⟨opened', hopen', hplaintext⟩ := hopens
      rw [hopen, Except.ok.injEq] at hopen'
      rw [hopen']
      exact hplaintext
    rw [hdata] at hput
    obtain ⟨hsealed, hholding⟩ :=
      (putObjectFor_holding hash plaintext object.objectType none recipients).ok rfl hput
    refine ⟨copy.payload, .inr ⟨hrecipients, copy, hsealed, rfl⟩, ?_, hholding.1⟩
    rw [← hcopy, Object.id_of_verify hsealed.1]

/--
On a disk that works, sharing ends with the pointer to what the entry refers to.
-/
theorem shareObjectFor_puts (hash : CollisionFree) (hdisk : ∀ t, env.fault t = none)
    {name : String} {id indexId : ObjectId} {app : Option String}
    (hget : w.storage.getVerified id = .ok object) (hopens : Opens w.identity object plaintext)
    (h : exec (shareObjectFor name id app recipients) env w = (.ok indexId, w')) :
    ∃ payload records time, Shareable env w.identity object plaintext recipients payload ∧
      HasPut w.identity (records ++ [(AppPointerRecord.key w.identity.id ("entry:" ++ name),
        AppPointerRecord.codec.serialize (.sign w.identity time ("entry:" ++ name)
          (ObjectId.fromPayload payload)))]) w' := by
  have hidentity := ingress_identity env w.identity
  have hshares : Shares fun v : Runtime => v.identity = w.identity := fun _ _ h => h
  obtain ⟨⟨sharedId, objectType, index⟩, v, hload, hpublish⟩ := exec_bind_eq_iff.mp h
  obtain ⟨found, u, hfound, hrest⟩ := exec_bind_eq_iff.mp hload
  rw [exec_getVerified, hget] at hfound
  cases hfound
  obtain ⟨copied, t, hcopy, hrest⟩ := exec_bind_eq_iff.mp hrest
  obtain ⟨home, s, hhome, hpure⟩ := exec_bind_eq_iff.mp hrest
  cases hpure
  obtain ⟨payload, hshareable, hpayload, ht⟩ :=
    copyFor_shareable hash (Storage.verify_of_getVerified hget) hopens hcopy
  have hs := (hidentity.keeps_loadOwnRecord HomeIndex.codec RECORD_HOME).triple.ok ht hhome
  obtain ⟨savedId, r, hsave, hrest⟩ := exec_bind_eq_iff.mp hpublish
  have hr := (hidentity.keeps_saveHomeIndex hshares _).triple.ok hs hsave
  obtain ⟨done, q, hpointer, hpure⟩ := exec_bind_eq_iff.mp hrest
  cases hpure
  obtain ⟨p, hpublished⟩ := publishPointer_succeeds hdisk ("entry:" ++ name) sharedId r
  unfold publishEntryPointer at hpointer
  rw [exec_bind_ok (Prog.exec_attempt _ env r), hpublished] at hpointer
  cases hpointer
  obtain ⟨time, hput⟩ := (publishPointer_puts ("entry:" ++ name) sharedId).ok ⟨hr, rfl⟩ hpublished
  rw [← hpayload] at hput
  exact ⟨payload, puts r, time, hshareable, hput⟩

end Sharer

section Import

variable {env : Env} {w w' : Runtime} {bundle : ExportBundle} {payload : ObjectPayload}

/--
What `import` fails with.
-/
theorem importBundle_error {e : String} (h : exec (importBundle bundle) env w = (.error e, w')) :
    (e = "Object already exists" ∧ w.storage.existsObject bundle.object.id = true ∧ w' = w) ∨
      e = "Invalid signature for object " ++ bundle.object.id.text ∨ e = "write failed" := by
  unfold importBundle at h
  rw [exec_bind_ok (Prog.exec_get env w)] at h
  split at h
  . next hexists =>
    cases h
    exact .inl ⟨rfl, hexists, rfl⟩
  . right
    rw [exec_bind_ok (exec_isOwned bundle.object env w)] at h
    unfold putVerified at h
    split at h
    . cases h
      exact .inl rfl
    . right
      cases hfault : env.fault w.tick with
      | some fault =>
        rw [Prog.exec_bind_error (exec_writeAtomic_of_some hfault _)] at h
        cases h
        rfl
      | none =>
        rw [exec_bind_ok (exec_writeAtomic_of_none hfault _)] at h
        split at h
        . cases h
        . cases h

theorem importBundle_holding (hash : CollisionFree)
    (hid : bundle.object.id = ObjectId.fromPayload payload)
    (h : exec (importBundle bundle) env w = (.ok (), w')) : Holding w.identity payload w' := by
  unfold importBundle at h
  rw [exec_bind_ok (Prog.exec_get env w)] at h
  split at h
  . cases h
  . rw [exec_bind_ok (exec_isOwned bundle.object env w)] at h
    obtain ⟨_, v, hput, hrest⟩ := exec_bind_eq_iff.mp h
    obtain ⟨hverify, hholding⟩ := (putVerified_holding bundle.object).ok rfl hput
    rw [Object.id_of_verify hverify, ObjectId.fromPayload_inj hash] at hid
    rw [hid] at hholding
    split at hrest
    . cases hrest
      exact hholding
    . have hpushes := pushes_holding hash env w.identity payload
      have hmark : Keeps env (Holding w.identity payload) (markCached bundle.object.id) :=
        hpushes.keeps_markCached fun a time ha => ⟨ha.1, stores_congr rfl ha.2⟩
      exact hmark.triple.ok hholding hrest

end Import

end Runtime

namespace Cli

section Import

/--
No other failure of `import` reads as if the object were there.
-/
theorem eq_of_contains {payload : ObjectPayload} {e : String}
    (h : Text.contains "already exists".toList e.toList = true)
    (he : e = "Invalid signature for object " ++ (ObjectId.fromPayload payload).text ∨
      e = "write failed") : False := by
  have hy : 'y' ∈ e.toList := Text.mem_of_contains h 'y' (by decide)
  rcases he with rfl | rfl
  . rw [String.toList_append, List.mem_append] at hy
    rcases hy with hy | hy
    . exact absurd hy (by decide)
    . exact Codec.not_mem_hex (by decide) _ hy
  . exact absurd hy (by decide)

variable {env : Env} {w w' : Runtime} {bundle : ExportBundle} {payload : ObjectPayload}

theorem importIdempotent_holding (hash : CollisionFree)
    (hid : bundle.object.id = ObjectId.fromPayload payload)
    (hunbroken : Unbroken bundle.object.id w)
    (h : exec (importIdempotent bundle) env w = (.ok (), w')) : Holding w.identity payload w' := by
  unfold importIdempotent CanopeeClient.importObject at h
  rw [exec_bind_ok (Prog.exec_attempt _ env w)] at h
  cases himport : exec (importBundle bundle) env w with
  | mk r v =>
    rw [himport] at h
    cases r with
    | ok done =>
      cases h
      exact importBundle_holding hash hid himport
    | error e =>
      dsimp only at h
      split at h
      . next hcontains =>
        cases h
        rcases importBundle_error himport with ⟨_, hexists, hw⟩ | hother
        . obtain ⟨object, hobject⟩ := hunbroken hexists
          rw [hw, hid] at *
          refine ⟨rfl, object, hobject, ?_⟩
          have hstored := Object.id_of_verify (Storage.verify_of_getVerified hobject)
          rw [Storage.id_of_getVerified hobject, ObjectId.fromPayload_inj hash] at hstored
          exact hstored.symm
        . rw [hid] at hother
          exact (eq_of_contains hcontains hother).elim
      . cases h

end Import

section Fetch

variable {env : Env} {w w' : Runtime} {payload : ObjectPayload}

theorem unbroken_of_keeps {α : Type} {m : RunM α} (h : ∀ id, Keeps env (Unbroken id) m)
    (hw : ∀ id, Unbroken id w) {r : Except String α} (hrun : exec m env w = (r, w')) (id : ObjectId) :
    Unbroken id w' := by
  have hstate := (h id).state (hw id)
  rw [hrun] at hstate
  exact hstate

theorem keeps_importIdempotent {I : Runtime → Prop} (h : Fetches env I (fun _ => True))
    (bundle : ExportBundle) : Keeps env I (importIdempotent bundle) := by
  unfold importIdempotent CanopeeClient.importObject
  have himport := @Pushes.keeps_importBundle _ _ _ _ h.toPushes bundle fun _ => trivial
  apply Keeps.bind (keeps_attempt (himport.weaken fun _ _ => trivial))
  intro r _
  split
  . exact Keeps.pure trivial
  . split
    . exact Keeps.pure trivial
    . exact Keeps.throw

theorem keeps_fetchObject {I : Runtime → Prop} (h : Fetches env I (fun _ => True)) (device : String)
    (id : ObjectId) :
    Keeps env I (CanopeeClient.fetchObject device id) (Pushes.Answers env id) := by
  unfold CanopeeClient.fetchObject
  split
  . exact h.keeps_getObject _ id
  . exact Keeps.throw

theorem names_of_setName {id : ObjectId} {name : String}
    (h : exec (setName id name) env w = (.ok (), w')) : w'.storage.names.lookup id.text = some name := by
  unfold setName writeInPlace at h
  rw [exec_bind_ok (exec_nextTick env w), exec_bind_ok (Prog.exec_read env _)] at h
  cases hfault : env.fault w.tick with
  | none =>
    rw [hfault] at h
    cases h
    change (AList.insert id.text ((Codec.ofUtf8 (Codec.utf8 name)).getD "") w.storage.names).lookup
      id.text = some name
    rw [Codec.ofUtf8_utf8]
    exact AList.lookup_insert _
  | some fault =>
    rw [hfault] at h
    cases fault with
    | refused => cases h
    | torn n => cases h

/--
What is fetched under the name that a pointer was published for is what it points at.
-/
theorem fetchShared_holding (hash : CollisionFree) {peer name device : String} {owner : IdentityId}
    {target : ObjectId} {record : AppPointerRecord}
    (hused : usedPointer env w owner ("entry:" ++ name) = some record)
    (hmanifest : record.manifest = ObjectId.fromPayload payload)
    (hcarry : AnswersCarry env record.manifest) (hunbroken : ∀ id, Unbroken id w)
    (h : exec (fetchShared peer name owner device) env w = (.ok target, w')) :
    target = record.manifest ∧ Holding w.identity payload w' ∧ (∀ id, Unbroken id w') ∧
      w'.storage.names.lookup target.text = some name := by
  have hidentity := (ingress_identity env w.identity).toFetches
  have hfetches := fetches_unbroken env
  obtain ⟨found, v, hresolve, hrest⟩ := exec_bind_eq_iff.mp h
  have hfound := resolvePointer_fst env w owner ("entry:" ++ name)
  rw [show exec (resolvePointer owner ("entry:" ++ name)) env w = (.ok found, v) from hresolve, hused,
    Except.ok.injEq] at hfound
  subst hfound
  obtain ⟨bundle, u, hfetch, hrest⟩ := exec_bind_eq_iff.mp hrest
  obtain ⟨_, t, himport, hrest⟩ := exec_bind_eq_iff.mp hrest
  obtain ⟨_, s, hname, hpure⟩ := exec_bind_eq_iff.mp hrest
  cases hpure
  have hidentity_v : v.identity = w.identity :=
    (hidentity.keeps_resolvePointer fun _ _ ha _ => ha).triple.ok rfl hresolve
  have hunbroken_v := unbroken_of_keeps
    (fun id => (hfetches id).keeps_resolvePointer fun _ _ ha _ => ha) hunbroken hresolve
  have hidentity_u : u.identity = w.identity :=
    (keeps_fetchObject hidentity device _).triple.ok hidentity_v hfetch
  have hunbroken_u := unbroken_of_keeps
    (fun id => (keeps_fetchObject (hfetches id) device record.manifest).weaken fun _ _ => trivial)
    hunbroken_v hfetch
  have hanswer := (keeps_fetchObject hidentity device record.manifest).result hidentity_v
    (congrArg Prod.fst hfetch)
  have hid := hcarry bundle hanswer
  have hholding := importIdempotent_holding hash (hid.trans hmanifest) (hunbroken_u _) himport
  have hunbroken_t := unbroken_of_keeps (fun id => keeps_importIdempotent (hfetches id) bundle)
    hunbroken_u himport
  have hpushes := pushes_holding hash env w.identity payload
  rw [hidentity_u] at hholding
  refine ⟨rfl, ?_, ?_, ?_⟩
  . exact (hpushes.keeps_setName _ name).triple.ok hholding hname
  . exact unbroken_of_keeps (fun id => (hfetches id).keeps_setName _ name) hunbroken_t hname
  . exact names_of_setName hname

end Fetch

section Success

variable {env : Env} {w : Runtime} {peerId : PeerId} {bundle : ExportBundle}

theorem exec_settle_of_quiet (h : ∀ t, env.inbound t = []) (w : Runtime) :
    exec settle env w = (.ok w.tick, { w with tick := w.tick + 1 }) := by
  simp only [settle, exec_bind_ok (exec_nextTick env w), exec_bind_ok (Prog.exec_read env _), h,
    handleAll]
  rfl

theorem exec_writeInPlace_of_works (h : ∀ t, env.fault t = none) (write : Bytes → Runtime → Runtime)
    (bytes : Bytes) (w : Runtime) :
    exec (writeInPlace write bytes) env w = (.ok (), write bytes { w with tick := w.tick + 1 }) := by
  simp only [writeInPlace, exec_bind_ok (exec_nextTick env w), exec_bind_ok (Prog.exec_read env _), h,
    Prog.exec_modify]

/--
A pointer that only the DHT has is found there, and the objects of the store stay as they are.
-/
theorem resolvePointer_of_dhtPointerAt {owner : IdentityId} {name : String} {record : AppPointerRecord}
    (hinbound : ∀ t, env.inbound t = []) (hdisk : ∀ t, env.fault t = none)
    (hcached : cachedPointer w owner name = none) (hscanned : scannedPointer env w owner name = none)
    (hdht : dhtPointerAt env { w with tick := w.tick + 1 } owner name = some record) :
    ∃ v, exec (resolvePointer owner name) env w = (.ok (some record), v) ∧ v.storage = w.storage := by
  have hget (a : Runtime) : exec (getRecord (AppPointerRecord.key owner name)) env a =
      (env.record a.tick (AppPointerRecord.key owner name), { a with tick := a.tick + 1 }) := by
    rw [getRecord, exec_bind_ok (exec_settle_of_quiet hinbound a), exec_bind_ok (Prog.exec_read env _),
      exec_ofExcept]
  have hfound : exec (dhtPointer owner name) env { w with tick := w.tick + 1 } =
      (.ok (some record), { w with tick := w.tick + 2 }) := by
    unfold dhtPointer
    rw [exec_bind_ok (Prog.exec_attempt _ env _), hget]
    unfold dhtPointerAt at hdht
    dsimp only at hdht ⊢
    cases hrecord : env.record (w.tick + 1) (AppPointerRecord.key owner name) with
    | error e =>
      rw [hrecord] at hdht
      cases hdht
    | ok bytes =>
      rw [hrecord] at hdht
      exact congrArg (fun found => (Except.ok found, _)) hdht
  unfold resolvePointer
  rw [exec_bind_ok (Prog.exec_get env w)]
  simp only [hcached]
  rw [exec_bind_ok (exec_latestPointerRecord env w owner name), hscanned]
  dsimp only
  rw [exec_bind_ok hfound]
  dsimp only
  unfold rememberPointer
  simp only [Prog.exec_bind, Prog.exec_attempt, exec_writeInPlace_of_works hdisk]
  exact ⟨_, rfl, rfl⟩

theorem exec_getObject_of_linked {id : ObjectId} (h : Linked env peerId id bundle) (w : Runtime) :
    exec (getObject peerId id) env w =
      (.ok bundle, log (.asked peerId id (.ok bundle)) { w with tick := w.tick + 1 }) := by
  simp only [getObject, exec_bind_ok (exec_settle_of_quiet h.inbound w),
    exec_bind_ok (Prog.exec_read env _), h.answer, objectOutcome,
    exec_bind_ok (Prog.exec_modify _ env _), exec_ofExcept]

theorem importBundle_succeeds (hdisk : ∀ t, env.fault t = none)
    (hverify : bundle.object.verify = true)
    (hmissing : w.storage.existsObject bundle.object.id = false) :
    ∃ v, exec (importBundle bundle) env w = (.ok (), v) ∧ v.storage.names = w.storage.names := by
  have hput : exec (putVerified bundle.object) env w =
      (.ok (), storeObject bundle.object { w with tick := w.tick + 1 }) := by
    rw [putVerified, hverify, Bool.not_true, if_neg Bool.false_ne_true,
      exec_writeAtomic_of_none (hdisk _)]
  unfold importBundle
  rw [exec_bind_ok (Prog.exec_get env w), hmissing, if_neg Bool.false_ne_true,
    exec_bind_ok (exec_isOwned _ env w), exec_bind_ok hput]
  split
  . exact ⟨_, rfl, rfl⟩
  . simp only [markCached, now, persist, Prog.exec_bind, Prog.exec_attempt, Prog.exec_read,
      Prog.exec_modify, Prog.exec_pure, exec_nextTick, exec_writeAtomic_of_none (hdisk _)]
    exact ⟨_, rfl, rfl⟩

/--
On a disk that works, what the owner's device has is fetched under the name of its pointer.
-/
theorem fetchShared_succeeds {peer name device : String} {owner : IdentityId}
    {record : AppPointerRecord} (h : Linked env peerId bundle.object.id bundle)
    (hdevice : parsePeerId device = some peerId)
    (hcached : cachedPointer w owner ("entry:" ++ name) = none)
    (hscanned : scannedPointer env w owner ("entry:" ++ name) = none)
    (hdht : dhtPointerAt env { w with tick := w.tick + 1 } owner ("entry:" ++ name) = some record)
    (hmanifest : record.manifest = bundle.object.id) (hverify : bundle.object.verify = true)
    (hmissing : w.storage.existsObject bundle.object.id = false) :
    ∃ w', exec (fetchShared peer name owner device) env w = (.ok bundle.object.id, w') ∧
      w'.storage.names = w.storage.names.insert bundle.object.id.text name := by
  obtain ⟨v, hresolve, hstorage⟩ :=
    resolvePointer_of_dhtPointerAt h.inbound h.fault hcached hscanned hdht
  have hfetch : exec (CanopeeClient.fetchObject device bundle.object.id) env v =
      (.ok bundle, log (.asked peerId bundle.object.id (.ok bundle)) { v with tick := v.tick + 1 }) := by
    unfold CanopeeClient.fetchObject
    rw [hdevice]
    exact exec_getObject_of_linked h v
  rw [← hstorage] at hmissing
  obtain ⟨u, himport, hnames⟩ := importBundle_succeeds (w := log (.asked peerId bundle.object.id
    (.ok bundle)) { v with tick := v.tick + 1 }) h.fault hverify hmissing
  have hidempotent : exec (importIdempotent bundle) env (log (.asked peerId bundle.object.id
      (.ok bundle)) { v with tick := v.tick + 1 }) = (.ok (), u) := by
    rw [importIdempotent, CanopeeClient.importObject, Prog.exec_bind, Prog.exec_attempt, himport]
    rfl
  have hname : exec (CanopeeClient.setName bundle.object.id name) env u =
      (.ok (), storeName bundle.object.id name { u with tick := u.tick + 1 }) := by
    rw [CanopeeClient.setName, setName, exec_writeInPlace_of_works h.fault, Codec.ofUtf8_utf8,
      Option.getD_some]
  refine ⟨storeName bundle.object.id name { u with tick := u.tick + 1 }, ?_, ?_⟩
  . unfold fetchShared CanopeeClient.resolvePointer
    rw [exec_bind_ok hresolve]
    dsimp only
    rw [hmanifest, exec_bind_ok hfetch, exec_bind_ok hidempotent, exec_bind_ok hname, Prog.exec_pure]
  . rw [← hstorage]
    change u.storage.names.insert _ name = _
    rw [hnames]
    rfl

end Success
section Get

variable {env : Env} {w : Runtime} {id : ObjectId} {name : String}

/--
Every listed file holds the object that it is named after.
-/
theorem decoded_of_unbroken (hunbroken : ∀ id, Unbroken id w)
    (h : (w.storage.files.lookup id.text).isSome = true) :
    ∃ object, w.storage.decoded id.text = some object ∧ object.id = id := by
  obtain ⟨object, hobject⟩ := hunbroken id h
  obtain ⟨bytes, hbytes, hdecode, hid, _⟩ := Storage.getVerified_eq_ok.mp hobject
  refine ⟨object, ?_, hid⟩
  rw [Storage.decoded, hbytes]
  exact hdecode

theorem named_eq (ids : List ObjectId) (h : ∀ id ∈ ids, ∃ object,
    w.storage.decoded id.text = some object ∧ object.id = id) :
    (((ids.filterMap fun id => w.storage.decoded id.text).map (objectInfo w.storage)).filter
        fun object => object.name = some name).map (·.id) =
      ids.filter fun id => w.storage.readName id = some name := by
  induction ids with
  | nil => rfl
  | cons first ids ih =>
    obtain ⟨object, hdecoded, hid⟩ := h first List.mem_cons_self
    have hrest := ih fun id hmem => h id (List.mem_cons_of_mem first hmem)
    have hname : (objectInfo w.storage object).name = w.storage.readName first := by
      rw [objectInfo, hid]
    rw [List.filterMap_cons_some (f := fun id : ObjectId => w.storage.decoded id.text) hdecoded,
      List.map_cons]
    by_cases hfirst : w.storage.readName first = some name
    . rw [List.filter_cons_of_pos (by simpa [hname] using hfirst),
        List.filter_cons_of_pos (by simpa using hfirst), List.map_cons, hrest]
      exact congrArg (· :: _) hid
    . rw [List.filter_cons_of_neg (by simpa [hname] using hfirst),
        List.filter_cons_of_neg (by simpa using hfirst), hrest]

theorem exec_listObjects {ids : List ObjectId} (h : Runtime.listed env w = some ids) :
    exec CanopeeClient.list env w =
      (.ok ((ids.filterMap fun id => w.storage.decoded id.text).map (objectInfo w.storage)),
        { w with tick := w.tick + 1 }) := by
  unfold CanopeeClient.list listObjects
  rw [exec_bind_ok (by rw [exec_list, h]), exec_bind_ok (Prog.exec_get env _)]
  rfl

/--
A name that one object bears leads to that object.
-/
theorem exec_resolveObjectArg (hplain : looksLikeId name = false) (hunbroken : ∀ id, Unbroken id w)
    {names : List String} (hlisting : env.listing w.tick w.storage.files.keys = some names)
    (hstored : w.storage.existsObject id = true) (hvisible : isHidden id.text = false)
    (hname : ∀ other, w.storage.readName other = some name ↔ other = id) :
    exec (resolveObjectArg name) env w = (.ok (id, name), { w with tick := w.tick + 1 }) := by
  have hperm := env.listing_perm _ _ _ hlisting
  have hlisted : Runtime.listed env w = some ((names.filter fun name => !isHidden name).map ObjectId.mk) := by
    rw [Runtime.listed, hlisting]
    rfl
  generalize hids : (names.filter fun name => !isHidden name).map ObjectId.mk = ids at hlisted
  have hmem (other : ObjectId) : other ∈ ids ↔
      (w.storage.files.lookup other.text).isSome = true ∧ isHidden other.text = false := by
    rw [← hids, List.mem_map, AList.lookup_isSome, AList.mem_keys, ← hperm.mem_iff]
    constructor
    . rintro ⟨text, htext, rfl⟩
      simpa using List.mem_filter.mp htext
    . rintro ⟨hkey, hshown⟩
      exact ⟨other.text, List.mem_filter.mpr ⟨hkey, by simpa using hshown⟩, rfl⟩
  have hnodup : ids.Nodup := by
    rw [← hids]
    apply List.Nodup.map fun a b h => (ObjectId.mk.injEq a b).mp h
    exact (hperm.nodup_iff.mpr w.storage.files.keys_nodup).filter _
  have hnamed := @named_eq _ w name ids fun other hother =>
    decoded_of_unbroken hunbroken ((hmem other).mp hother).1
  have hone : (ids.filter fun other => w.storage.readName other = some name) = [id] := by
    have hfilter : (ids.filter fun other => w.storage.readName other = some name) =
        ids.filter fun other => other = id :=
      List.filter_congr fun other _ => by rw [decide_eq_decide]; exact hname other
    rw [hfilter, List.filter_eq, List.count_eq_one_of_mem hnodup ((hmem id).mpr ⟨hstored, hvisible⟩)]
    rfl
  rw [hone] at hnamed
  unfold resolveObjectArg
  have hmatches : exec (objectMatches name) env w = (.ok [id], { w with tick := w.tick + 1 }) := by
    unfold objectMatches
    rw [exec_bind_ok (exec_listObjects hlisted)]
    dsimp only
    rw [hnamed]
    rfl
  rw [hplain, if_neg Bool.false_ne_true, exec_bind_ok hmatches]
  rfl

/--
A name that no object bears leads to the entry of the home index.
-/
theorem exec_resolveObjectArg_of_unnamed {index : HomeIndex} {record : AppPointerRecord}
    {ids : List ObjectId} (hplain : looksLikeId name = false)
    (hlisted : Runtime.listed env w = some ids) (hunnamed : ∀ other, w.storage.readName other ≠ some name)
    (hhome : Runtime.Has HomeIndex.codec RECORD_HOME record index w)
    (hentry : (index.entries.filter fun entry => entry.name = name).map (·.object) = [id]) :
    exec (resolveObjectArg name) env w = (.ok (id, name), { w with tick := w.tick + 1 }) := by
  have hhome' := hhome.congr (SameNode.tick w).toSameDisk
  have hindex : exec (homeMatches name) env { w with tick := w.tick + 1 } =
      (.ok [id], { w with tick := w.tick + 1 }) := by
    unfold homeMatches CanopeeClient.loadHomeIndex
    rw [exec_bind_ok (hhome'.exec_loadHomeIndex env)]
    dsimp only
    rw [hentry, Prog.exec_pure]
  have hmatches : exec (objectMatches name) env w = (.ok [id], { w with tick := w.tick + 1 }) := by
    unfold objectMatches
    rw [exec_bind_ok (exec_listObjects hlisted)]
    dsimp only
    rw [List.filter_eq_nil_iff.mpr]
    . exact hindex
    . intro info hinfo
      obtain ⟨object, _, rfl⟩ := List.mem_map.mp hinfo
      rw [decide_eq_true_eq]
      exact hunnamed object.id
  unfold resolveObjectArg
  rw [hplain, if_neg Bool.false_ne_true, exec_bind_ok hmatches]
  rfl

end Get

section Exchange

variable {env env' env'' : Env} {w v u w' b b₁ b' : Runtime} {id : ObjectId} {name : String}
variable {payload : ObjectPayload} {recipients : List Key32} {plaintext : Bytes}

theorem keeps_identity_resolveObjectArg (own : Identity) (arg : String) :
    Keeps env (fun w => w.identity = own) (resolveObjectArg arg) := by
  have h := ingress_identity env own
  unfold resolveObjectArg
  split
  . exact Keeps.pure trivial
  . apply Keeps.bind (Q := fun _ => True)
    . apply Keeps.bind (Q := fun _ => True)
      . apply Keeps.bind h.keeps_list
        intro ids _
        apply Keeps.bind_get
        intro w _
        exact Keeps.pure trivial
      intro objects _
      dsimp only
      split
      . apply Keeps.bind (h.keeps_loadOwnRecord HomeIndex.codec RECORD_HOME)
        intro index _
        split
        . exact Keeps.pure trivial
        . exact Keeps.pure trivial
      . exact Keeps.pure trivial
    intro found _
    split
    . exact Keeps.throw
    . exact Keeps.pure trivial
    . exact Keeps.throw

/--
The contact list says whose keys are meant.
-/
theorem exec_recipientKeys {list : ContactList} {record : AppPointerRecord} {wanted : List String}
    {keys : List Key32} (h : Runtime.Has ContactList.codec RECORD_CONTACTS record list w) (hwanted : wanted ≠ [])
    (hkeys : keysFor list.contacts wanted = .ok keys) (env : Env) :
    exec (recipientKeys wanted) env w = (.ok keys, w) := by
  have hload := h.exec_loadOwnRecord env
  unfold recipientKeys
  rw [if_neg (by simpa using hwanted)]
  unfold CanopeeClient.loadContactList Runtime.loadContactList
  rw [exec_bind_ok hload]
  dsimp only
  rw [hkeys]
  rfl

theorem keeps_identity_recipientKeys (own : Identity) (wanted : List String) :
    Keeps env (fun w => w.identity = own) (recipientKeys wanted) := by
  unfold recipientKeys
  split
  . exact Keeps.pure trivial
  . apply Keeps.bind ((ingress_identity env own).keeps_loadOwnRecord ContactList.codec RECORD_CONTACTS)
    intro list _
    split
    . exact (keeps_ofExcept _).weaken fun _ _ => trivial
    . exact Keeps.throw

/--
`canopee share` has shared under `name`, with the keys of its contacts, an object that its user opens
as `plaintext`.
-/
structure SharedAs (env : Env) (w w' : Runtime) (name arg : String) (toArgs : List String)
    (recipients : List Key32) (plaintext : Bytes) : Prop where
  succeeded : exec (share name (some arg) toArgs) env w = (.ok (), w')
  understood : ∃ id shown v u object,
    exec (resolveObjectArg arg) env w = (.ok (id, shown), v) ∧
    exec (recipientKeys toArgs) env v = (.ok recipients, u) ∧
    u.storage.getVerified id = .ok object ∧ Opens w.identity object plaintext

theorem SharedAs.puts (hash : CollisionFree) {arg : String} {toArgs : List String}
    (h : SharedAs env w w' name arg toArgs recipients plaintext) (hdisk : ∀ t, env.fault t = none) :
    ∃ object payload records time,
      Shareable env w.identity object plaintext recipients payload ∧
      HasPut w.identity (records ++ [(AppPointerRecord.key w.identity.id ("entry:" ++ name),
        AppPointerRecord.codec.serialize (.sign w.identity time ("entry:" ++ name)
          (ObjectId.fromPayload payload)))]) w' := by
  obtain ⟨id, shown, v, u, object, hobject, hkeys, hget, hopens⟩ := h.understood
  have hv := (keeps_identity_resolveObjectArg w.identity arg).triple.ok rfl hobject
  have hu := (keeps_identity_recipientKeys w.identity toArgs).triple.ok hv hkeys
  have hshare := h.succeeded
  unfold share at hshare
  rw [Option.getD_some, exec_bind_ok hobject, exec_bind_ok hkeys] at hshare
  obtain ⟨indexId, t, hrun, hpure⟩ := exec_bind_eq_iff.mp hshare
  cases hpure
  rw [← hu] at hopens ⊢
  exact ⟨object, shareObjectFor_puts hash hdisk hget hopens hrun⟩

omit [Primitives] in
theorem Dht.after_append (dht : Dht) (puts : List (Bytes × Bytes)) (key value : Bytes) :
    dht.after (puts ++ [(key, value)]) key = some value := by
  rw [Dht.after, List.foldl_append]
  exact Function.update_self key (some value) (dht.after puts)

/--
Whoever asks a DHT that has what the sharer put finds the pointer to the copy.
-/
theorem SharedAs.found (laws : SignatureLaws) (hash : CollisionFree) {arg : String}
    {toArgs : List String} (h : SharedAs env w w' name arg toArgs recipients plaintext)
    (hdisk : ∀ t, env.fault t = none) :
    ∃ object payload record, Shareable env w.identity object plaintext recipients payload ∧
      record.manifest = ObjectId.fromPayload payload ∧
      ∀ (env' : Env) (b : Runtime) (dht : Dht),
        (∀ t, env'.record t (AppPointerRecord.key w.identity.id ("entry:" ++ name)) =
          .ok (dht.after (Runtime.puts w') (AppPointerRecord.key w.identity.id ("entry:" ++ name)))) →
        dhtPointerAt env' b w.identity.id ("entry:" ++ name) = some record := by
  obtain ⟨object, payload, records, time, hshareable, hput⟩ := h.puts hash hdisk
  refine ⟨object, payload, .sign w.identity time ("entry:" ++ name) (ObjectId.fromPayload payload),
    hshareable, AppPointerRecord.sign_manifest _ _ _ _, ?_⟩
  intro env' b dht hdht
  rw [dhtPointerAt, hdht, hput.puts, Dht.after_append]
  change acceptRecord w.identity.id ("entry:" ++ name) _ = some _
  rw [acceptRecord, Codec.deserialize_serialize]
  exact if_pos ⟨rfl, rfl, AppPointerRecord.verify_sign laws w.identity time _ _⟩

/--
The data of the object under a name.
-/
theorem get_of_named {target : ObjectId} {names : List String} (hplain : looksLikeId name = false)
    (hunbroken : ∀ id, Unbroken id w)
    (hlisting : env.listing w.tick w.storage.files.keys = some names) (hstores : Stores payload w)
    (htarget : target = ObjectId.fromPayload payload)
    (hname : ∀ other, w.storage.readName other = some name ↔ other = target) :
    (exec (get name) env w).1.toOption = readData w.identity payload.data := by
  obtain ⟨object, hstored, hpayload⟩ := hstores
  rw [← htarget] at hstored
  have hexists : w.storage.existsObject target = true := by
    obtain ⟨bytes, hbytes, _⟩ := Storage.getVerified_eq_ok.mp hstored
    rw [Storage.existsObject, hbytes]
    rfl
  have hvisible : isHidden target.text = false := htarget ▸ ObjectId.not_hidden payload
  have hread := readObject_of_stored (w := { w with tick := w.tick + 1 }) hstored env
  unfold get CanopeeClient.get
  rw [exec_bind_ok (exec_resolveObjectArg hplain hunbroken hlisting hexists hvisible hname)]
  dsimp only
  rw [Prog.exec_bind, hread]
  cases hopen : openWith w.identity object with
  | ok opened =>
    rw [← hpayload, openWith_data_iff.mp ⟨opened, hopen, rfl⟩]
    rfl
  | error e =>
    cases hdata : readData w.identity payload.data with
    | none => rfl
    | some data =>
      rw [← hpayload] at hdata
      obtain ⟨opened, hopened, _⟩ := openWith_data_iff.mpr hdata
      rw [hopen] at hopened
      cases hopened

/--
`peer` leads to the owner, of whom the node has met no pointer under this name yet, and no file in its
store is broken.
-/
structure Meets (env : Env) (b b₁ : Runtime) (peer : String) (owner : IdentityId) (device : String)
    (name : String) : Prop where
  resolved : exec (resolveOwnerArg peer) env b = (.ok (owner, device), b₁)
  uncached : cachedPointer b₁ owner ("entry:" ++ name) = none
  unscanned : scannedPointer env b₁ owner ("entry:" ++ name) = none
  unbroken : ∀ id, Unbroken id b₁

end Exchange

end Cli

end Canopee

namespace Canopee.Cli

section Witness

open Canopee.Transparent
open Prog (exec exec_bind_ok)
open Canopee.Runtime
open Canopee.Envelope (Ideal derivationsFor recipientPubs draws)

/--
A recipient reads an envelope of Alice's by the derivations of an ideal set, when the keys differ in
their first half.
-/
theorem ideal_draws_for {alsoFor : List Key32} (reader : Identity)
    (hreader : reader.dhPublicKey ∈ recipientPubs alice.dhPublicKey alsoFor)
    (h : Envelope.differEarly (recipientPubs alice.dhPublicKey alsoFor) = true) :
    Ideal (derivationsFor alice reader draws alsoFor) := by
  have hform {d : Envelope.Derivation} (hd : d ∈ derivationsFor alice reader draws alsoFor) :
      ∃ pub ∈ recipientPubs alice.dhPublicKey alsoFor,
        d = Envelope.wrapping draws 0 (draws 1 Envelope.saltLen).toList pub := by
    obtain ⟨draw, ⟨pub, hpub, heq⟩ | heq⟩ := Envelope.mem_derivations hd
    . exact ⟨pub, hpub, heq⟩
    . rw [Envelope.unwrapping_eq agreementLaws rfl] at heq
      exact ⟨reader.dhPublicKey, hreader, heq⟩
  apply Envelope.ideal_of_take
  intro d hd d' hd' hkey
  obtain ⟨pub, hpub, rfl⟩ := hform hd
  obtain ⟨pub', hpub', rfl⟩ := hform hd'
  rw [Envelope.take_key_draws, Envelope.take_key_draws] at hkey
  have hinj : Function.Injective ((9 : UInt8) + ·) := fun a b hab => UInt8.add_right_inj 9 |>.mp hab
  rw [Envelope.eq_of_differEarly h pub hpub pub' hpub' (List.map_injective_iff.mpr hinj hkey)]

/--
Alice has a contact beside her note.
-/
def keptContacts : ContactList :=
  ⟨[⟨"bob", "03", bob.dhPublicKey, none⟩], 0⟩

def contactsObject : Object :=
  keptContacts.toObject alice 0

def contactsPointer : AppPointerRecord :=
  .sign alice 0 RECORD_CONTACTS contactsObject.id

def contactsStored : Runtime :=
  storeRecord (recordFile (AppPointerRecord.key alice.id RECORD_CONTACTS))
    (AppPointerRecord.codec.serialize contactsPointer) (storeObject contactsObject noteStored)

theorem verify_contactsObject : contactsObject.verify = true :=
  Object.verify_new signatureLaws alice 0 _ _

theorem has_contacts : Runtime.Has ContactList.codec RECORD_CONTACTS contactsPointer keptContacts contactsStored where
  cached := cachedPointer_storeRecord signatureLaws 0 RECORD_CONTACTS contactsObject.id _
  stored := ⟨contactsObject, Storage.getVerified_write_self _ verify_contactsObject,
    decode_toObject ContactList.codec .contactList keptContacts alice 0⟩

theorem has_noteIndex_contactsStored :
    Runtime.Has HomeIndex.codec RECORD_HOME noteIndexPointer noteIndex contactsStored := by
  obtain ⟨hcached, hstored⟩ := has_noteIndex.storeObject collisionFree verify_contactsObject
  refine ⟨?_, hstored⟩
  rw [← hcached]
  exact cachedPointer_storeRecord_ne collisionFree (by decide) _ _

theorem contactsObject_ne : listedNote.id ≠ contactsObject.id := by
  intro h
  have hpayload := (ObjectId.fromPayload_inj collisionFree).mp h
  have htype : ObjectType.blob = ObjectType.contactList := congrArg ObjectPayload.objectType hpayload
  exact absurd htype (by decide)

theorem getVerified_listedNote_contactsStored :
    contactsStored.storage.getVerified listedNote.id = .ok listedNote :=
  (Storage.getVerified_write_of_ne _ contactsObject_ne).trans getVerified_listedNote

theorem listed_quiet (t : Int) (w : Runtime) : ∃ ids, Runtime.listed (Env.quiet t) w = some ids :=
  ⟨_, rfl⟩

theorem unnamed_contactsStored (other : ObjectId) :
    contactsStored.storage.readName other ≠ some "note" := by
  intro h
  cases h

theorem sharedAs_note : ∃ w', SharedAs (Env.quiet 1) contactsStored w' "for bob" "note" ["bob"]
    [bob.dhPublicKey] [7] := by
  obtain ⟨ids, hlisted⟩ := listed_quiet 1 contactsStored
  have hsame := (SameNode.tick contactsStored).toSameDisk
  have hobject := @exec_resolveObjectArg_of_unnamed _ _ _ listedNote.id "note" _ _ _ (by decide)
    hlisted unnamed_contactsStored has_noteIndex_contactsStored (by rfl)
  have hkeys := @exec_recipientKeys _ _ _ _ ["bob"] [bob.dhPublicKey] (has_contacts.congr hsame)
    (by decide) (by rfl) (Env.quiet 1)
  have hget : ({ contactsStored with tick := contactsStored.tick + 1 } : Runtime).storage.getVerified
      listedNote.id = .ok listedNote := getVerified_listedNote_contactsStored
  have hopens : Opens alice listedNote [7] := opens_iff_readData.mpr rfl
  have hdisk : ∀ t, (Env.quiet 1).fault t = none := fun _ => rfl
  obtain ⟨indexId, w', h⟩ := shareObjectFor_succeeds signatureLaws collisionFree hdisk
    (has_noteIndex_contactsStored.congr hsame) hget hopens (fun _ => Envelope.encrypts _ _ _)
    "for bob" (some "cli")
  refine ⟨w', ?_, listedNote.id, "note", _, _, listedNote, hobject, hkeys, hget, hopens⟩
  unfold share CanopeeClient.shareObjectFor
  rw [Option.getD_some, exec_bind_ok hobject, exec_bind_ok hkeys, exec_bind_ok h, Prog.exec_pure]

/--
An environment in which the DHT has one record under Alice's entry, and one peer has one object.
-/
def answering (value : Option Bytes) (copy : Object) : Env :=
  { Env.quiet 2 with
    peers := fun _ => .ok [⟨"01"⟩]
    record := fun _ key =>
      .ok (if key = AppPointerRecord.key alice.id ("entry:" ++ "for bob") then value else none)
    exchange := fun _ _ request =>
      match request with
      | .getObject id => .ok (if copy.id = id then .object ⟨1, copy⟩ else .notFound)
      | .store _ => .ok .stored }

theorem answersCarry_answering (value : Option Bytes) (copy : Object) (id : ObjectId) :
    AnswersCarry (answering value copy) id := by
  rintro bundle ⟨t, peer, hanswer⟩
  simp only [answering] at hanswer
  split at hanswer
  . next hid =>
    cases hanswer
    exact hid
  . cases hanswer

theorem linked_answering (value : Option Bytes) (copy : Object) :
    Linked (answering value copy) ⟨"01"⟩ copy.id ⟨1, copy⟩ where
  peers _ := rfl
  answer _ := congrArg Except.ok (if_pos rfl)
  inbound _ := rfl
  fault _ := rfl

/--
Bob has met nothing of Alice's when he has looked for her device.
-/
def ownerFound (value : Option Bytes) (copy : Object) : Runtime :=
  (exec (resolveOwnerArg alice.id.text) (answering value copy) (fresh bob laptop)).2

theorem meets_answering (value : Option Bytes) (copy : Object) :
    Meets (answering value copy) (fresh bob laptop) (ownerFound value copy) alice.id.text alice.id
      "01" "for bob" where
  resolved := rfl
  uncached := rfl
  unscanned := rfl
  unbroken id hexists := by cases hexists

end Witness

end Canopee.Cli
