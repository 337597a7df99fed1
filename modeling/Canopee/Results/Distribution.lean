import Canopee.Cli.FetchApp
import Canopee.Results.OpenByName
import Canopee.Results.ReadBack

/-!
This module contains what becomes of a published directory: the node that published it serves its
files, and another node that fetches the app, from whomever, gets the same ones.
-/

namespace Canopee

open Primitives
open Canopee.Runtime
open Prog (Keeps Triple exec exec_bind_ok)
open Latest (latest)

variable [Primitives]

namespace Cli

section Pages

/--
The path under which a file of the directory is served.
-/
def servedPath (relative : String) : String :=
  if relative = "index.html" then "/" else "/" ++ relative

/--
The pages of the directory, in the order of the walk.
-/
def pagesOf (files : List (List String × Bytes)) : List (String × Bytes) :=
  files.map fun file => (servedPath ("/".intercalate file.1), file.2)

/--
What the directory has for a path.
-/
def Site.page (site : Site) (path : String) : Option Bytes :=
  latest path (pagesOf site.visible)

def Publishing.site : Publishing → Site
  | publish site => site
  | appManifest site _ => site

/--
The files of a directory have names.
-/
def Named (files : List (List String × Bytes)) : Prop :=
  ∀ file ∈ files, "/".intercalate file.1 ≠ ""

omit [Primitives] in
theorem slash_append_ne {relative : String} (h : relative ≠ "") : "/" ++ relative ≠ "/" := by
  intro heq
  apply h
  rw [← String.toList_inj] at heq ⊢
  simpa using heq

end Pages

section Upload

variable {env : Env} {self : Identity} {id : ObjectId} {data : Bytes} {w : Runtime}

/--
The object with this id has this data.
-/
def Has (id : ObjectId) (data : Bytes) : Prop :=
  ∃ payload, ObjectId.fromPayload payload = id ∧ payload.data = data

/--
The node stores such an object.
-/
def Holds (w : Runtime) (id : ObjectId) (data : Bytes) : Prop :=
  ∃ payload, ObjectId.fromPayload payload = id ∧ payload.data = data ∧ Stores payload w

theorem Holds.has (h : Holds w id data) : Has id data := by
  obtain ⟨payload, hid, hdata, _⟩ := h
  exact ⟨payload, hid, hdata⟩

theorem Holds.congr {w' : Runtime} (h : Holds w id data)
    (hfiles : w'.storage.files = w.storage.files) : Holds w' id data := by
  obtain ⟨payload, hid, hdata, hstores⟩ := h
  exact ⟨payload, hid, hdata, stores_congr hfiles hstores⟩

theorem Holds.storeObject (hash : CollisionFree) {object : Object} (hverify : object.verify = true)
    (h : Holds w id data) : Holds (storeObject object w) id data := by
  obtain ⟨payload, hid, hdata, hstores⟩ := h
  exact ⟨payload, hid, hdata, hstores.storeObject hash hverify⟩

/--
What stands for `path` among what is uploaded.
-/
def Uploaded.idAt (uploaded : Uploaded) (path : String) : Option ObjectId :=
  if path = "/" then uploaded.entrypoint else uploaded.assets.lookup path

/--
The node stores these pages, under the ids that are uploaded for them.
-/
structure Uploads (pages : List (String × Bytes)) (uploaded : Uploaded) (w : Runtime) : Prop where
  pages : ∀ path, Option.Rel (Holds w) (uploaded.idAt path) (latest path pages)
  root : "/" ∉ uploaded.assets

theorem Uploads.mono {pages : List (String × Bytes)} {uploaded : Uploaded} {w' : Runtime}
    (h : Uploads pages uploaded w) (hholds : ∀ id data, Holds w id data → Holds w' id data) :
    Uploads pages uploaded w' := by
  refine ⟨?_, h.root⟩
  intro path
  have hpath := h.pages path
  generalize uploaded.idAt path = found at hpath
  generalize latest path pages = page at hpath
  cases hpath with
  | none => exact .none
  | some hhas => exact .some (hholds _ _ hhas)

theorem fetches_uploads (hash : CollisionFree) (env : Env) (self : Identity)
    (pages : List (String × Bytes)) (uploaded : Uploaded) :
    Fetches env (fun w => w.identity = self ∧ Uploads pages uploaded w) (fun _ => True) where
  toPushes := by
    apply Pushes.ofDisk
    . intro w w' hdisk hw
      refine ⟨hdisk.identity.trans hw.1, hw.2.mono ?_⟩
      intro id data hholds
      exact hholds.congr hdisk.files
    . intro w object hverify _ hw
      refine ⟨hw.1, hw.2.mono ?_⟩
      intro id data hholds
      exact hholds.storeObject hash hverify
    . intro _ _ _ _
      trivial
  answered _ _ _ _ := trivial
  own _ _ _ := trivial

theorem Uploads.insert {pages : List (String × Bytes)} {uploaded : Uploaded} {relative : String}
    (h : Uploads pages uploaded w) (hrelative : relative ≠ "") (hholds : Holds w id data) :
    Uploads (pages ++ [(servedPath relative, data)])
      (if relative = "index.html" then
        { uploaded with entrypoint := some id, html := data }
      else
        { uploaded with assets := uploaded.assets.insert ("/" ++ relative) id }) w := by
  have hlatest (path : String) : latest path (pages ++ [(servedPath relative, data)]) =
      if servedPath relative = path then some data else latest path pages := by
    rw [Latest.latest_append, latest, latest, Option.none_or]
    split
    . rfl
    . exact Option.none_or
  by_cases hindex : relative = "index.html"
  . rw [if_pos hindex]
    refine ⟨?_, h.root⟩
    intro path
    have hpath := h.pages path
    rw [hlatest, servedPath, if_pos hindex]
    by_cases hroot : path = "/"
    . rw [if_pos hroot.symm, Uploaded.idAt, if_pos hroot]
      exact .some hholds
    . rw [if_neg (Ne.symm hroot), Uploaded.idAt, if_neg hroot]
      rw [Uploaded.idAt, if_neg hroot] at hpath
      exact hpath
  . rw [if_neg hindex]
    have hne := slash_append_ne hrelative
    refine ⟨?_, ?_⟩
    . intro path
      have hpath := h.pages path
      rw [hlatest, servedPath, if_neg hindex]
      by_cases hat : "/" ++ relative = path
      . subst hat
        rw [if_pos rfl, Uploaded.idAt, if_neg hne, AList.lookup_insert]
        exact .some hholds
      . rw [if_neg hat, Uploaded.idAt]
        rw [Uploaded.idAt] at hpath
        split
        . next hroot =>
          rw [if_pos hroot] at hpath
          exact hpath
        . next hroot =>
          rw [if_neg hroot] at hpath
          rw [AList.lookup_insert_ne (Ne.symm hat)]
          exact hpath
    . rw [AList.mem_insert, not_or]
      exact ⟨Ne.symm hne, h.root⟩

theorem putObjectPublic_owner (data : Bytes) (objectType : ObjectType) (name : Option String) :
    Triple env (fun w => w.identity = self) (putObjectPublic data objectType name)
      (fun object _ => object.payload.owner = self.id) (fun _ => True) := by
  unfold putObjectPublic
  apply Triple.bind (Q := fun object _ => object.payload.owner = self.id)
  . constructor
    intro w hw
    unfold newObject
    rw [exec_bind_ok (exec_now env w), exec_bind_ok (Prog.exec_get env _)]
    exact congrArg Identity.id hw
  . intro object
    constructor
    intro w howner
    refine Triple.spec (P := fun _ => True) ?_ w trivial
    apply Triple.bind (Triple.of_forall (fun _ _ => trivial) (fun _ => trivial))
    intro _
    apply Triple.bind (Triple.of_forall (fun _ _ => trivial) (fun _ => trivial))
    intro _
    exact Triple.pure fun _ _ => howner

theorem putObjectPublic_triple (hash : CollisionFree) {I : Runtime → Prop}
    (h : Fetches env (fun w => w.identity = self ∧ I w) (fun _ => True)) (data : Bytes)
    (objectType : ObjectType) (name : Option String) :
    Triple env (fun w => w.identity = self ∧ I w) (putObjectPublic data objectType name)
      (fun object w => (w.identity = self ∧ I w) ∧ ∃ payload, ObjectId.fromPayload payload = object.id ∧
        payload.owner = self.id ∧ payload.data = data ∧ Stores payload w)
      (fun _ => True) := by
  have hkept := (h.keeps_putObjectPublic data objectType name).triple
  have howner : Triple env (fun w => w.identity = self) (putObjectPublic data objectType name)
      (fun object _ => object.payload.owner = self.id) (fun _ => True) :=
    putObjectPublic_owner data objectType name
  apply (hkept.and ((putObjectPublic_holding hash data objectType name).and howner)).conseq
  . intro w hw
    exact ⟨hw, hw.1, hw.1⟩
  . intro object w hw
    obtain ⟨hw, ⟨⟨hverify, hdata⟩, hholding⟩, howner⟩ := hw
    exact ⟨hw, object.payload, (Object.id_of_verify hverify).symm, howner, hdata, hholding.2⟩
  . intro _ _
    trivial

theorem upload_triple (hash : CollisionFree) {pages : List (String × Bytes)} {uploaded : Uploaded}
    {relative : String} (hrelative : relative ≠ "") :
    Triple env (fun w => w.identity = self ∧ Uploads pages uploaded w)
      (upload uploaded relative data)
      (fun uploaded w => w.identity = self ∧
        Uploads (pages ++ [(servedPath relative, data)]) uploaded w)
      (fun _ => True) := by
  have hkept := fetches_uploads hash env self pages uploaded
  have hfile : Triple env (fun w => w.identity = self ∧ Uploads pages uploaded w)
      (CanopeeClient.putPublicFile relative data)
      (fun id w => (w.identity = self ∧ Uploads pages uploaded w) ∧ Holds w id data)
      (fun _ => True) := by
    unfold CanopeeClient.putPublicFile
    apply Triple.bind (putObjectPublic_triple hash hkept data .blob (some relative))
    intro object
    apply Triple.pure
    intro w ⟨hw, payload, hid, _, hdata, hstores⟩
    exact ⟨hw, payload, hid, hdata, hstores⟩
  unfold upload
  apply Triple.bind hfile
  intro id
  split
  . next hindex =>
    apply Triple.pure
    intro w ⟨hkept, hholds⟩
    have hinsert := hkept.2.insert hrelative hholds
    rw [if_pos hindex] at hinsert
    exact ⟨hkept.1, hinsert⟩
  . next hindex =>
    apply Triple.pure
    intro w ⟨hkept, hholds⟩
    have hinsert := hkept.2.insert hrelative hholds
    rw [if_neg hindex] at hinsert
    exact ⟨hkept.1, hinsert⟩

theorem uploadAll_triple (hash : CollisionFree) {files : List (List String × Bytes)}
    (hnamed : Named files) (pages : List (String × Bytes)) (uploaded : Uploaded) :
    Triple env (fun w => w.identity = self ∧ Uploads pages uploaded w) (uploadAll uploaded files)
      (fun uploaded w => w.identity = self ∧ Uploads (pages ++ pagesOf files) uploaded w)
      (fun _ => True) := by
  induction files generalizing pages uploaded with
  | nil =>
    apply Triple.pure
    intro w hw
    rw [pagesOf, List.map_nil, List.append_nil]
    exact hw
  | cons file files ih =>
    unfold uploadAll
    apply Triple.bind (upload_triple hash (hnamed file List.mem_cons_self))
    intro uploaded
    have hrest := ih (fun other hother => hnamed other (List.mem_cons_of_mem file hother))
      (pages ++ [(servedPath ("/".intercalate file.1), file.2)]) uploaded
    rw [List.append_assoc] at hrest
    exact hrest

end Upload

section Announce

variable {env : Env} {I : Runtime → Prop}

/--
The objects with these ids are in the serving set.
-/
def Sharing (ids : List ObjectId) (w : Runtime) : Prop :=
  ∀ id ∈ ids, id.text ∈ w.shared

theorem pushes_sharing (h : Pushes env I (fun _ => True)) (ids : List ObjectId) :
    Pushes env (fun w => I w ∧ Sharing ids w) (fun _ => True) := by
  apply Pushes.and h
  exact {
    frame := fun w w' hsame hw id hid => hsame.shared ▸ hw id hid
    put := fun _ _ _ _ hw => hw
    pushed := fun _ _ _ _ => trivial
    track := fun _ _ _ _ _ _ hw => hw
    touch := fun _ _ _ _ hw => hw
    flush := fun _ hw => hw
    replicate := fun _ _ _ hw => hw
  }

theorem shares_sharing (h : Shares I) (ids : List ObjectId) :
    Shares (fun w => I w ∧ Sharing ids w) :=
  fun w id hw => ⟨h w id hw.1, fun other hother => Finset.mem_insert_of_mem (hw.2 other hother)⟩

theorem announce_triple (h : Pushes env I (fun _ => True)) (hshares : Shares I) (id : ObjectId) :
    Triple env I (announce id) (fun _ w => I w ∧ Sharing [id] w) (fun w => I w ∧ Sharing [id] w) := by
  apply Triple.bind (Q := fun _ w => I w ∧ Sharing [id] w)
  . apply Triple.modify
    intro w hw
    refine ⟨hshares w id hw, ?_⟩
    intro other hother
    rw [List.mem_singleton.mp hother]
    exact Finset.mem_insert_self _ _
  . intro _
    exact ((pushes_sharing h [id]).keeps_announceProvider id).triple

/--
Announcing puts every id into the serving set, whether or not the network takes it.
-/
theorem announceAll_triple {one : ObjectId → RunM Unit} (h : Pushes env I (fun _ => True))
    (hshares : Shares I)
    (hone : ∀ (J : Runtime → Prop) (id : ObjectId), Pushes env J (fun _ => True) → Shares J →
      Triple env J (one id) (fun _ w => J w ∧ Sharing [id] w) (fun _ => True))
    (ids before : List ObjectId) :
    Triple env (fun w => I w ∧ Sharing before w) (announceAll one ids)
      (fun _ w => I w ∧ Sharing (before ++ ids) w) (fun _ => True) := by
  induction ids generalizing before with
  | nil =>
    apply Triple.pure
    intro w hw
    rw [List.append_nil]
    exact hw
  | cons id ids ih =>
    apply Triple.bind (Q := fun _ w => I w ∧ Sharing (before ++ [id]) w)
    . apply (hone _ id (pushes_sharing h before) (shares_sharing hshares before)).conseq
        (fun _ hw => hw)
      . intro _ w hw
        refine ⟨hw.1.1, ?_⟩
        intro other hother
        rcases List.mem_append.mp hother with hbefore | hid
        . exact hw.1.2 other hbefore
        . exact hw.2 other hid
      . intro _ _
        trivial
    . intro _
      have hrest := ih (before ++ [id])
      rw [List.append_assoc] at hrest
      exact hrest

end Announce

section Publish

variable {env : Env} {self : Identity} {site : Site} {manifest : AppManifest} {w : Runtime}

/--
The object that a manifest has for a path.
-/
def idAt (manifest : AppManifest) (path : String) : Option ObjectId :=
  if path = "/" then some manifest.entrypoint else latest path manifest.assets

/--
The manifest lists the pages of the site, each with an id that `r` relates to the page.
-/
structure Lists (r : ObjectId → Bytes → Prop) (site : Site) (manifest : AppManifest) : Prop where
  pages : ∀ path, Option.Rel r (idAt manifest path) (site.page path)
  root : latest "/" manifest.assets = none

omit [Primitives] in
theorem Lists.mono {r r' : ObjectId → Bytes → Prop} (h : Lists r site manifest)
    (hr : ∀ path id data, idAt manifest path = some id → r id data → r' id data) :
    Lists r' site manifest := by
  refine ⟨?_, h.root⟩
  intro path
  have hpath := h.pages path
  have hat := hr path
  generalize idAt manifest path = found at hpath hat
  generalize site.page path = page at hpath
  cases hpath with
  | none => exact .none
  | some hrel => exact .some (hat _ _ rfl hrel)

/--
The node stores `id`, which is the manifest of an app of its own that lists the pages of the site.
-/
structure StoredApp (own : Identity) (name : String) (site : Site) (id : ObjectId)
    (manifest : AppManifest) (w : Runtime) : Prop where
  name : manifest.name = name
  owner : manifest.owner = own.id
  stores : ∃ payload, ObjectId.fromPayload payload = id ∧ payload.owner = own.id ∧
    payload.data = AppManifest.codec.serialize manifest ∧ Stores payload w
  lists : Lists (Holds w) site manifest

/--
The ids of the objects that make up an app.
-/
def parts (id : ObjectId) (manifest : AppManifest) : List ObjectId :=
  id :: manifest.entrypoint :: manifest.assets.map Prod.snd

theorem pushes_storedApp (hash : CollisionFree) (env : Env) (self : Identity) (name : String)
    (site : Site) (id : ObjectId) (manifest : AppManifest) :
    Pushes env (fun w => w.identity = self ∧ StoredApp self name site id manifest w)
      (fun _ => True) := by
  apply Pushes.ofDisk
  . intro w w' hdisk hw
    obtain ⟨payload, hid, howner, hdata, hstores⟩ := hw.2.stores
    exact ⟨hdisk.identity.trans hw.1, {
      name := hw.2.name
      owner := hw.2.owner
      stores := ⟨payload, hid, howner, hdata, stores_congr hdisk.files hstores⟩
      lists := hw.2.lists.mono fun _ _ _ _ hholds => hholds.congr hdisk.files
    }⟩
  . intro w object hverify _ hw
    obtain ⟨payload, hid, howner, hdata, hstores⟩ := hw.2.stores
    exact ⟨hw.1, {
      name := hw.2.name
      owner := hw.2.owner
      stores := ⟨payload, hid, howner, hdata, hstores.storeObject hash hverify⟩
      lists := hw.2.lists.mono fun _ _ _ _ hholds => hholds.storeObject hash hverify
    }⟩
  . intro _ _ _ _
    trivial

theorem publishDirectory_triple (hash : CollisionFree) (hnamed : Named site.visible) :
    Triple env (fun w => w.identity = self) (publishDirectory site)
      (fun published w => w.identity = self ∧
        ∃ html, Uploads (pagesOf site.visible) ⟨some published.1, html, published.2⟩ w)
      (fun _ => True) := by
  have hstart (w : Runtime) : Uploads [] ⟨none, [], ∅⟩ w := by
    refine ⟨?_, AList.notMem_empty "/"⟩
    intro path
    rw [Uploaded.idAt, AList.lookup_empty, ite_self, latest]
    exact .none
  unfold publishDirectory
  apply Triple.bind ((uploadAll_triple hash hnamed [] ⟨none, [], ∅⟩).conseq
    (fun w hw => ⟨hw, hstart w⟩) (fun _ _ hw => hw) (fun _ _ => trivial))
  intro uploaded
  split
  . exact Triple.throw fun _ _ => trivial
  . next entrypoint hentrypoint =>
    apply Triple.bind ((keeps_ofExcept _).triple.conseq (fun _ hw => hw) (fun _ _ hw => hw)
      (fun _ _ => trivial))
    intro _
    apply Triple.pure
    intro w hw
    rw [← hentrypoint]
    exact ⟨hw.1, uploaded.html, hw.2⟩

theorem Uploads.lists {entrypoint : ObjectId} {html : Bytes} {assets : Assets}
    (h : Uploads (pagesOf site.visible) ⟨some entrypoint, html, assets⟩ w)
    (hentrypoint : manifest.entrypoint = entrypoint)
    (hassets : ∀ path, latest path manifest.assets = assets.lookup path) :
    Lists (Holds w) site manifest := by
  refine ⟨?_, ?_⟩
  . intro path
    have hpath := h.pages path
    rw [idAt, hentrypoint, hassets]
    exact hpath
  . rw [hassets, AList.lookup_eq_none]
    exact h.root

theorem putManifest_triple (hash : CollisionFree) (name : String) {entrypoint : ObjectId}
    {html : Bytes} {assets : Assets} :
    Triple env (fun w => w.identity = self ∧
        Uploads (pagesOf site.visible) ⟨some entrypoint, html, assets⟩ w)
      (putManifest name entrypoint assets)
      (fun result w => w.identity = self ∧ StoredApp self name site result.1 result.2 w)
      (fun _ => True) := by
  unfold putManifest
  apply Triple.bind (Q := fun v w => v.identity = self ∧ w.identity = self ∧
    Uploads (pagesOf site.visible) ⟨some entrypoint, html, assets⟩ w)
  . exact Triple.get fun w hw => ⟨hw.1, hw⟩
  intro v
  apply Triple.of_and
  intro hself
  apply Triple.bind (Q := fun entries w =>
    (∀ path, latest path entries = assets.lookup path) ∧ w.identity = self ∧
      Uploads (pagesOf site.visible) ⟨some entrypoint, html, assets⟩ w)
  . constructor
    intro w hw
    exact ⟨Latest.latest_entriesAt assets (env.iteration_perm _ _), hw.1, hw.2.mono fun _ _ hw => hw⟩
  intro entries
  apply Triple.of_and
  intro hentries
  apply Triple.bind (putObjectPublic_triple hash (fetches_uploads hash env self _ _) _ _ _)
  intro object
  apply Triple.pure
  intro w ⟨hw, hobject⟩
  refine ⟨hw.1, ?_⟩
  exact {
    name := rfl
    owner := congrArg Identity.id hself
    stores := hobject
    lists := hw.2.lists rfl hentries
  }

/--
The node stores an app of its own that lists the pages of the site, and serves all of it to its peers.
-/
structure PublishedApp (own : Identity) (name : String) (site : Site) (id : ObjectId)
    (manifest : AppManifest) (w : Runtime) : Prop extends StoredApp own name site id manifest w where
  identity : w.identity = own
  sharing : Sharing (parts id manifest) w

theorem StoredApp.congr {own : Identity} {name : String} {id : ObjectId} {w' : Runtime}
    (h : StoredApp own name site id manifest w) (hfiles : w'.storage.files = w.storage.files) :
    StoredApp own name site id manifest w' := by
  obtain ⟨payload, hid, howner, hdata, hstores⟩ := h.stores
  exact {
    name := h.name
    owner := h.owner
    stores := ⟨payload, hid, howner, hdata, stores_congr hfiles hstores⟩
    lists := h.lists.mono fun _ _ _ _ hholds => hholds.congr hfiles
  }

/--
What is left to do once the manifest is stored keeps the app: announcing it and pointing a name at it.
-/
theorem announce_and_point (hash : CollisionFree) {name : String} {id : ObjectId}
    {α : Type} {one : ObjectId → RunM Unit} {point : RunM α}
    (hone : ∀ (J : Runtime → Prop) (id : ObjectId), Pushes env J (fun _ => True) → Shares J →
      Triple env J (one id) (fun _ w => J w ∧ Sharing [id] w) (fun _ => True))
    (hpoint : ∀ J : Runtime → Prop, Pushes env J (fun _ => True) → (∀ key, Spares J key) →
      Triple env J point (fun _ => J) (fun _ => True)) :
    Triple env (fun w => w.identity = self ∧ StoredApp self name site id manifest w)
      (do
        announceAll one (parts id manifest)
        let _ ← point
        pure id)
      (fun id w => ∃ manifest, PublishedApp self name site id manifest w) (fun _ => True) := by
  have hstored := pushes_storedApp hash env self name site id manifest
  have hshares : Shares (fun w => w.identity = self ∧ StoredApp self name site id manifest w) :=
    fun w other hw => ⟨hw.1, hw.2.congr rfl⟩
  apply Triple.bind ((announceAll_triple hstored hshares hone (parts id manifest) []).conseq
    (fun _ hw => ⟨hw, fun _ hid => absurd hid List.not_mem_nil⟩) (fun _ _ hw => hw)
    (fun _ _ => trivial))
  intro _
  rw [List.nil_append]
  apply Triple.bind (hpoint _ (pushes_sharing hstored (parts id manifest)) _)
  . intro _
    apply Triple.pure
    intro w hw
    exact ⟨manifest, { toStoredApp := hw.1.2, identity := hw.1.1, sharing := hw.2 }⟩
  . intro key w bytes hw
    exact ⟨⟨hw.1.1, hw.1.2.congr rfl⟩, hw.2⟩

theorem keeps_publishAppPointer {J : Runtime → Prop} (h : Pushes env J (fun _ => True))
    (name : String) (target : ObjectId) :
    Keeps env J (CanopeeClient.publishAppPointer name target) := by
  apply Keeps.bind h.keeps_now
  intro time _
  apply Keeps.bind_get
  intro v _
  apply Keeps.bind h.keeps_settle
  intro t _
  apply Keeps.bind_read
  split
  . exact h.keeps_modify fun w => .log w nofun
  . exact Keeps.throw

theorem publishes_triple (hash : CollisionFree) (command : Publishing)
    (hnamed : Named command.site.visible) :
    Triple env (fun w => w.identity = self) command.run
      (fun id w => ∃ manifest, PublishedApp self command.appName command.site id manifest w)
      (fun _ => True) := by
  have hmanifest (name : String) (published : ObjectId × Assets) :
      Triple env (fun w => w.identity = self ∧ ∃ html, Uploads (pagesOf command.site.visible)
          ⟨some published.1, html, published.2⟩ w)
        (putManifest name published.1 published.2)
        (fun result w => w.identity = self ∧ StoredApp self name command.site result.1 result.2 w)
        (fun _ => True) := by
    constructor
    intro w ⟨hw, html, huploads⟩
    exact (putManifest_triple hash name).spec w ⟨hw, huploads⟩
  cases command with
  | publish site =>
    apply Triple.bind (publishDirectory_triple hash hnamed)
    intro published
    apply Triple.bind (hmanifest _ published)
    intro ⟨id, manifest⟩
    apply announce_and_point hash
    . intro J id hJ hshares
      apply Triple.bind (Q := fun _ w => J w ∧ Sharing [id] w)
      . apply Triple.attempt
        apply (announce_triple hJ hshares id).conseq (fun _ hw => hw) (fun _ _ hw => hw)
        intro w hw _
        exact hw
      . intro _
        exact Triple.pure fun _ hw => hw
    . intro J hJ hspares
      apply Keeps.attempted
      exact hJ.points.keeps_publishPointer (fun w _ => hspares _) _
  | appManifest site name =>
    apply Triple.bind (publishDirectory_triple hash hnamed)
    intro published
    apply Triple.bind (hmanifest name published)
    intro ⟨id, manifest⟩
    apply announce_and_point hash
    . intro J id hJ hshares
      exact (announce_triple hJ hshares id).conseq (fun _ hw => hw) (fun _ _ hw => hw)
        (fun _ _ => trivial)
    . intro J hJ _
      exact (keeps_publishAppPointer hJ _ _).triple.conseq (fun _ hw => hw) (fun _ _ hw => hw)
        (fun _ _ => trivial)

end Publish

section Files

variable {site : Site} {manifest : AppManifest} {path : String} {id : ObjectId} {data : Bytes}

theorem Has.unique (hash : CollisionFree) {data' : Bytes} (h : Has id data) (h' : Has id data') :
    data = data' := by
  obtain ⟨payload, hid, hdata⟩ := h
  obtain ⟨payload', hid', hdata'⟩ := h'
  rw [← hid', ObjectId.fromPayload_inj hash] at hid
  rw [← hdata, ← hdata', hid]

omit [Primitives] in
theorem Lists.entry {r : ObjectId → Bytes → Prop} (h : Lists r site manifest) :
    ∃ data, site.page "/" = some data ∧ r manifest.entrypoint data := by
  have hpath := h.pages "/"
  rw [idAt, if_pos rfl] at hpath
  generalize site.page "/" = page at hpath
  cases hpath with
  | some hrel => exact ⟨_, rfl, hrel⟩

omit [Primitives] in
theorem Lists.asset {r : ObjectId → Bytes → Prop} (h : Lists r site manifest)
    (hasset : latest path manifest.assets = some id) :
    ∃ data, site.page path = some data ∧ r id data := by
  have hroot : path ≠ "/" := by
    rintro rfl
    rw [h.root] at hasset
    cases hasset
  have hpath := h.pages path
  rw [idAt, if_neg hroot, hasset] at hpath
  generalize site.page path = page at hpath
  cases hpath with
  | some hrel => exact ⟨_, rfl, hrel⟩

omit [Primitives] in
theorem mem_visible_of_page (h : site.page path = some data) : ∃ file ∈ site.visible, file.2 = data := by
  obtain ⟨file, hfile, hpair⟩ := List.mem_map.mp (Latest.mem_of_latest h)
  cases hpair
  exact ⟨file, hfile, rfl⟩

/--
Files that are got for each of the ids of an app make up the site.
-/
theorem lookup_files (hash : CollisionFree) (h : Lists Has site manifest) {entrypoint : Bytes}
    (hentrypoint : Has manifest.entrypoint entrypoint) {assets : List (String × ObjectId)}
    (hassets : ∀ path, latest path assets = latest path manifest.assets)
    {files : List (String × Bytes)}
    (hfiles : List.Forall₂ (fun asset file => asset.1 = file.1 ∧ Has asset.2 file.2) assets files)
    (path : String) :
    (Latest.insertAll ((∅ : Files).insert "/" entrypoint) files).lookup path = site.page path := by
  rw [Latest.lookup_insertAll]
  have hrel := Latest.latest_rel hfiles path
  rw [hassets] at hrel
  by_cases hroot : path = "/"
  . subst hroot
    obtain ⟨data, hpage, hhas⟩ := h.entry
    rw [h.root] at hrel
    generalize latest "/" files = found at hrel
    cases hrel with
    | none => rw [Option.none_or, AList.lookup_insert, hpage, hentrypoint.unique hash hhas]
  . have hpath := h.pages path
    rw [idAt, if_neg hroot] at hpath
    rw [AList.lookup_insert_ne hroot, AList.lookup_empty, Option.or_none]
    generalize latest path manifest.assets = listed at hrel hpath
    generalize latest path files = found at hrel
    generalize site.page path = page at hpath
    cases hrel with
    | none =>
      cases hpath with
      | none => rfl
    | some hfound =>
      cases hpath with
      | some hpage => rw [hfound.unique hash hpage]

end Files

section Load

variable {env : Env} {own : Identity} {name : String} {site : Site} {manifest : AppManifest}
variable {id : ObjectId} {data : Bytes} {w : Runtime}

/--
No file of the site looks like an envelope, and its name is not as long as four bytes can tell.
-/
structure Legible (site : Site) (name : String) : Prop where
  files : ∀ file ∈ site.visible, Envelope.isEnvelope file.2 = false
  name : (Codec.utf8 name).length < 2 ^ 24

omit [Primitives] in
theorem isEnvelope_manifest (h : (Codec.utf8 manifest.name).length < 2 ^ 24) :
    Envelope.isEnvelope (AppManifest.codec.serialize manifest) = false := by
  have hput : ∃ rest, AppManifest.codec.serialize manifest =
      Codec.leBytes 8 (Codec.utf8 manifest.name).length ++ rest := by
    have hlength : Codec.length.put (Codec.utf8 manifest.name).length =
        Codec.leBytes 8 (Codec.utf8 manifest.name).length := by
      apply if_pos
      rw [Codec.lengthEscape]
      omega
    rw [← hlength]
    exact ⟨_, by
      rw [← List.append_assoc]
      rfl⟩
  obtain ⟨rest, hput⟩ := hput
  have hzero : (Codec.utf8 manifest.name).length / 256 / 256 / 256 = 0 := by omega
  have hfourth : (AppManifest.codec.serialize manifest)[3]? = some 0 := by
    rw [hput]
    simp [Codec.leBytes, hzero]
  have hmagic : Envelope.magic[3]? = some 49 := by decide
  rw [Envelope.isEnvelope, Bool.and_eq_false_iff]
  right
  rw [beq_eq_false_iff_ne]
  intro htake
  rw [← htake, List.getElem?_take_of_lt (by decide), hfourth] at hmagic
  exact absurd hmagic (by decide)

theorem exec_openObject {object : Object} (h : Envelope.isEnvelope object.payload.data = false) :
    exec (openObject object) env w = (.ok object, w) := by
  have hopen : openWith w.identity object = .ok object := by
    rw [openWith, isEncrypted, h]
    rfl
  unfold openObject
  rw [exec_bind_ok (Prog.exec_get env w), exec_ofExcept, hopen]

theorem exec_mapErr {α : Type} {m : RunM α} {v : Runtime} {a : α} (why : String → String)
    (h : exec m env w = (.ok a, v)) : exec (mapErr why m) env w = (.ok a, v) := by
  unfold mapErr
  have hattempt : exec (Prog.attempt m) env w = (.ok (.ok a), v) := by
    rw [Prog.exec_attempt, h]
  rw [exec_bind_ok hattempt]
  rfl

theorem exec_loadAssets {assets : List (String × ObjectId)}
    (h : ∀ asset ∈ assets, ∃ data, Holds w asset.2 data ∧ Envelope.isEnvelope data = false)
    (files : Files) :
    ∃ loaded, exec (loadAssets files assets) env w = (.ok (Latest.insertAll files loaded), w) ∧
      List.Forall₂ (fun asset file => asset.1 = file.1 ∧ Has asset.2 file.2) assets loaded := by
  induction assets generalizing files with
  | nil => exact ⟨[], rfl, .nil⟩
  | cons asset assets ih =>
    obtain ⟨path, assetId⟩ := asset
    obtain ⟨data, ⟨payload, hid, hdata, object, hstored, hpayload⟩, hplain⟩ :=
      h (path, assetId) List.mem_cons_self
    obtain ⟨loaded, hrest, hloaded⟩ := ih (fun other hother => h other (List.mem_cons_of_mem _ hother))
      (files.insert path object.payload.data)
    have hid : ObjectId.fromPayload payload = assetId := hid
    refine ⟨(path, object.payload.data) :: loaded, ?_, .cons ⟨rfl, payload, hid, ?_⟩ hloaded⟩
    . have hget : exec (Prog.attempt (getVerified assetId)) env w = (.ok (.ok object), w) := by
        rw [Prog.exec_attempt, exec_getVerified, ← hid, hstored]
      have hopen : exec (openObject object) env w = (.ok object, w) := by
        apply exec_openObject
        rw [hpayload, hdata]
        exact hplain
      unfold loadAssets
      rw [exec_bind_ok hget]
      dsimp only
      rw [exec_bind_ok hopen]
      exact hrest
    . rw [hpayload]

/--
The objects of an app that a node stores, as it reads them.
-/
structure Readable (w : Runtime) (id : ObjectId) (manifest : AppManifest) (object entry : Object) :
    Prop where
  stored : w.storage.getVerified id = .ok object
  plain : Envelope.isEnvelope object.payload.data = false
  decode : object.decode AppManifest.codec = some manifest
  entryStored : w.storage.getVerified manifest.entrypoint = .ok entry
  entryPlain : Envelope.isEnvelope entry.payload.data = false
  entryHas : Has manifest.entrypoint entry.payload.data

theorem StoredApp.readable (h : StoredApp own name site id manifest w)
    (hlegible : Legible site name) :
    ∃ object entry, Readable w id manifest object entry ∧ object.payload.owner = own.id := by
  obtain ⟨payload, hid, howner, hdata, object, hstored, hpayload⟩ := h.stores
  obtain ⟨page, hpage, epayload, heid, hedata, entry, hestored, hepayload⟩ := h.lists.entry
  obtain ⟨file, hfile, hfileData⟩ := mem_visible_of_page hpage
  refine ⟨object, entry, ?_, by rw [hpayload, howner]⟩
  exact {
    stored := hid ▸ hstored
    plain := by
      rw [hpayload, hdata]
      exact isEnvelope_manifest (h.name ▸ hlegible.name)
    decode := by rw [Object.decode, hpayload, hdata, Codec.deserialize_serialize]
    entryStored := heid ▸ hestored
    entryPlain := by
      rw [hepayload, hedata, ← hfileData]
      exact hlegible.files file hfile
    entryHas := ⟨epayload, heid, by rw [hepayload]⟩
  }

theorem StoredApp.holds_asset (h : StoredApp own name site id manifest w)
    (hlegible : Legible site name) {assets : List (String × ObjectId)}
    (hnodup : (assets.map Prod.fst).Nodup)
    (hassets : ∀ path, latest path assets = latest path manifest.assets) :
    ∀ asset ∈ assets, ∃ data, Holds w asset.2 data ∧ Envelope.isEnvelope data = false := by
  intro asset hasset
  have hlatest : latest asset.1 manifest.assets = some asset.2 := by
    rw [← hassets, Latest.latest_eq_some_iff hnodup]
    exact hasset
  obtain ⟨data, hpage, hholds⟩ := h.lists.asset hlatest
  obtain ⟨file, hfile, hfileData⟩ := mem_visible_of_page hpage
  exact ⟨data, hholds, hfileData ▸ hlegible.files file hfile⟩

theorem exec_decodeObject {object : Object} (h : object.decode AppManifest.codec = some manifest) :
    exec (decodeObject AppManifest.codec object) env w = (.ok manifest, w) := by
  unfold decodeObject
  rw [h]
  rfl

/--
The node that published an app loads the files of the site for it.
-/
theorem PublishedApp.exec_loadAppFiles (hash : CollisionFree)
    (h : PublishedApp own name site id manifest w) (hlegible : Legible site name) (env : Env) :
    ∃ files, (exec (loadAppFiles id) env w).1 = .ok files ∧
      ∀ path, files.lookup path = site.page path := by
  obtain ⟨object, entry, hread, howner⟩ := h.readable hlegible
  obtain ⟨assets, hiterate, hnodup, hassets⟩ := exec_iterate manifest.assets env w
  have hget : exec (getVerified id) env w = (.ok object, w) := by
    rw [exec_getVerified, hread.stored]
  have hgetEntry : exec (getVerified manifest.entrypoint) env w = (.ok entry, w) := by
    rw [exec_getVerified, hread.entryStored]
  have hholds (asset : String × ObjectId) (hasset : asset ∈ assets) :
      ∃ data, Holds { w with tick := w.tick + 1 } asset.2 data ∧ Envelope.isEnvelope data = false := by
    obtain ⟨data, hholds, hplain⟩ := h.holds_asset hlegible hnodup hassets asset hasset
    exact ⟨data, hholds.congr rfl, hplain⟩
  obtain ⟨loaded, hload, hloaded⟩ :=
    exec_loadAssets hholds ((∅ : Files).insert "/" entry.payload.data)
  refine ⟨Latest.insertAll ((∅ : Files).insert "/" entry.payload.data) loaded, ?_, ?_⟩
  . unfold loadAppFiles
    rw [exec_bind_ok (exec_mapErr _ hget), exec_bind_ok (Prog.exec_get env w)]
    rw [if_neg, if_neg]
    . rw [exec_bind_ok (exec_mapErr _ hget), exec_bind_ok (exec_openObject hread.plain),
        exec_bind_ok (exec_decodeObject hread.decode), exec_bind_ok (exec_mapErr _ hgetEntry),
        exec_bind_ok (exec_openObject hread.entryPlain), exec_bind_ok hiterate, hload]
    . exact not_not_intro (h.sharing id List.mem_cons_self)
    . rw [howner, h.identity]
      exact not_not_intro rfl
  . have hlists : Lists Has site manifest := h.lists.mono fun _ _ _ _ hholds => hholds.has
    exact lookup_files hash hlists hread.entryHas hassets hloaded

end Load

section Fetch

variable {env : Env} {own reader : Identity} {name : String} {site : Site} {manifest : AppManifest}
variable {id : ObjectId} {data : Bytes}

/--
A node of `reader` reads `opened` under `id`: it is a valid object that is stored or was answered for
it.
-/
def ReadAt (env : Env) (reader : Identity) (id : ObjectId) (opened : Object) : Prop :=
  ∃ object, Fetched env id object ∧ Runtime.Reads reader object opened

theorem keeps_readObject (env : Env) (reader : Identity) (id : ObjectId) :
    Keeps env (fun w => w.identity = reader) (readObject id) (ReadAt env reader id) := by
  apply ((ingress_identity env reader).keeps_readObject id).weaken
  rintro opened ⟨object, w, hfetched, rfl, hopen⟩
  exact ⟨object, hfetched, reads_of_openWith hopen⟩

theorem keeps_fetchFromProviders (id : ObjectId) (lastErr : String) (providers : List String) :
    Keeps env (fun w => w.identity = reader) (fetchFromProviders id lastErr providers)
      (ReadAt env reader id) := by
  have hI := ingress_identity env reader
  have hshares : Shares (fun w => w.identity = reader) := fun _ _ hw => hw
  induction providers generalizing lastErr with
  | nil => exact Keeps.throw
  | cons peerId providers ih =>
    apply Keeps.bind (Q := fun _ => True)
    . apply keeps_attempt
      unfold CanopeeClient.fetchObject
      split
      . exact (hI.keeps_getObject _ id).weaken fun _ _ => trivial
      . exact Keeps.throw
    . intro r _
      cases r with
      | error e => exact ih e
      | ok bundle =>
        apply Keeps.bind (hI.keeps_importBundle fun _ => trivial)
        intro _ _
        apply Keeps.bind (keeps_attempt (hI.keeps_announce hshares id))
        intro _ _
        exact keeps_readObject env reader id

theorem keeps_getOrFetch (id : ObjectId) (peer : Option String) :
    Keeps env (fun w => w.identity = reader) (getOrFetch id peer) (ReadAt env reader id) := by
  have hI := ingress_identity env reader
  apply Keeps.bind (Q := fun r => ∀ object, r = .ok object → ReadAt env reader id object)
  . apply Keeps.attempt
    . apply (keeps_readObject env reader id).weaken
      rintro object hread _ ⟨⟩
      exact hread
    . rintro e object ⟨⟩
  . intro r hr
    cases r with
    | ok object => exact Keeps.pure (hr object rfl)
    | error e =>
      apply Keeps.bind (Q := fun _ => True)
      . unfold resolveProviders CanopeeClient.findProviders
        apply Keeps.bind (Q := fun _ => True)
        . apply Keeps.bind (hI.keeps_findProviders id)
          intro _ _
          exact Keeps.pure trivial
        . intro _ _
          exact Keeps.pure trivial
      . intro providers _
        split
        . exact Keeps.throw
        . exact keeps_fetchFromProviders id _ providers

theorem keeps_fetchAssets (peer : Option String) (assets : List (String × ObjectId)) :
    Keeps env (fun w => w.identity = reader) (fetchAssets peer assets)
      (List.Forall₂ (fun asset file => asset.1 = file.1 ∧
        ∃ opened, ReadAt env reader asset.2 opened ∧ opened.payload.data = file.2) assets) := by
  induction assets with
  | nil => exact Keeps.pure .nil
  | cons asset assets ih =>
    apply Keeps.bind (keeps_getOrFetch asset.2 peer)
    intro opened hopened
    apply Keeps.bind ih
    intro files hfiles
    exact Keeps.pure (.cons ⟨rfl, opened, hopened, rfl⟩ hfiles)

/--
What is known of a fetched app, whoever has answered.
-/
structure FetchedApp (env : Env) (reader : Identity) (id : ObjectId) (app : AppManifest × Files) :
    Prop where
  manifest : ∃ opened, ReadAt env reader id opened ∧ opened.decode AppManifest.codec = some app.1
  files : ∃ entrypoint assets files, ReadAt env reader app.1.entrypoint entrypoint ∧
    (∀ path, latest path assets = latest path app.1.assets) ∧
    List.Forall₂ (fun asset file => asset.1 = file.1 ∧
      ∃ opened, ReadAt env reader asset.2 opened ∧ opened.payload.data = file.2) assets files ∧
    (assets.map Prod.fst).Nodup ∧
    app.2 = Latest.insertAll ((∅ : Files).insert "/" entrypoint.payload.data) files

theorem keeps_fetchApp (id : ObjectId) (peer : Option String) :
    Keeps env (fun w => w.identity = reader) (fetchApp id peer) (FetchedApp env reader id) := by
  apply Keeps.bind (keeps_getOrFetch id peer)
  intro opened hopened
  apply Keeps.bind (keeps_decodeObject AppManifest.codec opened)
  intro manifest hmanifest
  apply Keeps.bind (keeps_getOrFetch manifest.entrypoint peer)
  intro entrypoint hentrypoint
  apply Keeps.bind (Q := fun assets => (assets.map Prod.fst).Nodup ∧
    ∀ path, latest path assets = latest path manifest.assets)
  . constructor
    intro w hw
    obtain ⟨assets, hiterate, hnodup, hassets⟩ := exec_iterate manifest.assets env w
    rw [hiterate]
    exact ⟨hw, hnodup, hassets⟩
  intro assets ⟨hnodup, hassets⟩
  apply Keeps.bind (keeps_fetchAssets peer assets)
  intro files hfiles
  apply Keeps.pure
  exact {
    manifest := ⟨opened, hopened, hmanifest⟩
    files := ⟨entrypoint, assets, files, hentrypoint, hassets, hfiles, hnodup, rfl⟩
  }

/--
When peers answer with the objects that they are asked for, what is read under an id is the object
with that id, unless it is an envelope.
-/
theorem ReadAt.payload (hash : CollisionFree) {opened : Object} (h : ReadAt env reader id opened)
    (hcarry : AnswersCarry env id) {payload : ObjectPayload}
    (hid : ObjectId.fromPayload payload = id) (hplain : Envelope.isEnvelope payload.data = false) :
    opened.payload = payload := by
  obtain ⟨object, hfetched, hreads⟩ := h
  have hobject := hfetched.id_eq hcarry
  rw [Object.id_of_verify hfetched.1, ← hid, ObjectId.fromPayload_inj hash] at hobject
  have hopened : opened = object := by
    apply hreads.plain
    rw [isEncrypted, hobject]
    exact hplain
  rw [hopened, hobject]

theorem ReadAt.has (hash : CollisionFree) {opened : Object} (h : ReadAt env reader id opened)
    (hcarry : AnswersCarry env id) (hhas : Has id data)
    (hplain : Envelope.isEnvelope data = false) : Has id opened.payload.data := by
  obtain ⟨payload, hid, hdata⟩ := hhas
  have hpayload := h.payload hash hcarry hid (hdata ▸ hplain)
  exact ⟨payload, hid, congrArg ObjectPayload.data hpayload.symm⟩

/--
A fetched app whose manifest was published for a site is that site.
-/
theorem FetchedApp.eq_site (hash : CollisionFree) {app : AppManifest × Files} {w : Runtime}
    (h : FetchedApp env reader id app) (hpublished : PublishedApp own name site id manifest w)
    (hlegible : Legible site name) (hcarry : ∀ id, AnswersCarry env id) :
    app.1 = manifest ∧ ∀ path, app.2.lookup path = site.page path := by
  obtain ⟨opened, hopened, hdecode⟩ := h.manifest
  obtain ⟨payload, hid, _, hdata, _⟩ := hpublished.stores
  have hpayload := hopened.payload hash (hcarry id) hid
    (hdata ▸ isEnvelope_manifest (hpublished.name ▸ hlegible.name))
  have hmanifest : app.1 = manifest := by
    rw [Object.decode, hpayload, hdata, Codec.deserialize_serialize, Option.some.injEq] at hdecode
    exact hdecode.symm
  have hlists : Lists Has site manifest :=
    hpublished.lists.mono fun _ _ _ _ hholds => hholds.has
  have hplain {path : String} {data : Bytes} (hpage : site.page path = some data) :
      Envelope.isEnvelope data = false := by
    obtain ⟨file, hfile, hfileData⟩ := mem_visible_of_page hpage
    exact hfileData ▸ hlegible.files file hfile
  refine ⟨hmanifest, ?_⟩
  obtain ⟨entrypoint, assets, files, hentrypoint, hassets, hfiles, hnodup, hmap⟩ := h.files
  rw [hmanifest] at hentrypoint hassets
  have hlisted : ∀ asset ∈ assets, ∃ data, site.page asset.1 = some data ∧ Has asset.2 data := by
    intro asset hasset
    apply hlists.asset
    rw [← hassets, Latest.latest_eq_some_iff hnodup]
    exact hasset
  have hcontents := (List.forall₂_and_left _ _).mpr ⟨hlisted, hfiles⟩
  intro path
  rw [hmap]
  apply lookup_files hash hlists _ hassets _ path
  . obtain ⟨data, hpage, hhas⟩ := hlists.entry
    exact hentrypoint.has hash (hcarry _) hhas (hplain hpage)
  . apply hcontents.imp
    rintro asset file ⟨⟨data, hpage, hhas⟩, hpath, opened, hopened, hfile⟩
    exact ⟨hpath, hfile ▸ hopened.has hash (hcarry _) hhas (hplain hpage)⟩

theorem exec_getOrFetch {w : Runtime} {object : Object} (hstored : w.storage.getVerified id = .ok object)
    (hplain : Envelope.isEnvelope object.payload.data = false) (peer : Option String) :
    exec (getOrFetch id peer) env w = (.ok object, w) := by
  have hopen : openWith w.identity object = .ok object := by
    rw [openWith, isEncrypted, hplain]
    rfl
  have hget : exec (Prog.attempt (CanopeeClient.get id)) env w = (.ok (.ok object), w) := by
    rw [Prog.exec_attempt, CanopeeClient.get, readObject_of_stored hstored, hopen]
  unfold getOrFetch
  rw [exec_bind_ok hget]
  rfl

theorem exec_fetchAssets (env : Env) {w : Runtime} {assets : List (String × ObjectId)}
    (h : ∀ asset ∈ assets, ∃ data, Holds w asset.2 data ∧ Envelope.isEnvelope data = false)
    (peer : Option String) :
    ∃ files, exec (fetchAssets peer assets) env w = (.ok files, w) := by
  induction assets with
  | nil => exact ⟨[], rfl⟩
  | cons asset assets ih =>
    obtain ⟨data, ⟨payload, hid, hdata, object, hstored, hpayload⟩, hplain⟩ :=
      h asset List.mem_cons_self
    obtain ⟨files, hfiles⟩ := ih fun other hother => h other (List.mem_cons_of_mem asset hother)
    rw [hid] at hstored
    refine ⟨(asset.1, object.payload.data) :: files, ?_⟩
    unfold fetchAssets
    rw [exec_bind_ok (exec_getOrFetch hstored (by rw [hpayload, hdata]; exact hplain) peer),
      exec_bind_ok hfiles]
    rfl

/--
The node that published an app opens it without asking anybody.
-/
theorem PublishedApp.exec_fetchApp {w : Runtime} (h : PublishedApp own name site id manifest w)
    (hlegible : Legible site name) (env : Env) (peer : Option String) :
    ∃ app, exec (fetchApp id peer) env w = (.ok app, { w with tick := w.tick + 1 }) := by
  obtain ⟨object, entry, hread, _⟩ := h.readable hlegible
  obtain ⟨assets, hiterate, hnodup, hassets⟩ := exec_iterate manifest.assets env w
  have hholds (asset : String × ObjectId) (hasset : asset ∈ assets) :
      ∃ data, Holds { w with tick := w.tick + 1 } asset.2 data ∧ Envelope.isEnvelope data = false := by
    obtain ⟨data, hholds, hplain⟩ := h.holds_asset hlegible hnodup hassets asset hasset
    exact ⟨data, hholds.congr rfl, hplain⟩
  obtain ⟨files, hfiles⟩ := exec_fetchAssets env hholds peer
  refine ⟨(manifest, Latest.insertAll ((∅ : Files).insert "/" entry.payload.data) files), ?_⟩
  unfold fetchApp
  rw [exec_bind_ok (exec_getOrFetch hread.stored hread.plain peer),
    exec_bind_ok (exec_decodeObject hread.decode),
    exec_bind_ok (exec_getOrFetch hread.entryStored hread.entryPlain peer),
    exec_bind_ok hiterate, exec_bind_ok hfiles]
  rfl

end Fetch

end Cli

end Canopee

namespace Canopee.Cli

open Canopee.Transparent
open Prog (exec)

/--
A directory with a page and a style sheet.
-/
def garden : Site where
  directory := "site/Garden"
  files := [(["index.html"], Codec.utf8 "<p>"), (["css", "main.css"], Codec.utf8 "p{}")]

theorem answersCarry_quiet (time : Int) (id : ObjectId) :
    Runtime.AnswersCarry (Env.quiet time) id := by
  rintro bundle ⟨t, peer, hanswer⟩
  cases hanswer

def gardenPublished : Except String ObjectId × Runtime :=
  exec (Publishing.appManifest garden "garden").run (Env.quiet 0) (.fresh alice laptop)

theorem isOk_gardenDirectory :
    (exec (publishDirectory garden) (Env.quiet 0) (.fresh alice laptop)).1.isOk = true := by
  decide +kernel

theorem isOk_gardenPublished : gardenPublished.1.isOk = true := by
  have hok := isOk_gardenDirectory
  rcases hrun : exec (publishDirectory garden) (Env.quiet 0) (.fresh alice laptop) with ⟨r, v⟩
  rw [hrun] at hok
  cases r with
  | error e => cases hok
  | ok uploaded =>
    obtain ⟨id, w', hpublish⟩ := appManifest_succeeds signatureLaws (fun _ => rfl) (fun _ => rfl)
      (fun _ => rfl) hrun "garden"
    have hpublished : gardenPublished = (.ok id, w') := hpublish
    rw [hpublished]
    rfl
theorem named_garden : Named garden.visible := by
  unfold Named
  decide

theorem legible_garden : Legible garden "garden" :=
  ⟨by decide, by decide⟩

end Canopee.Cli
