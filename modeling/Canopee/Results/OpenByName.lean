import Canopee.Cli.Publish
import Canopee.Results.Addresses
import Canopee.Results.Labels
import Canopee.Results.AppPointer
import Canopee.Runtime.Puts

/-!
This module contains when a published app opens by its name: the two commands that publish put their
pointers under different names, and one of them is not the one that is looked up.
-/

namespace Canopee

open Primitives
open Canopee.Runtime (HasPut puts announce putObjectPublic)
open Prog (Triple Keeps exec exec_bind_ok exec_bind_error)

variable [Primitives]

namespace Cli

/--
What a DHT has under each key.
-/
abbrev Dht := Bytes → Option Bytes

omit [Primitives] in
/--
The last value that was put under each key.
-/
def Dht.after (dht : Dht) (puts : List (Bytes × Bytes)) : Dht :=
  puts.foldl (fun dht (key, value) => Function.update dht key (some value)) dht

/--
Lookups return what the DHT has.
-/
def Returns (env : Env) (dht : Dht) : Prop :=
  ∀ t key, env.record t key = .ok (dht key)

/--
The DHT has a record that verifies under the key of `(owner, name)`, and it points at `manifest`.
-/
def Answers (dht : Dht) (owner : IdentityId) (name : String) (manifest : ObjectId) : Prop :=
  ∃ bytes record, dht (AppPointerRecord.key owner name) = some bytes ∧
    AppPointerRecord.codec.deserialize bytes = some record ∧ record.verify = true ∧
    record.manifest = manifest

section Opening

variable {env : Env} {dht : Dht} {v : Runtime} {manifest : ObjectId}

theorem resolveAppPointer_iff (h : Returns env dht) {owner : IdentityId} {name : String} :
    (exec (CanopeeClient.resolveAppPointer owner name) env v).1 = .ok (some manifest) ↔
      Answers dht owner name manifest := by
  rw [CanopeeClient.resolveAppPointer_eq_some_iff]
  unfold CanopeeClient.Answered Answers
  simp only [Runtime.getRecord_fst, h _ _, Except.ok.injEq]
  constructor
  . rintro ⟨record, ⟨bytes, hbytes, hrecord, hverify⟩, hmanifest⟩
    exact ⟨bytes, record, hbytes, hrecord, hverify, hmanifest⟩
  . rintro ⟨bytes, record, hbytes, hrecord, hverify, hmanifest⟩
    exact ⟨record, ⟨bytes, hbytes, hrecord, hverify⟩, hmanifest⟩

theorem openByName_iff (h : Returns env dht) {owner name : String} :
    (exec (openByName owner name) env v).1 = .ok manifest ↔ Answers dht ⟨owner⟩ name manifest := by
  rw [← resolveAppPointer_iff h (v := v)]
  unfold openByName
  rw [Prog.exec_bind]
  generalize exec (CanopeeClient.resolveAppPointer ⟨owner⟩ name) env v = res
  rcases res with ⟨e | found, w⟩
  . simp
  . cases found with
    | none => simp
    | some id => simp

theorem handle_iff (h : Returns env dht) {path : String} {aliases : Except String Aliases}
    {uri : String} :
    (exec (handle path aliases uri) env v).1 = .ok manifest ↔
      ∃ owner name, handledAddress path aliases uri = .ok (owner, name) ∧
        Answers dht ⟨owner⟩ name manifest := by
  unfold handle
  rw [Prog.exec_bind, Runtime.exec_ofExcept]
  cases haddress : handledAddress path aliases uri with
  | error e => simp
  | ok address =>
    obtain ⟨owner, name⟩ := address
    simp only [openByName_iff h, Except.ok.injEq, Prod.mk.injEq]
    constructor
    . intro hanswers
      exact ⟨owner, name, ⟨rfl, rfl⟩, hanswers⟩
    . rintro ⟨_, _, ⟨rfl, rfl⟩, hanswers⟩
      exact hanswers

end Opening

/--
The two commands that publish a directory.
-/
inductive Publishing where
  | publish (site : Site)
  | appManifest (site : Site) (name : String)

namespace Publishing

def run : Publishing → RunM ObjectId
  | publish site => Cli.publish site
  | appManifest site name => Cli.appManifest site name

def appName : Publishing → String
  | publish site => appNameFromDirectory site.directory
  | appManifest _ name => name

/--
The name in the pointer record.
-/
def recordName : Publishing → String
  | publish site => "app:" ++ appNameFromDirectory site.directory
  | appManifest _ name => name

end Publishing

section Run

variable {env : Env} {own : Identity} {records : List (Bytes × Bytes)}

theorem hasPut_uploadAll (files : List (List String × Bytes)) (uploaded : Uploaded) :
    Keeps env (HasPut own records) (uploadAll uploaded files) := by
  induction files generalizing uploaded with
  | nil => exact Keeps.pure trivial
  | cons file files ih =>
    apply Keeps.bind (Q := fun _ => True)
    . apply Keeps.bind (Q := fun _ => True)
      . apply Keeps.bind (Runtime.hasPut_putObjectPublic _ _ _)
        intro object _
        exact Keeps.pure trivial
      . intro id _
        split
        . exact Keeps.pure trivial
        . exact Keeps.pure trivial
    . intro uploaded _
      exact ih uploaded

theorem hasPut_publishDirectory (site : Site) :
    Keeps env (HasPut own records) (publishDirectory site) := by
  apply Keeps.bind (hasPut_uploadAll _ _)
  intro uploaded _
  split
  . exact Keeps.throw
  . apply Keeps.bind (Runtime.hasPut_ofExcept _)
    intro _ _
    exact Keeps.pure trivial

theorem hasPut_putManifest (name : String) (entrypoint : ObjectId) (assets : Assets) :
    Keeps env (HasPut own records) (putManifest name entrypoint assets)
      (fun result => result.2.name = name) := by
  apply Keeps.bind_get
  intro w _
  apply Keeps.bind (Q := fun _ => True)
  . apply Keeps.bind Runtime.hasPut_nextTick
    intro t _
    apply Keeps.bind_read
    exact Keeps.pure trivial
  . intro iterated _
    apply Keeps.bind (Runtime.hasPut_putObjectPublic _ _ _)
    intro object _
    exact Keeps.pure rfl

theorem hasPut_announceAll {one : ObjectId → RunM Unit}
    (h : ∀ id, Keeps env (HasPut own records) (one id)) (ids : List ObjectId) :
    Keeps env (HasPut own records) (announceAll one ids) := by
  induction ids with
  | nil => exact Keeps.pure trivial
  | cons id ids ih =>
    apply Keeps.bind (h id)
    intro _ _
    exact ih

theorem publishAppPointer_puts (name : String) (manifest : ObjectId) :
    Triple env (HasPut own records) (CanopeeClient.publishAppPointer name manifest)
      (fun _ w => ∃ time, HasPut own (records ++ [(AppPointerRecord.key own.id name,
        AppPointerRecord.codec.serialize (.sign own time name manifest))]) w)
      (fun _ => True) := by
  have hweaken {α : Type} {m : RunM α} (h : Keeps env (HasPut own records) m) :
      Triple env (HasPut own records) m (fun _ => HasPut own records) (fun _ => True) :=
    h.triple.conseq (fun _ hw => hw) (fun _ _ hw => hw) (fun _ _ => trivial)
  apply Triple.bind (hweaken Runtime.hasPut_now)
  intro time
  constructor
  intro w hw
  rw [exec_bind_ok (Prog.exec_get env w)]
  dsimp only
  rw [hw.identity, AppPointerRecord.sign_owner]
  apply Triple.spec _ w hw
  apply Triple.bind (hweaken Runtime.hasPut_settle)
  intro t
  constructor
  intro w hw
  rw [exec_bind_ok (Prog.exec_read env w)]
  by_cases haccepts : env.accepts t = true
  . rw [if_pos haccepts]
    refine ⟨time, hw.identity, ?_⟩
    change puts (Runtime.log _ w) = _
    rw [← hw.puts, puts, Runtime.log, List.filterMap_append]
    rfl
  . rw [if_neg haccepts]
    trivial

/--
What a command that returns has put into the DHT: nothing, if it was `publish` and its pointer
failed, and else one record.
-/
theorem run_puts (command : Publishing) :
    Triple env (HasPut own records) command.run
      (fun manifest w => (∃ site, command = .publish site) ∧ HasPut own records w ∨
        ∃ time, HasPut own (records ++ [(AppPointerRecord.key own.id command.recordName,
          AppPointerRecord.codec.serialize (.sign own time command.recordName manifest))]) w)
      (fun _ => True) := by
  have hweaken {α : Type} {m : RunM α} {Q : α → Prop} (h : Keeps env (HasPut own records) m Q) :
      Triple env (HasPut own records) m (fun a w => Q a ∧ HasPut own records w)
        (fun _ => True) := by
    apply Triple.conseq h (fun _ hw => hw) _ (fun _ _ => trivial)
    intro a w hw
    exact ⟨hw.2, hw.1⟩
  cases command with
  | publish site =>
    apply Triple.bind (hweaken (hasPut_publishDirectory site))
    intro published
    apply Triple.of_and
    intro _
    apply Triple.bind (hweaken (hasPut_putManifest _ _ _))
    intro manifest
    apply Triple.of_and
    intro _
    apply Triple.bind (hweaken (hasPut_announceAll _ _))
    . intro _
      apply Triple.of_and
      intro _
      apply Triple.bind (Triple.attempt (R := fun _ w => HasPut own records w ∨
        ∃ time, HasPut own (records ++ [(AppPointerRecord.key own.id (Publishing.publish site).recordName,
          AppPointerRecord.codec.serialize
            (.sign own time (Publishing.publish site).recordName manifest.1))]) w) _)
      . intro _
        apply Triple.pure
        intro w hw
        exact hw.imp_left fun hw => ⟨⟨site, rfl⟩, hw⟩
      . apply (Runtime.publishPointer_puts _ manifest.1).conseq (fun _ hw => hw)
        . intro _ w hw
          exact .inr hw
        . intro w hw _
          exact .inl hw
    . intro id
      apply Keeps.bind (Q := fun _ => True)
      . exact Keeps.attempt (Runtime.hasPut_announce id) fun _ => trivial
      . intro _ _
        exact Keeps.pure trivial
  | appManifest site name =>
    apply Triple.bind (hweaken (hasPut_publishDirectory site))
    intro published
    apply Triple.of_and
    intro _
    apply Triple.bind (hweaken (hasPut_putManifest name _ _))
    intro manifest
    apply Triple.of_and
    intro hname
    apply Triple.bind (hweaken (hasPut_announceAll Runtime.hasPut_announce _))
    intro _
    apply Triple.of_and
    intro _
    rw [hname]
    apply Triple.bind (publishAppPointer_puts name manifest.1)
    intro _
    apply Triple.pure
    intro w hw
    exact .inr hw

end Run

/--
The app opens by its name, over the address and over the handler's.
-/
structure OpensByName (env : Env) (v : Runtime) (path : String) (aliases : Except String Aliases)
    (own : Identity) (name : String) (manifest : ObjectId) : Prop where
  opened : (exec (openByName own.id.text name) env v).1 = .ok manifest
  handled : (exec (handle path aliases (own.id.text ++ "/" ++ name)) env v).1 = .ok manifest

/--
The app was published by `canopee app-manifest`, under a name that is one segment of an address.
-/
def Publishing.Addressable : Publishing → Prop
  | publish _ => False
  | appManifest _ name => Segment name.toList

section Addresses

variable {path : String} {aliases : Except String Aliases} {own : Identity} {name : String}

theorem handledAddress_own (hpeer : Segment (peerIdOf (keypairPublic own.signingKey)).base58.toList)
    (hname : Segment name.toList) :
    handledAddress path aliases (own.id.text ++ "/" ++ name) = .ok (own.id.text, name) := by
  unfold handledAddress
  have hsplit : splitUri (own.id.text ++ "/" ++ name) = .ok (own.id.text, name) :=
    splitUri_canonical hpeer hname
  have howner : resolveOwner path aliases own.id.text = .ok own.id.text := by
    unfold resolveOwner
    rw [if_pos]
    simp [Identity.id, identityIdOf, identityPrefix]
  rw [hsplit]
  change (do pure (← resolveOwner path aliases own.id.text, name)) = _
  rw [howner]
  rfl

omit [Primitives] in
theorem splitUri_of_handledAddress {uri : String} {address : String × String} {e : String}
    (h : handledAddress path (.error e) uri = .ok address) :
    splitUri uri = .ok address ∧ "canopee://identity/".toList <+: address.1.toList := by
  unfold handledAddress at h
  cases hsplit : splitUri uri with
  | error e' =>
    rw [hsplit] at h
    cases h
  | ok split =>
    obtain ⟨owner, name⟩ := split
    rw [hsplit] at h
    change (do pure (← resolveOwner path (.error e) owner, name)) = _ at h
    unfold resolveOwner at h
    split at h
    . next hprefix =>
      cases h
      exact ⟨rfl, List.isPrefixOf_iff_prefix.mp hprefix⟩
    . cases h

theorem hasSegments_own
    (hpeer : Segment (peerIdOf (keypairPublic own.signingKey)).base58.toList) :
    HasSegments (own.id.text ++ "/" ++ name)
      ("identity".toList :: (peerIdOf (keypairPublic own.signingKey)).base58.toList ::
        Text.splitBy (· = '/') name.toList) := by
  have hslash {s : List Char} (hs : Segment s) : ∀ a ∈ s, decide (a = '/') = false := by
    intro a ha
    rw [decide_eq_false_iff_not]
    rintro rfl
    exact hs.2 ha
  refine ⟨"identity".toList ++ '/' :: ((peerIdOf (keypairPublic own.signingKey)).base58.toList ++
    '/' :: name.toList), ?_, ?_⟩
  . simp [Identity.id, identityIdOf, identityPrefix]
  . have hidentity : Segment "identity".toList := by decide
    rw [Text.splitBy_append_cons hidentity.1 (hslash hidentity) (by simp),
      Text.splitBy_append_cons hpeer.1 (hslash hpeer) (by simp)]

/--
A name that is not one segment is not what the handler looks up.
-/
theorem key_ne_of_not_segment (hash : CollisionFree)
    (hpeer : Segment (peerIdOf (keypairPublic own.signingKey)).base58.toList)
    (hname : ¬ Segment name.toList) {address : String × String} {e : String}
    (h : handledAddress path (.error e) (own.id.text ++ "/" ++ name) = .ok address) :
    AppPointerRecord.key ⟨address.1⟩ address.2 ≠ AppPointerRecord.key own.id name := by
  intro hkey
  have htext : address.1 ++ ":" ++ address.2 = own.id.text ++ ":" ++ name := by
    have hcat := hash hkey
    simpa only [← Codec.utf8_append, Codec.utf8_inj, String.append_assoc,
      String.append_right_inj] using hcat
  obtain ⟨hsplit, hprefix⟩ := splitUri_of_handledAddress h
  obtain ⟨segments, last, hsegments, hlast, hcases⟩ := splitUri_eq_ok_iff.mp hsplit
  have hlastSegment : Segment last := hsegments.segment last (by simp)
  rcases hcases with ⟨peer, more, rfl, howner⟩ | ⟨owner, rfl, howner⟩
  . obtain ⟨rfl, hmore⟩ : peer = (peerIdOf (keypairPublic own.signingKey)).base58.toList ∧
        more ++ [last] = Text.splitBy (· = '/') name.toList := by
      have hown := hsegments.unique (hasSegments_own hpeer)
      simpa using hown
    cases more with
    | nil =>
      rw [howner, hlast] at htext
      have hname' : String.ofList last = name := by
        apply String.toList_inj.mp
        simpa [Identity.id, identityIdOf, identityPrefix] using congrArg String.toList htext
      rw [← hname', String.toList_ofList] at hname
      exact hname hlastSegment
    | cons third more =>
      rw [howner, hlast] at htext
      simpa [Identity.id, identityIdOf, identityPrefix] using congrArg String.toList htext
  . rw [howner] at hprefix
    have hslash : '/' ∈ owner := by
      have hmem := hprefix.subset (show '/' ∈ "canopee://identity/".toList by decide)
      simpa using hmem
    exact (hsegments.segment owner (by simp)).2 hslash

end Addresses

/--
The environment in which lookups return what `dht` has.
-/
def looking (env : Env) (dht : Dht) : Env :=
  { env with record := fun _ key => .ok (dht key) }

omit [Primitives] in
theorem returns_looking (env : Env) (dht : Dht) : Returns (looking env dht) dht :=
  fun _ _ => rfl

omit [Primitives] in
theorem app_ne {name : String} : name ≠ "app:" ++ name := by
  intro h
  have hlength := congrArg String.length h
  simp at hlength

theorem answers_after (laws : SignatureLaws) {dht : Dht} (own : Identity) (name : String)
    (time : Int) (manifest : ObjectId) :
    Answers (dht.after [(AppPointerRecord.key own.id name,
      AppPointerRecord.codec.serialize (.sign own time name manifest))]) own.id name manifest := by
  refine ⟨_, _, ?_, AppPointerRecord.codec.deserialize_serialize _,
    AppPointerRecord.verify_sign laws own time name manifest, rfl⟩
  exact Function.update_self _ _ _

theorem not_answers_of_ne {key value : Bytes} {owner : IdentityId} {name : String}
    {manifest : ObjectId} (h : AppPointerRecord.key owner name ≠ key) :
    ¬ Answers (Dht.after (fun _ => none) [(key, value)]) owner name manifest := by
  rintro ⟨bytes, record, hbytes, _⟩
  change Function.update (fun _ => none) key (some value) (AppPointerRecord.key owner name) = _
    at hbytes
  rw [Function.update_of_ne h] at hbytes
  cases hbytes

/--
An app opens by its name, whatever the DHT had before, exactly when `canopee app-manifest` published
it under a name that is one segment.
-/
theorem opensByName_iff (laws : SignatureLaws) (hash : CollisionFree) {command : Publishing}
    {env : Env} {w w' : Runtime} {manifest : ObjectId}
    (h : exec command.run env w = (.ok manifest, w'))
    (hpeer : Segment (peerIdOf (keypairPublic w.identity.signingKey)).base58.toList) :
    (∀ dht env', Returns env' (Dht.after dht ((puts w').drop (puts w).length)) →
        ∀ v path aliases, OpensByName env' v path aliases w.identity command.appName manifest) ↔
      command.Addressable := by
  have hputs := (run_puts command).ok ⟨rfl, rfl⟩ h
  constructor
  . intro hopens
    -- a DHT that had nothing before
    have hlast := hopens (fun _ => none) _ (returns_looking env _) w "" (.error "")
    have hopened := (openByName_iff (returns_looking env _)).mp hlast.opened
    obtain ⟨owner, name, haddress, hhandled⟩ :=
      (handle_iff (returns_looking env _)).mp hlast.handled
    rcases hputs with ⟨_, hnone⟩ | ⟨time, hone⟩
    . rw [hnone.puts, List.drop_length] at hopened
      obtain ⟨bytes, record, hbytes, _⟩ := hopened
      cases hbytes
    . rw [hone.puts, List.drop_left] at hopened hhandled
      cases command with
      | publish site =>
        exfalso
        apply not_answers_of_ne _ hopened
        exact fun hkey => app_ne ((AppPointerRecord.key_inj hash).mp hkey)
      | appManifest site name =>
        by_contra hname
        exact not_answers_of_ne (key_ne_of_not_segment hash hpeer hname haddress) hhandled
  . intro haddressable dht env' hreturns v path aliases
    cases command with
    | publish site => cases haddressable
    | appManifest site name =>
      rcases hputs with ⟨⟨site, hsite⟩, _⟩ | ⟨time, hone⟩
      . cases hsite
      rw [hone.puts, List.drop_left] at hreturns
      have hanswers : Answers (dht.after [(AppPointerRecord.key w.identity.id name,
          AppPointerRecord.codec.serialize (.sign w.identity time name manifest))])
          w.identity.id name manifest :=
        answers_after laws w.identity name time manifest
      constructor
      . exact (openByName_iff hreturns).mpr hanswers
      . apply (handle_iff hreturns).mpr
        exact ⟨_, _, handledAddress_own hpeer haddressable, hanswers⟩

section Success

variable {env : Env}

theorem putObjectPublic_succeeds (laws : SignatureLaws) (hdisk : ∀ t, env.fault t = none)
    (data : Bytes) (objectType : ObjectType) (name : String) (w : Runtime) :
    ∃ object w', exec (putObjectPublic data objectType (some name)) env w = (.ok object, w') := by
  have hverify := Object.verify_new laws w.identity (env.clock w.tick) data objectType
  have hput (v : Runtime) :
      exec (Runtime.putVerified (Object.new w.identity (env.clock w.tick) data objectType)) env v =
        (.ok (), Runtime.storeObject (Object.new w.identity (env.clock w.tick) data objectType)
          { v with tick := v.tick + 1 }) := by
    unfold Runtime.putVerified
    rw [hverify]
    exact Runtime.exec_writeAtomic_of_none (hdisk _) _
  have hnew : exec (Runtime.newObject data objectType) env w =
      (.ok (Object.new w.identity (env.clock w.tick) data objectType),
        { w with tick := w.tick + 1 }) := by
    unfold Runtime.newObject
    rw [exec_bind_ok (Runtime.exec_now env w), exec_bind_ok (Prog.exec_get env _), Prog.exec_pure]
  unfold putObjectPublic Runtime.nameObject Runtime.setName Runtime.writeInPlace
  rw [exec_bind_ok hnew, exec_bind_ok (hput _)]
  simp only [Prog.bind_assoc, exec_bind_ok (Runtime.exec_nextTick env _),
    exec_bind_ok (Prog.exec_read env _), hdisk, exec_bind_ok (Prog.exec_modify _ env _)]
  exact ⟨_, _, Prog.exec_pure _ env _⟩

theorem announce_succeeds (haccepts : ∀ t, env.accepts t = true) (id : ObjectId) (w : Runtime) :
    ∃ w', exec (announce id) env w = (.ok (), w') := by
  unfold announce Runtime.insertShared Runtime.announceProvider
  rw [exec_bind_ok (Prog.exec_modify _ env w), exec_bind_ok (Runtime.exec_nextTick env _),
    exec_bind_ok (Prog.exec_read env _), haccepts]
  exact ⟨_, Prog.exec_modify _ env _⟩

theorem announceAll_succeeds (haccepts : ∀ t, env.accepts t = true) (ids : List ObjectId)
    (w : Runtime) : ∃ w', exec (announceAll announce ids) env w = (.ok (), w') := by
  induction ids generalizing w with
  | nil => exact ⟨w, rfl⟩
  | cons id ids ih =>
    obtain ⟨v, hannounce⟩ := announce_succeeds haccepts id w
    obtain ⟨w', hrest⟩ := ih v
    exact ⟨w', by rw [announceAll, exec_bind_ok hannounce, hrest]⟩

theorem publishAppPointer_succeeds (hinbound : ∀ t, env.inbound t = [])
    (haccepts : ∀ t, env.accepts t = true) (name : String) (manifest : ObjectId) (w : Runtime) :
    ∃ w', exec (CanopeeClient.publishAppPointer name manifest) env w = (.ok (), w') := by
  unfold CanopeeClient.publishAppPointer Node.publishAppPointer Runtime.settle
  rw [exec_bind_ok (Runtime.exec_now env w), exec_bind_ok (Prog.exec_get env _)]
  simp only [Prog.bind_assoc, exec_bind_ok (Runtime.exec_nextTick env _),
    exec_bind_ok (Prog.exec_read env _), hinbound, Runtime.handleAll,
    exec_bind_ok (Prog.exec_pure _ env _), haccepts, if_true]
  exact ⟨_, Prog.exec_modify _ env _⟩

/--
Once its files are stored, an app is published when the disk and the network of the node work.
-/
theorem appManifest_succeeds (laws : SignatureLaws) (hdisk : ∀ t, env.fault t = none)
    (hinbound : ∀ t, env.inbound t = []) (haccepts : ∀ t, env.accepts t = true) {site : Site}
    {uploaded : ObjectId × Assets} {w v : Runtime}
    (hdirectory : exec (publishDirectory site) env w = (.ok uploaded, v)) (name : String) :
    ∃ id w', exec (appManifest site name) env w = (.ok id, w') := by
  have hmanifest : ∃ stored v', exec (putManifest name uploaded.1 uploaded.2) env v =
      (.ok stored, v') := by
    unfold putManifest iterated
    simp only [Prog.bind_assoc, exec_bind_ok (Prog.exec_get env _),
      exec_bind_ok (Runtime.exec_nextTick env _), exec_bind_ok (Prog.exec_read env _),
      exec_bind_ok (Prog.exec_pure _ env _)]
    obtain ⟨object, v', hput⟩ := putObjectPublic_succeeds laws hdisk _ .appManifest name _
    rw [exec_bind_ok hput]
    exact ⟨_, _, Prog.exec_pure _ env _⟩
  obtain ⟨stored, v', hstored⟩ := hmanifest
  obtain ⟨u, hannounce⟩ := announceAll_succeeds haccepts
    (stored.1 :: stored.2.entrypoint :: stored.2.assets.map Prod.snd) v'
  obtain ⟨w', hpointer⟩ := publishAppPointer_succeeds hinbound haccepts stored.2.name stored.1 u
  unfold appManifest
  rw [exec_bind_ok hdirectory]
  dsimp only
  rw [exec_bind_ok hstored, exec_bind_ok hannounce, exec_bind_ok hpointer]
  exact ⟨_, _, Prog.exec_pure _ env _⟩

end Success

end Cli

end Canopee

namespace Canopee.Cli

open Prog (exec)
open Canopee.Runtime (puts)

/--
A directory with a page.
-/
def notes : Site where
  directory := "site/Notes"
  files := [(["index.html"], Codec.utf8 "<p>")]

section Witness

open Canopee.Transparent

def listed : Except String ObjectId × Runtime :=
  exec (Publishing.appManifest notes "notes").run (Env.quiet 0) (.fresh alice laptop)

theorem isOk_listedDirectory :
    (exec (publishDirectory notes) (Env.quiet 0) (.fresh alice laptop)).1.isOk = true := by
  decide +kernel

theorem opensByName_notes :
    ∃ manifest, listed.1 = .ok manifest ∧
      ∀ dht env', Returns env' (Dht.after dht
          ((puts listed.2).drop (puts (.fresh alice laptop)).length)) →
        ∀ v path aliases, OpensByName env' v path aliases alice "notes" manifest := by
  have hok := isOk_listedDirectory
  rcases hdirectory : exec (publishDirectory notes) (Env.quiet 0) (.fresh alice laptop) with ⟨r, v⟩
  rw [hdirectory] at hok
  cases r with
  | error e => cases hok
  | ok uploaded =>
    obtain ⟨manifest, w', hpublish⟩ := appManifest_succeeds signatureLaws (fun _ => rfl)
      (fun _ => rfl) (fun _ => rfl) hdirectory "notes"
    have hrun : listed = (.ok manifest, w') := hpublish
    rw [hrun]
    refine ⟨manifest, rfl, ?_⟩
    apply (opensByName_iff signatureLaws collisionFree hrun (by decide)).mpr
    change Segment "notes".toList
    decide

end Witness

section Counterexample

open Canopee.Compact

def published : Except String ObjectId × Runtime :=
  exec (Publishing.publish notes).run (Env.quiet 0) (.fresh alice laptop)

/--
`publish` derives the name `notes`, puts its record under `app:notes`, and `notes` is not found.
-/
theorem notes_not_found :
    appNameFromDirectory notes.directory = "notes" ∧
      ∃ manifest, published.1 = .ok manifest ∧
        (exec (openByName alice.id.text "notes") (looking (Env.quiet 0)
          (Dht.after (fun _ => none) (puts published.2))) (.fresh bob laptop)).1 =
            .error "no app pointer found for \"notes\"" ∧
        ¬ ∀ dht env', Returns env' (Dht.after dht (puts published.2)) →
          ∀ v path aliases, OpensByName env' v path aliases alice "notes" manifest := by
  refine ⟨by decide, ?_⟩
  have hok : published.1.isOk = true := by decide +kernel
  have hopened : (exec (openByName alice.id.text "notes") (looking (Env.quiet 0)
      (Dht.after (fun _ => none) (puts published.2))) (.fresh bob laptop)).1 =
        .error "no app pointer found for \"notes\"" := by
    decide +kernel
  cases hrun : published.1 with
  | error e =>
    rw [hrun] at hok
    cases hok
  | ok manifest =>
    refine ⟨manifest, rfl, hopened, ?_⟩
    intro hopens
    have hlast := (hopens (fun _ => none) _ (returns_looking (Env.quiet 0) _) (.fresh bob laptop) ""
      (.error "")).opened
    rw [hopened] at hlast
    cases hlast

end Counterexample

end Canopee.Cli
