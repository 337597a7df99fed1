import Canopee.Results.ReadBack
import Canopee.Results.Unsharing

/-!
This module contains what sharing an object for recipients publishes: who can open the shared copy,
which entry of the home index refers to it and what is served from then on.
-/

namespace Canopee

open Primitives
open Canopee.Runtime
open Prog (Keeps Triple exec exec_bind_ok exec_bind_eq_iff)

variable [Primitives]

namespace Runtime

section Upsert

/--
`later` has the same entries as `before`, in the same order, except that its first one with this name
is `entry`, in the place of the first one in `before` or at the end.
-/
structure Upserted (name : String) (entry : HomeEntry) (before later : List HomeEntry) : Prop where
  first : later.find? (fun e => e.name = name) = some entry
  index : later.findIdx (fun e => e.name = name) = before.findIdx (fun e => e.name = name)
  others : later.eraseIdx (later.findIdx fun e => e.name = name) =
    before.eraseIdx (before.findIdx fun e => e.name = name)

omit [Primitives] in
theorem upserted_upsertShared (name : String) (id : ObjectId) (objectType : ObjectType)
    (app : Option String) (entries : List HomeEntry) :
    ∃ entry : HomeEntry, Upserted name entry entries (upsertShared name id objectType app entries) ∧
      entry.shared = true ∧ entry.object = id := by
  induction entries with
  | nil =>
    refine ⟨⟨name, id, objectType, true, app⟩, ⟨?_, ?_, ?_⟩, rfl, rfl⟩
    . simp [upsertShared]
    . simp [upsertShared, List.findIdx_cons]
    . simp [upsertShared, List.findIdx_cons]
  | cons e entries ih =>
    unfold upsertShared
    split
    . next hname =>
      refine ⟨{ e with object := id, objectType := objectType, shared := true, app := app },
        ⟨?_, ?_, ?_⟩, rfl, rfl⟩
      . simp [hname]
      . simp [List.findIdx_cons, hname]
      . simp [List.findIdx_cons, hname]
    . next hname =>
      obtain ⟨entry, hupserted, hshared, hobject⟩ := ih
      refine ⟨entry, ⟨?_, ?_, ?_⟩, hshared, hobject⟩
      . rw [List.find?_cons_of_neg (by simpa using hname)]
        exact hupserted.first
      . simp [List.findIdx_cons, hname, hupserted.index]
      . simp [List.findIdx_cons, hname, hupserted.others]

omit [Primitives] in
theorem mem_sharedIds_upsertShared {name : String} {id other : ObjectId} {objectType : ObjectType}
    {app : Option String} {index : HomeIndex} {entries : List HomeEntry}
    (hentries : index.entries = upsertShared name id objectType app entries)
    (h : other ∈ sharedIds (some index)) :
    other = id ∨ ∃ entry ∈ entries, entry.shared = true ∧ entry.object = other := by
  rw [mem_sharedIds, hentries] at h
  obtain ⟨entry, hmem, hshared, hobject⟩ := h
  clear hentries
  induction entries with
  | nil =>
    rw [upsertShared, List.mem_singleton] at hmem
    left
    rw [← hobject, hmem]
  | cons e entries ih =>
    unfold upsertShared at hmem
    split at hmem
    . rw [List.mem_cons] at hmem
      rcases hmem with rfl | hmem
      . exact .inl hobject.symm
      . exact .inr ⟨entry, List.mem_cons_of_mem _ hmem, hshared, hobject⟩
    . rw [List.mem_cons] at hmem
      rcases hmem with rfl | hmem
      . exact .inr ⟨entry, List.mem_cons_self, hshared, hobject⟩
      . rcases ih hmem with hid | ⟨found, hfound, hrest⟩
        . exact .inl hid
        . exact .inr ⟨found, List.mem_cons_of_mem _ hfound, hrest⟩

end Upsert

section Open

variable {reader : Identity} {object other : Object} {plaintext : Bytes}

/--
`open_object` yields an object with this data.
-/
def Opens (reader : Identity) (object : Object) (plaintext : Bytes) : Prop :=
  ∃ opened, openWith reader object = .ok opened ∧ opened.payload.data = plaintext

theorem opens_iff_readData :
    Opens reader object plaintext ↔ readData reader object.payload.data = some plaintext :=
  openWith_data_iff

theorem Opens.of_payload (h : Opens reader object plaintext) (hpayload : other.payload = object.payload) :
    Opens reader other plaintext := by
  rw [opens_iff_readData, hpayload]
  exact opens_iff_readData.mp h

theorem readData_sealed (cipher : CipherLaws) (agreement : AgreementLaws) {env : Env}
    {own : Identity} {recipients : List Key32} (hcount : recipients.length < 65535)
    (h : SealedFor env own plaintext recipients object)
    (ideal : ∀ t, Envelope.Ideal (Envelope.derivationsFor own reader (env.random t) recipients)) :
    readData reader object.payload.data =
      if reader.dhPublicKey = own.dhPublicKey ∨ reader.dhPublicKey ∈ recipients then
        some plaintext
      else
        none := by
  obtain ⟨_, t, hsealed⟩ := h
  have hlength := Envelope.length_recipientPubs_le own.dhPublicKey recipients
  rw [readData, if_pos (Envelope.isEnvelope_encrypted cipher hsealed),
    Envelope.decryptEnvelope_of_short cipher agreement hsealed (ideal t) (by omega)]
  by_cases hmem : reader.dhPublicKey ∈ Envelope.recipientPubs own.dhPublicKey recipients
  . rw [if_pos hmem, if_pos (Envelope.mem_recipientPubs.mp hmem)]
    rfl
  . rw [if_neg hmem, if_neg (fun hlisted => hmem (Envelope.mem_recipientPubs.mpr hlisted))]
    rfl

/--
The salt and the nonce that are drawn for an envelope are not those that the data has already.
-/
def Undrawn (env : Env) (data : Bytes) : Prop :=
  ∀ t, Envelope.slice data 8 Envelope.headerLen ≠
    (env.random t 1 Envelope.saltLen).toList ++ (env.random t 2 Envelope.nonceLen).toList

theorem ne_of_undrawn {env : Env} {own : Identity} {recipients : List Key32} {data : Bytes}
    (hundrawn : Undrawn env data) (h : SealedFor env own plaintext recipients object) :
    object.payload.data ≠ data := by
  obtain ⟨_, t, hsealed⟩ := h
  obtain ⟨ciphertext, wraps, _, _, henvelope⟩ := Envelope.encryptForRecipients_eq_ok hsealed
  intro heq
  apply hundrawn t
  have hsalt : (env.random t 1 Envelope.saltLen).toList.length = Envelope.saltLen :=
    List.Vector.toList_length _
  have hnonce : (env.random t 2 Envelope.nonceLen).toList.length = Envelope.nonceLen :=
    List.Vector.toList_length _
  have hdrop : data.drop 8 = ((env.random t 1 Envelope.saltLen).toList ++
      (env.random t 2 Envelope.nonceLen).toList) ++ (wraps ++ ciphertext) := by
    rw [← heq, henvelope, Envelope.drop_layout, List.append_assoc]
  apply Envelope.slice_of_drop hdrop
  rw [List.length_append, hsalt, hnonce]
  rfl

end Open

section Copy

variable {env : Env} {w w' : Runtime} {object : Object} {plaintext : Bytes}
variable {recipients : List Key32} {sharedId : ObjectId}

theorem copyFor_cases (h : exec (copyFor object recipients) env w = (.ok sharedId, w')) :
    (recipients = [] ∧ sharedId = object.id ∧ w' = w) ∨
      recipients ≠ [] ∧ ∃ opened copy, openWith w.identity object = .ok opened ∧
        exec (putObjectFor opened.payload.data object.objectType none recipients) env w =
          (.ok copy, w') ∧ copy.id = sharedId := by
  unfold copyFor at h
  split at h
  . next hempty =>
    cases h
    exact .inl ⟨by simpa using hempty, rfl, rfl⟩
  . next hrecipients =>
    right
    refine ⟨by simpa using hrecipients, ?_⟩
    obtain ⟨opened, v, hopened, hrest⟩ := exec_bind_eq_iff.mp h
    obtain ⟨copy, u, hput, hpure⟩ := exec_bind_eq_iff.mp hrest
    rw [openObject, exec_bind_ok (Prog.exec_get env w), exec_ofExcept] at hopened
    cases hpure
    cases hopen : openWith w.identity object with
    | error e =>
      rw [hopen] at hopened
      cases hopened
    | ok found =>
      rw [hopen] at hopened
      cases hopened
      exact ⟨opened, copy, rfl, hput, rfl⟩

/--
The node has the home index `home`; where it has none, none comes from elsewhere.
-/
def HasHome (env : Env) (own : Identity) : Option HomeIndex → Runtime → Prop
  | some index, w => w.identity = own ∧ ∃ record, Has HomeIndex.codec RECORD_HOME record index w
  | none, w => Bare env own w

variable {own : Identity} {home : Option HomeIndex} {payload : ObjectPayload}

theorem HasHome.identity (h : HasHome env own home w) : w.identity = own := by
  cases home with
  | none => exact Bare.identity h
  | some index => exact h.1

theorem HasHome.same (h : HasHome env own home w) (hsame : SameNode w w') :
    HasHome env own home w' := by
  cases home with
  | none => exact (pushes_bare (Bare.silent h)).frame w w' hsame h
  | some index =>
    obtain ⟨hidentity, record, hhas⟩ := h
    exact ⟨hsame.identity.trans hidentity, record, hhas.congr hsame.toSameDisk⟩

theorem HasHome.put (hash : CollisionFree) (h : HasHome env own home w)
    (hverify : object.verify = true) (htype : home = none → object.objectType ≠ .appPointer) :
    HasHome env own home (storeObject object w) := by
  cases home with
  | none =>
    apply (pushes_bare (Bare.silent h)).put w object hverify _ h
    intro hpointer
    exact htype rfl hpointer.1.2
  | some index =>
    obtain ⟨hidentity, record, hhas⟩ := h
    exact ⟨hidentity, record, hhas.storeObject hash hverify⟩

/--
What the home index is published over: nothing of it gets lost on the way.
-/
structure Prepared (env : Env) (own : Identity) (home : Option HomeIndex) (S : Finset String)
    (payload : ObjectPayload) (w : Runtime) : Prop where
  home : HasHome env own home w
  shared : w.shared = S
  stores : Stores payload w

/--
The object that an entry is to refer to: the one that was asked for, or a copy of it that is sealed
for the recipients.
-/
def Shareable (env : Env) (own : Identity) (object : Object) (plaintext : Bytes)
    (recipients : List Key32) (payload : ObjectPayload) : Prop :=
  (recipients = [] ∧ payload = object.payload) ∨
    recipients ≠ [] ∧ ∃ copy, SealedFor env own plaintext recipients copy ∧ copy.payload = payload

section Shareable

variable {copy : Object} {reader : Identity}

theorem Shareable.opens (cipher : CipherLaws) (agreement : AgreementLaws)
    (h : Shareable env own object plaintext recipients payload) (hcount : recipients.length < 65535)
    (hopens : Opens own object plaintext) (hcopy : copy.payload = payload)
    (ideal : ∀ t, Envelope.Ideal (Envelope.derivationsFor own reader (env.random t) recipients))
    (hreader : reader = own ∨ reader.dhPublicKey ∈ recipients) : Opens reader copy plaintext := by
  rcases h with ⟨hempty, hpayload⟩ | ⟨_, sealed, hsealed, hpayload⟩
  . rw [hempty] at hreader
    rw [hreader.resolve_right List.not_mem_nil]
    exact hopens.of_payload (hcopy.trans hpayload)
  . rw [opens_iff_readData, hcopy, ← hpayload,
      readData_sealed cipher agreement hcount hsealed ideal]
    apply if_pos
    rcases hreader with hown | hlisted
    . exact .inl (congrArg Identity.dhPublicKey hown)
    . exact .inr hlisted

theorem Shareable.not_opens (cipher : CipherLaws) (agreement : AgreementLaws)
    (h : Shareable env own object plaintext recipients payload) (hcount : recipients.length < 65535)
    (hrecipients : recipients ≠ []) (hcopy : copy.payload = payload)
    (ideal : ∀ t, Envelope.Ideal (Envelope.derivationsFor own reader (env.random t) recipients))
    (hown : reader.dhPublicKey ≠ own.dhPublicKey) (hlisted : reader.dhPublicKey ∉ recipients)
    (data : Bytes) : ¬ Opens reader copy data := by
  rcases h with ⟨hempty, _⟩ | ⟨_, sealed, hsealed, hpayload⟩
  . exact absurd hempty hrecipients
  . rw [opens_iff_readData, hcopy, ← hpayload,
      readData_sealed cipher agreement hcount hsealed ideal, if_neg (by simp [hown, hlisted])]
    simp

theorem Shareable.ne (h : Shareable env own object plaintext recipients payload)
    (hrecipients : recipients ≠ []) (hundrawn : Undrawn env object.payload.data) :
    payload ≠ object.payload := by
  rcases h with ⟨hempty, _⟩ | ⟨_, sealed, hsealed, hpayload⟩
  . exact absurd hempty hrecipients
  . intro heq
    apply ne_of_undrawn hundrawn hsealed
    rw [hpayload, heq]

end Shareable

theorem copyFor_prepares (hash : CollisionFree) {id : ObjectId}
    (hget : w.storage.getVerified id = .ok object) (hopens : Opens w.identity object plaintext)
    (hhome : HasHome env w.identity home w)
    (htype : home = none → object.objectType ≠ .appPointer)
    (h : exec (copyFor object recipients) env w = (.ok sharedId, w')) :
    ∃ payload, Shareable env w.identity object plaintext recipients payload ∧
      ObjectId.fromPayload payload = sharedId ∧
      Prepared env w.identity home w.shared payload w' := by
  have hid := Object.id_of_verify (Storage.verify_of_getVerified hget)
  rcases copyFor_cases h with ⟨hempty, hshared, hw⟩ | ⟨hrecipients, opened, copy, hopen, hput, hcopy⟩
  . refine ⟨object.payload, .inl ⟨hempty, rfl⟩, ?_, ?_⟩
    . rw [hshared, hid]
    . rw [hw]
      refine ⟨hhome, rfl, object, ?_, rfl⟩
      rw [← hid, Storage.id_of_getVerified hget]
      exact hget
  . have hdata : opened.payload.data = plaintext := by
      obtain ⟨opened', hopen', hplaintext⟩ := hopens
      rw [hopen, Except.ok.injEq] at hopen'
      rw [hopen']
      exact hplaintext
    rw [hdata] at hput
    obtain ⟨hverify, hcopyType, hsame⟩ :=
      (putObjectFor_spec plaintext object.objectType recipients).ok rfl hput
    obtain ⟨hsealed, hholding⟩ :=
      (putObjectFor_holding hash plaintext object.objectType none recipients).ok rfl hput
    refine ⟨copy.payload, .inr ⟨hrecipients, copy, hsealed, rfl⟩, ?_, ?_⟩
    . rw [← hcopy, Object.id_of_verify hverify]
    . refine ⟨?_, hsame.shared, hholding.2⟩
      apply (hhome.put hash hverify _).same hsame
      rw [hcopyType]
      exact htype

theorem loadHomeIndex_prepared (hash : CollisionFree) (S : Finset String) :
    Triple env (Prepared env own home S payload) loadHomeIndex
      (fun loaded w => loaded = home ∧ Prepared env own home S payload w) (fun _ => True) := by
  constructor
  intro w hw
  cases home with
  | some index =>
    obtain ⟨hidentity, record, hhas⟩ := hw.home
    rw [hhas.exec_loadHomeIndex env]
    exact ⟨rfl, hw⟩
  | none =>
    have hkept : Keeps env (fun w => w.shared = S ∧ Stores payload w) loadHomeIndex := by
      apply ((pushes_shared env S).and (pushes_stores hash env payload)).keeps_loadOwnRecord
      intro _ _ _ _ ha _
      exact ha
    obtain ⟨v, hload, hbare⟩ := loadHomeIndex_bare hw.home
    have hspec := hkept.triple.ok ⟨hw.shared, hw.stores⟩ hload
    rw [hload]
    exact ⟨rfl, hbare, hspec.1, hspec.2⟩

end Copy

section Publish

variable {env : Env} {own : Identity} {home : Option HomeIndex} {index : HomeIndex}
variable {S : Finset String} {payload : ObjectPayload}

/--
The home index is published, with what its entry refers to and the serving set `S`.
-/
def PublishedHome (own : Identity) (index : HomeIndex) (S : Finset String) (payload : ObjectPayload)
    (w : Runtime) : Prop :=
  Holding own payload w ∧ w.shared = S ∧ ∃ record, Has HomeIndex.codec RECORD_HOME record index w

theorem pushes_publishedHome (hash : CollisionFree) (env : Env) (own : Identity)
    (index : HomeIndex) (S : Finset String) (payload : ObjectPayload) :
    Pushes env (PublishedHome own index S payload) (fun _ => True) := by
  apply (pushes_holding hash env own payload).and ((pushes_shared env S).and _)
  apply Pushes.ofDisk
  . intro _ _ hdisk ⟨record, hhas⟩
    exact ⟨record, hhas.congr hdisk⟩
  . intro _ _ hverify _ ⟨record, hhas⟩
    exact ⟨record, hhas.storeObject hash hverify⟩
  . intro _ _ _ _
    trivial

theorem publishHome_published (laws : SignatureLaws) (hash : CollisionFree) :
    Triple env (Prepared env own home S payload) (publishHome home index)
      (fun _ => PublishedHome own (renewed home index)
        (reconciled home (some (renewed home index)) S) payload) (fun _ => True) := by
  have hkept : Spared env (AppPointerRecord.key own.id RECORD_HOME)
      (fun w => w.shared = S ∧ Stores payload w) :=
    { (pushes_shared env S).and (pushes_stores hash env payload) with
      record := fun _ _ hw => ⟨hw.1, stores_congr rfl hw.2⟩ }
  have hnothing : Pushes env (fun _ => True) (fun _ => True) :=
    .ofDisk (fun _ _ _ _ => trivial) (fun _ _ _ _ _ => trivial) (fun _ _ _ _ => trivial)
  have hsaved : Pushes env (fun w => w.identity = own ∧
      SavedHome (renewed home index) w ∧ Stores payload w) (fun _ => True) :=
    (pushes_identity env own).and
      ((pushes_savedHome hash env _).and (pushes_stores hash env payload))
  have hreconcile := reconcileShared_triple (E := fun _ => False) hsaved
    (fun _ _ hw => ⟨hw.1, hw.2.1.congr ⟨rfl, rfl, rfl⟩, stores_congr rfl hw.2.2⟩)
    (fun _ _ hw => ⟨hw.1, hw.2.1.congr ⟨rfl, rfl, rfl⟩, stores_congr rfl hw.2.2⟩)
    home (some (renewed home index)) S
  apply (publishHome_triple laws hash hnothing hkept (hreconcile.conseq _ (fun _ _ hw => hw)
    (fun _ hw => hw))).conseq
  . intro w hw
    exact ⟨hw.home.identity, trivial, hw.shared, hw.stores⟩
  . intro _ w ⟨⟨hidentity, hsaved, hstores⟩, hshared⟩
    exact ⟨⟨hidentity, hstores⟩, hshared, hsaved.has⟩
  . intro _ _
    trivial
  . intro w ⟨hidentity, ⟨hshared, hstores⟩, hsaved⟩
    exact ⟨⟨hidentity, hsaved, hstores⟩, hshared⟩

theorem publishEntryPointer_published (hash : CollisionFree) (name : String) (id : ObjectId) :
    Keeps env (PublishedHome own index S payload) (publishEntryPointer name id) := by
  have hpushes := pushes_publishedHome hash env own index S payload
  apply Keeps.bind (keeps_attempt (hpushes.points.keeps_publishPointer _ id))
  . intro _ _
    exact Keeps.pure trivial
  . intro w hw a bytes ha
    have hne : AppPointerRecord.key w.identity.id ("entry:" ++ name) ≠
        AppPointerRecord.key a.identity.id RECORD_HOME := by
      rw [hw.1.1, ha.1.1, ne_eq, AppPointerRecord.key_inj hash]
      exact entry_ne_home name
    obtain ⟨hholding, hshared, record, hhas⟩ := ha
    refine ⟨⟨hholding.1, stores_congr rfl hholding.2⟩, hshared, record, ?_, hhas.stored⟩
    rw [← hhas.cached]
    exact cachedPointer_storeRecord_of_ne hne bytes a

/--
What a successful `share_object_for` comes to.
-/
structure SharesExactly (env : Env) (name : String) (id : ObjectId) (plaintext : Bytes)
    (recipients : List Key32) (home : Option HomeIndex) (index : HomeIndex) (entry : HomeEntry)
    (copy : Object) (w w' : Runtime) : Prop where
  published : ∃ record, Has HomeIndex.codec RECORD_HOME record index w'
  upserted : Upserted name entry (home.getD HomeIndex.empty).entries index.entries
  shared : entry.shared = true
  stored : w'.storage.getVerified entry.object = .ok copy
  owner : Opens w.identity copy plaintext
  itself : recipients = [] → entry.object = id
  listed : recipients ≠ [] → ∀ reader : Identity,
    (∀ t, Envelope.Ideal (Envelope.derivationsFor w.identity reader (env.random t) recipients)) →
    reader.dhPublicKey ∈ recipients → Opens reader copy plaintext
  stranger : recipients ≠ [] → ∀ reader : Identity,
    (∀ t, Envelope.Ideal (Envelope.derivationsFor w.identity reader (env.random t) recipients)) →
    reader.dhPublicKey ≠ w.identity.dhPublicKey → reader.dhPublicKey ∉ recipients →
    ∀ data, ¬ Opens reader copy data
  original : recipients ≠ [] → id.text ∈ w'.shared → id.text ∈ w.shared
  served : ∀ other : ObjectId, other.text ∈ w'.shared ↔
    (other ∈ sharedIds (some index) ∧ other ∉ sharedIds home) ∨
      other.text ∈ w.shared ∧ ¬ (other ∈ sharedIds home ∧ other ∉ sharedIds (some index))

/--
Sharing an object for recipients publishes a copy that exactly they and the owner can open, under the
first entry of that name, and serves exactly what the new index has shared and the old one had not.
-/
theorem shareObjectFor_exact (laws : SignatureLaws) (cipher : CipherLaws)
    (agreement : AgreementLaws) (hash : CollisionFree) {env : Env} {w w' : Runtime}
    {home : Option HomeIndex} {name : String} {id indexId : ObjectId} {app : Option String}
    {recipients : List Key32} {object : Object} {plaintext : Bytes}
    (hhome : HasHome env w.identity home w) (hget : w.storage.getVerified id = .ok object)
    (htype : home = none → object.objectType ≠ .appPointer)
    (hopens : Opens w.identity object plaintext) (hcount : recipients.length < 65535)
    (ideal : ∀ t, Envelope.Ideal
      (Envelope.derivationsFor w.identity w.identity (env.random t) recipients))
    (hundrawn : Undrawn env object.payload.data)
    (h : exec (shareObjectFor name id app recipients) env w = (.ok indexId, w')) :
    ∃ index entry copy,
      SharesExactly env name id plaintext recipients home index entry copy w w' := by
  obtain ⟨⟨sharedId, objectType, loaded⟩, v, hload, hpublish⟩ := exec_bind_eq_iff.mp h
  obtain ⟨found, u, hfound, hrest⟩ := exec_bind_eq_iff.mp hload
  rw [exec_getVerified, hget] at hfound
  cases hfound
  obtain ⟨copied, t, hcopy, hrest⟩ := exec_bind_eq_iff.mp hrest
  obtain ⟨current, s, hcurrent, hpure⟩ := exec_bind_eq_iff.mp hrest
  cases hpure
  obtain ⟨payload, hshareable, hpayload, hprepared⟩ :=
    copyFor_prepares hash hget hopens hhome htype hcopy
  obtain ⟨hcurrent, hprepared⟩ := (loadHomeIndex_prepared hash _).ok hprepared hcurrent
  subst hcurrent
  obtain ⟨savedId, r, hsave, hrest⟩ := exec_bind_eq_iff.mp hpublish
  obtain ⟨done, q, hpointer, hpure⟩ := exec_bind_eq_iff.mp hrest
  cases hpure
  rw [saveHomeIndex_eq] at hsave
  obtain ⟨previous, u, hprevious, hsave⟩ := exec_bind_eq_iff.mp hsave
  obtain ⟨hprevious, hprepared⟩ := (loadHomeIndex_prepared hash _).ok hprepared hprevious
  subst hprevious
  have hpublished := (publishHome_published laws hash).ok hprepared hsave
  have hfinal := (publishEntryPointer_published hash name sharedId).triple.ok hpublished hpointer
  obtain ⟨⟨_, copy, hstored, hcopy⟩, hshared, hhas⟩ := hfinal
  have hid : object.id = id := Storage.id_of_getVerified hget
  have hpayloadId := Object.id_of_verify (Storage.verify_of_getVerified hget)
  obtain ⟨entry, hupserted, hentry, hobject⟩ := upserted_upsertShared name sharedId
    object.objectType app (previous.getD HomeIndex.empty).entries
  refine ⟨_, entry, copy, hhas, hupserted, hentry, ?_, ?_, ?_, ?_, ?_, ?_, ?_⟩
  . rw [hobject, ← hpayload]
    exact hstored
  . exact hshareable.opens cipher agreement hcount hopens hcopy ideal (.inl rfl)
  . intro hempty
    rw [hobject, ← hpayload, ← hid, hpayloadId]
    rcases hshareable with ⟨_, heq⟩ | ⟨hrecipients, _⟩
    . rw [heq]
    . exact absurd hempty hrecipients
  . intro _ reader hideal hlisted
    exact hshareable.opens cipher agreement hcount hopens hcopy hideal (.inr hlisted)
  . intro hrecipients reader hideal hown hlisted data
    exact hshareable.not_opens cipher agreement hcount hrecipients hcopy hideal hown hlisted data
  . intro hrecipients hmem
    rw [hshared, mem_reconciled] at hmem
    rcases hmem with ⟨hafter, hbefore⟩ | hmem
    . rcases mem_sharedIds_upsertShared rfl hafter with heq | ⟨old, hold, hflag, hrefers⟩
      . -- the copy has drawn its own salt, so that it is another object
        rw [← hid, hpayloadId, ← hpayload, ObjectId.fromPayload_inj hash] at heq
        exact absurd heq.symm (hshareable.ne hrecipients hundrawn)
      . cases previous with
        | none => cases hold
        | some index => exact absurd (mem_sharedIds.mpr ⟨old, hold, hflag, hrefers⟩) hbefore
    . exact hmem.1
  . intro other
    rw [hshared, mem_reconciled, not_and_not_right]

end Publish

section Succeeds

variable {env : Env} {w : Runtime}

theorem putObjectFor_succeeds (laws : SignatureLaws) (hdisk : ∀ t, env.fault t = none)
    {data : Bytes} {recipients : List Key32}
    (hseal : ∀ t, ∃ sealed,
      Envelope.encryptForRecipients w.identity (env.random t) data recipients = .ok sealed)
    (objectType : ObjectType) :
    ∃ copy w', exec (putObjectFor data objectType none recipients) env w = (.ok copy, w') := by
  obtain ⟨sealed, hsealed⟩ := hseal (w.tick + 1)
  have hdata : exec (sealData data recipients) env { w with tick := w.tick + 1 } =
      (.ok sealed, { w with tick := w.tick + 1 + 1 }) := by
    unfold sealData
    rw [exec_bind_ok (Prog.exec_get env _), exec_bind_ok (exec_random env _)]
    dsimp only
    rw [hsealed]
    rfl
  unfold putObjectFor
  rw [exec_bind_ok (Prog.exec_get env w), exec_bind_ok (exec_now env w), exec_bind_ok hdata]
  generalize hcopy : resealed w.identity _ = copy
  have hverify : copy.verify = true := by
    rw [← hcopy]
    exact Object.verify_signed laws w.identity _
  rw [exec_bind_ok (exec_putVerified hdisk hverify _)]
  exact ⟨copy, _, rfl⟩

/--
On a disk that works an object is shared whenever it can be opened and sealed.
-/
theorem shareObjectFor_succeeds (laws : SignatureLaws) (hash : CollisionFree)
    (hdisk : ∀ t, env.fault t = none) {record : AppPointerRecord} {index : HomeIndex}
    (hhome : Has HomeIndex.codec RECORD_HOME record index w) {id : ObjectId} {object : Object}
    (hget : w.storage.getVerified id = .ok object) {plaintext : Bytes}
    (hopens : Opens w.identity object plaintext) {recipients : List Key32}
    (hseal : ∀ t, ∃ sealed,
      Envelope.encryptForRecipients w.identity (env.random t) plaintext recipients = .ok sealed)
    (name : String) (app : Option String) :
    ∃ indexId w', exec (shareObjectFor name id app recipients) env w = (.ok indexId, w') := by
  obtain ⟨opened, hopen, hdata⟩ := hopens
  rw [← hdata] at hseal
  have hcopied : ∃ sharedId v, exec (copyFor object recipients) env w = (.ok sharedId, v) := by
    unfold copyFor
    split
    . exact ⟨object.id, w, rfl⟩
    . obtain ⟨copy, v, hput⟩ := putObjectFor_succeeds laws hdisk hseal object.objectType
      have hopened : exec (openObject object) env w = (.ok opened, w) := by
        rw [openObject, exec_bind_ok (Prog.exec_get env w), exec_ofExcept, hopen]
      rw [exec_bind_ok hopened, exec_bind_ok hput]
      exact ⟨copy.id, v, rfl⟩
  obtain ⟨sharedId, v, hcopy⟩ := hcopied
  have hhome' : HasHome env w.identity (some index) w := ⟨rfl, record, hhome⟩
  have htype : some index = none → object.objectType ≠ .appPointer := by
    intro h
    cases h
  obtain ⟨_, _, _, hprepared⟩ :=
    copyFor_prepares hash hget ⟨opened, hopen, rfl⟩ hhome' htype hcopy
  obtain ⟨_, record', hhas⟩ := hprepared.home
  have hfound : exec (getVerified id) env w = (.ok object, w) := by
    rw [exec_getVerified, hget]
  have hload : exec (shareObjectForLoad id recipients) env w =
      (.ok (sharedId, object.objectType, index), v) := by
    unfold shareObjectForLoad
    rw [exec_bind_ok hfound, exec_bind_ok hcopy, exec_bind_ok (hhas.exec_loadHomeIndex env)]
    rfl
  obtain ⟨indexId, u, hsave⟩ := saveHomeIndex_succeeds laws hdisk hhas { index with
    entries := upsertShared name sharedId object.objectType app index.entries }
  have hpointer : ∃ t, exec (publishEntryPointer name sharedId) env u = (.ok (), t) := by
    unfold publishEntryPointer
    rw [Prog.exec_bind, Prog.exec_attempt]
    exact ⟨_, rfl⟩
  obtain ⟨t, hpointer⟩ := hpointer
  refine ⟨indexId, t, ?_⟩
  unfold shareObjectFor shareObjectForPublish
  rw [exec_bind_ok hload, exec_bind_ok hsave, exec_bind_ok hpointer]
  rfl

end Succeeds

end Runtime

end Canopee

namespace Canopee.Runtime

open Prog (exec)

section Witness

open Canopee.Transparent

/--
Alice shares her note with Bob.
-/
theorem shareObjectFor_exact_listedNote :
    ∃ indexId w', exec (shareObjectFor "for bob" listedNote.id none [bob.dhPublicKey]) (Env.quiet 1)
        noteStored = (.ok indexId, w') ∧
      ∃ index entry copy, SharesExactly (Env.quiet 1) "for bob" listedNote.id [7] [bob.dhPublicKey]
        (some noteIndex) index entry copy noteStored w' := by
  have hopens : Opens noteStored.identity listedNote [7] :=
    opens_iff_readData.mpr rfl
  have hdisk : ∀ t, (Env.quiet 1).fault t = none := fun _ => rfl
  obtain ⟨indexId, w', h⟩ := shareObjectFor_succeeds signatureLaws collisionFree hdisk
    has_noteIndex getVerified_listedNote hopens (fun _ => Envelope.encrypts _ _ _) "for bob" none
  refine ⟨indexId, w', h, shareObjectFor_exact signatureLaws cipherLaws agreementLaws collisionFree
    ⟨rfl, _, has_noteIndex⟩ getVerified_listedNote nofun hopens (by decide) ?_ ?_ h⟩
  . intro t
    exact Envelope.ideal_draws (Envelope.eq_of_differEarly (by decide +kernel))
  . intro t heq
    have hlength := congrArg List.length heq
    rw [List.length_append, List.Vector.toList_length, List.Vector.toList_length] at hlength
    exact absurd hlength (by decide)

end Witness

end Canopee.Runtime
