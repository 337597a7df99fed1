import Canopee.Results.Fetch

/-!
This module contains what a fetch makes of the answers of the peers that it asks one after the other.
-/

namespace Canopee

open Primitives
open Canopee.Runtime
open Prog (exec exec_bind exec_bind_ok exec_bind_error)

variable [Primitives]

namespace Runtime

section Offer

/--
The first bundle that one of `peers` answers, asked in turn.
-/
def firstOffer (id : ObjectId) : List PeerId → RunM (Option ExportBundle)
  | [] => pure none
  | peer :: peers => do
    match ← Prog.attempt (getObject peer id) with
    | .ok bundle => pure (some bundle)
    | .error _ => firstOffer id peers

/--
The first bundle that a fetch of `id` is answered.
-/
def offer (id : ObjectId) (source : Option PeerId) : RunM (Option ExportBundle) := do
  let connected ← connectedPeers
  match ← firstOffer id (connected.filter fun peer => some peer ≠ source) with
  | some bundle => pure (some bundle)
  | none =>
    match ← firstOffer id source.toList with
    | some bundle => pure (some bundle)
    | none =>
      let providers ← findProviders id
      firstOffer id providers

/--
What a fetch of `id` makes of the first bundle.
-/
def conclude (id : ObjectId) : Option ExportBundle → RunM Object
  | some bundle => do
    importBundle bundle
    pure bundle.object
  | none => throw ("no provider for object " ++ id.text)

theorem fetchFrom_bind (id : ObjectId) (peers : List PeerId) (rest : RunM Object) :
    (do
      match ← fetchFrom id peers with
      | some object => pure object
      | none => rest) = (do
      match ← firstOffer id peers with
      | some bundle => conclude id (some bundle)
      | none => rest) := by
  induction peers with
  | nil => rfl
  | cons peer peers ih =>
    unfold fetchFrom firstOffer
    rw [Prog.bind_assoc, Prog.bind_assoc]
    congr 1
    funext answer
    cases answer with
    | ok bundle =>
      dsimp only
      rw [Prog.bind_assoc]
      rfl
    | error e => exact ih

theorem offer_bind {id : ObjectId} {peers : List PeerId} {more : RunM (Option ExportBundle)}
    {rest : RunM Object} (hrest : rest = more >>= conclude id) :
    (do
      match ← fetchFrom id peers with
      | some object => pure object
      | none => rest) = (do
      match ← firstOffer id peers with
      | some bundle => pure (some bundle)
      | none => more) >>= conclude id := by
  refine (fetchFrom_bind id peers rest).trans ?_
  rw [Prog.bind_assoc]
  congr 1
  funext answer
  cases answer with
  | some bundle => rfl
  | none => exact hrest

theorem exec_fetchObject {id : ObjectId} {env : Env} {w : Runtime} (source : Option PeerId)
    (hlocal : ∀ object, w.storage.getVerified id ≠ .ok object) :
    exec (fetchObject id source) env w = exec (offer id source >>= conclude id) env w := by
  have hproviders : (do
      let providers ← findProviders id
      match ← fetchFrom id providers with
      | some object => pure object
      | none => throw ("no provider for object " ++ id.text)) = (do
      let providers ← findProviders id
      firstOffer id providers) >>= conclude id := by
    rw [Prog.bind_assoc]
    congr 1
    funext providers
    refine (fetchFrom_bind id providers _).trans ?_
    congr 1
  unfold fetchObject offer
  cases hread : w.storage.getVerified id with
  | ok object => exact absurd hread (hlocal object)
  | error e =>
    rw [exec_bind_ok (Prog.exec_attempt _ env w), exec_getVerified, hread, Prog.bind_assoc]
    dsimp only
    congr 2
    funext connected
    exact offer_bind (offer_bind hproviders)

theorem importBundle_eq_ok {bundle : ExportBundle} {env : Env} {w : Runtime} :
    (exec (importBundle bundle) env w).1 = .ok () ↔
      w.storage.existsObject bundle.object.id = false ∧ bundle.object.verify = true ∧
        env.fault w.tick = none := by
  unfold importBundle
  rw [exec_bind_ok (Prog.exec_get env w)]
  cases hexists : w.storage.existsObject bundle.object.id with
  | true => simp
  | false =>
    simp only [Bool.false_eq_true, if_false, true_and]
    rw [exec_bind_ok (exec_isOwned _ env w)]
    unfold putVerified
    cases hverify : bundle.object.verify with
    | false => simp [exec_bind]
    | true =>
      simp only [Bool.not_true, Bool.false_eq_true, if_false, true_and]
      cases hfault : env.fault w.tick with
      | some fault => simp [exec_bind, exec_writeAtomic_of_some hfault]
      | none =>
        simp only [iff_true]
        rw [exec_bind_ok (exec_writeAtomic_of_none hfault _)]
        split
        . rfl
        . rfl

theorem conclude_eq_ok {id : ObjectId} {found : Option ExportBundle} {env : Env} {w : Runtime}
    {object : Object} :
    (exec (conclude id found) env w).1 = .ok object ↔
      ∃ bundle, found = some bundle ∧ bundle.object = object ∧
        (exec (importBundle bundle) env w).1 = .ok () := by
  cases found with
  | none => simp [conclude]
  | some bundle =>
    simp only [Option.some.injEq, exists_eq_left', conclude, exec_bind]
    generalize exec (importBundle bundle) env w = res
    rcases res with ⟨e | _, u⟩
    . simp
    . simp

end Offer

section Offers

variable {env : Env} {w : Runtime} {id : ObjectId} {source : Option PeerId}

/--
All bundles that `peers` answer, asked in turn.
-/
def answers (id : ObjectId) : List PeerId → RunM (List ExportBundle)
  | [] => pure []
  | peer :: peers => do
    let answer ← Prog.attempt (getObject peer id)
    let bundles ← answers id peers
    pure (answer.toOption.toList ++ bundles)

/--
All bundles that a fetch of `id` would be answered if it did not stop at any of them.
-/
def offers (id : ObjectId) (source : Option PeerId) : RunM (List ExportBundle) := do
  let connected ← Prog.attempt connectedPeers
  let near ← answers id ((connected.toOption.getD []).filter fun peer => some peer ≠ source)
  let named ← answers id source.toList
  let providers ← Prog.attempt (findProviders id)
  let far ← answers id (providers.toOption.getD [])
  pure (near ++ named ++ far)

theorem exec_answers (id : ObjectId) (peers : List PeerId) (env : Env) (w : Runtime) :
    ∃ bundles u v, exec (answers id peers) env w = (.ok bundles, u) ∧
      exec (firstOffer id peers) env w = (.ok bundles.head?, v) ∧ (bundles = [] → u = v) := by
  induction peers generalizing w with
  | nil => exact ⟨[], w, w, rfl, rfl, fun _ => rfl⟩
  | cons peer peers ih =>
    unfold answers firstOffer
    rw [exec_bind_ok (Prog.exec_attempt _ env w), exec_bind_ok (Prog.exec_attempt _ env w)]
    generalize exec (getObject peer id) env w = res
    rcases res with ⟨e | bundle, t⟩
    . obtain ⟨bundles, u, v, hall, hfirst, hsame⟩ := ih t
      exact ⟨bundles, u, v, by rw [exec_bind_ok hall]; rfl, hfirst, hsame⟩
    -- asking for the first stops here, and asking everybody goes on to another state
    . obtain ⟨bundles, u, v, hall, hfirst, hsame⟩ := ih t
      refine ⟨bundle :: bundles, u, t, by rw [exec_bind_ok hall]; rfl, rfl, ?_⟩
      intro hnil
      contradiction

omit [Primitives] in
theorem toOption_getD_ok (peers : List PeerId) :
    (Except.ok peers : Except String (List PeerId)).toOption.getD [] = peers := rfl

/--
The first bundle that a fetch is answered heads the bundles it would be answered, if the node knows
its peers.
-/
theorem offer_eq_some {bundle : ExportBundle} :
    (exec (offer id source) env w).1 = .ok (some bundle) ↔
      (∃ connected, (exec connectedPeers env w).1 = .ok connected) ∧
        ∃ bundles, (exec (offers id source) env w).1 = .ok (bundle :: bundles) := by
  unfold offer offers
  rw [exec_bind_ok (Prog.exec_attempt _ env w)]
  conv_lhs => rw [exec_bind]
  generalize exec connectedPeers env w = res
  rcases res with ⟨e | connected, t⟩
  . simp
  . dsimp only
    rw [toOption_getD_ok]
    obtain ⟨near, u, v, hnear, hfirst, hsame⟩ :=
      exec_answers id (connected.filter fun peer => some peer ≠ source) env t
    rw [exec_bind_ok hnear, exec_bind_ok hfirst]
    obtain ⟨named, u', v', hnamed, hsecond, hsame'⟩ := exec_answers id source.toList env u
    rw [exec_bind_ok hnamed, exec_bind_ok (Prog.exec_attempt _ env u')]
    obtain ⟨far, u'', v'', hfar, hthird, hsame''⟩ := exec_answers id
      ((exec (findProviders id) env u').1.toOption.getD []) env (exec (findProviders id) env u').2
    rw [exec_bind_ok hfar]
    cases near with
    | cons bundle' near => simp
    | nil =>
      -- without an answer both go on from the same state
      rw [← hsame rfl]
      dsimp only [List.head?_nil]
      rw [exec_bind_ok hsecond]
      cases named with
      | cons bundle' named => simp
      | nil =>
        rw [← hsame' rfl]
        dsimp only [List.head?_nil]
        rw [exec_bind]
        generalize exec (findProviders id) env u' = res at hthird hfar
        rcases res with ⟨e | providers, t'⟩
        . cases hfar
          simp
        . dsimp only at hthird ⊢
          rw [toOption_getD_ok] at hthird
          simp [hthird, List.head?_eq_some_iff]

/--
Somebody whom the fetch may ask answers a valid object with the id.
-/
def Offered (env : Env) (w : Runtime) (id : ObjectId) (source : Option PeerId) : Prop :=
  ∃ bundles, (exec (offers id source) env w).1 = .ok bundles ∧
    ∃ bundle ∈ bundles, bundle.object.id = id ∧ bundle.object.verify = true

/--
`fetch_object` returns an object with the id.
-/
def FetchYields (env : Env) (w : Runtime) (id : ObjectId) (source : Option PeerId) : Prop :=
  ∃ object, (exec (fetchObject id source) env w).1 = .ok object ∧ object.id = id

/--
The node knows its peers, the first bundle that it is answered is a valid object with the id, and when
it arrives there is no file under the id and the file can be written.
-/
structure Takes (env : Env) (w : Runtime) (id : ObjectId) (source : Option PeerId) : Prop where
  connected : ∃ connected, (exec connectedPeers env w).1 = .ok connected
  first : ∃ bundle bundles, (exec (offers id source) env w).1 = .ok (bundle :: bundles) ∧
    bundle.object.id = id ∧ bundle.object.verify = true
  room : (exec (offer id source) env w).2.storage.existsObject id = false
  disk : env.fault (exec (offer id source) env w).2.tick = none

theorem fetchYields_iff_takes (hlocal : ∀ object, w.storage.getVerified id ≠ .ok object) :
    FetchYields env w id source ↔ Takes env w id source := by
  unfold FetchYields
  rw [exec_fetchObject source hlocal, exec_bind]
  have hsome (bundle : ExportBundle) := @offer_eq_some _ env w id source bundle
  constructor
  . intro ⟨object, hobject, hid⟩
    cases hoffer : exec (offer id source) env w with
    | mk found u =>
      rw [hoffer] at hobject
      cases found with
      | error e => cases hobject
      | ok found =>
        obtain ⟨bundle, hfound, hbundle, himport⟩ := conclude_eq_ok.mp hobject
        obtain ⟨hroom, hverify, hdisk⟩ := importBundle_eq_ok.mp himport
        rw [hoffer, hfound] at hsome
        obtain ⟨hconnected, bundles, hbundles⟩ := (hsome bundle).mp rfl
        rw [← hbundle] at hid
        refine ⟨hconnected, ⟨bundle, bundles, hbundles, hid, hverify⟩, ?_, ?_⟩
        . rw [hoffer, ← hid]
          exact hroom
        . rw [hoffer]
          exact hdisk
  . intro h
    obtain ⟨bundle, bundles, hbundles, hid, hverify⟩ := h.first
    have hoffer := (hsome bundle).mpr ⟨h.connected, bundles, hbundles⟩
    have hroom := h.room
    have hdisk := h.disk
    generalize exec (offer id source) env w = res at hoffer hroom hdisk
    rcases res with ⟨found, u⟩
    rw [show found = .ok (some bundle) from hoffer]
    refine ⟨bundle.object, ?_, hid⟩
    apply conclude_eq_ok.mpr
    refine ⟨bundle, rfl, rfl, importBundle_eq_ok.mpr ⟨?_, hverify, hdisk⟩⟩
    rw [hid]
    exact hroom

/--
A fetch succeeds whenever somebody serves the object, just when it need not ask, or the first bundle
that it is answered will do.
-/
theorem offered_imp_fetchYields_iff :
    (Offered env w id source → FetchYields env w id source) ↔
      (Offered env w id source → (∃ object, w.storage.getVerified id = .ok object) ∨
        Takes env w id source) := by
  apply imp_congr_right
  intro _
  by_cases hlocal : ∃ object, w.storage.getVerified id = .ok object
  . apply iff_of_true _ (.inl hlocal)
    obtain ⟨object, hobject⟩ := hlocal
    refine ⟨object, ?_, Storage.id_of_getVerified hobject⟩
    unfold fetchObject
    rw [exec_bind_ok (Prog.exec_attempt _ env w), exec_getVerified, hobject]
    rfl
  . rw [or_iff_right hlocal]
    exact fetchYields_iff_takes (not_exists.mp hlocal)

end Offers

end Runtime

end Canopee

namespace Canopee.Runtime

open Canopee.Compact
open Prog (exec)

section Counterexample

/--
Two connected peers: the first answers Alice's object with another signature, the second the object.
-/
def oneLiar : Env :=
  { Env.quiet 0 with
    peers := fun _ => .ok [⟨"bb"⟩, ⟨"cc"⟩]
    exchange := fun _ peer _ => .ok (.object ⟨1,
      if peer = ⟨"bb"⟩ then { alicePublic with signature := [] } else alicePublic⟩) }

theorem fetchObject_oneLiar :
    alicePublic ∈ ((exec (offers alicePublic.id none) oneLiar (fresh mallory laptop)).1.toOption.getD
        []).map (·.object) ∧ alicePublic.verify = true ∧
      (exec (fetchObject alicePublic.id none) oneLiar (fresh mallory laptop)).1.isOk = false := by
  decide +kernel

/--
The bad answer of one peer keeps a fetch from the object that the other peer serves.
-/
theorem not_offered_imp_fetchYields :
    ¬ ∀ (env : Env) (w : Runtime) (id : ObjectId) (source : Option PeerId),
      Offered env w id source → FetchYields env w id source := by
  obtain ⟨hoffered, hverify, hfails⟩ := fetchObject_oneLiar
  intro h
  have hyields := h oneLiar (fresh mallory laptop) alicePublic.id none
  unfold Offered FetchYields at hyields
  revert hoffered hverify hfails hyields
  generalize alicePublic = object
  generalize oneLiar = env
  generalize fresh mallory laptop = w
  intro hoffered hverify hfails hyields
  cases hoffers : (exec (offers object.id none) env w).1 with
  | error e =>
    rw [hoffers] at hoffered
    simp [Except.toOption] at hoffered
  | ok bundles =>
    rw [hoffers] at hoffered
    obtain ⟨bundle, hbundle, hobject⟩ := List.mem_map.mp hoffered
    obtain ⟨fetched, hfetched, _⟩ := hyields ⟨bundles, hoffers, bundle, hbundle,
      by rw [hobject], by rw [hobject]; exact hverify⟩
    rw [hfetched] at hfails
    cases hfails

end Counterexample

end Canopee.Runtime
