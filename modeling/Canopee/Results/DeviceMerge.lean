import Canopee.Results.OwnerRecords

/-!
This module contains the provenance of merged device lists: which answer the entries come from that
a node does not have yet, and exactly when they are the owner's.
-/

namespace Canopee

open Primitives
open Canopee.Runtime
open Prog (exec exec_bind_ok exec_bind_eq_ok)
open Selection (Selects)

variable [Primitives]

namespace Runtime

section Merge

theorem mem_mergeEntries {devices remote : List DeviceEntry} {entry : DeviceEntry}
    (h : entry ∈ mergeEntries devices remote) :
    entry ∈ devices ∨ entry ∈ remote ∧ devices.any (·.deviceId == entry.deviceId) = false := by
  induction remote generalizing devices with
  | nil => exact .inl h
  | cons first remote ih =>
    rw [mergeEntries] at h
    split at h
    . cases ih h with
      | inl hdevices => exact .inl hdevices
      | inr hremote => exact .inr ⟨List.mem_cons_of_mem _ hremote.1, hremote.2⟩
    . next hfirst =>
      cases ih h with
      | inl hdevices =>
        rw [List.mem_append, List.mem_singleton] at hdevices
        cases hdevices with
        | inl hdevices => exact .inl hdevices
        | inr hentry =>
          subst hentry
          exact .inr ⟨List.mem_cons_self, by simpa using hfirst⟩
      | inr hremote =>
        rw [List.any_append, Bool.or_eq_false_iff] at hremote
        exact .inr ⟨List.mem_cons_of_mem _ hremote.1, hremote.2.1⟩

theorem mem_mergeEntries_of_mem {devices : List DeviceEntry} (remote : List DeviceEntry)
    {entry : DeviceEntry} (h : entry ∈ devices) : entry ∈ mergeEntries devices remote := by
  induction remote generalizing devices with
  | nil => exact h
  | cons first remote ih =>
    rw [mergeEntries]
    split
    . exact ih h
    . exact ih (List.mem_append_left _ h)

theorem exists_mem_mergeEntries (devices : List DeviceEntry) {remote : List DeviceEntry}
    {entry : DeviceEntry} (h : entry ∈ remote) :
    ∃ merged ∈ mergeEntries devices remote, merged.deviceId = entry.deviceId := by
  induction remote generalizing devices with
  | nil => exact absurd h List.not_mem_nil
  | cons first remote ih =>
    rw [mergeEntries]
    cases List.mem_cons.mp h with
    | inl hentry =>
      subst hentry
      split
      . next hknown =>
        obtain ⟨known, hmem, hid⟩ := List.any_eq_true.mp hknown
        exact ⟨known, mem_mergeEntries_of_mem _ hmem, by simpa using hid⟩
      . exact ⟨entry, mem_mergeEntries_of_mem _ (by simp), rfl⟩
    | inr hremote =>
      split
      . exact ih _ hremote
      . exact ih _ hremote

theorem mem_withDevice_of_ne {list : DeviceList} {deviceId deviceName : String}
    {time : OffsetDateTime} {entry : DeviceEntry} (h : entry.deviceId ≠ deviceId) :
    entry ∈ (withDevice list deviceId deviceName time).devices ↔ entry ∈ list.devices := by
  unfold withDevice
  split
  . simp only
    induction list.devices with
    | nil => exact Iff.rfl
    | cons first devices ih =>
      rw [refreshEntry]
      split
      . next hfirst =>
        have hne : entry ≠ first := by
          intro heq
          exact h (heq ▸ hfirst)
        have hne' : entry ≠ { first with
            deviceName := deviceName
            addedAt := some (first.addedAt.getD time) } := by
          intro heq
          exact h (heq ▸ hfirst)
        simp [hne, hne']
      . simp [ih]
  . have hne : entry ≠ ⟨deviceId, deviceName, some time⟩ := by
      intro heq
      exact h (by rw [heq])
    simp [hne]

theorem mem_withSelf_of_ne {merged : DeviceList} {device : DeviceKey} {time : OffsetDateTime}
    {entry : DeviceEntry} (h : entry.deviceId ≠ device.peerId.base58) :
    entry ∈ (withSelf merged device time).devices ↔ entry ∈ merged.devices := by
  unfold withSelf
  split
  . exact Iff.rfl
  . have hne : entry ≠ ⟨device.peerId.base58, device.deviceName, some time⟩ := by
      intro heq
      exact h (by rw [heq])
    simp [hne]

end Merge

section Answers

/--
The list in a bundle that `fetch_freshest_device_list` takes into account: the bundle is labelled
with the owner and decodes.
-/
def listIn (owner : IdentityId) (answer : ObjectId × ExportBundle) : Option DeviceList :=
  if answer.2.object.payload.owner ≠ owner then
    none
  else
    answer.2.object.decode DeviceList.codec

/--
The bundles that come back for `requests`, each with the id that was asked for.
-/
def received (env : Env) : List (ObjectId × PeerId) → Runtime → List (ObjectId × ExportBundle)
  | [], _ => []
  | (manifest, peer) :: requests, w =>
    match exec (getObject peer manifest) env w with
    | (.ok bundle, w') => (manifest, bundle) :: received env requests w'
    | (.error _, w') => received env requests w'

theorem exec_askForLists (env : Env) (owner : IdentityId) (requests : List (ObjectId × PeerId))
    (best : Option DeviceList) (w : Runtime) :
    (exec (askForLists owner requests best) env w).1 =
      .ok ((best.toList ++ (received env requests w).filterMap (listIn owner)).argmax
        (·.version.toNat)) := by
  induction requests generalizing best w with
  | nil => cases best with
    | none => rfl
    | some current => rfl
  | cons request requests ih =>
    obtain ⟨manifest, peer⟩ := request
    rw [askForLists, exec_bind_ok (Prog.exec_attempt _ env w), received]
    generalize exec (getObject peer manifest) env w = answer
    rcases answer with ⟨e | bundle, w'⟩
    . exact ih best w'
    . simp only [ih, List.filterMap_cons, betterList, listIn]
      split
      . rfl
      . cases bundle.object.decode DeviceList.codec with
        | none => rfl
        | some list => cases best with
          | none => rfl
          | some current =>
            simp only [Option.toList_some, List.cons_append, List.nil_append,
              Selection.argmax_cons_cons, UInt64.lt_iff_toNat_lt]
            split
            . next hlt => simp [not_le.mpr hlt]
            . next hlt => simp [not_lt.mp hlt]

/--
The device list that this node starts from.
-/
def localList (env : Env) (w : Runtime) : DeviceList :=
  ((exec (loadDeviceList w.identity.id) env w).1.toOption.join).getD DeviceList.empty

/--
What peers answer to the requests of `fetch_freshest_device_list`, which follow the load of the local
list.
-/
def listAnswers (env : Env) (w : Runtime) : List (ObjectId × ExportBundle) :=
  match exec (listRequests w.identity.id) env (exec (loadDeviceList w.identity.id) env w).2 with
  | (.ok requests, w') => received env requests w'
  | (.error _, _) => []

/--
The answer with the highest version, the first one among equals, and its list.
-/
def Freshest (env : Env) (w : Runtime) (answer : ObjectId × ExportBundle) (remote : DeviceList) :
    Prop :=
  Selects (listIn w.identity.id) (·.version.toNat) (listAnswers env w) answer remote

theorem Freshest.unique {env : Env} {w : Runtime} {a b : ObjectId × ExportBundle}
    {remoteA remoteB : DeviceList} (ha : Freshest env w a remoteA) (hb : Freshest env w b remoteB) :
    a = b ∧ remoteA = remoteB := by
  have hab := Selects.unique ha hb
  refine ⟨hab, ?_⟩
  have hvalue := Selects.value_eq ha
  rw [hab, Selects.value_eq hb] at hvalue
  cases hvalue
  rfl

theorem identity_loadDeviceList (env : Env) (w : Runtime) (owner : IdentityId) :
    (exec (loadDeviceList owner) env w).2.identity = w.identity :=
  ((ingress_identity env w.identity).keeps_resolveOwnerRecord DeviceList.codec owner
    RECORD_DEVICES).state rfl

theorem fetchFreshestDeviceList_eq_some_iff {env : Env} {w : Runtime} {remote : DeviceList} :
    (exec fetchFreshestDeviceList env (exec (loadDeviceList w.identity.id) env w).2).1.toOption.join =
      some remote ↔ ∃ answer, Freshest env w answer remote := by
  unfold fetchFreshestDeviceList Freshest listAnswers
  rw [exec_bind_ok (Prog.exec_get env _), identity_loadDeviceList, Prog.exec_bind]
  generalize exec (listRequests w.identity.id) env _ = res
  rcases res with ⟨e | requests, w'⟩
  . simp [Except.toOption, Selects]
  . simp only [exec_askForLists, Option.toList_none, List.nil_append]
    exact Selection.argmax_filterMap_eq_some_iff

theorem loadDeviceListMerged_eq_ok {env : Env} {w : Runtime} {merged : DeviceList}
    (h : (exec loadDeviceListMerged env w).1 = .ok merged) :
    ∃ best, merged = mergeLists (localList env w) best ∧
      ∀ remote, best = some remote ↔ ∃ answer, Freshest env w answer remote := by
  unfold loadDeviceListMerged at h
  rw [exec_bind_ok (Prog.exec_get env w)] at h
  obtain ⟨stored, hstored, hrest⟩ := exec_bind_eq_ok h
  have hlocal : stored.getD DeviceList.empty = localList env w := by
    rw [localList, hstored]
    rfl
  have hfreshest := @fetchFreshestDeviceList_eq_some_iff _ env w
  rw [exec_bind_ok (Prog.exec_attempt _ env _), hlocal] at hrest
  generalize exec fetchFreshestDeviceList env _ = res at hrest hfreshest
  rcases res with ⟨e | best, w'⟩
  . cases hrest
    exact ⟨none, rfl, fun remote => hfreshest⟩
  . cases hrest
    exact ⟨best, rfl, fun remote => hfreshest⟩

end Answers

section Provenance

/--
The answer holds a valid object that the owner's key signed and that has the id it was asked for.
-/
structure Genuine (owner : IdentityId) (answer : ObjectId × ExportBundle) : Prop where
  verify : answer.2.object.verify = true
  signer : derives answer.2.object.publicKey owner = true
  id : answer.2.object.id = answer.1

/--
Every entry of `list` that the local list does not have is from the freshest answer, which is
genuine, or is the one that this node makes for the device `own`.
-/
def Admits (env : Env) (w : Runtime) (own : Option String) (list : DeviceList) : Prop :=
  ∀ entry ∈ list.devices, entry ∉ (localList env w).devices → own ≠ some entry.deviceId →
    ∃ answer remote, Freshest env w answer remote ∧ entry ∈ remote.devices ∧
      Genuine w.identity.id answer

/--
The freshest answer is genuine or names no device that the local list lacks, apart from `own`.
-/
def Trusts (env : Env) (w : Runtime) (own : Option String) : Prop :=
  ∀ answer remote, Freshest env w answer remote → Genuine w.identity.id answer ∨
    ∀ entry ∈ remote.devices, own = some entry.deviceId ∨
      (localList env w).hasDevice entry.deviceId = true

theorem admits_iff {env : Env} {w : Runtime} {own : Option String} {merged list : DeviceList}
    (hmerged : (exec loadDeviceListMerged env w).1 = .ok merged)
    (hlist : ∀ entry : DeviceEntry, own ≠ some entry.deviceId →
      (entry ∈ list.devices ↔ entry ∈ merged.devices)) :
    Admits env w own list ↔ Trusts env w own := by
  obtain ⟨best, hbest, hfreshest⟩ := loadDeviceListMerged_eq_ok hmerged
  subst hbest
  constructor
  . intro hadmits answer remote hanswer
    by_contra hno
    rw [not_or] at hno
    obtain ⟨hforged, hnew⟩ := hno
    simp only [not_forall, not_or] at hnew
    obtain ⟨entry, hentry, hown, hlocal⟩ := hnew
    have hremote : best = some remote := (hfreshest remote).mpr ⟨answer, hanswer⟩
    subst hremote
    obtain ⟨added, hadded, hid⟩ :=
      exists_mem_mergeEntries (localList env w).devices hentry
    have hunknown : added ∉ (localList env w).devices := by
      intro hmem
      apply hlocal
      exact List.any_eq_true.mpr ⟨added, hmem, by simp [hid]⟩
    have haddedOwn : own ≠ some added.deviceId := by
      rw [hid]
      exact hown
    obtain ⟨source, list, hsource, _, hgenuine⟩ :=
      hadmits added ((hlist added haddedOwn).mpr hadded) hunknown haddedOwn
    rw [(hsource.unique hanswer).1] at hgenuine
    exact hforged hgenuine
  . intro htrusts entry hentry hunknown hown
    rw [hlist entry hown] at hentry
    cases best with
    | none => exact absurd hentry hunknown
    | some remote =>
      obtain ⟨answer, hanswer⟩ := (hfreshest remote).mp rfl
      cases mem_mergeEntries hentry with
      | inl hmem => exact absurd hmem hunknown
      | inr hadded =>
        refine ⟨answer, remote, hanswer, hadded.1, ?_⟩
        cases htrusts answer remote hanswer with
        | inl hgenuine => exact hgenuine
        | inr hnone =>
          cases hnone entry hadded.1 with
          | inl hmine => exact absurd hmine hown
          | inr hknown => exact absurd (hknown.symm.trans hadded.2) (by simp)

theorem not_admits_of_forged {env : Env} {w : Runtime} {list : DeviceList} {deviceId : String}
    (hdevice : list.hasDevice deviceId = true)
    (hlocal : (localList env w).hasDevice deviceId = false)
    (hanswers : ∀ answer ∈ listAnswers env w, answer.2.object.verify = false) :
    ¬ Admits env w none list := by
  intro hadmits
  obtain ⟨entry, hentry, hid⟩ := List.any_eq_true.mp hdevice
  have hunknown : entry ∉ (localList env w).devices := by
    intro hmem
    have hknown : (localList env w).hasDevice deviceId = true :=
      List.any_eq_true.mpr ⟨entry, hmem, hid⟩
    rw [hlocal] at hknown
    contradiction
  obtain ⟨answer, remote, hfreshest, _, hgenuine⟩ := hadmits entry hentry hunknown (by simp)
  have hforged := hanswers answer hfreshest.mem
  rw [hgenuine.verify] at hforged
  contradiction

theorem addDevice_eq_ok {env : Env} {w : Runtime} {deviceId deviceName : String}
    {list : DeviceList} (h : (exec (addDevice deviceId deviceName) env w).1 = .ok list) :
    ∃ merged time, (exec loadDeviceListMerged env w).1 = .ok merged ∧
      list = withDevice merged deviceId deviceName time := by
  unfold addDevice at h
  obtain ⟨merged, hmerged, hrest⟩ := exec_bind_eq_ok h
  obtain ⟨time, _, hrest⟩ := exec_bind_eq_ok hrest
  dsimp only at hrest
  obtain ⟨_, _, hreturned⟩ := exec_bind_eq_ok hrest
  cases hreturned
  exact ⟨merged, dateTimeAt time, hmerged, rfl⟩

theorem reconcileDeviceList_eq_ok {env : Env} {w : Runtime} {list : DeviceList}
    (h : (exec reconcileDeviceList env w).1 = .ok (some list)) :
    ∃ merged time, (exec loadDeviceListMerged env w).1 = .ok merged ∧
      list = withSelf merged w.deviceKey time := by
  unfold reconcileDeviceList at h
  rw [exec_bind_ok (Prog.exec_get env w)] at h
  obtain ⟨merged, hmerged, hrest⟩ := exec_bind_eq_ok h
  generalize (exec loadDeviceListMerged env w).2 = w' at hrest
  obtain ⟨stored, _, hrest⟩ := exec_bind_eq_ok hrest
  obtain ⟨time, _, hrest⟩ := exec_bind_eq_ok hrest
  dsimp only at hrest
  split at hrest
  . cases hrest
  . obtain ⟨_, _, hreturned⟩ := exec_bind_eq_ok hrest
    cases hreturned
    exact ⟨merged, dateTimeAt time, hmerged, rfl⟩

/--
The device lists that this node merges, and saves after adding a device or itself, admit nothing but
the owner's entries exactly when the freshest answer to its requests can be trusted.
-/
theorem deviceList_admits_iff (env : Env) (w : Runtime) :
    (∀ list, (exec loadDeviceListMerged env w).1 = .ok list →
      (Admits env w none list ↔ Trusts env w none)) ∧
    (∀ deviceId deviceName list, (exec (addDevice deviceId deviceName) env w).1 = .ok list →
      (Admits env w (some deviceId) list ↔ Trusts env w (some deviceId))) ∧
    (∀ list, (exec reconcileDeviceList env w).1 = .ok (some list) →
      (Admits env w (some w.deviceKey.peerId.base58) list ↔
        Trusts env w (some w.deviceKey.peerId.base58))) := by
  refine ⟨?_, ?_, ?_⟩
  . intro list hlist
    exact admits_iff hlist fun _ _ => Iff.rfl
  . intro deviceId deviceName list hlist
    obtain ⟨merged, time, hmerged, rfl⟩ := addDevice_eq_ok hlist
    apply admits_iff hmerged
    intro entry hentry
    exact mem_withDevice_of_ne fun heq => hentry (by rw [heq])
  . intro list hlist
    obtain ⟨merged, time, hmerged, rfl⟩ := reconcileDeviceList_eq_ok hlist
    apply admits_iff hmerged
    intro entry hentry
    exact mem_withSelf_of_ne fun heq => hentry (by rw [heq])

end Provenance

end Runtime

end Canopee

namespace Canopee.Runtime

open Canopee.Compact
open Prog (exec)

theorem exists_eq_ok {ε α : Type} {r : Except ε α} (h : r.toOption.isSome = true) :
    ∃ a, r = .ok a := by
  cases r with
  | ok a => exact ⟨a, rfl⟩
  | error e => simp [Except.toOption] at h

theorem exists_eq_ok_some {ε α : Type} {r : Except ε (Option α)}
    (h : r.toOption.join.isSome = true) : ∃ a, r = .ok (some a) := by
  rcases r with e | a | a
  . simp [Except.toOption] at h
  . simp [Except.toOption] at h
  . exact ⟨a, rfl⟩

theorem exists_eq_ok_some_map {ε α β : Type} {r : Except ε (Option α)} {f : α → β} {b : β}
    (h : r.toOption.join.map f = some b) : ∃ a, r = .ok (some a) ∧ f a = b := by
  rcases r with e | a | a
  . simp [Except.toOption] at h
  . simp [Except.toOption] at h
  . exact ⟨a, rfl, by simpa [Except.toOption] using h⟩

def intruder : DeviceEntry where
  deviceId := "bb"
  deviceName := "intruder"
  addedAt := none

/--
A device list that is labelled with Alice and that nobody signed.
-/
def unsignedList : Object where
  id := ⟨"00"⟩
  payload := {
    owner := alice.id
    metadata := { createdAt := 0, size := 0, contentType := none }
    objectType := .profile
    data := DeviceList.codec.serialize { devices := [intruder], version := 9 }
  }
  publicKey := mallory.publicKeyBytes
  signature := []

/--
The DHT has Alice's own pointer, and the connected peer answers with that list.
-/
def forging : Env :=
  { answering unsignedList with
    record := fun _ _ =>
      .ok (some (AppPointerRecord.codec.serialize (.sign alice 3 RECORD_DEVICES ⟨"00"⟩))) }

theorem deviceList_admits_iff_forging :
    (∃ merged, Admits forging (fresh alice laptop) none merged ↔
      Trusts forging (fresh alice laptop) none) ∧
    (∃ added, Admits forging (fresh alice laptop) (some "cc") added ↔
      Trusts forging (fresh alice laptop) (some "cc")) ∧
    (∃ reconciled, Admits forging (fresh alice laptop) (some "aa") reconciled ↔
      Trusts forging (fresh alice laptop) (some "aa")) := by
  have hiff := deviceList_admits_iff forging (fresh alice laptop)
  have hmerges : (exec loadDeviceListMerged forging (fresh alice laptop)).1.toOption.isSome =
      true := by decide +kernel
  have hadds : (exec (addDevice "cc" "phone") forging (fresh alice laptop)).1.toOption.isSome =
      true := by decide +kernel
  have hreconciles : (exec reconcileDeviceList forging
      (fresh alice laptop)).1.toOption.join.isSome = true := by decide +kernel
  refine ⟨?_, ?_, ?_⟩
  . exact (exists_eq_ok hmerges).imp hiff.1
  . exact (exists_eq_ok hadds).imp (hiff.2.1 "cc" "phone")
  . exact (exists_eq_ok_some hreconciles).imp hiff.2.2

/--
The device on the unsigned list ends up on Alice's merged list.
-/
theorem loadDeviceListMerged_of_forging :
    ∃ merged, (exec loadDeviceListMerged forging (fresh alice laptop)).1 = .ok merged ∧
      merged.hasDevice "bb" = true ∧ ¬ Admits forging (fresh alice laptop) none merged := by
  have hresult : (exec loadDeviceListMerged forging (fresh alice laptop)).1.toOption.any
      (·.hasDevice "bb") = true := by decide +kernel
  have hlocal : (localList forging (fresh alice laptop)).hasDevice "bb" = false := by
    decide +kernel
  have hanswers : ∀ answer ∈ listAnswers forging (fresh alice laptop),
      answer.2.object.verify = false := by decide +kernel
  generalize exec loadDeviceListMerged forging (fresh alice laptop) = res at hresult
  rcases res with ⟨e | merged, w'⟩
  . simp [Except.toOption] at hresult
  . exact ⟨merged, rfl, hresult, not_admits_of_forged hresult hlocal hanswers⟩

end Canopee.Runtime
