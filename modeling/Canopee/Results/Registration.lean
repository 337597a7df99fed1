import Canopee.Results.DeviceVersions
import Canopee.Results.Household

/-!
This module contains what the merge of device lists and the registration of a device keep of the
entries that are known.
-/

namespace Canopee

open Primitives
open Canopee.Runtime
open Prog (exec exec_bind_ok exec_bind_eq_ok)

variable [Primitives]

namespace Runtime

section Merge

theorem mergeEntries_eq (devices : List DeviceEntry) {remote : List DeviceEntry}
    (h : (remote.map (·.deviceId)).Nodup) : mergeEntries devices remote =
      devices ++ remote.filter fun entry => ! devices.any (·.deviceId == entry.deviceId) := by
  induction remote generalizing devices with
  | nil => simp [mergeEntries]
  | cons first remote ih =>
    rw [List.map_cons, List.nodup_cons] at h
    rw [mergeEntries]
    split
    . next hknown =>
      rw [ih devices h.2, List.filter_cons_of_neg (by simpa using hknown)]
    . next hnew =>
      rw [ih _ h.2, List.filter_cons_of_pos (by simpa using hnew), List.append_assoc,
        List.singleton_append]
      -- no further entry of the remote list has the id that was just added
      have hrest : ∀ entry ∈ remote, ((devices ++ [first]).any (·.deviceId == entry.deviceId)) =
          devices.any (·.deviceId == entry.deviceId) := by
        intro entry hentry
        have hne : first.deviceId ≠ entry.deviceId := by
          intro heq
          apply h.1
          rw [heq]
          exact List.mem_map_of_mem hentry
        simp [hne]
      congr 2
      apply List.filter_congr
      intro entry hentry
      rw [hrest entry hentry]

/--
The entries of the remote list, if there is one, whose devices the local list does not have.
-/
def newEntries (devices : List DeviceEntry) (remote : Option DeviceList) : List DeviceEntry :=
  (remote.elim [] DeviceList.devices).filter fun entry =>
    ! devices.any (·.deviceId == entry.deviceId)

theorem mergeLists_eq (list : DeviceList) {remote : Option DeviceList}
    (h : ∀ r, remote = some r → r.ids.Nodup) :
    (mergeLists list remote).devices = list.devices ++ newEntries list.devices remote := by
  cases remote with
  | none => simp [mergeLists, newEntries]
  | some remote => exact mergeEntries_eq list.devices (h remote rfl)

theorem nodup_merged {list : DeviceList} {remote : Option DeviceList} (hlist : list.ids.Nodup)
    (h : ∀ r, remote = some r → r.ids.Nodup) : (mergeLists list remote).ids.Nodup := by
  rw [DeviceList.ids, mergeLists_eq list h, List.map_append, List.nodup_append]
  refine ⟨hlist, ?_, ?_⟩
  . cases remote with
    | none => exact List.nodup_nil
    | some remote =>
      exact (h remote rfl).sublist (List.filter_sublist.map _)
  . intro id hid other hother heq
    subst heq
    obtain ⟨entry, hentry, rfl⟩ := List.mem_map.mp hother
    obtain ⟨known, hknown, hsame⟩ := List.mem_map.mp hid
    have hnew := (List.mem_filter.mp hentry).2
    have hany : list.devices.any (·.deviceId == entry.deviceId) = true :=
      List.any_eq_true.mpr ⟨known, hknown, by simp [hsame]⟩
    rw [hany] at hnew
    cases hnew

end Merge

section Registration

/--
`saved` is `merged` with one entry for the device, under the name and with the time that was known.
-/
def Enters (deviceId deviceName : String) (merged saved : List DeviceEntry) : Prop :=
  ∃ before entry after, saved = before ++ entry :: after ∧
    entry.deviceId = deviceId ∧ entry.deviceName = deviceName ∧
    (∀ other ∈ before ++ after, other.deviceId ≠ deviceId) ∧
    ((∃ old, merged = before ++ old :: after ∧ old.deviceId = deviceId ∧
        ∀ time, old.addedAt = some time → entry.addedAt = some time) ∨
      merged = before ∧ after = [])

theorem enters_refreshEntry {deviceId : String} (deviceName : String) (time : OffsetDateTime)
    {entries : List DeviceEntry} (hnodup : (entries.map (·.deviceId)).Nodup)
    (hmem : deviceId ∈ entries.map (·.deviceId)) :
    Enters deviceId deviceName entries (refreshEntry deviceId deviceName time entries) := by
  induction entries with
  | nil => exact absurd hmem List.not_mem_nil
  | cons first entries ih =>
    rw [List.map_cons, List.nodup_cons] at hnodup
    rw [refreshEntry]
    split
    . next hfirst =>
      refine ⟨[], _, entries, rfl, hfirst, rfl, ?_, .inl ⟨first, rfl, hfirst, ?_⟩⟩
      . intro other hother heq
        apply hnodup.1
        rw [hfirst, ← heq]
        exact List.mem_map_of_mem (by simpa using hother)
      . intro known hknown
        simp [hknown]
    . next hfirst =>
      rw [List.map_cons, List.mem_cons] at hmem
      obtain ⟨before, entry, after, heq, hid, hname, hothers, hold⟩ :=
        ih hnodup.2 (hmem.resolve_left (Ne.symm hfirst))
      refine ⟨first :: before, entry, after, by rw [heq]; rfl, hid, hname, ?_, ?_⟩
      . rw [List.cons_append, List.forall_mem_cons]
        exact ⟨hfirst, hothers⟩
      . cases hold with
        | inl hold =>
          obtain ⟨old, hentries, hrest⟩ := hold
          exact .inl ⟨old, by rw [hentries]; rfl, hrest⟩
        | inr hnone =>
          exact .inr ⟨by rw [hnone.1], hnone.2⟩

theorem enters_withDevice {merged : DeviceList} (deviceId deviceName : String)
    (time : OffsetDateTime) (hnodup : merged.ids.Nodup) :
    Enters deviceId deviceName merged.devices
      (withDevice merged deviceId deviceName time).devices := by
  unfold withDevice
  split
  . next hknown =>
    obtain ⟨entry, hentry, hid⟩ := List.any_eq_true.mp hknown
    apply enters_refreshEntry deviceName time hnodup
    rw [← eq_of_beq hid]
    exact List.mem_map_of_mem hentry
  . next hnew =>
    refine ⟨merged.devices, _, [], rfl, rfl, rfl, ?_, .inr ⟨rfl, rfl⟩⟩
    intro other hother heq
    apply hnew
    exact List.any_eq_true.mpr ⟨other, by simpa using hother, by simp [heq]⟩

/--
The lists of which the ids are distinct are merged into the local entries and what is new of the
remote ones, and a device that is added has one entry in what is published.
-/
theorem merge_registers (laws : SignatureLaws) (hash : CollisionFree) (env : Env) (w : Runtime)
    (hlocal : (localList env w).ids.Nodup)
    (hremote : ∀ answer remote, Freshest env w answer remote → remote.ids.Nodup) :
    (∀ merged, (exec loadDeviceListMerged env w).1 = .ok merged →
      ∃ best, (∀ remote, best = some remote ↔ ∃ answer, Freshest env w answer remote) ∧
        merged.devices =
          (localList env w).devices ++ newEntries (localList env w).devices best ∧
        merged.ids.Nodup) ∧
    ∀ deviceId deviceName list, (exec (addDevice deviceId deviceName) env w).1 = .ok list →
      ∃ merged saved, (exec loadDeviceListMerged env w).1 = .ok merged ∧
        Records DeviceList.codec RECORD_DEVICES saved
          (exec (addDevice deviceId deviceName) env w).2 ∧
        saved.devices = list.devices ∧ Enters deviceId deviceName merged.devices saved.devices := by
  have hmerges : ∀ merged, (exec loadDeviceListMerged env w).1 = .ok merged →
      ∃ best, (∀ remote, best = some remote ↔ ∃ answer, Freshest env w answer remote) ∧
        merged.devices =
          (localList env w).devices ++ newEntries (localList env w).devices best ∧
        merged.ids.Nodup := by
    intro merged hmerged
    obtain ⟨best, rfl, hbest⟩ := loadDeviceListMerged_eq_ok hmerged
    have hids : ∀ r, best = some r → r.ids.Nodup := by
      intro r hr
      obtain ⟨answer, hanswer⟩ := (hbest r).mp hr
      exact hremote answer r hanswer
    exact ⟨best, hbest, mergeLists_eq _ hids, nodup_merged hlocal hids⟩
  refine ⟨hmerges, ?_⟩
  intro deviceId deviceName list hlist
  have hexec : exec (addDevice deviceId deviceName) env w =
      (.ok list, (exec (addDevice deviceId deviceName) env w).2) := Prod.ext hlist rfl
  have hperform : exec (DeviceOp.add deviceId deviceName).perform env w =
      (.ok (some list), (exec (addDevice deviceId deviceName) env w).2) := by
    unfold DeviceOp.perform
    rw [exec_bind_ok hexec]
    rfl
  obtain ⟨_, saved, _, hrecords, hsaved, _⟩ :=
    DeviceOp.perform_advances_iff laws hash (congrArg Prod.fst hperform)
  rw [hperform] at hrecords
  obtain ⟨merged, time, hmerged, rfl⟩ := addDevice_eq_ok hlist
  obtain ⟨_, _, _, hnodup⟩ := hmerges merged hmerged
  refine ⟨merged, saved, hmerged, hrecords, hsaved, ?_⟩
  rw [hsaved]
  exact enters_withDevice deviceId deviceName time hnodup

end Registration

end Runtime

end Canopee

namespace Canopee.Runtime

open Canopee.Transparent
open Prog (exec)

def desktopList : DeviceList where
  devices := [⟨"bb", "desktop", none⟩, ⟨"cc", "phone", none⟩]
  version := 5

def desktopObject : Object where
  id := ⟨"00"⟩
  payload := {
    owner := alice.id
    metadata := { createdAt := 0, size := 0, contentType := none }
    objectType := .profile
    data := DeviceList.codec.serialize desktopList
  }
  publicKey := []
  signature := []

/--
The DHT has a pointer of Alice's, and the connected peer answers with a list of two devices.
-/
def desktop : Env :=
  { answering desktopObject with
    record := fun _ _ =>
      .ok (some (AppPointerRecord.codec.serialize (.sign alice 3 RECORD_DEVICES ⟨"00"⟩))) }

theorem ids_nodup_desktop {answer : ObjectId × ExportBundle} {remote : DeviceList}
    (h : Freshest desktop (fresh alice laptop) answer remote) : remote.ids.Nodup := by
  have hall : (listAnswers desktop (fresh alice laptop)).all (fun answer =>
      (listIn alice.id answer).all fun remote => decide remote.ids.Nodup) = true := by
    decide +kernel
  have hanswer := List.all_eq_true.mp hall answer h.mem
  rw [show listIn alice.id answer = some remote from h.value_eq] at hanswer
  simpa using hanswer

theorem merge_registers_desktop :
    (∀ merged, (exec loadDeviceListMerged desktop (fresh alice laptop)).1 = .ok merged →
      ∃ best, (∀ remote, best = some remote ↔
          ∃ answer, Freshest desktop (fresh alice laptop) answer remote) ∧
        merged.devices = (localList desktop (fresh alice laptop)).devices ++
          newEntries (localList desktop (fresh alice laptop)).devices best ∧
        merged.ids.Nodup) ∧
    ∀ deviceId deviceName list,
      (exec (addDevice deviceId deviceName) desktop (fresh alice laptop)).1 = .ok list →
      ∃ merged saved, (exec loadDeviceListMerged desktop (fresh alice laptop)).1 = .ok merged ∧
        Records DeviceList.codec RECORD_DEVICES saved
          (exec (addDevice deviceId deviceName) desktop (fresh alice laptop)).2 ∧
        saved.devices = list.devices ∧ Enters deviceId deviceName merged.devices saved.devices :=
  merge_registers signatureLaws collisionFree desktop (fresh alice laptop) (by decide +kernel)
    fun _ _ h => ids_nodup_desktop h

end Canopee.Runtime
