import Canopee.Gateway.Views
import Canopee.Lib.Base64

/-!
This module contains that nothing is lost in the views of a gateway: whatever is turned into a view is
read back from it.
-/

namespace Canopee

namespace Gateway

section General

variable {ε α β : Type} {write : α → β} {read : β → Except ε α}

/--
What is written is read back.
-/
structure Recovers (write : α → β) (read : β → Except ε α) : Prop where
  read_write : ∀ a, read (write a) = .ok a

/--
What was read, from whatever text, is read again when it is written.
-/
structure Settles (write : α → β) (read : β → Except ε α) : Prop where
  read_again : ∀ b a, read b = .ok a → read (write a) = .ok a

theorem Recovers.settles (h : Recovers write read) : Settles write read where
  read_again _ a _ := h.read_write a

theorem Recovers.mapM (h : Recovers write read) : Recovers (List.map write) (List.mapM read) where
  read_write list := by
    induction list with
    | nil => rfl
    | cons a list ih =>
      rw [List.map_cons, List.mapM_cons, h.read_write, ih]
      rfl

theorem map_map_id {f : α → β} {g : β → α} (h : ∀ a, g (f a) = a) (o : Option α) :
    (o.map f).map g = o := by
  cases o with
  | none => rfl
  | some a => simp [h]

end General

section Views

variable {b64 : Base64Engine}

theorem recovers_objectType : Recovers debugName parseObjectType where
  read_write t := by
    cases t with
    | blob => rfl
    | appManifest => rfl
    | appPointer => rfl
    | profile => rfl
    | contactList => rfl
    | homeIndex => rfl
    | capability => rfl
    | capabilityIndex => rfl

theorem decodeKey_encode (h : ∀ bytes, b64.decode (b64.encode bytes) = .ok bytes) (key : Key32) :
    decodeKey b64 (b64.encode key.toList) = .ok key := by
  unfold decodeKey
  rw [h]
  exact dif_pos key.toList_length

theorem recovers_object (h : ∀ bytes, b64.decode (b64.encode bytes) = .ok bytes) :
    Recovers (ObjectView.ofObject b64) (ObjectView.reconstruct b64) where
  read_write o := by
    unfold ObjectView.reconstruct ObjectView.ofObject ObjectView.fromParts
    rw [recovers_objectType.read_write, h, h, h]
    rfl

theorem recovers_profile (h : ∀ bytes, b64.decode (b64.encode bytes) = .ok bytes) :
    Recovers (ProfileView.ofProfile b64) (ProfileView.toProfile b64) where
  read_write p := by
    unfold ProfileView.toProfile ProfileView.ofProfile
    rw [decodeKey_encode h, map_map_id fun _ => rfl]
    rfl

theorem recovers_contact (h : ∀ bytes, b64.decode (b64.encode bytes) = .ok bytes) :
    Recovers (ContactView.ofContact b64) (ContactView.toContact b64) where
  read_write c := by
    unfold ContactView.toContact ContactView.ofContact
    rw [decodeKey_encode h]
    rfl

theorem recovers_contactList (h : ∀ bytes, b64.decode (b64.encode bytes) = .ok bytes) :
    Recovers (ContactListView.ofContactList b64) (ContactListView.toContactList b64) where
  read_write list := by
    unfold ContactListView.toContactList ContactListView.ofContactList
    rw [(recovers_contact h).mapM.read_write]
    rfl

theorem recovers_entry : Recovers HomeEntryView.ofEntry HomeEntryView.toEntry where
  read_write e := by
    unfold HomeEntryView.toEntry HomeEntryView.ofEntry
    rw [recovers_objectType.read_write]
    rfl

theorem recovers_homeIndex : Recovers HomeIndexView.ofHomeIndex HomeIndexView.toHomeIndex where
  read_write index := by
    unfold HomeIndexView.toHomeIndex HomeIndexView.ofHomeIndex
    rw [recovers_entry.mapM.read_write, map_map_id fun _ => rfl, map_map_id fun _ => rfl]
    rfl

variable [Primitives]

/--
The views lose nothing of what they are made from, and reading one settles what it stands for.
-/
structure LosesNothing (b64 : Base64Engine) : Prop where
  object : Recovers (ObjectView.ofObject b64) (ObjectView.reconstruct b64)
  verified : ∀ o o', (ObjectView.ofObject b64 o).reconstruct b64 = .ok o' → o'.verify = o.verify
  profile : Recovers (ProfileView.ofProfile b64) (ProfileView.toProfile b64)
  contactList : Recovers (ContactListView.ofContactList b64) (ContactListView.toContactList b64)
  homeIndex : Recovers HomeIndexView.ofHomeIndex HomeIndexView.toHomeIndex
  objectSettles : Settles (ObjectView.ofObject b64) (ObjectView.reconstruct b64)
  profileSettles : Settles (ProfileView.ofProfile b64) (ProfileView.toProfile b64)
  contactListSettles : Settles (ContactListView.ofContactList b64) (ContactListView.toContactList b64)
  homeIndexSettles : Settles HomeIndexView.ofHomeIndex HomeIndexView.toHomeIndex
  objectType : Recovers debugName parseObjectType

theorem losesNothing (h : ∀ bytes, b64.decode (b64.encode bytes) = .ok bytes) : LosesNothing b64 where
  object := recovers_object h
  verified o o' hread := by
    rw [(recovers_object h).read_write] at hread
    cases hread
    rfl
  profile := recovers_profile h
  contactList := recovers_contactList h
  homeIndex := recovers_homeIndex
  objectSettles := (recovers_object h).settles
  profileSettles := (recovers_profile h).settles
  contactListSettles := (recovers_contactList h).settles
  homeIndexSettles := recovers_homeIndex.settles
  objectType := recovers_objectType

end Views

/--
Base64 with the standard alphabet.
-/
def standardEngine : Base64Engine where
  encode bytes := String.ofList (Base64.encode bytes)
  decode s :=
    match Base64.decode s.toList with
    | some bytes => .ok bytes
    | none => .error "Invalid input"

open Canopee.Compact in
theorem losesNothing_standard : LosesNothing standardEngine := by
  apply losesNothing
  intro bytes
  unfold standardEngine
  dsimp only
  rw [String.toList_ofList, Base64.decode_encode]

end Gateway

end Canopee
