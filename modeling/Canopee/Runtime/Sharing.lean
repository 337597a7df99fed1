import Canopee.Runtime.Records
import Mathlib.Data.List.Dedup

/-!
This module contains the sharing methods of the runtime: the home index, the flags in it that put an
object on the network, and the deletion of objects.
-/

namespace Canopee

open Primitives

variable [Primitives]

namespace Runtime

/--
`Runtime::load_home_index`
-/
def loadHomeIndex : RunM (Option HomeIndex) :=
  loadOwnRecord HomeIndex.codec RECORD_HOME

def sharedIds : Option HomeIndex → List ObjectId
  | none => []
  | some index => ((index.entries.filter (·.shared)).map (·.object)).dedup

/--
Serve and announce `ids`; the announcement is a task of its own.
-/
def shareAll : List ObjectId → RunM Unit
  | [] => pure ()
  | id :: ids => do
    insertShared id
    let _ ← Prog.attempt (announceProvider id)
    shareAll ids

def unshareAll : List ObjectId → RunM Unit
  | [] => pure ()
  | id :: ids => do
    removeShared id
    let _ ← Prog.attempt (unannounce id)
    unshareAll ids

/--
`Runtime::reconcile_shared`
-/
def reconcileShared (previous current : Option HomeIndex) : RunM Unit := do
  let before := sharedIds previous
  let after := sharedIds current
  shareAll (after.filter fun id => id ∉ before)
  unshareAll (before.filter fun id => id ∉ after)

/--
`Runtime::save_home_index`
-/
def saveHomeIndex (index : HomeIndex) : RunM ObjectId := do
  let previous ← loadHomeIndex
  let index := { index with version := nextVersion (previous.map HomeIndex.version) }
  let time ← now
  let w ← get
  let id ← publishObject RECORD_HOME (index.toObject w.identity time)
  reconcileShared previous (some index)
  pure id

/--
`Runtime::publish_entry_pointer`
-/
def publishEntryPointer (name : String) (id : ObjectId) : RunM Unit := do
  let _ ← Prog.attempt (publishPointer ("entry:" ++ name) id)
  pure ()

/--
The first entry of that name with its flag set, and the object that it refers to.
-/
def setShared (name : String) (shared : Bool) :
    List HomeEntry → Option (List HomeEntry × ObjectId)
  | [] => none
  | entry :: entries =>
    if entry.name = name then
      some ({ entry with shared := shared } :: entries, entry.object)
    else
      (setShared name shared entries).map fun (entries, object) => (entry :: entries, object)

/--
The first part of `set_home_entry_shared`: the index that it read.
-/
def setHomeEntrySharedLoad : RunM HomeIndex := do
  let index ← loadHomeIndex
  ofOption "no home index yet — save one before sharing entries" index

/--
The rest of `set_home_entry_shared`: the changed index is published.
-/
def setHomeEntrySharedPublish (name : String) (shared : Bool) (index : HomeIndex) :
    RunM ObjectId := do
  let (entries, object) ← ofOption ("no home entry named " ++ name)
    (setShared name shared index.entries)
  let id ← saveHomeIndex { index with entries := entries }
  if shared then
    publishEntryPointer name object
    pure id
  else
    pure id

/--
`Runtime::set_home_entry_shared`
-/
def setHomeEntryShared (name : String) (shared : Bool) : RunM ObjectId := do
  let index ← setHomeEntrySharedLoad
  setHomeEntrySharedPublish name shared index

/--
The first entry of that name now refers to `id` and is shared; a new one is added when there is none.
-/
def upsertShared (name : String) (id : ObjectId) (objectType : ObjectType) (app : Option String) :
    List HomeEntry → List HomeEntry
  | [] => [{ name := name, object := id, objectType := objectType, shared := true, app := app }]
  | entry :: entries =>
    if entry.name = name then
      { entry with object := id, objectType := objectType, shared := true, app := app } :: entries
    else
      entry :: upsertShared name id objectType app entries

/--
The copy of `object` that is shared: the object itself, or one that `recipients` can open.
-/
def copyFor (object : Object) (recipients : List Key32) : RunM ObjectId :=
  if recipients.isEmpty then
    pure object.id
  else do
    let opened ← openObject object
    let sealed ← putObjectFor opened.payload.data object.objectType none recipients
    pure sealed.id

/--
The first part of `share_object_for`: the copy to share, and the index that it read.
-/
def shareObjectForLoad (id : ObjectId) (recipients : List Key32) :
    RunM (ObjectId × ObjectType × HomeIndex) := do
  let object ← getVerified id
  let sharedId ← copyFor object recipients
  let index ← loadHomeIndex
  pure (sharedId, object.objectType, index.getD HomeIndex.empty)

/--
The rest of `share_object_for`: the changed index is published.
-/
def shareObjectForPublish (name : String) (app : Option String)
    (loaded : ObjectId × ObjectType × HomeIndex) : RunM ObjectId := do
  let (sharedId, objectType, index) := loaded
  let id ← saveHomeIndex { index with
    entries := upsertShared name sharedId objectType app index.entries }
  publishEntryPointer name sharedId
  pure id

/--
`Runtime::share_object_for`
-/
def shareObjectFor (name : String) (id : ObjectId) (app : Option String)
    (recipients : List Key32) : RunM ObjectId := do
  let loaded ← shareObjectForLoad id recipients
  shareObjectForPublish name app loaded

/--
`entries` without the first one that refers to `id`.
-/
def removeEntry (id : ObjectId) : List HomeEntry → Option (List HomeEntry)
  | [] => none
  | entry :: entries =>
    if entry.object = id then some entries else (removeEntry id entries).map (entry :: ·)

/--
The part of `delete_object` that takes the object out of the home index.
-/
def removeFromHome (id : ObjectId) : Option HomeIndex → RunM Unit
  | none => pure ()
  | some index =>
    if index.profile = some id ∨ index.contacts = some id then
      throw "profile and contact records cannot be deleted here"
    else
      match removeEntry id index.entries with
      | none => pure ()
      | some entries => do
        let _ ← saveHomeIndex { index with entries := entries }
        pure ()

/--
The part of `delete_object` that evicts the home index of before.
-/
def evictOldHome (id : ObjectId) : Option AppPointerRecord → RunM Unit
  | none => pure ()
  | some record =>
    if record.manifest = id then
      pure ()
    else do
      let _ ← Prog.attempt (evict record.manifest)
      pure ()

/--
`Runtime::delete_object`
-/
def deleteObject (id : ObjectId) : RunM Unit := do
  let object ← getVerified id
  let owned ← isOwned object
  if !owned then
    throw "only objects owned by this identity can be deleted"
  else if object.objectType ≠ .blob ∧ object.objectType ≠ .appManifest then
    throw "system records cannot be deleted"
  else
    let w ← get
    let oldHome ← resolvePointer w.identity.id RECORD_HOME
    let home ← loadHomeIndex
    removeFromHome id home
    evict id
    evictOldHome id oldHome

end Runtime

end Canopee
