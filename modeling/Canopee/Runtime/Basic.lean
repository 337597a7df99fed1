import Canopee.Identity.AtRest
import Canopee.Lib.Prog
import Canopee.Storage.Pointer
import Canopee.Storage.Store
import Mathlib.Data.Finset.Basic

/-!
This module contains the state of a node, the environment it runs in and the operations on its disk.
Every contact with the environment takes one tick, so an environment fixes, tick by tick, the clock,
the failing writes, the random bytes, the directory order and everything that peers do.
-/

namespace Canopee

open Primitives

variable [Primitives]

inductive ObjectRequest where
  | getObject (id : ObjectId)
  | store (bundle : ExportBundle)

inductive ObjectResponse where
  | object (bundle : ExportBundle)
  | notFound
  | stored
  | storeFailed (why : String)

/--
How a write fails: before it touches the file, or after `n` bytes.
-/
inductive WriteFault where
  | refused
  | torn (n : Nat)

structure Env where
  -- unix seconds
  clock : Nat → Int
  fault : Nat → Option WriteFault
  random : Nat → Envelope.Random
  -- `read_dir` on a directory with these file names
  listing : Nat → List String → Option (List String)
  listing_perm : ∀ t names listed, listing t names = some listed → listed.Perm names
  -- a hash map with these keys, iterated
  iteration : Nat → List String → List String
  iteration_perm : ∀ t keys, (iteration t keys).Perm keys
  -- the connected peers
  peers : Nat → Except String (List PeerId)
  -- what a peer answers, or the failure of the request
  exchange : Nat → PeerId → ObjectRequest → Except String ObjectResponse
  -- the DHT providers of an object
  providers : Nat → ObjectId → Except String (List PeerId)
  -- the DHT record under a key
  record : Nat → Bytes → Except String (Option Bytes)
  -- the event loop still takes commands
  accepts : Nat → Bool
  -- the requests of peers that are handled at a tick
  inbound : Nat → List ObjectRequest
  -- `CANOPEE_IDENTITY_PASS`
  passphrase : Option String

/--
An environment in which time stands still, writes succeed and nobody is there.
-/
def Env.quiet (time : Int) : Env where
  clock _ := time
  fault _ := none
  random _ _ n := List.Vector.replicate n 9
  listing _ names := some names
  listing_perm := by
    intro t names listed h
    simp only [Option.some.injEq] at h
    rw [h]
  iteration _ keys := keys
  iteration_perm _ keys := .refl keys
  peers _ := .ok []
  exchange _ _ _ := .error "dial failure"
  providers _ _ := .ok []
  record _ _ := .ok none
  accepts _ := true
  inbound _ := []
  passphrase := none

structure DeviceKey where
  peerId : PeerId
  deviceName : String

def laptop : DeviceKey where
  peerId := ⟨"aa"⟩
  deviceName := "laptop"

structure OwnPairing where
  sessionId : String
  code : String

/--
What a node does that others can see.
-/
inductive NetEvent where
  | asked (peer : PeerId) (id : ObjectId) (answer : Except String ExportBundle)
  | replicated (bundle : ExportBundle)
  | putRecord (key value : Bytes)
  | announced (id : ObjectId)
  | unannounced (id : ObjectId)

abbrev CacheIndex := AList fun _ : String => UInt64

structure Runtime where
  identity : Identity
  deviceKey : DeviceKey
  storage : Storage
  -- the record cache, by file name
  records : Files
  cache : CacheIndex
  -- the cache index as last persisted
  sidecar : CacheIndex
  shared : Finset String
  pairing : Option OwnPairing
  -- `identity.key`
  keyFile : Option Bytes
  -- the `identity.key.bak-*` files
  backups : Files
  tick : Nat
  -- oldest first
  trace : List NetEvent

/--
A runtime method: it may fail and leaves behind whatever it did until then.
-/
abbrev RunM := Prog Env String Runtime

namespace Runtime

/--
A node that starts on an empty disk with a new identity.
-/
def fresh (identity : Identity) (deviceKey : DeviceKey) : Runtime where
  identity := identity
  deviceKey := deviceKey
  storage := Storage.empty
  records := ∅
  cache := ∅
  sidecar := ∅
  shared := ∅
  pairing := none
  keyFile := some identity.exportBytes
  backups := ∅
  tick := 0
  trace := []

def storeObject (object : Object) (w : Runtime) : Runtime :=
  { w with storage := w.storage.write object }

def eraseObject (id : ObjectId) (w : Runtime) : Runtime :=
  { w with storage := w.storage.erase id }

def storeName (id : ObjectId) (name : String) (w : Runtime) : Runtime :=
  { w with storage := { w.storage with names := w.storage.names.insert id.text name } }

def storeRecord (name : String) (bytes : Bytes) (w : Runtime) : Runtime :=
  { w with records := w.records.insert name bytes }

def log (event : NetEvent) (w : Runtime) : Runtime :=
  { w with trace := w.trace ++ [event] }

/--
The file of a record in the record cache.
-/
def recordFile (key : Bytes) : String :=
  Codec.hex key ++ ".record"

omit [Primitives] in
theorem recordFile_inj {k l : Bytes} : recordFile k = recordFile l ↔ k = l := by
  unfold recordFile
  rw [String.append_left_inj, Codec.hex_inj]

section Effects

def nextTick : RunM Nat :=
  fun _ w => (.ok w.tick, { w with tick := w.tick + 1 })

def now : RunM Int := do
  let t ← nextTick
  let env ← read
  pure (env.clock t)

def random : RunM Envelope.Random := do
  let t ← nextTick
  let env ← read
  pure (env.random t)

/--
Write a temporary file and rename it: a failure leaves the old file.
-/
def writeAtomic (write : Runtime → Runtime) : RunM Unit := do
  let t ← nextTick
  let env ← read
  match env.fault t with
  | none => modify write
  | some _ => throw "write failed"

/--
Write a file in place: a failure may leave only the first bytes.
-/
def writeInPlace (write : Bytes → Runtime → Runtime) (bytes : Bytes) : RunM Unit := do
  let t ← nextTick
  let env ← read
  match env.fault t with
  | none => modify (write bytes)
  | some .refused => throw "write failed"
  | some (.torn n) => do
    modify (write (bytes.take n))
    throw "write failed"

/--
Turn a value that says why it is missing into a failure of the method.
-/
def ofExcept {α : Type} : Except String α → RunM α
  | .ok a => pure a
  | .error e => throw e

def ofOption {α : Type} (e : String) : Option α → RunM α
  | some a => pure a
  | none => throw e

theorem exec_nextTick (env : Env) (w : Runtime) :
    Prog.exec nextTick env w = (.ok w.tick, { w with tick := w.tick + 1 }) := rfl

theorem exec_now (env : Env) (w : Runtime) :
    Prog.exec now env w = (.ok (env.clock w.tick), { w with tick := w.tick + 1 }) := rfl

theorem exec_writeAtomic_of_none {env : Env} {w : Runtime} (h : env.fault w.tick = none)
    (write : Runtime → Runtime) :
    Prog.exec (writeAtomic write) env w = (.ok (), write { w with tick := w.tick + 1 }) := by
  unfold writeAtomic
  rw [Prog.exec_bind_ok (exec_nextTick env w), Prog.exec_bind_ok (Prog.exec_read env _), h]
  rfl

theorem exec_writeAtomic_of_some {env : Env} {w : Runtime} {fault : WriteFault}
    (h : env.fault w.tick = some fault) (write : Runtime → Runtime) :
    Prog.exec (writeAtomic write) env w =
      (.error "write failed", { w with tick := w.tick + 1 }) := by
  unfold writeAtomic
  rw [Prog.exec_bind_ok (exec_nextTick env w), Prog.exec_bind_ok (Prog.exec_read env _), h]
  rfl

theorem exec_ofExcept {α : Type} (r : Except String α) (env : Env) (w : Runtime) :
    Prog.exec (ofExcept r) env w = (r, w) := by
  cases r <;> rfl

theorem ofExcept_eq_ok {α : Type} {r : Except String α} {env : Env} {w : Runtime} {a : α} :
    (Prog.exec (ofExcept r) env w).1 = .ok a ↔ r = .ok a := by
  cases r with
  | ok b => rfl
  | error e => exact Iff.rfl

theorem ofOption_eq_ok {α : Type} {e : String} {o : Option α} {env : Env} {w : Runtime} {a : α} :
    (Prog.exec (ofOption e o) env w).1 = .ok a ↔ o = some a := by
  cases o with
  | some b => simp [ofOption]
  | none => simp [ofOption]

end Effects

section Store

/--
`Storage::put_verified`
-/
def putVerified (object : Object) : RunM Unit :=
  if !object.verify then
    throw ("Invalid signature for object " ++ object.id.text)
  else
    writeAtomic (storeObject object)

/--
`Storage::get_verified`
-/
def getVerified (id : ObjectId) : RunM Object := do
  let w ← get
  ofExcept (w.storage.getVerified id)

theorem exec_getVerified (id : ObjectId) (env : Env) (w : Runtime) :
    Prog.exec (getVerified id) env w = (w.storage.getVerified id, w) :=
  exec_ofExcept _ env w

def isHidden (filename : String) : Bool :=
  filename.toList.head? == some '.'

/--
`Storage::list`: the files that are not hidden, in the order in which the directory yields them.
-/
def list : RunM (List ObjectId) := do
  let t ← nextTick
  let env ← read
  let w ← get
  match env.listing t w.storage.files.keys with
  | none => throw "read_dir failed"
  | some names => pure ((names.filter fun name => !isHidden name).map ObjectId.mk)

/--
`Storage::set_name`
-/
def setName (id : ObjectId) (name : String) : RunM Unit :=
  writeInPlace (fun bytes => storeName id ((Codec.ofUtf8 bytes).getD "")) (Codec.utf8 name)

/--
`Storage::delete`
-/
def delete (id : ObjectId) : RunM Unit :=
  writeAtomic (eraseObject id)

end Store

section Cached

def isCached (id : ObjectId) : RunM Bool := do
  let w ← get
  pure (w.cache.lookup id.text).isSome

/--
`Cache::is_owned`
-/
def isOwned (object : Object) : RunM Bool := do
  let w ← get
  pure (object.payload.owner == w.identity.id)

theorem exec_isOwned (object : Object) (env : Env) (w : Runtime) :
    Prog.exec (isOwned object) env w = (.ok (object.payload.owner == w.identity.id), w) := rfl

def persist : RunM Unit :=
  writeAtomic fun w => { w with sidecar := w.cache }

/--
`Cache::mark_cached`
-/
def markCached (id : ObjectId) : RunM Unit := do
  let time ← now
  modify fun w => { w with cache := w.cache.insert id.text (asU64 time) }
  let _ ← Prog.attempt persist
  pure ()

/--
`Cache::touch_served`
-/
def touchServed (id : ObjectId) : RunM Unit := do
  let time ← now
  modify fun w =>
    match w.cache.lookup id.text with
    | some _ => { w with cache := w.cache.insert id.text (asU64 time) }
    | none => w

/--
`Cache::remove`
-/
def uncache (id : ObjectId) : RunM Unit := do
  modify fun w => { w with cache := w.cache.erase id.text }
  let _ ← Prog.attempt persist
  pure ()

def insertShared (id : ObjectId) : RunM Unit :=
  modify fun w => { w with shared := insert id.text w.shared }

def removeShared (id : ObjectId) : RunM Unit :=
  modify fun w => { w with shared := w.shared.erase id.text }

end Cached

section Provider

/--
`StorageObjectProvider::get_object`: what this node serves to a peer that asks.
-/
def provide (id : ObjectId) : RunM (Option ExportBundle) := do
  match ← Prog.attempt (getVerified id) with
  | .error _ => pure none
  | .ok object =>
    if ← isCached id then
      touchServed id
      pure object.export.toOption
    else
      let w ← get
      if id.text ∈ w.shared then
        pure object.export.toOption
      else
        pure none

/--
`StorageObjectProvider::put_verified`: a peer pushes an object into this node's store.
-/
def acceptPush (object : Object) : RunM Unit := do
  putVerified object
  if ← isOwned object then
    pure ()
  else
    markCached object.id

/--
The event loop's answer to a request on the object exchange protocol.
-/
def handleObjectRequest : ObjectRequest → RunM ObjectResponse
  | .getObject id => do
    match ← provide id with
    | some bundle => pure (.object bundle)
    | none => pure .notFound
  | .store bundle => do
    match ← Prog.attempt (acceptPush bundle.object) with
    | .ok _ => pure .stored
    | .error e => pure (.storeFailed e)

def handleAll : List ObjectRequest → RunM Unit
  | [] => pure ()
  | request :: requests => do
    let _ ← handleObjectRequest request
    handleAll requests

end Provider

end Runtime

end Canopee
