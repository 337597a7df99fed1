import Canopee.Runtime.Pairing

/-!
This module contains the maintenance of a node: the sweep that keeps the cached objects of others
under a cap, and the replacement of the identity key.
-/

namespace Canopee

variable [Primitives]

namespace Runtime

section Sweep

/--
`CacheIndex::total_cached_bytes`
-/
def totalCachedBytes (storage : Storage) : List String → UInt64
  | [] => 0
  | id :: ids =>
    match storage.getVerified ⟨id⟩ with
    | .ok object => object.payload.metadata.size + totalCachedBytes storage ids
    | .error _ => totalCachedBytes storage ids

def cachedBytes (w : Runtime) : UInt64 :=
  totalCachedBytes w.storage w.cache.keys

/--
`CacheIndex::lru_cached_objects`, for an index that yields its ids in this order.
-/
def lruCachedObjects (w : Runtime) (ids : List String) : List Object :=
  let entries := ids.filterMap fun id => (w.cache.lookup id).map fun time => (id, time)
  (entries.insertionSort fun a b => a.2 ≤ b.2).filterMap fun entry =>
    (w.storage.getVerified ⟨entry.1⟩).toOption

/--
`Runtime::lru_cached`
-/
def lruCached : RunM (List Object) := do
  let t ← nextTick
  let env ← read
  let w ← get
  pure (lruCachedObjects w (env.iteration t w.cache.keys))

/--
The loop of `evict_if_over_cap`. Every round but the last takes an id out of the cache index.
-/
def evictWhileOver (cap : UInt64) : Nat → RunM Unit
  | 0 => pure ()
  | rounds + 1 => do
    let w ← get
    if cachedBytes w ≤ cap then
      pure ()
    else
      match ← lruCached with
      | [] => pure ()
      | object :: _ =>
        match ← Prog.attempt (evict object.id) with
        | .ok _ => evictWhileOver cap rounds
        | .error _ => pure ()

/--
`evict_if_over_cap`
-/
def evictIfOverCap (cap : UInt64) : RunM Unit := do
  let w ← get
  evictWhileOver cap (w.cache.keys.length + 1)

end Sweep

section Keys

/--
`Identity::import_from_encrypted`
-/
def importFromEncrypted (bytes : Bytes) (passphrase : String) : Except String Identity :=
  match AtRest.decryptKeyEnvelope bytes (Codec.utf8 passphrase) with
  | .error e => .error e
  | .ok plaintext =>
    match Identity.importBytes plaintext with
    | none => .error "decrypted identity is not a valid keypair"
    | some identity => .ok identity

/--
`Runtime::import_identity`
-/
def importIdentity (bytes : Bytes) (transferPassphrase : String) (overwrite : Bool) :
    RunM IdentityId := do
  let imported ← ofExcept (importFromEncrypted bytes transferPassphrase)
  let w ← get
  if imported.id = w.identity.id then
    pure w.identity.id
  else if w.keyFile.isSome ∧ overwrite = false then
    throw "an identity already exists; pass `overwrite: true` to replace it"
  else
    setIdentityKey imported
    pure imported.id

end Keys

end Runtime

end Canopee
